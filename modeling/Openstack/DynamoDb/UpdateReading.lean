import Openstack.DynamoDb.ExpressionReading
import Openstack.DynamoDb.UpdateSemantics

/-!
# Reading printed update expressions

The search for the end of a clause passes over its actions and stops at the keyword of the next clause,
and each action is split into its operands again.
-/
namespace Openstack.DynamoDb

open KeywordSearch (Skips)

variable {actions : List UpdateAction} {text : Text} {c : UpdateClause} {n : NameOperand}
  {v : ValueOperand}

theorem operandChar_ne {c : Char} (plain : operandChar c = true) :
    RustStr.isWhitespace c = false ∧ c ≠ ' ' ∧ c ≠ ',' ∧ c ≠ '=' := by
  have blank : c ≠ ' ' := by
    rintro rfl
    exact absurd plain (by decide)
  simp only [operandChar, Bool.and_eq_true, Bool.not_eq_true', bne_iff_ne, ne_eq] at plain
  exact ⟨plain.1.1, blank, plain.1.2, plain.2⟩

/-- A word: the text of an operand. -/
structure Word (text : Text) : Prop where
  nonempty : text ≠ []
  plain : ∀ c ∈ text, operandChar c = true

theorem NameOperand.word (n : NameOperand) : Word n.text := ⟨n.nonempty, n.plain⟩

theorem ValueOperand.word (v : ValueOperand) : Word v.text where
  nonempty := by simp [ValueOperand.text]
  plain c mem := by
    rcases List.mem_cons.mp mem with rfl | later
    · decide
    · exact v.plain c later

namespace Word

variable {text : Text} (word : Word text)
include word

theorem tight : Tight text :=
  tight_of_plain word.nonempty fun c mem => (operandChar_ne (word.plain c mem)).1

theorem noBlank : ' ' ∉ text := fun mem => (operandChar_ne (word.plain _ mem)).2.1 rfl

theorem noComma : ',' ∉ text := fun mem => (operandChar_ne (word.plain _ mem)).2.2.1 rfl

theorem noEquals : '=' ∉ text := fun mem => (operandChar_ne (word.plain _ mem)).2.2.2 rfl

end Word

theorem UpdateAction.lastWord (a : UpdateAction) : Word a.last := by
  cases a with
  | remove n => exact n.word
  | _ n v => exact v.word

theorem UpdateAction.tight (a : UpdateAction) : Tight a.print := by
  cases a with
  | remove n => exact n.word.tight
  | set n v =>
    have whole := n.word.tight.append [' ', '=', ' '] v.word.tight
    exact whole
  | add n v => exact n.word.tight.append [' '] v.word.tight
  | delete n v => exact n.word.tight.append [' '] v.word.tight

theorem UpdateAction.noComma (a : UpdateAction) : ',' ∉ a.print := by
  cases a with
  | remove n => exact n.word.noComma
  | _ n v =>
    simp [UpdateAction.print, UpdateAction.front, UpdateAction.last, n.word.noComma, v.word.noComma]

/-- The keywords, each of which the parser looks for with a blank behind it. -/
theorem clauseKeywords_eq : clauseKeywords =
    [Clause.set, .remove, .add, .delete].map fun k => k.keyword ++ [' '] := rfl

theorem Clause.keyword_ne_nil (k : Clause) : k.keyword ≠ [] := by cases k <;> decide

theorem Clause.keyword_noBlank (k : Clause) : ' ' ∉ k.keyword := by cases k <;> decide

theorem not_suffix_of_not_ends (open' : endsInKeyword text = false) (k : Clause) :
    ¬ k.keyword <:+ text := by
  intro suffix
  simp only [endsInKeyword, List.any_cons, List.any_nil, Bool.or_eq_false_iff] at open'
  have closed := List.isSuffixOf_iff_suffix.mpr suffix
  cases k <;> simp_all

theorem skips_operand (word : Word text) (open' : endsInKeyword text = false) (k : Clause) :
    Skips (k.keyword ++ [' ']) (text ++ [' ']) :=
  KeywordSearch.skips_word k.keyword_ne_nil word.noBlank k.keyword_noBlank
    (not_suffix_of_not_ends open' k)

theorem skips_equals (k : Clause) : Skips (k.keyword ++ [' ']) ['=', ' '] := by
  have apart : ¬ k.keyword <:+ ['='] := by cases k <;> decide
  exact KeywordSearch.skips_word k.keyword_ne_nil (by decide) k.keyword_noBlank apart

theorem skips_front {a : UpdateAction} (readable : a.readable = true) (k : Clause) :
    Skips (k.keyword ++ [' ']) a.front := by
  cases a with
  | remove n => exact KeywordSearch.skips_nil
  | set n v =>
    have first := skips_operand n.word (by simpa [UpdateAction.readable] using readable) k
    have both := first.append (skips_equals k)
    rwa [List.append_assoc] at both
  | add n v => exact skips_operand n.word (by simpa [UpdateAction.readable] using readable) k
  | delete n v => exact skips_operand n.word (by simpa [UpdateAction.readable] using readable) k

/-- An operand with a comma behind it. -/
theorem skips_comma (word : Word text) (k : Clause) :
    Skips (k.keyword ++ [' ']) (text ++ [',', ' ']) := by
  have apart : ¬ k.keyword <:+ text ++ [','] := by
    rintro ⟨front, eq⟩
    have last := congrArg List.getLast? eq
    rw [List.getLast?_append_of_ne_nil _ k.keyword_ne_nil, List.getLast?_concat] at last
    revert last
    cases k <;> decide
  have blank : ' ' ∉ text ++ [','] := by simp [word.noBlank]
  have skips := KeywordSearch.skips_word k.keyword_ne_nil blank k.keyword_noBlank apart
  rwa [List.append_assoc] at skips

theorem skips_actions {a : UpdateAction}
    (readable : actions.all UpdateAction.readable = true) (last : actions.getLast? = some a)
    (open' : endsInKeyword a.last = false) (k : Clause) :
    Skips (k.keyword ++ [' ']) (printActions actions ++ [' ']) := by
  induction actions with
  | nil => cases last
  | cons b rest ih =>
    rw [List.all_cons, Bool.and_eq_true] at readable
    have front := skips_front readable.1 k
    cases rest with
    | nil =>
      cases last
      have both := front.append (skips_operand b.lastWord open' k)
      rwa [← List.append_assoc] at both
    | cons c others =>
      have later := ih readable.2 (by simpa using last)
      have all := (front.append (skips_comma b.lastWord k)).append later
      simpa [printActions, UpdateAction.print] using all

/-- Nor is there a keyword in the actions of the last clause. -/
theorem before_actions (readable : actions.all UpdateAction.readable = true) (k : Clause) :
    RustStr.before (k.keyword ++ [' ']) (printActions actions) = none := by
  induction actions with
  | nil => exact KeywordSearch.before_none_of_absent (c := ' ') (by simp) (by simp [printActions])
  | cons b rest ih =>
    rw [List.all_cons, Bool.and_eq_true] at readable
    have front := skips_front readable.1 k
    cases rest with
    | nil =>
      have absent : RustStr.before (k.keyword ++ [' ']) b.last = none :=
        KeywordSearch.before_none_of_absent (by simp) b.lastWord.noBlank
      rw [printActions, UpdateAction.print, front, absent]
      rfl
    | cons c others =>
      have later := (front.append (skips_comma b.lastWord k)) (printActions (c :: others))
      rw [ih readable.2] at later
      simpa [printActions, UpdateAction.print] using later

/-- The cut is the first position of a keyword. -/
theorem clauseEnd_eq {input : Text} {e : Nat} (bound : e ≤ input.length)
    (first : ∀ k : Clause, ∀ x, RustStr.before (k.keyword ++ [' ']) input = some x → e ≤ x.length)
    (found : e = input.length ∨ ∃ k : Clause, ∃ x, RustStr.before (k.keyword ++ [' ']) input = some x ∧
      x.length = e) : clauseEnd input = e := by
  have fold : ∀ (ks : List Clause) (start : Nat), e ≤ start →
      (start = e ∨ ∃ k ∈ ks, ∃ x, RustStr.before (k.keyword ++ [' ']) input = some x ∧ x.length = e) →
      (ks.map fun k => k.keyword ++ [' ']).foldl (fun last kw => (RustStr.before kw input).elim last
        fun front => if front.length < last then front.length else last) start = e := by
    intro ks
    induction ks with
    | nil =>
      intro start _ reached
      rcases reached with same | ⟨k, listed, _⟩
      · exact same
      · cases listed
    | cons k ks ih =>
      intro start low reached
      rw [List.map_cons, List.foldl_cons]
      cases here : RustStr.before (k.keyword ++ [' ']) input with
      | none =>
        rw [Option.elim_none]
        refine ih start low (reached.imp_right ?_)
        rintro ⟨k', listed, x, found, short⟩
        rcases List.mem_cons.mp listed with rfl | later
        · rw [here] at found
          cases found
        · exact ⟨k', later, x, found, short⟩
      | some front =>
        have far := first k front here
        rw [Option.elim_some]
        rcases reached with same | ⟨k', listed, x, found, short⟩
        · rw [if_neg (by omega)]
          exact ih start low (.inl same)
        · rcases List.mem_cons.mp listed with rfl | later
          · rw [here, Option.some.injEq] at found
            subst found
            refine ih _ ?_ (.inl ?_) <;> split <;> omega
          · refine ih _ ?_ (.inr ⟨k', later, x, found, short⟩)
            split <;> omega
  rw [clauseEnd_eq_foldl, clauseKeywords_eq]
  refine fold _ _ bound ?_
  rcases found with same | ⟨k, x, found, short⟩
  · exact .inl same.symm
  · exact .inr ⟨k, by cases k <;> simp, x, found, short⟩

/-- The actions stand without blanks around them. -/
theorem tight_actions (nonempty : actions ≠ []) :
    Tight (printActions actions) := by
  induction actions with
  | nil => exact absurd rfl nonempty
  | cons a rest ih =>
    cases rest with
    | nil => exact a.tight
    | cons b others =>
      have whole := a.tight.append [',', ' '] (ih (by simp))
      simpa [printActions] using whole

theorem trim_actions_blank (actions : List UpdateAction) :
    RustStr.trim (printActions actions ++ [' ']) = printActions actions := by
  cases actions with
  | nil => decide
  | cons a rest => exact (tight_actions (by simp)).trim_blank_after

theorem trim_actions (actions : List UpdateAction) :
    RustStr.trim (printActions actions) = printActions actions := by
  cases actions with
  | nil => decide
  | cons a rest => exact (tight_actions (by simp)).trim

theorem skips_body (inside : c.readableInside = true) (k : Clause) :
    Skips (k.keyword ++ [' ']) (printActions c.actions ++ [' ']) := by
  rw [UpdateClause.readableInside, Bool.and_eq_true] at inside
  cases last : c.actions.getLast? with
  | none =>
    rw [List.getLast?_eq_none_iff.mp last]
    have apart : ¬ k.keyword <:+ [] := fun suffix => k.keyword_ne_nil (List.suffix_nil.mp suffix)
    exact KeywordSearch.skips_word k.keyword_ne_nil List.not_mem_nil k.keyword_noBlank apart
  | some a =>
    rw [last] at inside
    exact skips_actions inside.1 last (by simpa using inside.2) k

/-- A clause with another behind it is cut off at the keyword of that one. -/
theorem extractClause_inside (inside : c.readableInside = true) (next : Clause)
    (rest : Text) : extractClause (printActions c.actions ++ ' ' :: (next.keyword ++ ' ' :: rest)) =
      (printActions c.actions, next.keyword ++ ' ' :: rest) := by
  have shape : printActions c.actions ++ ' ' :: (next.keyword ++ ' ' :: rest) =
      (printActions c.actions ++ [' ']) ++ (next.keyword ++ ' ' :: rest) := by simp
  have tail : next.keyword ++ ' ' :: rest = (next.keyword ++ [' ']) ++ rest := by simp
  have cut : clauseEnd ((printActions c.actions ++ [' ']) ++ (next.keyword ++ ' ' :: rest)) =
      (printActions c.actions ++ [' ']).length := by
    refine clauseEnd_eq (by simp) (fun k x found => ?_) (.inr ⟨next, _, ?_, rfl⟩)
    · rw [skips_body inside k, Option.map_eq_some_iff] at found
      obtain ⟨y, -, rfl⟩ := found
      simp
    · rw [tail]
      exact (skips_body inside next).before_keyword rest (by simp)
  rw [shape, extractClause, cut, List.take_left, List.drop_left, trim_actions_blank]

theorem extractClause_last (readable : actions.all UpdateAction.readable = true) :
    extractClause (printActions actions) = (printActions actions, []) := by
  have cut : clauseEnd (printActions actions) = (printActions actions).length := by
    refine clauseEnd_eq le_rfl (fun k x found => ?_) (.inl rfl)
    rw [before_actions readable k] at found
    cases found
  rw [extractClause, cut, List.take_length, List.drop_length, trim_actions]

theorem splitOn_actions (front : Text) (plain : ',' ∉ front) (a : UpdateAction)
    (rest : List UpdateAction) : (front ++ printActions (a :: rest)).splitOn ',' =
      (front ++ a.print) :: rest.map fun b => ' ' :: b.print := by
  have absent : ∀ a : UpdateAction, ∀ front : Text, ',' ∉ front → ',' ∉ front ++ a.print := by
    intro a front plain
    simp [plain, a.noComma]
  induction rest generalizing front a with
  | nil => exact List.splitOn_eq_singleton (absent a front plain)
  | cons b others ih =>
    have shape : front ++ printActions (a :: b :: others) =
        (front ++ a.print) ++ ',' :: ([' '] ++ printActions (b :: others)) := by simp [printActions]
    rw [shape, List.splitOn_append_cons_self_of_not_mem (absent a front plain),
      ih [' '] (by decide) b]
    rfl

section Apply

variable {D : DecimalOps} {names : AttrNames} {values : AttrValues} {item : Item}

theorem foldlM_some {α β : Type} (g : α → β → α) (l : List β) (a : α) :
    l.foldlM (fun a b => some (g a b)) a = some (l.foldl g a) := by
  induction l generalizing a with
  | nil => rfl
  | cons b rest ih => exact ih (g a b)

/-- The parts that the commas leave are the actions again, but for blanks in front of them. -/
theorem parts_actions (nonempty : actions ≠ []) :
    List.Forall₂ (fun (a : UpdateAction) part => RustStr.trim part = a.print) actions
      ((printActions actions).splitOn ',') := by
  cases actions with
  | nil => exact absurd rfl nonempty
  | cons a rest =>
    have parts := splitOn_actions [] (by simp) a rest
    rw [List.nil_append, List.nil_append] at parts
    rw [parts]
    refine .cons a.tight.trim ?_
    rw [List.forall₂_map_right_iff]
    exact List.forall₂_same.mpr fun b _ => b.tight.trim_blank_before

/-- A fold over the parts of which each step does what the action means. -/
theorem foldlM_parts {f : Item → Text → Option Item} {parts : List Text}
    {m : Item} (related : List.Forall₂ (fun (a : UpdateAction) part => RustStr.trim part = a.print)
      actions parts)
    (step : ∀ a ∈ actions, ∀ part, RustStr.trim part = a.print → ∀ it it',
      a.denote D names values it = some it' → f it part = some it')
    (meaning : actions.foldlM (UpdateAction.denote D names values) item = some m) :
    parts.foldlM f item = some m := by
  induction related generalizing item with
  | nil => exact meaning
  | @cons a part actions parts same _ ih =>
    rw [List.foldlM_cons, Option.bind_eq_bind, Option.bind_eq_some_iff] at meaning
    obtain ⟨it, first, later⟩ := meaning
    rw [List.foldlM_cons, step a (by simp) part same item it first]
    exact ih (fun b listed => step b (by simp [listed])) later

theorem NameOperand.Resolves.denote (resolves : n.Resolves names) :
    n.denote names = some (resolveName n.text names) := by
  unfold NameOperand.Resolves at resolves
  unfold NameOperand.denote
  split at resolves
  · next placeholder =>
    obtain ⟨a, bound⟩ := Option.isSome_iff_exists.mp resolves
    rw [if_pos placeholder, resolveName, bound]
    rfl
  · next other => rw [if_neg other, resolves]

theorem ValueOperand.Resolves.denote (resolves : v.Resolves values) :
    v.denote values = some (resolveValue v.text values) := by
  obtain ⟨x, bound⟩ := Option.isSome_iff_exists.mp resolves
  rw [ValueOperand.denote, resolveValue, bound]
  rfl

theorem applyAssignment_print {part : Text} (same : RustStr.trim part = (UpdateAction.set n v).print) :
    applyAssignment names values item part =
      item.insert (resolveName n.text names) (resolveValue v.text values) := by
  have shape : (UpdateAction.set n v).print = (n.text ++ [' ']) ++ (['='] ++ (' ' :: v.text)) := by
    simp [UpdateAction.print, UpdateAction.front, UpdateAction.last]
  have absent : '=' ∉ n.text ++ [' '] := by simp [n.word.noEquals]
  rw [applyAssignment, same, shape, before_found absent, after_found absent]
  simp only [n.word.tight.trim_blank_after, v.word.tight.trim_blank_before]

theorem splitToken_print {part : Text}
    (same : RustStr.trim part = n.text ++ ' ' :: v.text) : splitToken part = (n.text, some v.text) := by
  have shape : n.text ++ ' ' :: v.text = n.text ++ ([' '] ++ v.text) := rfl
  rw [splitToken, same, shape, before_found n.word.noBlank, after_found n.word.noBlank]
  rfl

/-- The loop of pushes appends the elements that are not there yet. -/
theorem unionInto_eq (cur delta : List String) : unionInto cur delta = union cur delta := by
  unfold unionInto union
  induction delta generalizing cur with
  | nil => simp
  | cons v rest ih =>
    rw [List.foldl_cons, ih]
    by_cases held : cur.contains v = true
    · rw [if_pos held, List.filter_cons_of_neg (by simpa using held)]
    · have fresh : (rest.filter fun x => !(cur ++ [v]).contains x) =
          (rest.filter fun x => !cur.contains x).filter fun x => !x == v := by
        rw [List.filter_filter]
        refine List.filter_congr fun x _ => ?_
        simp only [List.contains_append, List.contains_cons, List.contains_nil, Bool.or_false, Bool.not_or]
        exact Bool.and_comm _ _
      rw [if_neg held, List.filter_cons_of_pos (by simpa using held), List.eraseDups_cons, fresh]
      simp

theorem addToExisting_of_plus {cur x y : AttributeValue} (sum : plus D cur x = some y) :
    addToExisting D cur x = some y := by
  cases cur with
  | n cur =>
    cases x with
    | n d =>
      simp only [plus, Option.bind_eq_bind, Option.bind_eq_some_iff] at sum
      obtain ⟨p, first, q, second, r, added, same⟩ := sum
      rw [addToExisting, first, second]
      simp only [added, Option.map_some]
      exact same
    | _ => exact sum
  | ss cur => cases x <;> simpa [plus, addToExisting, unionInto_eq] using sum
  | ns cur => cases x <;> simpa [plus, addToExisting, unionInto_eq] using sum
  | bs cur => cases x <;> simpa [plus, addToExisting, unionInto_eq] using sum
  | _ => cases x <;> exact sum

theorem deleteFromExisting_eq (cur x : AttributeValue) : deleteFromExisting cur x = minus cur x := by
  cases cur <;> cases x <;> simp [deleteFromExisting, minus, retainOthers]

variable {n : NameOperand} {v : ValueOperand} {part : Text} {it : Item}

theorem applyAssignment_denote (named : n.Resolves names) (bound : v.Resolves values)
    (same : RustStr.trim part = (UpdateAction.set n v).print)
    (meaning : (UpdateAction.set n v).denote D names values item = some it) :
    some (applyAssignment names values item part) = some it := by
  rw [← meaning, applyAssignment_print same, UpdateAction.denote, named.denote, bound.denote]

theorem erase_denote (named : n.Resolves names) (same : RustStr.trim part = (UpdateAction.remove n).print)
    (meaning : (UpdateAction.remove n).denote D names values item = some it) :
    some (item.erase (resolveName (RustStr.trim part) names)) = some it := by
  rw [← meaning, same, UpdateAction.denote, named.denote]
  rfl

theorem applyAddPart_denote (named : n.Resolves names) (bound : v.Resolves values)
    (same : RustStr.trim part = (UpdateAction.add n v).print)
    (meaning : (UpdateAction.add n v).denote D names values item = some it) :
    applyAddPart D names values item part = some it := by
  have shape : (UpdateAction.add n v).print = n.text ++ ' ' :: v.text := by
    simp [UpdateAction.print, UpdateAction.front, UpdateAction.last]
  rw [UpdateAction.denote, named.denote, bound.denote] at meaning
  rw [applyAddPart, splitToken_print (same.trans shape)]
  simp only [n.word.tight.trim, v.word.tight.trim]
  cases held : item[resolveName n.text names]? with
  | none =>
    simp only [held] at meaning
    exact meaning
  | some cur =>
    simp only [held] at meaning
    obtain ⟨y, sum, rfl⟩ := Option.map_eq_some_iff.mp meaning
    simp only
    rw [addToExisting_of_plus sum, Option.map_some]

theorem applyDeletePart_denote (named : n.Resolves names) (bound : v.Resolves values)
    (same : RustStr.trim part = (UpdateAction.delete n v).print)
    (meaning : (UpdateAction.delete n v).denote D names values item = some it) :
    some (applyDeletePart names values item part) = some it := by
  have shape : (UpdateAction.delete n v).print = n.text ++ ' ' :: v.text := by
    simp [UpdateAction.print, UpdateAction.front, UpdateAction.last]
  rw [UpdateAction.denote, named.denote, bound.denote] at meaning
  rw [applyDeletePart, splitToken_print (same.trans shape)]
  simp only [n.word.tight.trim, v.word.tight.trim]
  cases held : item[resolveName n.text names]? with
  | none =>
    simp only [held] at meaning
    exact meaning
  | some cur =>
    simp only [held, deleteFromExisting_eq] at meaning ⊢
    exact meaning

/-- A clause, once it is cut out, does what its actions mean. -/
theorem applyClause_denote (resolves : ∀ a ∈ c.actions, a.Resolves names values)
    (some_action : c.actions ≠ [] ∨ c.kind = .set ∨ c.kind = .add)
    (meaning : c.actions.foldlM (UpdateAction.denote D names values) item = some it) :
    applyClause D names values item (printActions c.actions) c.kind = some it := by
  by_cases nonempty : c.actions = []
  · rw [nonempty] at meaning some_action ⊢
    cases meaning
    rcases some_action with absurd' | set | add
    · exact absurd rfl absurd'
    · rw [set]
      rfl
    · rw [add]
      rfl
  · have related := parts_actions nonempty
    cases c with
    | set actions =>
      rw [UpdateClause.kind, applyClause, applySetClause, ← foldlM_some]
      refine foldlM_parts related (fun a listed part same it it' => ?_) meaning
      obtain ⟨p, _, rfl⟩ := List.mem_map.mp listed
      obtain ⟨named, bound⟩ := resolves _ listed
      exact applyAssignment_denote named bound same
    | remove names' =>
      rw [UpdateClause.kind, applyClause, applyRemoveClause, ← foldlM_some]
      refine foldlM_parts related (fun a listed part same it it' => ?_) meaning
      obtain ⟨p, _, rfl⟩ := List.mem_map.mp listed
      exact erase_denote (resolves _ listed) same
    | add actions =>
      rw [UpdateClause.kind, applyClause, applyAddClause]
      refine foldlM_parts related (fun a listed part same it it' => ?_) meaning
      obtain ⟨p, _, rfl⟩ := List.mem_map.mp listed
      obtain ⟨named, bound⟩ := resolves _ listed
      exact applyAddPart_denote named bound same
    | delete actions =>
      rw [UpdateClause.kind, applyClause, applyDeleteClause, ← foldlM_some]
      refine foldlM_parts related (fun a listed part same it it' => ?_) meaning
      obtain ⟨p, _, rfl⟩ := List.mem_map.mp listed
      obtain ⟨named, bound⟩ := resolves _ listed
      exact applyDeletePart_denote named bound same

theorem leadingClause_keyword (k : Clause) (rest : Text) :
    leadingClause (k.keyword ++ ' ' :: rest) = some (k, rest) := by
  cases k <;> rfl

theorem tight_keyword (k : Clause) : Tight k.keyword :=
  tight_of_plain k.keyword_ne_nil (by cases k <;> exact forall_mem_of_all (by decide))

theorem printClauses_cons (c : UpdateClause) (rest : List UpdateClause) :
    ∃ tail, printClauses (c :: rest) = c.kind.keyword ++ ' ' :: tail := by
  cases rest with
  | nil => exact ⟨_, rfl⟩
  | cons d others =>
    exact ⟨printActions c.actions ++ ' ' :: printClauses (d :: others), by
      simp [printClauses, UpdateClause.print]⟩

theorem tight_clauses {clauses : List UpdateClause} (nonempty : clauses ≠ [])
    (readable : readableBehind clauses = true) : Tight (printClauses clauses) := by
  induction clauses with
  | nil => exact absurd rfl nonempty
  | cons c rest ih =>
    cases rest with
    | nil =>
      rw [readableBehind, UpdateClause.readableLast, Bool.and_eq_true] at readable
      have actions : Tight (printActions c.actions) := tight_actions (by simpa using readable.2)
      have whole := (tight_keyword c.kind).append [' '] actions
      simpa [printClauses, UpdateClause.print] using whole
    | cons d others =>
      rw [readableBehind, Bool.and_eq_true] at readable
      have whole := (tight_keyword c.kind).append (' ' :: (printActions c.actions ++ [' ']))
        (ih (by simp) readable.2)
      simpa [printClauses, UpdateClause.print] using whole

theorem applyClauses_nil (fuel : Nat) : applyClauses D names values fuel item [] = some item := by
  cases fuel <;> rfl

/-- The loop takes one clause after the other. -/
theorem applyClauses_print {clauses : List UpdateClause} (readable : readableBehind clauses = true)
    (resolves : ∀ a ∈ clauses.flatMap UpdateClause.actions, a.Resolves names values) {fuel : Nat}
    (enough : clauses.length ≤ fuel) (meaning : denoteClauses D names values item clauses = some it) :
    applyClauses D names values fuel item (printClauses clauses) = some it := by
  induction clauses generalizing fuel item with
  | nil =>
    rw [printClauses, applyClauses_nil]
    exact meaning
  | cons c rest ih =>
    obtain ⟨fuel, rfl⟩ : ∃ n, fuel = n + 1 := ⟨fuel - 1, by simp only [List.length_cons] at enough; omega⟩
    rw [denoteClauses, List.flatMap_cons, List.foldlM_append, Option.bind_eq_bind,
      Option.bind_eq_some_iff] at meaning
    obtain ⟨middle, first, later⟩ := meaning
    have here : ∀ a ∈ c.actions, a.Resolves names values := fun a listed => resolves a (by simp [listed])
    cases rest with
    | nil =>
      rw [readableBehind, UpdateClause.readableLast, Bool.and_eq_true] at readable
      have applied := applyClause_denote here (.inl (by simpa using readable.2)) first
      rw [applyClauses, printClauses, UpdateClause.print, leadingClause_keyword]
      simp only [extractClause_last readable.1, applied]
      rw [show RustStr.trim [] = [] from rfl, applyClauses_nil]
      exact later
    | cons d others =>
      rw [readableBehind, Bool.and_eq_true] at readable
      have inside := readable.1
      rw [UpdateClause.readableInside, Bool.and_eq_true] at inside
      have some_action : c.actions ≠ [] ∨ c.kind = .set ∨ c.kind = .add := by
        cases last : c.actions.getLast? with
        | none =>
          rw [last] at inside
          simpa using Or.inr inside.2
        | some a => exact .inl fun none => by simp [none] at last
      have applied := applyClause_denote here some_action first
      obtain ⟨tail, next⟩ := printClauses_cons d others
      have shape : printClauses (c :: d :: others) = c.kind.keyword ++ ' ' ::
          (printActions c.actions ++ ' ' :: (d.kind.keyword ++ ' ' :: tail)) := by
        rw [← next]
        simp [printClauses, UpdateClause.print]
      rw [shape, applyClauses, leadingClause_keyword]
      simp only [extractClause_inside readable.1, applied]
      rw [← next, (tight_clauses (by simp) readable.2).trim]
      exact ih readable.2 (fun a listed => resolves a (List.mem_append_right _ listed))
        (by simp only [List.length_cons] at enough ⊢; omega) later

end Apply

end Openstack.DynamoDb

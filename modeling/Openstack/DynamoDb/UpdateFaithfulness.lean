import Openstack.DynamoDb.TransactWrite
import Openstack.DynamoDb.UpdateReading

/-!
# What update expressions do

The whole of `apply_update_expression` (`store.rs:1156-1188`) on the text of an expression that the parser
can read, with all operands bound.
-/
namespace Openstack.DynamoDb

variable {D : DecimalOps} {names : AttrNames} {values : AttrValues} {item it it' : Item}

/-- Each action leaves the values that the item has, and those that it derives from them. -/
theorem derived_of_denote {a : UpdateAction} (before : ∀ (n : String) x, it[n]? = some x →
      Derived D values item x)
    (meaning : a.denote D names values it = some it') :
    ∀ (n : String) x, it'[n]? = some x → Derived D values item x := by
  have inserted : ∀ {b y}, Derived D values item y → ∀ (n : String) x,
      (it.insert b y)[n]? = some x → Derived D values item x := by
    intro b y derived n x found
    rw [StrMap.getElem?_insert] at found
    split at found
    · cases found
      exact derived
    · exact before n x found
  have erased : ∀ b (n : String) x, (it.erase b)[n]? = some x → Derived D values item x := by
    intro b n x found
    rw [StrMap.getElem?_erase] at found
    split at found
    · cases found
    · exact before n x found
  cases a with
  | set n v =>
    rw [UpdateAction.denote] at meaning
    split at meaning
    · next b y named bound =>
      cases meaning
      exact inserted (.bound bound)
    · cases meaning
      exact before
  | remove n =>
    rw [UpdateAction.denote] at meaning
    split at meaning <;> cases meaning
    · exact erased _
    · exact before
  | add n v =>
    rw [UpdateAction.denote] at meaning
    split at meaning
    · next b y named bound =>
      split at meaning
      · next cur held =>
        obtain ⟨z, sum, rfl⟩ := Option.map_eq_some_iff.mp meaning
        exact inserted (.sum (before b cur held) (.bound bound) sum)
      · cases meaning
        exact inserted (.bound bound)
    · cases meaning
      exact before
  | delete n v =>
    rw [UpdateAction.denote] at meaning
    split at meaning
    · next b y named bound =>
      split at meaning
      · next cur held =>
        cases meaning
        split
        · exact erased _
        · exact inserted (.difference (before b cur held) (.bound bound))
      · cases meaning
        exact before
    · cases meaning
      exact before

theorem derived_of_actions {actions : List UpdateAction} (before : ∀ (n : String) x, it[n]? = some x →
      Derived D values item x)
    (meaning : actions.foldlM (UpdateAction.denote D names values) it = some it') :
    ∀ (n : String) x, it'[n]? = some x → Derived D values item x := by
  induction actions generalizing it with
  | nil =>
    cases meaning
    exact before
  | cons a rest ih =>
    rw [List.foldlM_cons, Option.bind_eq_bind, Option.bind_eq_some_iff] at meaning
    obtain ⟨middle, first, later⟩ := meaning
    exact ih (derived_of_denote before first) later

theorem length_le_print (clauses : List UpdateClause) :
    clauses.length ≤ (printClauses clauses).length := by
  induction clauses with
  | nil => simp
  | cons c rest ih =>
    cases rest with
    | nil =>
      simp only [printClauses, UpdateClause.print, List.length_cons, List.length_append, List.length_nil]
      omega
    | cons d others =>
      simp only [printClauses, List.length_cons, List.length_append] at ih ⊢
      omega

theorem applyUpdateExpression_behind {clauses : List UpdateClause}
    (readable : readableBehind clauses = true)
    (resolves : ∀ a ∈ clauses.flatMap UpdateClause.actions, a.Resolves names values)
    (meaning : denoteClauses D names values item clauses = some it) :
    applyUpdateExpression D item (String.ofList (printClauses clauses)) names values = some it := by
  have trimmed : RustStr.trim (printClauses clauses) = printClauses clauses := by
    by_cases nonempty : clauses = []
    · rw [nonempty]
      rfl
    · exact (tight_clauses nonempty readable).trim
  rw [applyUpdateExpression, String.toList_ofList, trimmed]
  refine applyClauses_print readable resolves ?_ meaning
  rw [String.length_ofList]
  have := length_le_print clauses
  omega

/-- A clause without actions and without others behind it is not even recognised. -/
theorem applyUpdateExpression_bare (item : Item) {c : UpdateClause} (bare : c.actions = []) :
    applyUpdateExpression D item (String.ofList (printClauses [c])) names values = some item := by
  have trimmed : RustStr.trim (printClauses [c]) = c.kind.keyword := by
    rw [printClauses, UpdateClause.print, bare]
    exact (tight_keyword c.kind).trim_blank_after
  have unknown : leadingClause c.kind.keyword = none := by cases c.kind <;> rfl
  rw [applyUpdateExpression, String.toList_ofList, trimmed, applyClauses, unknown]

/-- An expression that the parser can read, with all operands bound, does what its actions mean, and every
attribute of the result is an old value, a bound one, or a sum, union or difference of such. -/
theorem update_faithful (D : DecimalOps) (names : AttrNames) (values : AttrValues)
    (clauses : List UpdateClause) (item : Item) (read : readable clauses = true)
    (resolves : ∀ a ∈ clauses.flatMap UpdateClause.actions, a.Resolves names values) :
    UpdateFaithful D names values clauses item := by
  intro m meaning
  refine ⟨?_, derived_of_actions (fun n x held => .old held) meaning⟩
  have behind : readableBehind clauses = true →
      applyUpdateExpression D item (String.ofList (printClauses clauses)) names values = some m :=
    fun readable => applyUpdateExpression_behind readable resolves meaning
  cases clauses with
  | nil => exact behind rfl
  | cons c rest =>
    cases rest with
    | nil =>
      rw [readable, Bool.or_eq_true] at read
      rcases read with bare | readable
      · rw [List.isEmpty_iff] at bare
        rw [denoteClauses, List.flatMap_cons, bare] at meaning
        cases meaning
        exact applyUpdateExpression_bare item bare
      · exact behind readable
    | cons d others => exact behind read

def nameOffset : NameOperand where
  text := "OFFSET".toList
  nonempty := by decide
  plain := forall_mem_of_all (by decide)

def nameTotal : NameOperand where
  text := "total".toList
  nonempty := by decide
  plain := forall_mem_of_all (by decide)

def valueOne : ValueOperand where
  rest := "one".toList
  plain := forall_mem_of_all (by decide)

def boundOne : AttrValues := (∅ : AttrValues).insert ":one" (.n "1")

/-- `SET total = :one REMOVE OFFSET`. -/
theorem update_faithful_total : UpdateFaithful wholeDecimals ∅ boundOne
    [.set [(nameTotal, valueOne)], .remove [nameOffset]] ∅ :=
  update_faithful wholeDecimals ∅ boundOne [.set [(nameTotal, valueOne)], .remove [nameOffset]] ∅
    (by decide) (by
      intro a listed
      simp only [List.flatMap_cons, List.flatMap_nil, UpdateClause.actions, List.map_cons, List.map_nil,
        List.append_nil, List.mem_append, List.mem_singleton] at listed
      rcases listed with rfl | rfl <;> decide +kernel)

/-- `SET OFFSET = :one` is read as a clause `OFF` and a clause `SET = :one`. `SET total = :one` without a
value for `:one` stores a NULL. -/
theorem update_misread :
    ¬ UpdateFaithful wholeDecimals ∅ boundOne [.set [(nameOffset, valueOne)]] ∅ ∧
      ¬ UpdateFaithful wholeDecimals ∅ ∅ [.set [(nameTotal, valueOne)]] ∅ := by
  constructor
  · intro faithful
    have applied := (faithful _ rfl).1
    have missing : (applyUpdateExpression wholeDecimals ∅ (String.ofList
        (printClauses [.set [(nameOffset, valueOne)]])) ∅ boundOne).map (·.contains "OFFSET") = some false := by
      decide +kernel
    rw [applied] at missing
    revert missing
    decide +kernel
  · intro faithful
    have applied := (faithful _ rfl).1
    have invented : (applyUpdateExpression wholeDecimals ∅ (String.ofList
        (printClauses [.set [(nameTotal, valueOne)]])) ∅ ∅).map (·.contains "total") = some true := by
      decide +kernel
    rw [applied] at invented
    revert invented
    decide +kernel

end Openstack.DynamoDb

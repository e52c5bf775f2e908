import Openstack.Lib.KeywordSearch

/-!
Searching a text for a tag. A tag begins with its only `<` and ends with its only `>`, so an occurrence
neither runs over the start of another tag nor over the end of one.
-/
namespace Openstack.TagSearch

open KeywordSearch (Skips skips_nil skips_of_absent)
open RustStr (before after)

def openTag (tag : String) : List Char := ("<" ++ tag ++ ">").toList

def closeTag (tag : String) : List Char := ("</" ++ tag ++ ">").toList

def element (tag : String) (content : List Char) : List Char :=
  openTag tag ++ (content ++ closeTag tag)

theorem openTag_ne_nil (tag : String) : openTag tag ≠ [] := by simp [openTag]

theorem closeTag_ne_nil (tag : String) : closeTag tag ≠ [] := by simp [closeTag]

theorem element_ne_nil (tag : String) (content : List Char) : element tag content ≠ [] := by
  simp [element, openTag]

def IsTag (pat : List Char) : Prop :=
  pat.head? = some '<' ∧ '<' ∉ pat.tail ∧ pat.getLast? = some '>' ∧ '>' ∉ pat.dropLast

instance (pat : List Char) : Decidable (IsTag pat) := inferInstanceAs (Decidable (_ ∧ _ ∧ _ ∧ _))

variable {pat a b : List Char}

theorem IsTag.ne_nil (tag : IsTag pat) : pat ≠ [] := by
  rintro rfl
  exact absurd tag.1 (by simp)

/-- An occurrence that begins before a `<` ends before it. -/
theorem IsTag.prefix_of_append_lt (tag : IsTag pat) (nonempty : a ≠ [])
    (here : pat <+: a ++ '<' :: b) : pat <+: a := by
  refine List.prefix_of_prefix_length_le here (List.prefix_append _ _) ?_
  by_contra long
  obtain ⟨rest, whole⟩ := here
  have positive : 0 < a.length := List.length_pos_iff.mpr nonempty
  have char : (pat ++ rest)[a.length]? = some '<' := by rw [whole]; simp
  rw [List.getElem?_append_left (by omega)] at char
  have inside : '<' ∈ pat.tail := by
    refine List.mem_of_getElem? (i := a.length - 1) ?_
    rw [List.getElem?_tail, Nat.sub_add_cancel positive]
    exact char
  exact tag.2.1 inside

/-- An occurrence that begins before the `>` at the end of a text ends with the text. -/
theorem IsTag.prefix_of_append_gt (tag : IsTag pat) (last : a.getLast? = some '>')
    (here : pat <+: a ++ b) : pat <+: a := by
  refine List.prefix_of_prefix_length_le here (List.prefix_append _ _) ?_
  by_contra long
  obtain ⟨rest, whole⟩ := here
  rw [List.getLast?_eq_getElem?] at last
  have positive : 0 < a.length := by
    cases a with
    | nil => simp at last
    | cons c more => simp
  have char : (pat ++ rest)[a.length - 1]? = some '>' := by
    rw [whole, List.getElem?_append_left (by omega), last]
  rw [List.getElem?_append_left (by omega)] at char
  have inside : '>' ∈ pat.dropLast := by
    refine List.mem_of_getElem? (i := a.length - 1) ?_
    rw [List.getElem?_dropLast, if_pos (by omega)]
    exact char
  exact tag.2.2.2 inside

/-- The search up to the start of another tag is the search in the text before it. -/
theorem before_append_lt (tag : IsTag pat) (a b : List Char) :
    before pat (a ++ '<' :: b) =
      (before pat a).or ((before pat ('<' :: b)).map (a ++ ·)) := by
  induction a with
  | nil =>
    have none : before pat [] = none := by simp [before, tag.ne_nil]
    simp [none]
  | cons c a ih =>
    by_cases here : pat.isPrefixOf (c :: a) = true
    · have there : pat.isPrefixOf (c :: (a ++ '<' :: b)) = true := by
        rw [List.isPrefixOf_iff_prefix] at here ⊢
        exact here.trans (List.prefix_append (c :: a) _)
      rw [List.cons_append, before, if_pos there, before, if_pos here]
      rfl
    · have there : ¬ pat.isPrefixOf (c :: (a ++ '<' :: b)) = true := by
        rw [List.isPrefixOf_iff_prefix] at here ⊢
        exact fun found => here (tag.prefix_of_append_lt (List.cons_ne_nil c a) found)
      rw [List.cons_append, before, if_neg there, before, if_neg here, ih]
      cases before pat a with
      | none => simp [Function.comp_def]
      | some x => rfl

/-- A text that ends a tag and does not hold the one that is looked for. -/
theorem skips_of_gt (tag : IsTag pat) (last : a.getLast? = some '>') (absent : before pat a = none) :
    Skips pat a := by
  induction a with
  | nil => exact skips_nil
  | cons c a ih =>
    intro rest
    rw [before] at absent
    split at absent
    · cases absent
    · next here =>
      have there : ¬ pat.isPrefixOf (c :: (a ++ rest)) = true := by
        rw [List.isPrefixOf_iff_prefix] at here ⊢
        exact fun found => here (tag.prefix_of_append_gt last found)
      have later : before pat a = none := by simpa using absent
      rw [List.cons_append, before, if_neg there]
      cases a with
      | nil => simp
      | cons d more =>
        rw [ih (by simpa using last) later, Option.map_map]
        rfl

theorem skips_flatMap {A : Type} {f : A → List Char} {l : List A}
    (each : ∀ x ∈ l, Skips pat (f x)) : Skips pat (l.flatMap f) := by
  induction l with
  | nil => exact skips_nil
  | cons x l ih =>
    obtain ⟨here, others⟩ := List.forall_mem_cons.mp each
    exact here.append (ih others)

theorem skips_text (tag : IsTag pat) (plain : '<' ∉ a) : Skips pat a := by
  cases pat with
  | nil => exact absurd rfl tag.ne_nil
  | cons p ps =>
    obtain rfl : p = '<' := by simpa using tag.1
    exact skips_of_absent plain

/-- A tag holds no other tag. -/
theorem before_tag_of_ne (tag : IsTag pat) (other : IsTag a) (ne : pat ≠ a) : before pat a = none := by
  cases found : before pat a with
  | none => rfl
  | some x =>
    obtain ⟨rest, whole⟩ := RustStr.before_isPrefix found
    cases x with
    | nil =>
      -- an occurrence at the start that is shorter leaves out the end, and with it the last character
      rw [List.nil_append] at whole
      cases rest with
      | nil => exact absurd (by simpa using whole) ne
      | cons c more =>
        have inside : '>' ∈ a.dropLast := by
          rw [← whole, List.dropLast_append_of_ne_nil (List.cons_ne_nil c more)]
          exact List.mem_append_left _ (List.mem_of_getLast? tag.2.2.1)
        exact absurd inside other.2.2.2
    | cons c x =>
      have inside : '<' ∈ a.tail := by
        rw [← whole, List.cons_append, List.cons_append, List.tail_cons, List.append_assoc]
        exact List.mem_append_right _ (List.mem_append_left _ (List.mem_of_head? tag.1))
      exact absurd inside other.2.1

theorem skips_tag (tag : IsTag pat) (other : IsTag a) (ne : pat ≠ a) : Skips pat a :=
  skips_of_gt tag other.2.2.1 (before_tag_of_ne tag other ne)

/-- Another tag at the end changes nothing. -/
theorem before_append_other (tag : IsTag pat) (other : IsTag b) (ne : pat ≠ b) (a : List Char) :
    before pat (a ++ b) = before pat a := by
  have absent := before_tag_of_ne tag other ne
  cases b with
  | nil => rw [List.append_nil]
  | cons c more =>
    obtain rfl : c = '<' := by simpa using other.1
    rw [before_append_lt tag, absent, Option.map_none, Option.or_none]

/-- The two tags of an element. -/
def tagsOf (tag : String) : List (List Char) := [openTag tag, closeTag tag]

theorem skips_element {tag : String} (isTag : IsTag pat) (tags : ∀ t ∈ tagsOf tag, IsTag t)
    (other : pat ∉ tagsOf tag) (content : Skips pat a) : Skips pat (element tag a) := by
  have opening : pat ≠ openTag tag := fun same => other (by simp [tagsOf, same])
  have closing : pat ≠ closeTag tag := fun same => other (by simp [tagsOf, same])
  exact (skips_tag isTag (tags _ (by simp [tagsOf])) opening).append
    (content.append (skips_tag isTag (tags _ (by simp [tagsOf])) closing))

/-- What follows the tag does not depend on the text before it. -/
theorem after_skips (skips : Skips pat a) (rest : List Char) : after pat (a ++ rest) = after pat rest := by
  rw [after, skips, after, Option.map_map]
  congr 1
  funext x
  simp [Nat.add_assoc]

theorem after_of_skips {pat text : List Char} (nonempty : pat ≠ []) (skips : Skips pat text) :
    after pat text = none := by
  have absent := skips []
  have nothing : before pat [] = none := by simp [before, nonempty]
  rw [List.append_nil, nothing, Option.map_none] at absent
  rw [after, absent, Option.map_none]

/-- A text around the first occurrence. -/
theorem exists_after {x : List Char} (found : before pat a = some x) :
    ∃ rest, a = x ++ (pat ++ rest) ∧ after pat a = some rest := by
  obtain ⟨rest, whole⟩ := RustStr.before_isPrefix found
  rw [List.append_assoc] at whole
  refine ⟨rest, whole.symm, ?_⟩
  rw [after, found, Option.map_some, ← whole, ← List.length_append, ← List.append_assoc, List.drop_left]

theorem after_append {rest : List Char} (found : after pat a = some rest) (b : List Char) :
    after pat (a ++ b) = some (rest ++ b) := by
  cases inside : before pat a with
  | none =>
    rw [after, inside] at found
    cases found
  | some x =>
    obtain ⟨rest', whole, again⟩ := exists_after inside
    obtain rfl := Option.some.inj (found.symm.trans again)
    have still : before pat (a ++ b) = some x :=
      RustStr.before_eq_of_isPrefix inside (by rw [whole]; simp)
    rw [after, still, Option.map_some, whole, ← List.length_append, ← List.append_assoc,
      List.append_assoc, List.drop_left]

theorem length_after {rest : List Char} (found : after pat a = some rest) :
    rest.length + pat.length ≤ a.length := by
  cases inside : before pat a with
  | none =>
    rw [after, inside] at found
    cases found
  | some x =>
    obtain ⟨rest', whole, again⟩ := exists_after inside
    obtain rfl := Option.some.inj (found.symm.trans again)
    have lengths := congrArg List.length whole
    simp only [List.length_append] at lengths
    omega

theorem before_keyword (nonempty : pat ≠ []) (rest : List Char) : before pat (pat ++ rest) = some [] := by
  have found := skips_nil.before_keyword rest nonempty
  rwa [List.nil_append] at found

/-- The search for a tag that follows a text. -/
theorem before_append_tag (tag : IsTag pat) (a rest : List Char) :
    before pat (a ++ (pat ++ rest)) = (before pat a).or (some a) := by
  have here := before_keyword tag.ne_nil rest
  cases pat with
  | nil => exact absurd rfl tag.ne_nil
  | cons p ps =>
    obtain rfl : p = '<' := by simpa using tag.1
    rw [List.cons_append] at here ⊢
    rw [before_append_lt tag, here, Option.map_some, List.append_nil]

theorem after_keyword (nonempty : pat ≠ []) (rest : List Char) : after pat (pat ++ rest) = some rest := by
  simp [after, before_keyword nonempty]

section Names

/-- A name that makes a tag. -/
def Named (tag : String) : Prop := ∀ c ∈ tag.toList, c ≠ '<' ∧ c ≠ '>' ∧ c ≠ '/'

instance (tag : String) : Decidable (Named tag) :=
  List.decidableBAll (fun c => c ≠ '<' ∧ c ≠ '>' ∧ c ≠ '/') tag.toList

variable {tag tag' : String}

theorem openTag_eq (tag : String) : openTag tag = '<' :: (tag.toList ++ ['>']) := by
  simp [openTag]

theorem closeTag_eq (tag : String) : closeTag tag = '<' :: '/' :: (tag.toList ++ ['>']) := by
  simp [closeTag]

/-- A text between `<` and `>` that holds neither. -/
theorem isTag_of_plain {inside : List Char} (lt : '<' ∉ inside) (gt : '>' ∉ inside) :
    IsTag ('<' :: (inside ++ ['>'])) := by
  refine ⟨rfl, ?_, ?_, ?_⟩
  · simpa using lt
  · rw [← List.cons_append, List.getLast?_concat]
  · rw [← List.cons_append, List.dropLast_concat]
    simpa using gt

theorem Named.isTag_openTag (named : Named tag) : IsTag (openTag tag) := by
  rw [openTag_eq]
  exact isTag_of_plain (fun member => (named _ member).1 rfl) (fun member => (named _ member).2.1 rfl)

theorem Named.isTag_closeTag (named : Named tag) : IsTag (closeTag tag) := by
  rw [closeTag_eq, ← List.cons_append]
  refine isTag_of_plain ?_ ?_ <;> rw [List.mem_cons, not_or]
  · exact ⟨by decide, fun member => (named _ member).1 rfl⟩
  · exact ⟨by decide, fun member => (named _ member).2.1 rfl⟩

theorem Named.isTag (named : Named tag) {t : List Char} (listed : t ∈ tagsOf tag) : IsTag t := by
  simp only [tagsOf, List.mem_cons, List.not_mem_nil, or_false] at listed
  rcases listed with rfl | rfl
  · exact named.isTag_openTag
  · exact named.isTag_closeTag

theorem openTag_inj : openTag tag = openTag tag' ↔ tag = tag' := by
  rw [openTag_eq, openTag_eq]
  simp [String.toList_inj]

theorem closeTag_inj : closeTag tag = closeTag tag' ↔ tag = tag' := by
  rw [closeTag_eq, closeTag_eq]
  simp [String.toList_inj]

theorem Named.openTag_ne_closeTag (named : Named tag) : openTag tag ≠ closeTag tag' := by
  rw [openTag_eq, closeTag_eq]
  intro same
  have slash := (List.cons.inj same).2
  cases letters : tag.toList with
  | nil =>
    rw [letters] at slash
    simp at slash
  | cons c rest =>
    rw [letters] at slash
    exact (named c (by simp [letters])).2.2 (List.cons.inj slash).1

theorem Named.openTag_not_mem (named : Named tag) (other : tag ≠ tag') : openTag tag ∉ tagsOf tag' := by
  simp [tagsOf, openTag_inj, other, named.openTag_ne_closeTag]

theorem Named.closeTag_not_mem (named : Named tag') (other : tag ≠ tag') : closeTag tag ∉ tagsOf tag' := by
  simp [tagsOf, closeTag_inj, other, named.openTag_ne_closeTag.symm]

end Names

end Openstack.TagSearch

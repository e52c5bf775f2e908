import Openstack.Lib.RustStr

/-!
Searching a text made of words for a keyword with the blank behind it: where no word ends in the keyword,
the search comes to nothing before the words end.
-/
namespace Openstack.KeywordSearch

open RustStr (before)

/-- A search for the pattern that starts in the text finds nothing before its end. -/
def Skips (pat text : List Char) : Prop :=
  ∀ rest, before pat (text ++ rest) = (before pat rest).map (text ++ ·)

variable {pat kw a b word : List Char}

theorem skips_nil : Skips pat [] := fun rest => by simp

theorem Skips.append (first : Skips pat a) (second : Skips pat b) : Skips pat (a ++ b) := by
  intro rest
  rw [List.append_assoc, first, second, Option.map_map]
  congr 1
  funext x
  exact (List.append_assoc a b x).symm

/-- A text without the first character of the pattern. -/
theorem skips_of_absent {p : Char} {ps : List Char} (absent : p ∉ a) : Skips (p :: ps) a := by
  induction a with
  | nil => exact skips_nil
  | cons c more ih =>
    intro rest
    have differs : (p == c) = false := by
      simpa using fun same => absent (by simp [same])
    have here : (p :: ps).isPrefixOf (c :: (more ++ rest)) = false := by
      rw [List.isPrefixOf, differs, Bool.false_and]
    rw [List.cons_append, before, here, if_neg Bool.false_ne_true,
      ih (fun mem => absent (by simp [mem])), Option.map_map]
    rfl

/-- A text without some character of the pattern does not hold the pattern. -/
theorem before_none_of_absent {text : List Char} {c : Char} (mem : c ∈ pat) (absent : c ∉ text) :
    before pat text = none := by
  cases found : before pat text with
  | none => rfl
  | some x =>
    have inside := (RustStr.before_isPrefix found).subset
    exact absurd (inside (List.mem_append_right x mem)) absent

/-- A text contains what stands in it, wherever that is. -/
theorem contains_iff_infix {s : List Char} : RustStr.contains s pat = true ↔ pat <:+: s := by
  rw [RustStr.contains, Option.isSome_iff_exists]
  constructor
  · rintro ⟨x, found⟩
    obtain ⟨rest, eq⟩ := RustStr.before_isPrefix found
    exact ⟨x, rest, eq⟩
  · rintro ⟨front, rest, rfl⟩
    induction front with
    | nil =>
      cases pat with
      | nil =>
        refine ⟨[], ?_⟩
        cases rest <;> rfl
      | cons p ps => exact ⟨[], by simp [before]⟩
    | cons c front ih =>
      obtain ⟨x, found⟩ := ih
      rw [List.cons_append, List.cons_append, before, found]
      split
      · exact ⟨[], rfl⟩
      · exact ⟨c :: x, rfl⟩

theorem takeWhile_word (unspaced : ' ' ∉ word) (rest : List Char) :
    (word ++ ' ' :: rest).takeWhile (· ≠ ' ') = word := by
  have all : ∀ c ∈ word, decide (c ≠ ' ') = true := fun c member =>
    decide_eq_true fun same => unspaced (same ▸ member)
  rw [List.takeWhile_append_of_pos all]
  simp

theorem not_isPrefixOf_of_ne (unspaced : ' ' ∉ word) (unspaced' : ' ' ∉ kw) (differ : kw ≠ word)
    (rest : List Char) : (kw ++ [' ']).isPrefixOf (word ++ ' ' :: rest) = false := by
  rw [Bool.eq_false_iff]
  intro here
  obtain ⟨back, eq⟩ := List.isPrefixOf_iff_prefix.mp here
  rw [List.append_assoc, List.singleton_append] at eq
  have same := congrArg (List.takeWhile (· ≠ ' ')) eq
  rw [takeWhile_word unspaced' back, takeWhile_word unspaced rest] at same
  exact differ same

/-- A word that does not end in the keyword, with the blank behind it. -/
theorem skips_word (nonempty : kw ≠ []) (unspaced : ' ' ∉ word) (unspaced' : ' ' ∉ kw)
    (apart : ¬ kw <:+ word) : Skips (kw ++ [' ']) (word ++ [' ']) := by
  induction word with
  | nil =>
    intro rest
    have here : (kw ++ [' ']).isPrefixOf ([] ++ ' ' :: rest) = false :=
      not_isPrefixOf_of_ne (by simp) unspaced' nonempty rest
    rw [List.nil_append] at here
    rw [List.nil_append, List.singleton_append, before, here, if_neg Bool.false_ne_true]
    rfl
  | cons c word ih =>
    intro rest
    have differ : kw ≠ c :: word := fun same => apart (same ▸ List.suffix_rfl)
    have here := not_isPrefixOf_of_ne unspaced unspaced' differ rest
    have later := ih (fun member => unspaced (by simp [member]))
      (fun suffix => apart (suffix.trans (List.suffix_cons c word))) rest
    rw [List.append_assoc, List.singleton_append] at later ⊢
    rw [List.cons_append] at here ⊢
    rw [before, here, if_neg Bool.false_ne_true, later, Option.map_map]
    rfl

/-- What follows is a keyword: the search ends there. -/
theorem Skips.before_keyword (skips : Skips pat a) (rest : List Char) (nonempty : pat ≠ []) :
    before pat (a ++ (pat ++ rest)) = some a := by
  have here : before pat (pat ++ rest) = some [] := by
    cases pat with
    | nil => exact absurd rfl nonempty
    | cons p ps =>
      rw [List.cons_append, before, if_pos]
      rw [← List.cons_append]
      exact List.isPrefixOf_iff_prefix.mpr (List.prefix_append _ _)
  rw [skips, here, Option.map_some, List.append_nil]

end Openstack.KeywordSearch

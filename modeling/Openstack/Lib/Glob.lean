import Mathlib.Data.List.Infix

/-!
Glob patterns: one letter of the pattern stands for any text, and every other letter for itself.
-/
namespace Openstack.Glob

variable {α : Type} {star : α}

/-- The text matches the pattern. -/
inductive Matches (star : α) : List α → List α → Prop where
  | nil : Matches star [] []
  | letter {c : α} {p s : List α} (plain : c ≠ star) (rest : Matches star p s) :
      Matches star (c :: p) (c :: s)
  | wild {p s : List α} (t : List α) (rest : Matches star p s) : Matches star (star :: p) (t ++ s)

theorem matches_nil_iff {s : List α} : Matches star [] s ↔ s = [] := by
  constructor
  · rintro ⟨⟩
    rfl
  · rintro rfl
    exact .nil

theorem matches_wild_iff {p s : List α} :
    Matches star (star :: p) s ↔ ∃ t r, s = t ++ r ∧ Matches star p r := by
  constructor
  · intro holds
    generalize pattern : star :: p = q at holds
    cases holds with
    | nil => cases pattern
    | letter plain rest =>
      cases pattern
      exact absurd rfl plain
    | wild t rest =>
      cases pattern
      exact ⟨t, _, rfl, rest⟩
  · rintro ⟨t, r, rfl, rest⟩
    exact .wild t rest

theorem matches_letter_iff {c : α} {p s : List α} (plain : c ≠ star) :
    Matches star (c :: p) s ↔ ∃ r, s = c :: r ∧ Matches star p r := by
  constructor
  · intro holds
    cases holds with
    | letter _ rest => exact ⟨_, rfl, rest⟩
    | wild t rest => exact absurd rfl plain
  · rintro ⟨r, rfl, rest⟩
    exact .letter plain rest

/-- A pattern in two parts matches the texts in two parts. -/
theorem matches_append_iff {p q s : List α} :
    Matches star (p ++ q) s ↔ ∃ a b, s = a ++ b ∧ Matches star p a ∧ Matches star q b := by
  constructor
  · intro holds
    induction p generalizing s with
    | nil => exact ⟨[], s, rfl, .nil, holds⟩
    | cons c p ih =>
      rw [List.cons_append] at holds
      by_cases wild : c = star
      · subst wild
        obtain ⟨t, r, rfl, rest⟩ := matches_wild_iff.mp holds
        obtain ⟨a, b, rfl, left, right⟩ := ih rest
        exact ⟨t ++ a, b, (List.append_assoc t a b).symm, .wild t left, right⟩
      · obtain ⟨r, rfl, rest⟩ := (matches_letter_iff wild).mp holds
        obtain ⟨a, b, rfl, left, right⟩ := ih rest
        exact ⟨c :: a, b, rfl, .letter wild left, right⟩
  · rintro ⟨a, b, rfl, left, right⟩
    induction left with
    | nil => exact right
    | letter plain _ ih => exact .letter plain ih
    | wild t _ ih =>
      rw [List.append_assoc]
      exact .wild t ih

/-- Without the wild letter a pattern matches itself only. -/
theorem matches_plain_iff {p s : List α} (plain : star ∉ p) : Matches star p s ↔ s = p := by
  induction p generalizing s with
  | nil => exact matches_nil_iff
  | cons c p ih =>
    rw [List.mem_cons, not_or] at plain
    obtain ⟨here, later⟩ := plain
    rw [matches_letter_iff (Ne.symm here)]
    constructor
    · rintro ⟨r, rfl, rest⟩
      rw [(ih later).mp rest]
    · rintro rfl
      exact ⟨p, rfl, (ih later).mpr rfl⟩

/-- Every pattern matches its own text: the wild letter stands for itself too. -/
theorem matches_self (star : α) (p : List α) : Matches star p p := by
  induction p with
  | nil => exact .nil
  | cons c p ih =>
    by_cases wild : c = star
    · subst wild
      exact .wild [c] ih
    · exact .letter wild ih

/-- A pattern that may be open on its left and on its right. -/
theorem matches_open_iff {p s : List α} (left right : Bool) :
    Matches star ((if left then [star] else []) ++ p ++ if right then [star] else []) s ↔
      ∃ a b c, s = a ++ b ++ c ∧ (left = false → a = []) ∧ Matches star p b ∧ (right = false → c = []) := by
  have ends : ∀ (wild : Bool) (a : List α),
      Matches star (if wild then [star] else []) a ↔ (wild = false → a = []) := by
    intro wild a
    cases wild with
    | false => simp [matches_nil_iff]
    | true => simp [matches_wild_iff, matches_nil_iff]
  simp only [matches_append_iff, ends]
  constructor
  · rintro ⟨ab, c, rfl, ⟨a, b, rfl, first, middle⟩, last⟩
    exact ⟨a, b, c, rfl, first, middle, last⟩
  · rintro ⟨a, b, c, rfl, first, middle, last⟩
    exact ⟨a ++ b, c, rfl, ⟨a, b, rfl, first, middle⟩, last⟩

section Test

variable [DecidableEq α] (star)

def test : List α → List α → Bool
  | [], s => s.isEmpty
  | c :: p, s => if c = star then s.tails.any (test p) else s.head? = some c && test p s.tail

variable {star}

theorem test_iff {p s : List α} : test star p s = true ↔ Matches star p s := by
  induction p generalizing s with
  | nil => simp [test, matches_nil_iff]
  | cons c p ih =>
    by_cases wild : c = star
    · subst wild
      rw [test, if_pos rfl, List.any_eq_true, matches_wild_iff]
      simp only [List.mem_tails, ih]
      constructor
      · rintro ⟨r, ⟨t, rfl⟩, rest⟩
        exact ⟨t, r, rfl, rest⟩
      · rintro ⟨t, r, rfl, rest⟩
        exact ⟨r, List.suffix_append t r, rest⟩
    · rw [test, if_neg wild, matches_letter_iff wild]
      cases s with
      | nil => simp
      | cons d s =>
        rw [List.head?_cons, List.tail_cons, Bool.and_eq_true, decide_eq_true_eq, Option.some.injEq, ih]
        constructor
        · rintro ⟨rfl, rest⟩
          exact ⟨s, rfl, rest⟩
        · rintro ⟨r, same, rest⟩
          cases same
          exact ⟨rfl, rest⟩

instance (p s : List α) : Decidable (Matches star p s) := decidable_of_iff _ test_iff

end Test

end Openstack.Glob

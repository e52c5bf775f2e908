import Mathlib.Algebra.Order.Field.Basic
import Mathlib.Algebra.Order.Field.Rat
import Mathlib.Data.Nat.Digits.Defs
import Mathlib.Tactic.Linarith
import Mathlib.Tactic.Ring
import Mathlib.Tactic.FieldSimp
import Mathlib.Tactic.Positivity

/-!
Digits with the most significant one first, as numbers are written: comparing two such lists, as integer
parts or as the places behind the point, compares the numbers.
-/
namespace Openstack.Positional

/-- The number with these digits. -/
def value (b : ℕ) (ds : List ℕ) : ℕ := Nat.ofDigits b ds.reverse

variable {b : ℕ}

@[simp] theorem value_nil : value b [] = 0 := rfl

theorem value_append (xs ys : List ℕ) :
    value b (xs ++ ys) = value b xs * b ^ ys.length + value b ys := by
  rw [value, List.reverse_append, Nat.ofDigits_append, List.length_reverse, value, value]
  ring

theorem value_cons (d : ℕ) (ds : List ℕ) : value b (d :: ds) = d * b ^ ds.length + value b ds := by
  have split := value_append (b := b) [d] ds
  rwa [List.singleton_append, value, value, List.reverse_singleton, Nat.ofDigits_singleton] at split

theorem value_zeros (ds : List ℕ) (k : ℕ) :
    value b (ds ++ List.replicate k 0) = value b ds * b ^ k := by
  rw [value_append, List.length_replicate, value, value, List.reverse_replicate,
    Nat.ofDigits_replicate_zero, Nat.add_zero]

theorem value_lt (base : 1 < b) {ds : List ℕ} (digits : ∀ d ∈ ds, d < b) :
    value b ds < b ^ ds.length := by
  have bound := Nat.ofDigits_lt_base_pow_length (l := ds.reverse) base (by simpa using digits)
  rwa [List.length_reverse] at bound

theorem compare_add {n m r s B : ℕ} (hr : r < B) (hs : s < B) :
    compare (n * B + r) (m * B + s) = (compare n m).then (compare r s) := by
  rcases Nat.lt_trichotomy n m with less | rfl | greater
  · have far : (n + 1) * B ≤ m * B := Nat.mul_le_mul_right B less
    rw [compare_lt_iff_lt.mpr less, compare_lt_iff_lt.mpr (by rw [Nat.add_mul] at far; omega)]
    rfl
  · rw [compare_eq_iff_eq.mpr rfl]
    rcases Nat.lt_trichotomy r s with less | rfl | greater
    · rw [compare_lt_iff_lt.mpr less, compare_lt_iff_lt.mpr (by omega)]
      rfl
    · rw [compare_eq_iff_eq.mpr rfl, compare_eq_iff_eq.mpr rfl]
      rfl
    · rw [compare_gt_iff_gt.mpr greater, compare_gt_iff_gt.mpr (by omega)]
      rfl
  · have far : (m + 1) * B ≤ n * B := Nat.mul_le_mul_right B greater
    rw [compare_gt_iff_gt.mpr greater, compare_gt_iff_gt.mpr (by rw [Nat.add_mul] at far; omega)]
    rfl

/-- Digit by digit, where the lengths agree. -/
theorem compare_of_length (base : 1 < b) {xs ys : List ℕ} (same : xs.length = ys.length)
    (hx : ∀ d ∈ xs, d < b) (hy : ∀ d ∈ ys, d < b) :
    compare xs ys = compare (value b xs) (value b ys) := by
  induction xs generalizing ys with
  | nil => rw [List.length_eq_zero_iff.mp same.symm]; rfl
  | cons x xs ih =>
    cases ys with
    | nil => cases same
    | cons y ys =>
      have same' : xs.length = ys.length := Nat.succ.inj same
      have hx' : ∀ d ∈ xs, d < b := fun d member => hx d (by simp [member])
      have hy' : ∀ d ∈ ys, d < b := fun d member => hy d (by simp [member])
      rw [List.compare_cons_cons, ih same' hx' hy', value_cons, value_cons, same',
        compare_add (same' ▸ value_lt base hx') (value_lt base hy')]

/-- A number without leading zeros is at least as large as its length says. -/
theorem le_value {ds : List ℕ} (lead : ds.head? ≠ some 0) (some_digit : ds ≠ []) :
    b ^ (ds.length - 1) ≤ value b ds := by
  cases ds with
  | nil => exact absurd rfl some_digit
  | cons d ds =>
    have positive : 0 < d := Nat.pos_of_ne_zero fun zero => lead (by simp [zero])
    rw [value_cons, List.length_cons, Nat.add_sub_cancel]
    calc b ^ ds.length = 1 * b ^ ds.length := (Nat.one_mul _).symm
      _ ≤ d * b ^ ds.length := Nat.mul_le_mul_right _ positive
      _ ≤ d * b ^ ds.length + value b ds := Nat.le_add_right _ _

theorem value_lt_of_shorter (base : 1 < b) {xs ys : List ℕ} (hx : ∀ d ∈ xs, d < b)
    (lead : ys.head? ≠ some 0) (shorter : xs.length < ys.length) : value b xs < value b ys := by
  calc value b xs < b ^ xs.length := value_lt base hx
    _ ≤ b ^ (ys.length - 1) := Nat.pow_le_pow_right (by omega) (by omega)
    _ ≤ value b ys := le_value lead (by rintro rfl; simp at shorter)

/-- By length and then digit by digit. -/
theorem compare_value (base : 1 < b) {xs ys : List ℕ} (hx : ∀ d ∈ xs, d < b) (hy : ∀ d ∈ ys, d < b)
    (leadX : xs.head? ≠ some 0) (leadY : ys.head? ≠ some 0) :
    (compare xs.length ys.length).then (compare xs ys) = compare (value b xs) (value b ys) := by
  rcases Nat.lt_trichotomy xs.length ys.length with shorter | same | longer
  · rw [compare_lt_iff_lt.mpr shorter,
      compare_lt_iff_lt.mpr (value_lt_of_shorter base hx leadY shorter)]
    rfl
  · rw [compare_eq_iff_eq.mpr same, compare_of_length base same hx hy]
    rfl
  · rw [compare_gt_iff_gt.mpr longer,
      compare_gt_iff_gt.mpr (value_lt_of_shorter base hy leadX longer)]
    rfl

/-- The number with these digits behind the point. -/
def fraction (b : ℕ) (ds : List ℕ) : ℚ := value b ds / b ^ ds.length

theorem fraction_nonneg (ds : List ℕ) : 0 ≤ fraction b ds := by
  rw [fraction]
  positivity

theorem fraction_lt_one (base : 1 < b) {ds : List ℕ} (digits : ∀ d ∈ ds, d < b) :
    fraction b ds < 1 := by
  rw [fraction, div_lt_one (by positivity)]
  exact_mod_cast value_lt base digits

/-- Zeros at the end say nothing. -/
theorem fraction_zeros (base : 1 < b) (ds : List ℕ) (k : ℕ) :
    fraction b (ds ++ List.replicate k 0) = fraction b ds := by
  have nonzero : (b : ℚ) ≠ 0 := by exact_mod_cast (by omega : b ≠ 0)
  rw [fraction, fraction, value_zeros, List.length_append, List.length_replicate, pow_add]
  push_cast
  field_simp

theorem compare_fraction (base : 1 < b) {xs ys : List ℕ} (same : xs.length = ys.length)
    (hx : ∀ d ∈ xs, d < b) (hy : ∀ d ∈ ys, d < b) :
    compare xs ys = compare (fraction b xs) (fraction b ys) := by
  have positive : (0 : ℚ) < b ^ ys.length := by
    have base' : (0 : ℚ) < b := by exact_mod_cast (by omega : 0 < b)
    positivity
  have scaled : StrictMono fun n : ℕ => (n : ℚ) / b ^ ys.length := by
    intro n m less
    exact div_lt_div_of_pos_right (by exact_mod_cast less) positive
  rw [compare_of_length base same hx hy, fraction, fraction, same, ← cmp_eq_compare, ← cmp_eq_compare]
  exact (scaled.cmp_map_eq _ _).symm

/-- The integers decide before the fractions. -/
theorem compare_mixed {n m : ℕ} {f g : ℚ} (hf : 0 ≤ f) (hf' : f < 1) (hg : 0 ≤ g) (hg' : g < 1) :
    compare (n + f) (m + g) = (compare n m).then (compare f g) := by
  rcases Nat.lt_trichotomy n m with less | rfl | greater
  · have far : (n : ℚ) + 1 ≤ m := by exact_mod_cast less
    rw [compare_lt_iff_lt.mpr less, compare_lt_iff_lt.mpr (by linarith)]
    rfl
  · rw [compare_eq_iff_eq.mpr rfl, ← cmp_eq_compare, ← cmp_eq_compare]
    exact (add_right_strictMono (a := (n : ℚ))).cmp_map_eq f g
  · have far : (m : ℚ) + 1 ≤ n := by exact_mod_cast greater
    rw [compare_gt_iff_gt.mpr greater, compare_gt_iff_gt.mpr (by linarith)]
    rfl

end Openstack.Positional

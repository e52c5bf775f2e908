import Openstack.DynamoDb.KeyIdentity
import Openstack.DynamoDb.NumberOrder
import Openstack.Lib.Positional

/-!
# The order of numbers

On texts of the form `-?digits[.digits]`, comparing texts (`store.rs:301-366`) is comparing the numbers,
but for a negative zero, which comes before the other one.
-/
namespace Openstack.DynamoDb

variable {cs : List Char} {c : Char} {xs ys : List Char}

def digitOf (c : Char) : ℕ := c.toNat - '0'.toNat

/-- Digits, with digits behind the point if there is one. -/
def PlainMagnitude (m : List Char) : Prop :=
  ((splitDecimal m).1 ≠ [] ∧ ∀ c ∈ (splitDecimal m).1, c.isDigit = true) ∧
    ('.' ∈ m → (splitDecimal m).2 ≠ []) ∧ ∀ c ∈ (splitDecimal m).2, c.isDigit = true

instance (m : List Char) : Decidable (PlainMagnitude m) :=
  decidable_of_iff (((splitDecimal m).1 ≠ [] ∧ (splitDecimal m).1.all Char.isDigit = true) ∧
    ('.' ∈ m → (splitDecimal m).2 ≠ []) ∧ (splitDecimal m).2.all Char.isDigit = true)
    (by simp only [PlainMagnitude, List.all_eq_true])

/-- `-?digits[.digits]`. -/
def PlainNumber (s : String) : Prop := PlainMagnitude (magnitude s)

instance (s : String) : Decidable (PlainNumber s) := inferInstanceAs (Decidable (PlainMagnitude _))

def magnitudeValue (m : List Char) : ℚ :=
  Positional.value 10 ((splitDecimal m).1.map digitOf) +
    Positional.fraction 10 ((splitDecimal m).2.map digitOf)

def plainValue (s : String) : ℚ :=
  if isNegative s then -magnitudeValue (magnitude s) else magnitudeValue (magnitude s)

def byteOf (c : Char) : UInt8 := c.val.toUInt8

theorem isDigit_bounds (digit : c.isDigit = true) : 48 ≤ c.toNat ∧ c.toNat ≤ 57 := by
  simpa [Char.isDigit, UInt32.le_iff_toNat_le] using digit

theorem utf8Bytes_digits (digits : ∀ c ∈ cs, c.isDigit = true) :
    utf8Bytes cs = cs.map byteOf := by
  induction cs with
  | nil => rfl
  | cons c rest ih =>
    have small : c.utf8Size = 1 := by
      have bounds := isDigit_bounds (digits c (by simp))
      rw [Char.utf8Size_eq_one_iff, UInt32.le_iff_toNat_le]
      change c.toNat ≤ 127
      omega
    rw [utf8Bytes, List.flatMap_cons, ← utf8Bytes, ih fun d member => digits d (by simp [member]),
      String.utf8EncodeChar_eq_singleton small]
    rfl

theorem compare_digits {c d : Char} (hc : c.isDigit = true) (hd : d.isDigit = true) :
    compare (byteOf c) (byteOf d) = compare (digitOf c) (digitOf d) := by
  have digit : ∀ {c : Char}, c.isDigit = true → (byteOf c).toNat = 48 + digitOf c := by
    intro c digit
    have bounds := isDigit_bounds digit
    change c.toNat % 256 = 48 + (c.toNat - 48)
    omega
  have less : byteOf c < byteOf d ↔ digitOf c < digitOf d := by
    rw [UInt8.lt_iff_toNat_lt, digit hc, digit hd]
    omega
  have same : byteOf c = byteOf d ↔ digitOf c = digitOf d := by
    rw [← UInt8.toNat_inj, digit hc, digit hd]
    omega
  change compareOfLessAndEq (byteOf c) (byteOf d) = compareOfLessAndEq (digitOf c) (digitOf d)
  simp only [compareOfLessAndEq, less, same]

theorem compare_map (hx : ∀ c ∈ xs, c.isDigit = true) (hy : ∀ c ∈ ys, c.isDigit = true) :
    compare (xs.map byteOf) (ys.map byteOf) = compare (xs.map digitOf) (ys.map digitOf) := by
  induction xs generalizing ys with
  | nil => cases ys <;> rfl
  | cons x xs ih =>
    cases ys with
    | nil => rfl
    | cons y ys =>
      rw [List.map_cons, List.map_cons, List.map_cons, List.map_cons, List.compare_cons_cons,
        List.compare_cons_cons, compare_digits (hx x (by simp)) (hy y (by simp)),
        ih (fun c member => hx c (by simp [member])) fun c member => hy c (by simp [member])]

theorem digitOf_lt (digit : c.isDigit = true) : digitOf c < 10 := by
  have bounds := isDigit_bounds digit
  change c.toNat - 48 < 10
  omega

theorem digitOf_eq_zero (digit : c.isDigit = true) : digitOf c = 0 ↔ c = '0' := by
  have bounds := isDigit_bounds digit
  constructor
  · intro zero
    have code : c.toNat = '0'.toNat := by
      change c.toNat - 48 = 0 at zero
      change c.toNat = 48
      omega
    exact Char.toNat_inj.mp code
  · rintro rfl
    rfl

theorem value_dropWhile (cs : List Char) :
    Positional.value 10 ((cs.dropWhile (· = '0')).map digitOf) = Positional.value 10 (cs.map digitOf) := by
  induction cs with
  | nil => rfl
  | cons c rest ih =>
    by_cases zero : c = '0'
    · subst zero
      rw [List.dropWhile_cons_of_pos (by simp), ih, List.map_cons, Positional.value_cons]
      simp [digitOf]
    · rw [List.dropWhile_cons_of_neg (by simpa using zero)]

theorem cmpInteger (hx : ∀ c ∈ xs, c.isDigit = true) (hy : ∀ c ∈ ys, c.isDigit = true) :
    let x := utf8Bytes (xs.dropWhile (· = '0'))
    let y := utf8Bytes (ys.dropWhile (· = '0'))
    (compare x.length y.length).then (compare x y) =
      compare (Positional.value 10 (xs.map digitOf)) (Positional.value 10 (ys.map digitOf)) := by
  have digits : ∀ {cs : List Char}, (∀ c ∈ cs, c.isDigit = true) →
      ∀ c ∈ cs.dropWhile (· = '0'), c.isDigit = true :=
    fun all c member => all c ((List.dropWhile_sublist _).subset member)
  have bounded : ∀ {cs : List Char}, (∀ c ∈ cs, c.isDigit = true) →
      ∀ d ∈ (cs.dropWhile (· = '0')).map digitOf, d < 10 := by
    intro cs all d member
    obtain ⟨c, listed, rfl⟩ := List.mem_map.mp member
    exact digitOf_lt (digits all c listed)
  have lead : ∀ {cs : List Char}, (∀ c ∈ cs, c.isDigit = true) →
      ((cs.dropWhile (· = '0')).map digitOf).head? ≠ some 0 := by
    intro cs all zero
    cases rest : cs.dropWhile (· = '0') with
    | nil => simp [rest] at zero
    | cons c others =>
      have first := List.head_dropWhile_not (· = '0') (l := cs) (by simp [rest])
      simp only [rest, List.head_cons, decide_eq_false_iff_not] at first
      simp only [rest, List.map_cons, List.head?_cons, Option.some.injEq] at zero
      exact first ((digitOf_eq_zero (digits all c (by simp [rest]))).mp zero)
  intro x y
  have compared := Positional.compare_value (b := 10) (by omega) (bounded hx) (bounded hy) (lead hx) (lead hy)
  rw [value_dropWhile, value_dropWhile, List.length_map, List.length_map] at compared
  rw [← compared]
  simp only [x, y, utf8Bytes_digits (digits hx), utf8Bytes_digits (digits hy), List.length_map,
    compare_map (digits hx) (digits hy)]

theorem fraction_rdropWhile (cs : List Char) : Positional.fraction 10 ((cs.rdropWhile (· = '0')).map digitOf) =
    Positional.fraction 10 (cs.map digitOf) := by
  induction cs using List.reverseRecOn with
  | nil => rfl
  | append_singleton cs c ih =>
    by_cases zero : c = '0'
    · subst zero
      rw [List.rdropWhile_concat_pos _ _ _ (by simp), ih, List.map_append]
      exact (Positional.fraction_zeros (by omega) (cs.map digitOf) 1).symm
    · rw [List.rdropWhile_concat_neg _ _ _ (by simpa using zero)]

theorem mem_rdropWhile (member : c ∈ cs.rdropWhile (· = '0')) : c ∈ cs :=
  (List.rdropWhile_prefix _ _).subset member

/-- Zeros up to `n` places. -/
def padDigits (n : Nat) (cs : List Char) : List Char := cs ++ List.replicate (n - cs.length) '0'

theorem padDigits_digits {n : Nat} (digits : ∀ c ∈ cs, c.isDigit = true) :
    ∀ c ∈ padDigits n cs, c.isDigit = true := by
  intro c member
  rcases List.mem_append.mp member with inside | zero
  · exact digits c inside
  · rw [List.eq_of_mem_replicate zero]
    rfl

theorem length_padDigits {n : Nat} (short : cs.length ≤ n) :
    (padDigits n cs).length = n := by
  rw [padDigits, List.length_append, List.length_replicate]
  omega

theorem padFraction_bytes (n : Nat) (cs : List Char) :
    padFraction n (cs.map byteOf) = (padDigits n cs).map byteOf := by
  rw [padFraction, padDigits, List.map_append, List.map_replicate, List.length_map]
  rfl

theorem fraction_padDigits (n : Nat) (cs : List Char) :
    Positional.fraction 10 ((padDigits n cs).map digitOf) = Positional.fraction 10 (cs.map digitOf) := by
  rw [padDigits, List.map_append, List.map_replicate]
  exact Positional.fraction_zeros (by omega) _ _

theorem digits_bounded (digits : ∀ c ∈ cs, c.isDigit = true) :
    ∀ d ∈ cs.map digitOf, d < 10 := by
  intro d member
  obtain ⟨c, listed, rfl⟩ := List.mem_map.mp member
  exact digitOf_lt (digits c listed)

theorem cmpFraction_value (hx : ∀ c ∈ xs, c.isDigit = true) (hy : ∀ c ∈ ys, c.isDigit = true) :
    cmpFraction (utf8Bytes (xs.rdropWhile (· = '0'))) (utf8Bytes (ys.rdropWhile (· = '0'))) =
      compare (Positional.fraction 10 (xs.map digitOf)) (Positional.fraction 10 (ys.map digitOf)) := by
  rw [← fraction_rdropWhile xs, ← fraction_rdropWhile ys]
  have hx : ∀ c ∈ xs.rdropWhile (· = '0'), c.isDigit = true := fun c member => hx c (mem_rdropWhile member)
  have hy : ∀ c ∈ ys.rdropWhile (· = '0'), c.isDigit = true := fun c member => hy c (mem_rdropWhile member)
  generalize xs.rdropWhile (· = '0') = xs at hx
  generalize ys.rdropWhile (· = '0') = ys at hy
  have fitX : xs.length ≤ max xs.length ys.length := by omega
  have fitY : ys.length ≤ max xs.length ys.length := by omega
  rw [utf8Bytes_digits hx, utf8Bytes_digits hy, cmpFraction_eq_compare (max xs.length ys.length) _ _
    (by rwa [List.length_map]) (by rwa [List.length_map]), padFraction_bytes, padFraction_bytes,
    compare_map (padDigits_digits hx) (padDigits_digits hy),
    Positional.compare_fraction (b := 10) (by omega) (by
      rw [List.length_map, List.length_map, length_padDigits fitX, length_padDigits fitY])
      (digits_bounded (padDigits_digits hx)) (digits_bounded (padDigits_digits hy)),
    fraction_padDigits, fraction_padDigits]

theorem cmpMagnitude_value {x y : List Char} (hx : PlainMagnitude x) (hy : PlainMagnitude y) :
    cmpMagnitude x y = compare (magnitudeValue x) (magnitudeValue y) := by
  rw [magnitudeValue, magnitudeValue, Positional.compare_mixed (Positional.fraction_nonneg _)
    (Positional.fraction_lt_one (by omega) (digits_bounded hx.2.2)) (Positional.fraction_nonneg _)
    (Positional.fraction_lt_one (by omega) (digits_bounded hy.2.2)), ← cmpInteger hx.1.2 hy.1.2,
    ← cmpFraction_value hx.2.2 hy.2.2, Ordering.then_assoc]
  rfl

theorem magnitudeValue_nonneg (m : List Char) : 0 ≤ magnitudeValue m :=
  add_nonneg (Nat.cast_nonneg _) (Positional.fraction_nonneg _)

/-- Zeros of which one is written with a sign. -/
def ZerosApart (x y : String) : Prop :=
  plainValue x = 0 ∧ plainValue y = 0 ∧ isNegative x ≠ isNegative y

instance (x y : String) : Decidable (ZerosApart x y) := inferInstanceAs (Decidable (_ ∧ _))

theorem compare_neg (p q : ℚ) : compare (-p) (-q) = (compare p q).swap := by
  rcases lt_trichotomy p q with less | rfl | greater
  · rw [compare_lt_iff_lt.mpr less, compare_gt_iff_gt.mpr (neg_lt_neg less)]
    rfl
  · rw [compare_eq_iff_eq.mpr rfl, compare_eq_iff_eq.mpr rfl]
    rfl
  · rw [compare_gt_iff_gt.mpr greater, compare_lt_iff_lt.mpr (neg_lt_neg greater)]
    rfl

/-- Comparing plain numbers as texts is comparing their values, zeros apart. -/
theorem cmpNumericStr_value {x y : String} (hx : PlainNumber x) (hy : PlainNumber y) :
    cmpNumericStr x y = if ZerosApart x y then (if isNegative x then .lt else .gt)
      else compare (plainValue x) (plainValue y) := by
  have px := magnitudeValue_nonneg (magnitude x)
  have py := magnitudeValue_nonneg (magnitude y)
  have compared := cmpMagnitude_value hx hy
  rw [cmpNumericStr_eq]
  unfold ZerosApart plainValue
  rcases Bool.eq_false_or_eq_true (isNegative x) with nx | nx <;>
    rcases Bool.eq_false_or_eq_true (isNegative y) with ny | ny <;>
    simp only [nx, ny, Bool.false_eq_true, if_true, if_false, ne_eq, not_true_eq_false,
      not_false_eq_true, reduceCtorEq, and_false, and_true]
  · rw [compared, compare_neg]
  · split
    · rfl
    · next apart =>
      refine (compare_lt_iff_lt.mpr ?_).symm
      by_contra above
      exact apart ⟨by linarith, by linarith⟩
  · split
    · rfl
    · next apart =>
      refine (compare_gt_iff_gt.mpr ?_).symm
      by_contra below
      exact apart ⟨by linarith, by linarith⟩
  · exact compared

theorem digitsValue_eq (cs : List Char) :
    RustFmt.digitsValue cs = Positional.value 10 (cs.map digitOf) := by
  induction cs using List.reverseRecOn with
  | nil => rfl
  | append_singleton cs c ih =>
    rw [RustFmt.digitsValue, List.foldl_append, List.map_append, Positional.value_append,
      ← RustFmt.digitsValue, ih]
    simp [Positional.value, digitOf, Nat.mul_comm]

theorem plainMagnitude_chars {m : List Char} (plain : PlainMagnitude m) :
    ∀ c ∈ m, c.isDigit = true ∨ c = '.' := by
  intro c member
  rw [← List.takeWhile_append_dropWhile (p := (· ≠ '.')) (l := m), List.mem_append] at member
  have behind : ∀ d ∈ (m.dropWhile (· ≠ '.')).tail, d.isDigit = true := plain.2.2
  rcases member with before | after
  · exact .inl (plain.1.2 c before)
  · have first := List.head?_dropWhile_not (· ≠ '.') m
    cases rest : m.dropWhile (· ≠ '.') with
    | nil =>
      rw [rest] at after
      cases after
    | cons d others =>
      rw [rest] at after behind first
      rcases List.mem_cons.mp after with rfl | later
      · exact .inr (by simpa using first)
      · exact .inl (behind c later)

theorem splitSign_plain {s : String} (plain : PlainNumber s) :
    splitSign s.toList = (if isNegative s then -1 else 1, magnitude s) := by
  have signless : ∀ rest, magnitude s ≠ '+' :: rest := by
    intro rest same
    have chars := plainMagnitude_chars plain '+' (by simp [same])
    revert chars
    decide
  unfold magnitude isNegative at *
  unfold splitSign
  cases text : s.toList with
  | nil => rfl
  | cons c rest =>
    by_cases minus : c = '-'
    · subst minus
      rfl
    · have unsigned : (some c == some '-') = false := by simpa using minus
      simp only [text, List.head?_cons, unsigned, Bool.false_eq_true, if_false] at signless ⊢
      split
      · next same => exact absurd (List.cons.inj same).1 minus
      · next same => exact absurd same (signless _)
      · rfl

theorem no_exponent {m : List Char} (plain : PlainMagnitude m) :
    ∀ c ∈ m, (!isExponentMark c) = true := by
  intro c member
  rcases plainMagnitude_chars plain c member with digit | rfl
  · have bounds := isDigit_bounds digit
    have notMark : ∀ d : Char, 57 < d.toNat → c ≠ d := by
      rintro d large rfl
      omega
    simp [isExponentMark, notMark 'e' (by decide), notMark 'E' (by decide)]
  · rfl

/-- The value of a plain number is the one that its digits spell. -/
theorem numericValue_plain {s : String} (plain : PlainNumber s) :
    numericValue s = some (plainValue s) := by
  have marks := no_exponent plain
  have whole : (magnitude s).takeWhile (fun c => !isExponentMark c) = magnitude s :=
    List.takeWhile_eq_self_iff.mpr marks
  have end' : (magnitude s).dropWhile (fun c => !isExponentMark c) = [] :=
    List.dropWhile_eq_nil_iff.mpr marks
  have exponent : exponentValue (magnitude s) = some 0 := by rw [exponentValue, end']
  have digits : digits? ((splitDecimal (magnitude s)).1 ++ (splitDecimal (magnitude s)).2) =
      some (RustFmt.digitsValue
        ((splitDecimal (magnitude s)).1 ++ (splitDecimal (magnitude s)).2)) := by
    refine if_pos ⟨by simp [plain.1.1], List.all_eq_true.mpr fun c member => ?_⟩
    rcases List.mem_append.mp member with before | behind
    · exact plain.1.2 c before
    · exact plain.2.2 c behind
  have value : (RustFmt.digitsValue ((splitDecimal (magnitude s)).1 ++ (splitDecimal (magnitude s)).2) : ℚ) *
      10 ^ ((0 : ℤ) - (splitDecimal (magnitude s)).2.length) = magnitudeValue (magnitude s) := by
    rw [digitsValue_eq, List.map_append, Positional.value_append, magnitudeValue, Positional.fraction,
      List.length_map, zero_sub, zpow_neg, zpow_natCast]
    push_cast
    field_simp
  rw [numericValue, splitSign_plain plain]
  simp only [whole, digits, exponent, Option.bind_eq_bind, Option.bind_some, mul_assoc, value, plainValue]
  split <;> simp

/-- A text of the form `-?digits[.digits]`. -/
abbrev Numeral := { s : String // PlainNumber s }

/-- The comparison of two numerals is that of their values. -/
def ComparesExactly (x y : Numeral) : Prop := cmpNumericStr x y = compare (plainValue x) (plainValue y)

theorem comparesExactly_iff (x y : Numeral) : ComparesExactly x y ↔ ¬ ZerosApart x y := by
  rw [ComparesExactly, cmpNumericStr_value x.2 y.2]
  constructor
  · intro exact_order apart
    have equal : compare (plainValue x) (plainValue y) = .eq :=
      compare_eq_iff_eq.mpr (apart.1.trans apart.2.1.symm)
    rw [if_pos apart, equal] at exact_order
    split at exact_order
    · cases exact_order
    · cases exact_order
  · intro together
    rw [if_neg together]

theorem avCompare_n (x y : String) : avCompare (.n x) (.n y) = some (cmpNumericStr x y) := rfl

theorem avCompare_n_isLE {x y : String} :
    (∃ o, avCompare (.n x) (.n y) = some o ∧ o.isLE = true) ↔ (cmpNumericStr x y).isLE = true := by
  rw [avCompare_n]
  simp

/-- Two numerals that are not above each other have the same value. -/
theorem value_eq_of_isLE {x y : Numeral} (le : (cmpNumericStr x y).isLE = true)
    (ge : (cmpNumericStr y x).isLE = true) : plainValue x = plainValue y := by
  have same : cmpNumericStr x y = .eq := Std.OrientedCmp.isLE_antisymm le ge
  rw [cmpNumericStr_value x.2 y.2] at same
  split at same
  · split at same
    · cases same
    · cases same
  · exact compare_eq_iff_eq.mp same

/-- On numerals, `av_compare` is reflexive, antisymmetric up to the value and transitive in any case. -/
structure OrdersNumerals (x y z : Numeral) : Prop where
  reflexive : avCompare (.n x) (.n x) = some .eq
  antisymmetric : (∃ o, avCompare (.n x) (.n y) = some o ∧ o.isLE = true) →
    (∃ o, avCompare (.n y) (.n x) = some o ∧ o.isLE = true) → plainValue x = plainValue y
  transitive : (∃ o, avCompare (.n x) (.n y) = some o ∧ o.isLE = true) →
    (∃ o, avCompare (.n y) (.n z) = some o ∧ o.isLE = true) →
      ∃ o, avCompare (.n x) (.n z) = some o ∧ o.isLE = true

theorem ordersNumerals (x y z : Numeral) : OrdersNumerals x y z where
  reflexive := congrArg some Std.ReflCmp.compare_self
  antisymmetric le ge := value_eq_of_isLE (avCompare_n_isLE.mp le) (avCompare_n_isLE.mp ge)
  transitive le le' := avCompare_n_isLE.mpr
    (Std.TransCmp.isLE_trans (avCompare_n_isLE.mp le) (avCompare_n_isLE.mp le'))

/-- Numbers compare exactly, and `av_compare` orders them, unless they are zeros of which one has a sign. -/
theorem numeric_comparison_iff (x y z : Numeral) :
    ComparesExactly x y ∧ OrdersNumerals x y z ↔ ¬ ZerosApart x y := by
  rw [and_iff_left (ordersNumerals x y z)]
  exact comparesExactly_iff x y

/-- A negative zero comes before the other one. -/
theorem negative_zero_below_zero : ¬ ∀ x y : Numeral, ComparesExactly x y := by
  intro exact_order
  have zeros := exact_order ⟨"-0", by decide⟩ ⟨"0", by decide⟩
  have values : plainValue "-0" = plainValue "0" := by decide +kernel
  rw [ComparesExactly, values, compare_eq_iff_eq.mpr rfl] at zeros
  exact absurd zeros (by decide)

end Openstack.DynamoDb

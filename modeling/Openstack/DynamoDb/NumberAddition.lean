import Openstack.DynamoDb.NumberValues
import Openstack.DynamoDb.UpdateFaithfulness

/-!
# Adding numbers

`store.rs:1223-1243`, where both numbers go through the decimals of a library: a coefficient of 96 bits with
at most 28 places. Numbers of the service have 38 digits. A number that the library refuses leaves the
attribute as it is, and a sum that does not fit panics.
-/
namespace Openstack.DynamoDb

def Representable (q : ℚ) : Prop := ∃ e ≤ 28, ∃ c : ℤ, c.natAbs < 2 ^ 96 ∧ q = c / 10 ^ e

/-- A text `-?digits[.digits]` whose digits are a coefficient of 96 bits, with at most 28 of them behind
the point. -/
def Fitting (s : String) : Prop :=
  PlainNumber s ∧ (splitDecimal (magnitude s)).2.length ≤ 28 ∧
    RustFmt.digitsValue ((splitDecimal (magnitude s)).1 ++ (splitDecimal (magnitude s)).2) < 2 ^ 96

instance (s : String) : Decidable (Fitting s) := inferInstanceAs (Decidable (_ ∧ _))

/-- What the update clauses rely on: fitting texts are read exactly, other texts in any way, and an addition
panics when its sum does not fit. -/
structure DecimalLibrary extends DecimalOps where
  value : Decimal → ℚ
  representable : ∀ x, Representable (value x)
  reads : ∀ s, Fitting s → ∃ x, fromStr s = some x ∧ numericValue s = some (value x)
  sum : ∀ x y z, add x y = some z → value z = value x + value y
  sum_fits : ∀ x y, Representable (value x + value y) → (add x y).isSome = true
  value_normalize : ∀ x, value (normalize x) = value x
  value_toStr : ∀ x, numericValue (toStr x) = some (value x)

/-- A decimal text with an optional sign, fraction and exponent. -/
structure DecimalText where
  text : String
  value : ℚ
  denotes : numericValue text = some value

section Addition

variable (L : DecimalLibrary) (item : Item) (names : AttrNames) (values : AttrValues) (n : NameOperand)
  (v : ValueOperand) (cur d : DecimalText)

/-- `ADD n v`, where the attribute is the number `cur` and the value the number `d`, leaves a number text
that denotes their sum. -/
def AddsExactly : Prop :=
  ∃ t, applyAddClause L.toDecimalOps (item.insert (resolveName n.text names) (.n cur.text))
      (printActions [.add n v]) names (values.insert (String.ofList v.text) (.n d.text)) =
        some (item.insert (resolveName n.text names) (.n t)) ∧
    numericValue t = some (cur.value + d.value)

/-- Both are read, and what is read has the sum, which fits; or one is refused, and there is nothing to add. -/
def ReadsSum : Prop :=
  (∃ x y, L.fromStr cur.text = some x ∧ L.fromStr d.text = some y ∧
      L.value x + L.value y = cur.value + d.value ∧ Representable (cur.value + d.value)) ∨
    ((L.fromStr cur.text = none ∨ L.fromStr d.text = none) ∧ d.value = 0)

/-- For fitting texts their sum fits, for others the reading does no harm. -/
def SumFits : Prop :=
  if Fitting cur.text ∧ Fitting d.text then Representable (cur.value + d.value) else ReadsSum L cur d

variable {L item names values n v cur d}

theorem insert_insert (m : Item) (k : String) (a b : AttributeValue) :
    (m.insert k a).insert k b = m.insert k b := by
  refine Std.ExtTreeMap.ext_getElem? fun x => ?_
  simp only [StrMap.getElem?_insert]
  split
  · rfl
  · rfl

/-- The clause adds to the one attribute it names. -/
theorem applyAddClause_add (D : DecimalOps) : applyAddClause D
      (item.insert (resolveName n.text names) (.n cur.text)) (printActions [.add n v]) names
      (values.insert (String.ofList v.text) (.n d.text)) =
    (addToExisting D (.n cur.text) (.n d.text)).map (item.insert (resolveName n.text names)) := by
  have parts := splitOn_actions [] (by simp) (.add n v) []
  rw [List.nil_append, List.nil_append, List.map_nil] at parts
  have bound : resolveValue v.text (values.insert (String.ofList v.text) (.n d.text)) = .n d.text := by
    rw [resolveValue, StrMap.getElem?_insert, if_pos rfl]
    rfl
  have shape : (UpdateAction.add n v).print = n.text ++ ' ' :: v.text := by
    simp [UpdateAction.print, UpdateAction.front, UpdateAction.last]
  rw [applyAddClause, parts, List.foldlM_cons, applyAddPart,
    splitToken_print ((UpdateAction.tight (.add n v)).trim.trans shape)]
  simp only [n.word.tight.trim, v.word.tight.trim, bound, StrMap.getElem?_insert, if_true,
    List.foldlM_nil, Option.bind_eq_bind, Option.pure_def]
  cases addToExisting D (.n cur.text) (.n d.text) with
  | none => rfl
  | some y => simp only [Option.map_some, Option.bind_some, insert_insert]

/-- The attribute that is left is what the addition makes of the two values. -/
theorem addsExactly_iff_value : AddsExactly L item names values n v cur d ↔
    ∃ t, addToExisting L.toDecimalOps (.n cur.text) (.n d.text) = some (.n t) ∧
      numericValue t = some (cur.value + d.value) := by
  unfold AddsExactly
  rw [applyAddClause_add]
  refine exists_congr fun t => and_congr_left fun _ => ?_
  constructor
  · intro left
    obtain ⟨y, made, same⟩ := Option.map_eq_some_iff.mp left
    have value := congrArg (·[resolveName n.text names]?) same
    simp only [StrMap.getElem?_insert, if_true, Option.some.injEq] at value
    rw [made, value]
  · intro made
    rw [made]
    rfl

theorem addToExisting_read {D : DecimalOps} {a b : String} {x y : D.Decimal} (readA : D.fromStr a = some x)
    (readB : D.fromStr b = some y) : addToExisting D (.n a) (.n b) =
      (D.add x y).map fun z => .n (D.toStr (D.normalize z)) := by
  simp only [addToExisting, readA, readB]

/-- A number that is refused leaves the attribute as it is. -/
theorem addToExisting_refused {D : DecimalOps} {a b : String}
    (refused : D.fromStr a = none ∨ D.fromStr b = none) :
    addToExisting D (.n a) (.n b) = some (.n a) := by
  simp only [addToExisting]
  split
  · next readA readB => simp [readA, readB] at refused
  · rfl

theorem addsExactly_of_read {x y : L.Decimal} (readCur : L.fromStr cur.text = some x)
    (readD : L.fromStr d.text = some y) : AddsExactly L item names values n v cur d ↔
      L.value x + L.value y = cur.value + d.value ∧ Representable (cur.value + d.value) := by
  rw [addsExactly_iff_value, addToExisting_read readCur readD]
  constructor
  · rintro ⟨t, made, denotes⟩
    obtain ⟨z, added, same⟩ := Option.map_eq_some_iff.mp made
    cases same
    rw [L.value_toStr, L.value_normalize, Option.some.injEq] at denotes
    exact ⟨by rw [← denotes, L.sum x y z added], denotes ▸ L.representable z⟩
  · rintro ⟨total, fits⟩
    obtain ⟨z, added⟩ := Option.isSome_iff_exists.mp (L.sum_fits x y (total.symm ▸ fits))
    refine ⟨_, by rw [added]; rfl, ?_⟩
    rw [L.value_toStr, L.value_normalize, L.sum x y z added, total]

theorem addsExactly_of_refused (refused : L.fromStr cur.text = none ∨ L.fromStr d.text = none) :
    AddsExactly L item names values n v cur d ↔ d.value = 0 := by
  rw [addsExactly_iff_value, addToExisting_refused refused]
  constructor
  · rintro ⟨t, same, denotes⟩
    cases same
    rw [cur.denotes, Option.some.injEq] at denotes
    linarith
  · intro zero
    exact ⟨cur.text, rfl, by rw [cur.denotes, zero, add_zero]⟩

theorem addsExactly_iff : AddsExactly L item names values n v cur d ↔ ReadsSum L cur d := by
  unfold ReadsSum
  cases readCur : L.fromStr cur.text with
  | none => simp [addsExactly_of_refused (.inl readCur)]
  | some x =>
    cases readD : L.fromStr d.text with
    | none => simp [addsExactly_of_refused (.inr readD)]
    | some y => simp [addsExactly_of_read readCur readD]

/-- Fitting texts are read exactly. -/
theorem readsSum_of_fitting (fitCur : Fitting cur.text) (fitD : Fitting d.text) :
    ReadsSum L cur d ↔ Representable (cur.value + d.value) := by
  obtain ⟨x, readCur, valueCur⟩ := L.reads cur.text fitCur
  obtain ⟨y, readD, valueD⟩ := L.reads d.text fitD
  rw [cur.denotes, Option.some.injEq] at valueCur
  rw [d.denotes, Option.some.injEq] at valueD
  unfold ReadsSum
  simp [readCur, readD, valueCur, valueD]

end Addition

/-- An addition is exact when both numbers and their sum fit, or when the reading of one that does not fit
does no harm. -/
theorem number_addition_exact_iff (L : DecimalLibrary) (item : Item) (names : AttrNames)
    (values : AttrValues) (n : NameOperand) (v : ValueOperand) (cur d : DecimalText) :
    AddsExactly L item names values n v cur d ↔ SumFits L cur d := by
  rw [addsExactly_iff, SumFits]
  split
  · next fits => exact readsSum_of_fitting fits.1 fits.2
  · exact Iff.rfl

/-! ## A library

Decimals as rational numbers, written with as few places as they need. It refuses what does not fit. -/

theorem magnitudeValue_eq (m : List Char) : magnitudeValue m =
    (RustFmt.digitsValue ((splitDecimal m).1 ++ (splitDecimal m).2) : ℚ) / 10 ^ (splitDecimal m).2.length := by
  rw [digitsValue_eq, List.map_append, Positional.value_append, magnitudeValue, Positional.fraction,
    List.length_map]
  push_cast
  field_simp

theorem representable_of_fitting {s : String} (fits : Fitting s) : Representable (plainValue s) := by
  refine ⟨_, fits.2.1, (if isNegative s then -1 else 1) * (RustFmt.digitsValue
    ((splitDecimal (magnitude s)).1 ++ (splitDecimal (magnitude s)).2) : ℤ), ?_, ?_⟩
  · have bound := fits.2.2
    split
    · simpa using bound
    · simpa using bound
  · rw [plainValue, magnitudeValue_eq]
    split
    · push_cast
      ring
    · push_cast
      ring

/-- The fewest places that `q` can be written with. -/
def places (q : ℚ) : Option ℕ :=
  (List.range 29).find? fun e => (q * 10 ^ e).den == 1 && decide ((q * 10 ^ e).num.natAbs < 2 ^ 96)

theorem places_some {q : ℚ} {e : ℕ} (found : places q = some e) :
    q = ((q * 10 ^ e).num : ℚ) / 10 ^ e ∧ e ≤ 28 ∧ (q * 10 ^ e).num.natAbs < 2 ^ 96 := by
  have test := List.find?_some found
  have listed := List.mem_of_find?_eq_some found
  rw [Bool.and_eq_true, beq_iff_eq, decide_eq_true_eq] at test
  have whole : ((q * 10 ^ e).num : ℚ) = q * 10 ^ e := Rat.coe_int_num_of_den_eq_one test.1
  refine ⟨?_, by simpa [Nat.lt_succ_iff] using listed, test.2⟩
  rw [whole]
  field_simp

theorem places_isSome_iff (q : ℚ) : (places q).isSome = true ↔ Representable q := by
  constructor
  · intro found
    obtain ⟨e, here⟩ := Option.isSome_iff_exists.mp found
    obtain ⟨value, small, bound⟩ := places_some here
    exact ⟨e, small, _, bound, value⟩
  · rintro ⟨e, small, c, bound, rfl⟩
    have whole : (c : ℚ) / 10 ^ e * 10 ^ e = c := by field_simp
    rw [places, List.find?_isSome]
    refine ⟨e, List.mem_range.mpr (by omega), ?_⟩
    rw [whole, Bool.and_eq_true, beq_iff_eq, decide_eq_true_eq]
    exact ⟨Rat.den_intCast c, by simpa using bound⟩

/-- Digits with a point in front of the last `e` of them. -/
def withPoint (digits : List Char) (e : ℕ) : List Char :=
  let front := digits.take (digits.length - e)
  if e = 0 then front else front ++ '.' :: digits.drop (digits.length - e)

theorem splitDecimal_withPoint {digits : List Char} (plain : '.' ∉ digits) {e : ℕ}
    (long : e < digits.length) :
    splitDecimal (withPoint digits e) =
      (digits.take (digits.length - e), digits.drop (digits.length - e)) := by
  have front : ∀ c ∈ digits.take (digits.length - e), (decide (c ≠ '.')) = true := by
    intro c member
    rw [decide_eq_true_eq]
    rintro rfl
    exact plain (List.mem_of_mem_take member)
  unfold withPoint
  split
  · next none_behind =>
    subst none_behind
    rw [splitDecimal, List.takeWhile_eq_self_iff.mpr front, List.dropWhile_eq_nil_iff.mpr front]
    simp
  · rw [splitDecimal, List.takeWhile_append_of_pos front, List.dropWhile_append_of_pos front]
    simp

theorem plainMagnitude_withPoint {digits : List Char} (all : ∀ c ∈ digits, c.isDigit = true) {e : ℕ}
    (long : e < digits.length) : PlainMagnitude (withPoint digits e) := by
  have plain : '.' ∉ digits := fun member => absurd (all '.' member) (by decide)
  rw [PlainMagnitude, splitDecimal_withPoint plain long]
  refine ⟨⟨?_, fun c member => all c (List.mem_of_mem_take member)⟩, fun pointed => ?_,
    fun c member => all c (List.mem_of_mem_drop member)⟩
  · rw [Ne, ← List.length_eq_zero_iff, List.length_take]
    omega
  · have behind : e ≠ 0 := by
      rintro rfl
      rw [withPoint, if_pos rfl] at pointed
      exact plain (List.mem_of_mem_take pointed)
    rw [Ne, ← List.length_eq_zero_iff, List.length_drop]
    omega

/-- At least one digit, and `e` of them behind the point. -/
def decimalText (c : ℤ) (e : ℕ) : String :=
  String.ofList ((if c < 0 then ['-'] else []) ++ withPoint (RustFmt.dec (e + 1) c.natAbs).toList e)

theorem length_dec (width n : ℕ) : width ≤ (RustFmt.dec width n).toList.length := by
  rw [RustFmt.toList_dec, List.length_append, List.length_replicate]
  omega

theorem head_withPoint {digits : List Char} (all : ∀ c ∈ digits, c.isDigit = true) {e : ℕ}
    (long : e < digits.length) : (withPoint digits e).head? ≠ some '-' := by
  intro minus
  have plain := plainMagnitude_chars (plainMagnitude_withPoint all long) '-'
    (List.mem_of_mem_head? minus)
  exact absurd plain (by decide)

theorem numericValue_decimalText (c : ℤ) (e : ℕ) :
    numericValue (decimalText c e) = some ((c : ℚ) / 10 ^ e) := by
  have all : ∀ x ∈ (RustFmt.dec (e + 1) c.natAbs).toList, x.isDigit = true := fun _ =>
    RustFmt.isDigit_of_mem_dec
  have long : e < (RustFmt.dec (e + 1) c.natAbs).toList.length := length_dec (e + 1) c.natAbs
  have total := RustFmt.digitsValue_dec (e + 1) c.natAbs
  revert all long total
  generalize digits_eq : (RustFmt.dec (e + 1) c.natAbs).toList = digits
  intro all long total
  have negative : isNegative (decimalText c e) = decide (c < 0) := by
    unfold isNegative decimalText
    rw [digits_eq, String.toList_ofList]
    split
    · next below => simp [below]
    · next above =>
      have first := head_withPoint all long
      simp [above, first]
  have rest : magnitude (decimalText c e) = withPoint digits e := by
    unfold magnitude
    rw [negative]
    unfold decimalText
    rw [digits_eq, String.toList_ofList]
    by_cases below : c < 0
    · simp [below]
    · simp [below]
  have plain : PlainNumber (decimalText c e) := by
    rw [PlainNumber, rest]
    exact plainMagnitude_withPoint all long
  have noPoint : '.' ∉ digits := fun member => absurd (all '.' member) (by decide)
  rw [numericValue_plain plain, plainValue, rest, negative, magnitudeValue_eq,
    splitDecimal_withPoint noPoint long, List.take_append_drop, total, List.length_drop,
    Nat.sub_sub_self long.le]
  by_cases below : c < 0
  · have size : ((c.natAbs : ℤ) : ℚ) = -c := by
      rw [Int.ofNat_natAbs_of_nonpos below.le]
      push_cast
      ring
    rw [Int.cast_natCast] at size
    simp [below, size, neg_div, neg_neg]
  · have size : ((c.natAbs : ℤ) : ℚ) = c := by rw [Int.natAbs_of_nonneg (by omega)]
    rw [Int.cast_natCast] at size
    simp [below, size]

def plainDecimals : DecimalLibrary where
  Decimal := { q : ℚ // (places q).isSome = true }
  fromStr s :=
    if h : PlainNumber s ∧ (places (plainValue s)).isSome = true then some ⟨plainValue s, h.2⟩ else none
  add x y := if h : (places (x.1 + y.1)).isSome = true then some ⟨x.1 + y.1, h⟩ else none
  normalize := id
  toStr x := decimalText (x.1 * 10 ^ (places x.1).get x.2).num ((places x.1).get x.2)
  value := Subtype.val
  representable x := (places_isSome_iff x.1).mp x.2
  reads s fits := by
    have room := (places_isSome_iff (plainValue s)).mpr (representable_of_fitting fits)
    exact ⟨⟨plainValue s, room⟩, dif_pos ⟨fits.1, room⟩, numericValue_plain fits.1⟩
  sum x y z added := by
    split at added
    · cases added
      rfl
    · cases added
  sum_fits x y fits := by
    rw [dif_pos ((places_isSome_iff (x.1 + y.1)).mpr fits)]
    rfl
  value_normalize _ := rfl
  value_toStr x := by
    rw [numericValue_decimalText, ← (places_some (Option.some_get x.2).symm).1]

/-- At most 38 significant digits. -/
def AtMost38 (q : ℚ) : Prop := ∃ c e : ℤ, c.natAbs < 10 ^ 38 ∧ q = c * 10 ^ e

def digits38 : DecimalText where
  text := "12345678901234567890123456789012345678"
  value := 12345678901234567890123456789012345678
  denotes := by decide +kernel

def one : DecimalText := ⟨"1", 1, by decide +kernel⟩

theorem atMost38_of_int {c : ℤ} (short : c.natAbs < 10 ^ 38) : AtMost38 c :=
  ⟨c, 0, short, by rw [zpow_zero, mul_one]⟩

/-- A number of 38 digits is refused, and adding 1 leaves it as it is. -/
theorem long_number_not_added :
    AtMost38 digits38.value ∧ AtMost38 one.value ∧ AtMost38 (digits38.value + one.value) ∧
      ¬ AddsExactly plainDecimals ∅ ∅ ∅ nameTotal valueOne digits38 one := by
  refine ⟨?_, ?_, ?_, ?_⟩
  · exact_mod_cast atMost38_of_int (c := 12345678901234567890123456789012345678) (by decide)
  · exact_mod_cast atMost38_of_int (c := 1) (by decide)
  · have total : digits38.value + one.value = ((12345678901234567890123456789012345679 : ℤ) : ℚ) := by
      decide +kernel
    rw [total]
    exact atMost38_of_int (by decide)
  · have refused : plainDecimals.fromStr digits38.text = none := by
      refine dif_neg ?_
      decide +kernel
    rw [addsExactly_of_refused (.inl refused)]
    decide +kernel

end Openstack.DynamoDb

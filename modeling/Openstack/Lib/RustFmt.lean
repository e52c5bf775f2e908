import Mathlib

/-!
Number formatting and parsing as the Rust standard library documents them:
`{:0w}` and `{:0wx}` pad to a minimum width and never truncate, and
`str::parse` on an unsigned type accepts one leading `+`, needs at least one
digit and fails on overflow.
-/
namespace Openstack.RustFmt

def zeroPad (width : Nat) (digits : List Char) : String :=
  String.ofList (List.replicate (width - digits.length) '0' ++ digits)

/-- `format!("{:0width$}", n)`. -/
def dec (width n : Nat) : String := zeroPad width (Nat.toDigits 10 n)

/-- `format!("{:0width$x}", n)`. -/
def hex (width n : Nat) : String := zeroPad width (Nat.toDigits 16 n)

def digitsValue (digits : List Char) : Nat :=
  digits.foldl (fun acc c => 10 * acc + (c.toNat - '0'.toNat)) 0

/-- `s.parse::<uN>().ok()` with `N = bits`. -/
def parseUnsigned (bits : Nat) (s : String) : Option Nat :=
  let digits := match s.toList with
    | '+' :: rest => rest
    | cs => cs
  if digits = [] ∨ ¬ digits.all Char.isDigit then none
  else if digitsValue digits < 2 ^ bits then some (digitsValue digits)
  else none

/-- `s.parse::<iN>().ok()` with `N = bits`. -/
def parseSigned (bits : Nat) (s : String) : Option Int :=
  match s.toList with
  | '-' :: digits =>
    if digits = [] ∨ ¬ digits.all Char.isDigit then none
    else if digitsValue digits ≤ 2 ^ (bits - 1) then some (-digitsValue digits)
    else none
  | _ => (parseUnsigned (bits - 1) s).map Int.ofNat

/-- `s.trim_start_matches('0').parse::<uN>().ok()` with `N = bits`. -/
def parseTrimmed (bits : Nat) (s : String) : Option Nat :=
  parseUnsigned bits (String.ofList (s.toList.dropWhile (· = '0')))

theorem digitsValue_toDigits (n : Nat) : digitsValue (Nat.toDigits 10 n) = n := by
  rw [digitsValue, ← Nat.ofDigitChars_eq_foldl]
  exact Nat.ofDigitChars_ten_toDigits

theorem digitsValue_zeros (k : Nat) (digits : List Char) :
    digitsValue (List.replicate k '0' ++ digits) = digitsValue digits := by
  induction k with
  | zero => rfl
  | succ k ih => simpa [digitsValue, List.replicate_succ] using ih

theorem digitsValue_dropWhile (digits : List Char) :
    digitsValue (digits.dropWhile (· = '0')) = digitsValue digits := by
  induction digits with
  | nil => rfl
  | cons c rest ih =>
    by_cases zero : c = '0'
    · subst zero
      simpa [digitsValue] using ih
    · simp [zero]

theorem toList_dec (width n : Nat) : (dec width n).toList =
    List.replicate (width - (Nat.toDigits 10 n).length) '0' ++ Nat.toDigits 10 n := by
  simp [dec, zeroPad]

theorem digitsValue_dec (width n : Nat) : digitsValue (dec width n).toList = n := by
  rw [toList_dec, digitsValue_zeros, digitsValue_toDigits]

theorem isDigit_of_mem_dec {width n : Nat} {c : Char} (member : c ∈ (dec width n).toList) :
    c.isDigit = true := by
  rw [toList_dec, List.mem_append, List.mem_replicate] at member
  rcases member with ⟨_, rfl⟩ | digit
  · rfl
  · exact Nat.isDigit_of_mem_toDigits (by decide) (by decide) digit

/-- A text of decimal digits parses to its value, when that fits. -/
theorem parseUnsigned_digits {bits : Nat} {digits : List Char} (some_digit : digits ≠ [])
    (all : ∀ c ∈ digits, c.isDigit = true) (fits : digitsValue digits < 2 ^ bits) :
    parseUnsigned bits (String.ofList digits) = some (digitsValue digits) := by
  cases digits with
  | nil => exact absurd rfl some_digit
  | cons c rest =>
    have unsigned : c ≠ '+' := by
      rintro rfl
      exact absurd (all '+' List.mem_cons_self) (by decide)
    have every : (c :: rest).all Char.isDigit = true := List.all_eq_true.mpr all
    simp [parseUnsigned, unsigned, every, fits]

/-- What parses: decimal digits, with or without a plus sign, of a value that fits. -/
theorem parseUnsigned_isSome_iff (bits : Nat) (text : List Char) :
    (parseUnsigned bits (String.ofList text)).isSome = true ↔
      ∃ digits, (text = digits ∨ text = '+' :: digits) ∧ digits ≠ [] ∧ (∀ c ∈ digits, c.isDigit = true) ∧
        digitsValue digits < 2 ^ bits := by
  have parses : ∀ digits : List Char, (if digits = [] ∨ ¬ digits.all Char.isDigit then none
      else if digitsValue digits < 2 ^ bits then some (digitsValue digits) else none).isSome = true ↔
        digits ≠ [] ∧ (∀ c ∈ digits, c.isDigit = true) ∧ digitsValue digits < 2 ^ bits := by
    intro digits
    rw [← List.all_eq_true]
    by_cases bad : digits = [] ∨ ¬ digits.all Char.isDigit = true
    · rw [if_pos bad]
      refine iff_of_false (by simp) ?_
      rintro ⟨some_digit, all, _⟩
      exact bad.elim some_digit (· all)
    · rw [if_neg bad]
      rw [not_or, not_not] at bad
      by_cases fits : digitsValue digits < 2 ^ bits
      · rw [if_pos fits]
        exact iff_of_true rfl ⟨bad.1, bad.2, fits⟩
      · rw [if_neg fits]
        exact iff_of_false (by simp) fun all => fits all.2.2
  have signed : ∀ digits : List Char, (∀ c ∈ '+' :: digits, c.isDigit = true) → False :=
    fun digits all => absurd (all '+' List.mem_cons_self) (by decide)
  rw [parseUnsigned, String.toList_ofList]
  constructor
  · intro some_value
    split at some_value
    · next rest => exact ⟨rest, .inr rfl, (parses rest).mp some_value⟩
    · exact ⟨text, .inl rfl, (parses text).mp some_value⟩
  · rintro ⟨digits, rfl | rfl, fits⟩
    · split
      · next rest => exact (signed rest fits.2.1).elim
      · exact (parses text).mpr fits
    · exact (parses digits).mpr fits

/-- A padded positive number reads back as itself. -/
theorem parseTrimmed_dec {bits n : Nat} (width : Nat) (positive : 0 < n) (fits : n < 2 ^ bits) :
    parseTrimmed bits (dec width n) = some n := by
  have value : digitsValue ((dec width n).toList.dropWhile (· = '0')) = n := by
    rw [digitsValue_dropWhile, digitsValue_dec]
  have some_digit : (dec width n).toList.dropWhile (· = '0') ≠ [] := by
    intro none_left
    rw [none_left] at value
    simp only [digitsValue, List.foldl_nil] at value
    omega
  have all : ∀ c ∈ (dec width n).toList.dropWhile (· = '0'), c.isDigit = true := by
    intro c member
    exact isDigit_of_mem_dec (List.dropWhile_subset _ member)
  rw [parseTrimmed, parseUnsigned_digits some_digit all (by rw [value]; exact fits), value]

/-- Zero is all padding: nothing is left to parse. -/
theorem parseTrimmed_dec_zero (bits width : Nat) : parseTrimmed bits (dec width 0) = none := by
  have zeros : ∀ c ∈ (dec width 0).toList, c = '0' := by
    intro c member
    rw [toList_dec, List.mem_append, List.mem_replicate, Nat.toDigits_zero] at member
    rcases member with ⟨_, rfl⟩ | digit
    · rfl
    · simpa using digit
  have nothing : (dec width 0).toList.dropWhile (· = '0') = [] := by
    simpa [List.dropWhile_eq_nil_iff] using zeros
  rw [parseTrimmed, nothing]
  rfl

theorem toList_toString (n : Nat) : (toString n).toList = Nat.toDigits 10 n := by
  simp [toString, Nat.repr]

theorem parseUnsigned_lt {bits n : Nat} {s : String} (parsed : parseUnsigned bits s = some n) : n < 2 ^ bits := by
  have value (digits : List Char) : (if digits = [] ∨ ¬ digits.all Char.isDigit then none
      else if digitsValue digits < 2 ^ bits then some (digitsValue digits) else none) = some n → n < 2 ^ bits := by
    intro found
    split at found
    · cases found
    · split at found
      · next fits => exact Option.some.inj found ▸ fits
      · cases found
  exact value _ parsed

/-- A number in decimal reads back as itself, when it fits. -/
theorem parseUnsigned_toString (bits n : Nat) :
    parseUnsigned bits (toString n) = if n < 2 ^ bits then some n else none := by
  have text : toString n = String.ofList (Nat.toDigits 10 n) := by
    rw [← toList_toString, String.ofList_toList]
  have all : ∀ c ∈ Nat.toDigits 10 n, c.isDigit = true := fun c member =>
    Nat.isDigit_of_mem_toDigits (by decide) (by decide) member
  cases digits : Nat.toDigits 10 n with
  | nil => exact absurd digits (by simp)
  | cons c rest =>
    have unsigned : c ≠ '+' := by
      rintro rfl
      exact absurd (all '+' (by simp [digits])) (by decide)
    have every : (c :: rest).all Char.isDigit = true := by
      rw [← digits]
      exact List.all_eq_true.mpr all
    have value : digitsValue (c :: rest) = n := by rw [← digits, digitsValue_toDigits]
    simp [text, digits, parseUnsigned, unsigned, every, value]

/-- A number between the last hyphen and a fixed end can be read off the text. -/
theorem number_of_hyphen {front front' : String} {n m : Nat} (tail : String)
    (same : front ++ "-" ++ toString n ++ tail = front' ++ "-" ++ toString m ++ tail) : n = m := by
  have text := congrArg String.toList same
  simp only [String.toList_append, toList_toString, List.append_cancel_right_eq] at text
  have hyphen : "-".toList = ['-'] := rfl
  have behind : ∀ (front : List Char) (k : Nat),
      (front ++ "-".toList ++ Nat.toDigits 10 k).rtakeWhile (· ≠ '-') = Nat.toDigits 10 k := by
    intro front k
    have noHyphen : ∀ c ∈ (Nat.toDigits 10 k).reverse, decide (c ≠ '-') = true := by
      intro c member
      have digit := Nat.isDigit_of_mem_toDigits (by decide) (by decide) (List.mem_reverse.mp member)
      rw [decide_eq_true_iff]
      rintro rfl
      exact absurd digit (by decide)
    rw [List.rtakeWhile, List.reverse_append, List.takeWhile_append_of_pos noHyphen, hyphen]
    simp
  have numbers := congrArg (List.rtakeWhile (· ≠ '-')) text
  rw [behind, behind] at numbers
  rw [← digitsValue_toDigits n, numbers, digitsValue_toDigits]

def hexDigitValue (c : Char) : Nat := if c.toNat < 58 then c.toNat - 48 else c.toNat - 87

def hexValue (digits : List Char) : Nat := digits.foldl (fun acc c => 16 * acc + hexDigitValue c) 0

theorem hexDigitValue_digitChar {n : Nat} (digit : n < 16) : hexDigitValue n.digitChar = n := by
  revert n
  decide

theorem hexValue_toDigits (n : Nat) : hexValue (Nat.toDigits 16 n) = n := by
  induction n using Nat.strongRecOn with
  | _ n ih =>
    by_cases small : n < 16
    · rw [Nat.toDigits_of_lt_base small]
      simp [hexValue, hexDigitValue_digitChar small]
    · have front := ih (n / 16) (by omega)
      rw [Nat.toDigits_of_base_le (by decide) (by omega), hexValue, List.foldl_append, ← hexValue,
        front, List.foldl_cons, List.foldl_nil, hexDigitValue_digitChar (by omega)]
      omega

theorem hexValue_hex (width n : Nat) : hexValue (hex width n).toList = n := by
  have zeros : ∀ k, hexValue (List.replicate k '0' ++ Nat.toDigits 16 n) = n := by
    intro k
    induction k with
    | zero => exact hexValue_toDigits n
    | succ k ih => simpa [hexValue, List.replicate_succ, hexDigitValue] using ih
  simpa [hex, zeroPad] using zeros _

theorem hex_inj {width n m : Nat} (same : (hex width n).toList = (hex width m).toList) : n = m := by
  rw [← hexValue_hex width n, same, hexValue_hex]

/-- A number that fits fills the width exactly. -/
theorem length_hex {width n : Nat} (positive : 0 < width) (fits : n < 16 ^ width) :
    (hex width n).toList.length = width := by
  have digits := (Nat.length_toDigits_le_iff (b := 16) (by decide) positive).mpr fits
  simp only [hex, zeroPad, String.toList_ofList, List.length_append, List.length_replicate]
  omega

/-- The two digits of a byte. -/
theorem toList_hex_two {n : Nat} (byte : n < 256) :
    (hex 2 n).toList = [(n / 16).digitChar, (n % 16).digitChar] := by
  simp only [hex, zeroPad, String.toList_ofList]
  by_cases small : n < 16
  · rw [Nat.toDigits_of_lt_base small, Nat.div_eq_of_lt small, Nat.mod_eq_of_lt small]
    rfl
  · rw [Nat.toDigits_of_base_le (by decide) (by omega), Nat.toDigits_of_lt_base (by omega)]
    rfl

end Openstack.RustFmt

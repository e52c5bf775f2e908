import Mathlib.Data.List.Basic
import Openstack.Lib.RustFmt

/-!
Strings in JSON text: how they are printed with as few escapes as the grammar allows, and how they are
read. A quotation mark, a backslash and the control characters are escaped; a character outside the
basic plane may be read from a pair of surrogates.
-/
namespace Openstack.JsonText

def hexDigit (n : Nat) : Char := "0123456789abcdef".toList.getD n '0'

@[grind] def escapeChar (c : Char) : List Char :=
  if c = '"' then ['\\', '"']
  else if c = '\\' then ['\\', '\\']
  else if c.toNat = 8 then ['\\', 'b']
  else if c.toNat = 9 then ['\\', 't']
  else if c.toNat = 10 then ['\\', 'n']
  else if c.toNat = 12 then ['\\', 'f']
  else if c.toNat = 13 then ['\\', 'r']
  else if c.toNat < 32 then ['\\', 'u', '0', '0', hexDigit (c.toNat / 16), hexDigit (c.toNat % 16)]
  else [c]

def printString (s : List Char) : List Char := '"' :: (s.flatMap escapeChar ++ ['"'])

def hexValue (c : Char) : Option Nat :=
  if c.isDigit then some (c.toNat - 48)
  else if 'a' ≤ c ∧ c ≤ 'f' then some (c.toNat - 87)
  else if 'A' ≤ c ∧ c ≤ 'F' then some (c.toNat - 55)
  else none

def hexFour : List Char → Option (Nat × List Char)
  | a :: b :: c :: d :: rest => do
    let a ← hexValue a
    let b ← hexValue b
    let c ← hexValue c
    let d ← hexValue d
    some (a * 4096 + b * 256 + c * 16 + d, rest)
  | _ => none

/-- The second half of a pair of surrogates. -/
def lowSurrogate (high : Nat) (s : List Char) : Option (Char × List Char) :=
  if ['\\', 'u'].isPrefixOf s then do
    let (low, rest) ← hexFour (s.drop 2)
    if 0xDC00 ≤ low ∧ low ≤ 0xDFFF then
      some (Char.ofNat (0x10000 + (high - 0xD800) * 1024 + (low - 0xDC00)), rest)
    else none
  else none

/-- What follows `\u`. -/
def unicodeEscape (s : List Char) : Option (Char × List Char) := do
  let (n, rest) ← hexFour s
  if 0xD800 ≤ n ∧ n ≤ 0xDBFF then lowSurrogate n rest
  else if 0xDC00 ≤ n ∧ n ≤ 0xDFFF then none
  else some (Char.ofNat n, rest)

def shortEscapes : List (Char × Char) :=
  [('"', '"'), ('\\', '\\'), ('/', '/'), ('b', Char.ofNat 8), ('t', Char.ofNat 9), ('n', Char.ofNat 10),
    ('f', Char.ofNat 12), ('r', Char.ofNat 13)]

/-- What follows a backslash. -/
def readEscape : List Char → Option (Char × List Char)
  | [] => none
  | c :: rest => if c = 'u' then unicodeEscape rest else (shortEscapes.lookup c).map fun d => (d, rest)

/-- The next character of a string, escaped or not. -/
def nextChar : List Char → Option (Char × List Char)
  | [] => none
  | c :: rest =>
    if c = '\\' then readEscape rest
    else if c.toNat < 32 then none
    else some (c, rest)

/-- The characters up to the closing quotation mark; a bound on their number comes first. -/
def readChars : Nat → List Char → Option (List Char × List Char)
  | 0, _ => none
  | n + 1, s =>
    if s.head? = some '"' then some ([], s.drop 1)
    else do
      let (c, rest) ← nextChar s
      let (cs, rest) ← readChars n rest
      some (c :: cs, rest)

def readString : List Char → Option (List Char × List Char)
  | [] => none
  | c :: rest => if c = '"' then readChars (rest.length + 1) rest else none

theorem ofNat_toNat_eq {c : Char} {n : Nat} (code : c.toNat = n) : Char.ofNat n = c := by
  rw [← code, Char.ofNat_toNat]

theorem hexValue_hexDigit {n : Nat} (digit : n < 16) : hexValue (hexDigit n) = some n := by
  have all : ∀ n < 16, hexValue (hexDigit n) = some n := by decide +kernel
  exact all n digit

theorem unicodeEscape_control {c : Char} (control : c.toNat < 32) (rest : List Char) :
    unicodeEscape ('0' :: '0' :: hexDigit (c.toNat / 16) :: hexDigit (c.toNat % 16) :: rest) =
      some (c, rest) := by
  have zero : hexValue '0' = some 0 := by decide
  have value : 0 * 4096 + 0 * 256 + c.toNat / 16 * 16 + c.toNat % 16 = c.toNat := by omega
  have read : hexFour ('0' :: '0' :: hexDigit (c.toNat / 16) :: hexDigit (c.toNat % 16) :: rest) =
      some (c.toNat, rest) := by
    simp only [hexFour, zero, hexValue_hexDigit (show c.toNat / 16 < 16 by omega),
      hexValue_hexDigit (show c.toNat % 16 < 16 by omega), Option.bind_eq_bind, Option.bind_some, value]
  rw [unicodeEscape, read, Option.bind_eq_bind, Option.bind_some]
  dsimp only
  rw [if_neg (by omega), if_neg (by omega), Char.ofNat_toNat]

/-- An escaped character is read back. -/
theorem nextChar_escapeChar (c : Char) (rest : List Char) :
    nextChar (escapeChar c ++ rest) = some (c, rest) := by
  have short (e d : Char) (named : shortEscapes.lookup e = some d) (plain : e ≠ 'u') (same : d = c) :
      nextChar ('\\' :: e :: rest) = some (c, rest) := by
    rw [nextChar, if_pos rfl, readEscape, if_neg plain, named, Option.map_some, same]
  unfold escapeChar
  split
  · next quote => exact short '"' '"' (by decide) (by decide) quote.symm
  · split
    · next backslash => exact short '\\' '\\' (by decide) (by decide) backslash.symm
    · next plain =>
      split
      · next code => exact short 'b' _ (by decide) (by decide) (ofNat_toNat_eq code)
      · split
        · next code => exact short 't' _ (by decide) (by decide) (ofNat_toNat_eq code)
        · split
          · next code => exact short 'n' _ (by decide) (by decide) (ofNat_toNat_eq code)
          · split
            · next code => exact short 'f' _ (by decide) (by decide) (ofNat_toNat_eq code)
            · split
              · next code => exact short 'r' _ (by decide) (by decide) (ofNat_toNat_eq code)
              · split
                · next control =>
                  have unicode := unicodeEscape_control control rest
                  simp only [List.cons_append, List.nil_append]
                  rw [nextChar, if_pos rfl, readEscape, if_pos rfl, unicode]
                · next printable =>
                  rw [List.singleton_append, nextChar, if_neg plain, if_neg printable]

/-- No escape begins like the end of the string. -/
theorem head_escapeChar (c : Char) (rest : List Char) : (escapeChar c ++ rest).head? ≠ some '"' := by
  unfold escapeChar
  split
  · simp
  · next quote =>
    repeat' split
    all_goals simp [quote]

theorem readChars_escape (s rest : List Char) {n : Nat} (bound : s.length < n) :
    readChars n (s.flatMap escapeChar ++ '"' :: rest) = some (s, rest) := by
  induction s generalizing n with
  | nil =>
    obtain ⟨m, rfl⟩ := Nat.exists_eq_add_of_lt bound
    rw [List.flatMap_nil, List.nil_append, List.length_nil, Nat.zero_add, readChars]
    simp
  | cons c cs ih =>
    cases n with
    | zero => exact absurd bound (Nat.not_lt_zero _)
    | succ n =>
      have later := ih (Nat.lt_of_succ_lt_succ bound)
      rw [List.flatMap_cons, List.append_assoc, readChars, if_neg (head_escapeChar c _),
        nextChar_escapeChar, Option.bind_eq_bind, Option.bind_some]
      dsimp only
      rw [later]
      rfl

theorem length_le_flatMap_escapeChar (s : List Char) : s.length ≤ (s.flatMap escapeChar).length := by
  induction s with
  | nil => rfl
  | cons c cs ih =>
    have some_char : 1 ≤ (escapeChar c).length := by
      unfold escapeChar
      repeat' split
      all_goals simp
    rw [List.flatMap_cons, List.length_append, List.length_cons]
    omega

/-- A printed string is read back, whatever follows it. -/
theorem readString_printString (s rest : List Char) :
    readString (printString s ++ rest) = some (s, rest) := by
  have bound := length_le_flatMap_escapeChar s
  rw [printString, List.cons_append, List.append_assoc, List.singleton_append, readString, if_pos rfl]
  refine readChars_escape s rest ?_
  rw [List.length_append]
  omega

end Openstack.JsonText

import Mathlib.Data.List.Nodup

/-!
Base64 with the standard alphabet and canonical padding: four characters stand for three bytes, the last
group is filled up with `=`, and the bits under the padding are zero.
-/
namespace Openstack.Base64

def alphabet : List Char :=
  "ABCDEFGHIJKLMNOPQRSTUVWXYZabcdefghijklmnopqrstuvwxyz0123456789+/".toList

/-- The character of six bits. -/
def digit (n : Nat) : Char := alphabet.getD n 'A'

def value (c : Char) : Option Nat := alphabet.idxOf? c

def first (a : UInt8) : Nat := a.toNat / 4

def second (a b : UInt8) : Nat := a.toNat % 4 * 16 + b.toNat / 16

def third (b c : UInt8) : Nat := b.toNat % 16 * 4 + c.toNat / 64

def fourth (c : UInt8) : Nat := c.toNat % 64

def encode : List UInt8 → List Char
  | [] => []
  | [a] => [digit (first a), digit (second a 0), '=', '=']
  | [a, b] => [digit (first a), digit (second a b), digit (third b 0), '=']
  | a :: b :: c :: rest =>
    digit (first a) :: digit (second a b) :: digit (third b c) :: digit (fourth c) :: encode rest

/-- Four characters without padding. -/
def decodeGroup (a b c d : Char) : Option (List UInt8) := do
  let x ← value a
  let y ← value b
  let z ← value c
  let w ← value d
  some [UInt8.ofNat (x * 4 + y / 16), UInt8.ofNat (y % 16 * 16 + z / 4), UInt8.ofNat (z % 4 * 64 + w)]

/-- The last four characters. -/
@[grind] def decodeLast (a b c d : Char) : Option (List UInt8) :=
  if d ≠ '=' then decodeGroup a b c d
  else if c ≠ '=' then do
    let x ← value a
    let y ← value b
    let z ← value c
    if z % 4 = 0 then some [UInt8.ofNat (x * 4 + y / 16), UInt8.ofNat (y % 16 * 16 + z / 4)] else none
  else do
    let x ← value a
    let y ← value b
    if y % 16 = 0 then some [UInt8.ofNat (x * 4 + y / 16)] else none

def decode : List Char → Option (List UInt8)
  | [] => some []
  | [a, b, c, d] => decodeLast a b c d
  | a :: b :: c :: d :: rest => do
    let bytes ← decodeGroup a b c d
    let more ← decode rest
    some (bytes ++ more)
  | _ => none

theorem alphabet_distinct : alphabet.Nodup ∧ alphabet.length = 64 ∧ '=' ∉ alphabet := by decide +kernel

theorem digit_eq {n : Nat} (six : n < alphabet.length) : digit n = alphabet[n] := by
  simp [digit, six]

theorem value_digit {n : Nat} (six : n < 64) : value (digit n) = some n := by
  have bound : n < alphabet.length := alphabet_distinct.2.1.symm ▸ six
  rw [digit_eq bound, value, List.idxOf?_eq_some_iff]
  refine ⟨bound, rfl, fun j before same => ?_⟩
  exact absurd ((List.Nodup.getElem_inj_iff alphabet_distinct.1).mp same) (Nat.ne_of_lt before)

theorem digit_ne_pad {n : Nat} (six : n < 64) : digit n ≠ '=' := by
  intro pad
  rw [digit_eq (alphabet_distinct.2.1.symm ▸ six)] at pad
  exact alphabet_distinct.2.2 (pad ▸ List.getElem_mem _)

section Group

variable (a b c : UInt8)

theorem first_lt : first a < 64 := by
  have byte := a.toNat_lt
  rw [first]
  omega

theorem second_lt : second a b < 64 := by
  have byte := b.toNat_lt
  rw [second]
  omega

theorem third_lt : third b c < 64 := by
  have byte := c.toNat_lt
  rw [third]
  omega

theorem fourth_lt : fourth c < 64 := by
  rw [fourth]
  omega

theorem ofNat_eq {n : Nat} {a : UInt8} (same : n = a.toNat) : UInt8.ofNat n = a := by
  rw [same, UInt8.ofNat_toNat]

theorem first_byte : UInt8.ofNat (first a * 4 + second a b / 16) = a := by
  have byte := b.toNat_lt
  refine ofNat_eq ?_
  rw [first, second]
  omega

theorem second_byte : UInt8.ofNat (second a b % 16 * 16 + third b c / 4) = b := by
  have byte := b.toNat_lt
  have next := c.toNat_lt
  refine ofNat_eq ?_
  rw [second, third]
  omega

theorem third_byte : UInt8.ofNat (third b c % 4 * 64 + fourth c) = c := by
  have byte := c.toNat_lt
  refine ofNat_eq ?_
  rw [third, fourth]
  omega

theorem decodeGroup_digits : decodeGroup (digit (first a)) (digit (second a b)) (digit (third b c))
    (digit (fourth c)) = some [a, b, c] := by
  simp only [decodeGroup, value_digit (first_lt a), value_digit (second_lt a b),
    value_digit (third_lt b c), value_digit (fourth_lt c), Option.bind_eq_bind, Option.bind_some,
    first_byte, second_byte, third_byte]

theorem decodeLast_three : decodeLast (digit (first a)) (digit (second a b)) (digit (third b c))
    (digit (fourth c)) = some [a, b, c] := by
  rw [decodeLast, if_pos (digit_ne_pad (fourth_lt c)), decodeGroup_digits]

theorem decodeLast_two : decodeLast (digit (first a)) (digit (second a b)) (digit (third b 0)) '=' =
    some [a, b] := by
  have zero : third b 0 % 4 = 0 := by
    have none : (0 : UInt8).toNat = 0 := rfl
    rw [third, none]
    omega
  rw [decodeLast, if_neg (by decide), if_pos (digit_ne_pad (third_lt b 0))]
  simp only [value_digit (first_lt a), value_digit (second_lt a b), value_digit (third_lt b 0),
    Option.bind_eq_bind, Option.bind_some, first_byte, second_byte, zero, if_true]

theorem decodeLast_one : decodeLast (digit (first a)) (digit (second a 0)) '=' '=' = some [a] := by
  have zero : second a 0 % 16 = 0 := by
    have none : (0 : UInt8).toNat = 0 := rfl
    rw [second, none]
    omega
  rw [decodeLast, if_neg (by decide), if_neg (by decide)]
  simp only [value_digit (first_lt a), value_digit (second_lt a 0), Option.bind_eq_bind,
    Option.bind_some, first_byte, zero, if_true]

end Group

theorem decode_encode (bytes : List UInt8) : decode (encode bytes) = some bytes := by
  induction bytes using encode.induct with
  | case1 => rfl
  | case2 a => exact decodeLast_one a
  | case3 a b => exact decodeLast_two a b
  | case4 a b c rest ih =>
    rw [encode]
    cases more : encode rest with
    | nil =>
      rw [more, decode, Option.some.injEq] at ih
      rw [decode, decodeLast_three, ih]
    | cons d tail =>
      rw [more] at ih
      rw [decode, decodeGroup_digits, ih]
      · rfl
      · simp

end Openstack.Base64

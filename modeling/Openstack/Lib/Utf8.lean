import Mathlib.Data.List.Basic

/-!
`String::from_utf8_lossy`: a byte sequence that is not UTF-8 is read as far as it is, and each longest
piece that could have begun a character becomes one replacement character.
-/
namespace Openstack.Utf8

def replacement : Char := Char.ofNat 0xFFFD

def isContinuation (b : UInt8) : Bool := 0x80 ≤ b && b ≤ 0xBF

/-- The second byte that may follow the first byte of three. -/
def secondOfThree (a b : UInt8) : Bool :=
  if a = 0xE0 then 0xA0 ≤ b && b ≤ 0xBF
  else if a = 0xED then 0x80 ≤ b && b ≤ 0x9F
  else isContinuation b

/-- The second byte that may follow the first byte of four. -/
def secondOfFour (a b : UInt8) : Bool :=
  if a = 0xF0 then 0x90 ≤ b && b ≤ 0xBF
  else if a = 0xF4 then 0x80 ≤ b && b ≤ 0x8F
  else isContinuation b

def char2 (a b : UInt8) : Char := Char.ofNat (a.toNat % 32 * 64 + b.toNat % 64)

def char3 (a b c : UInt8) : Char := Char.ofNat (a.toNat % 16 * 4096 + b.toNat % 64 * 64 + c.toNat % 64)

def char4 (a b c d : UInt8) : Char :=
  Char.ofNat (a.toNat % 8 * 262144 + b.toNat % 64 * 4096 + c.toNat % 64 * 64 + d.toNat % 64)

/-- What begins with the first byte of two, and the number of bytes it takes. -/
def next2 (a : UInt8) : List UInt8 → Char × Nat
  | b :: _ => if isContinuation b then (char2 a b, 2) else (replacement, 1)
  | [] => (replacement, 1)

def next3 (a : UInt8) : List UInt8 → Char × Nat
  | b :: c :: _ =>
    if secondOfThree a b then if isContinuation c then (char3 a b c, 3) else (replacement, 2)
    else (replacement, 1)
  | [b] => (replacement, if secondOfThree a b then 2 else 1)
  | [] => (replacement, 1)

def next4 (a : UInt8) : List UInt8 → Char × Nat
  | b :: c :: d :: _ =>
    if secondOfFour a b then
      if isContinuation c then if isContinuation d then (char4 a b c d, 4) else (replacement, 3)
      else (replacement, 2)
    else (replacement, 1)
  | [b, c] => (replacement, if secondOfFour a b then if isContinuation c then 3 else 2 else 1)
  | [b] => (replacement, if secondOfFour a b then 2 else 1)
  | [] => (replacement, 1)

/-- The first character and the number of bytes it takes. -/
def next (a : UInt8) (rest : List UInt8) : Char × Nat :=
  if a < 0x80 then (Char.ofNat a.toNat, 1)
  else if 0xC2 ≤ a ∧ a ≤ 0xDF then next2 a rest
  else if 0xE0 ≤ a ∧ a ≤ 0xEF then next3 a rest
  else if 0xF0 ≤ a ∧ a ≤ 0xF4 then next4 a rest
  else (replacement, 1)

/-- The characters of the bytes; `skip` bytes of the last character are still to come. -/
def lossyFrom : (skip : Nat) → List UInt8 → List Char
  | _, [] => []
  | skip + 1, _ :: rest => lossyFrom skip rest
  | 0, a :: rest => (next a rest).1 :: lossyFrom ((next a rest).2 - 1) rest

def lossy (bytes : List UInt8) : String := String.ofList (lossyFrom 0 bytes)

example : lossy [0x61, 0xE2, 0x82, 0x62, 0xC3, 0xA9] = String.ofList ['a', replacement, 'b', 'é'] := by
  decide +kernel

theorem toUTF8_eq (s : String) : s.toUTF8.data.toList = s.toList.flatMap String.utf8EncodeChar := by
  have text : s.toUTF8 = s.toList.utf8Encode := by
    rw [String.toUTF8]
    simp
  rw [text, List.utf8Encode]
  simp

theorem utf8EncodeChar_ascii {c : Char} (ascii : c.toNat < 128) :
    String.utf8EncodeChar c = [UInt8.ofNat c.toNat] := by
  have small : c.utf8Size = 1 := by
    rw [Char.utf8Size_eq_one_iff]
    exact UInt32.le_iff_toNat_le.mpr (Nat.le_of_lt_succ ascii)
  rw [String.utf8EncodeChar_eq_singleton small]
  rfl

theorem ofNat_byte {c : Char} (ascii : c.toNat < 128) : Char.ofNat (UInt8.ofNat c.toNat).toNat = c := by
  have byte : (UInt8.ofNat c.toNat).toNat = c.toNat := by
    rw [UInt8.toNat_ofNat']
    omega
  rw [byte, Char.ofNat_toNat]

/-- The bytes of an ASCII text are its characters. -/
theorem toUTF8_ascii {s : String} (ascii : ∀ c ∈ s.toList, c.toNat < 128) :
    s.toUTF8.data.toList = s.toList.map fun c => UInt8.ofNat c.toNat := by
  rw [toUTF8_eq, List.map_eq_flatMap]
  exact List.flatMap_congr fun c member => utf8EncodeChar_ascii (ascii c member)

theorem length_le_bytes (cs : List Char) : cs.length ≤ (cs.flatMap String.utf8EncodeChar).length := by
  induction cs with
  | nil => exact Nat.le_refl 0
  | cons c rest ih =>
    have some_byte := Char.utf8Size_pos c
    rw [List.flatMap_cons, List.length_append, String.length_utf8EncodeChar, List.length_cons]
    omega

/-- A text with as many bytes as characters is ASCII. -/
theorem ascii_of_length {cs : List Char} (same : (cs.flatMap String.utf8EncodeChar).length = cs.length) :
    ∀ c ∈ cs, c.toNat < 128 := by
  induction cs with
  | nil => exact List.forall_mem_nil _
  | cons c rest ih =>
    have some_byte := Char.utf8Size_pos c
    have more := length_le_bytes rest
    rw [List.flatMap_cons, List.length_append, String.length_utf8EncodeChar, List.length_cons] at same
    have one : c.utf8Size = 1 := by omega
    refine List.forall_mem_cons.mpr ⟨?_, ih (by omega)⟩
    rw [Char.utf8Size_eq_one_iff] at one
    exact Nat.lt_succ_of_le (UInt32.le_iff_toNat_le.mp one)

/-- The bytes, each taken for a character, are the text exactly when it is ASCII. -/
theorem bytes_as_chars_iff {s : String} :
    s.toUTF8.data.toList.map (fun b => Char.ofNat b.toNat) = s.toList ↔ ∀ c ∈ s.toList, c.toNat < 128 := by
  constructor
  · intro same
    refine ascii_of_length ?_
    rw [← toUTF8_eq, ← List.length_map fun b : UInt8 => Char.ofNat b.toNat, same]
  · intro ascii
    rw [toUTF8_ascii ascii, List.map_map]
    exact (List.map_congr_left fun c member => ofNat_byte (ascii c member)).trans (List.map_id _)

theorem fromUTF8?_toUTF8 (s : String) : String.fromUTF8? ⟨s.toUTF8.data.toList.toArray⟩ = some s := by
  have valid : s.toByteArray.IsValidUTF8 := s.isValidUTF8
  simp [String.fromUTF8?, valid, String.fromUTF8]

end Openstack.Utf8

import Mathlib.Data.List.Basic

/-!
SipHash-1-3 under the zero key, as `DefaultHasher::new` runs it, and the hash of a string, whose bytes
end in `0xff`.
-/
namespace Openstack.SipHash

structure State where
  v0 : BitVec 64
  v1 : BitVec 64
  v2 : BitVec 64
  v3 : BitVec 64

def init : State :=
  ⟨0x736f6d6570736575, 0x646f72616e646f6d, 0x6c7967656e657261, 0x7465646279746573⟩

def round (s : State) : State :=
  let v0 := s.v0 + s.v1
  let v1 := s.v1.rotateLeft 13 ^^^ v0
  let v0 := v0.rotateLeft 32
  let v2 := s.v2 + s.v3
  let v3 := s.v3.rotateLeft 16 ^^^ v2
  let v0 := v0 + v3
  let v3 := v3.rotateLeft 21 ^^^ v0
  let v2 := v2 + v1
  let v1 := v1.rotateLeft 17 ^^^ v2
  ⟨v0, v1, v2.rotateLeft 32, v3⟩

def absorb (s : State) (m : BitVec 64) : State :=
  let s := round { s with v3 := s.v3 ^^^ m }
  { s with v0 := s.v0 ^^^ m }

/-- The word of up to eight bytes, the first lowest. -/
def word (bytes : List UInt8) : BitVec 64 :=
  BitVec.ofNat 64 (bytes.foldr (fun byte value => byte.toNat + 256 * value) 0)

/-- Whole words, then the bytes that are left with the length on top. -/
def absorbAll (length : Nat) : State → List UInt8 → State
  | s, a :: b :: c :: d :: e :: f :: g :: h :: rest =>
    absorbAll length (absorb s (word [a, b, c, d, e, f, g, h])) rest
  | s, rest => absorb s (word rest ||| BitVec.ofNat 64 (length % 256 * 2 ^ 56))

def finish (s : State) : BitVec 64 :=
  let s := round (round (round { s with v2 := s.v2 ^^^ 0xff }))
  s.v0 ^^^ s.v1 ^^^ s.v2 ^^^ s.v3

def hash (bytes : List UInt8) : Nat := (finish (absorbAll bytes.length init bytes)).toNat

def hashString (s : String) : Nat := hash (s.toUTF8.toList ++ [0xff])

example : hashString "hello" = 16156531084128653017 := by decide +kernel

end Openstack.SipHash

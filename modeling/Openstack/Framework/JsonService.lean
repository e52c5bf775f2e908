import Openstack.Lib.Json

/-!
# Services with JSON requests

What the providers of these services share: `str_param`, `json_ok`, `json_error` and the texts that
`Uuid::new_v4` draws.
-/
namespace Openstack.JsonService

/-- `str_param`. -/
def strParam (body : Json) (key : String) : Option String := (body.get? key).bind Json.asStr?

/-- `json_ok`, `json_ok_bytes` and `json_error`. -/
inductive Answer where
  | ok (body : Json)
  | okText (text : String)
  | error (code message : String) (status : Nat)
  deriving Repr

def Answer.succeeds : Answer → Bool
  | .error _ _ _ => false
  | _ => true

def required (key : String) : Answer := .error "ValidationException" (key ++ " is required") 400

/-- An `i64` in `json!`. -/
def int : Int → Json
  | .ofNat n => .posInt n
  | .negSucc n => .negInt (n + 1)

/-- `as_i64`. -/
def asI64? : Json → Option Int
  | .posInt n => if n < 9223372036854775808 then some n else none
  | .negInt n => some (-n)
  | _ => none

/-- The text of a uuid, hyphenated and in lower case. -/
structure Uuid where
  text : String
  length : text.toList.length = 36
  digits : text.toList.all (fun c => c.isDigit || "abcdef-".toList.contains c) = true

theorem Uuid.not_mem (uuid : Uuid) {c : Char}
    (foreign : (c.isDigit || "abcdef-".toList.contains c) = false) : c ∉ uuid.text.toList := by
  intro member
  have digit := List.all_eq_true.mp uuid.digits c member
  rw [foreign] at digit
  cases digit

section Example

def firstUuid : Uuid where
  text := "6b1f0c2e-5d3a-4e8b-9c7d-0a1b2c3d4e5f"
  length := by decide +kernel
  digits := by decide +kernel

def secondUuid : Uuid where
  text := "0d9e8f7a-1b2c-4d3e-8f4a-5b6c7d8e9f0a"
  length := by decide +kernel
  digits := by decide +kernel

end Example

end Openstack.JsonService

import Mathlib.Data.List.Basic

/-!
JSON values as `serde_json::Value` documents them: an integer keeps its sign
class, any other number keeps the text it prints as, and an object keeps its
entries in key order. Reading a field of something that is not an object, or a
field that is absent, gives nothing; `value["k"]` gives `null` there.
-/
namespace Openstack

inductive Json where
  | null
  | bool (v : Bool)
  | posInt (v : Nat)
  | negInt (magnitude : Nat)
  | float (text : String)
  | str (v : String)
  | arr (v : List Json)
  | obj (fields : List (String × Json))
  deriving Repr, Inhabited

namespace Json

/-- `value.get(key)`. -/
def get? (key : String) : Json → Option Json
  | .obj fields => fields.lookup key
  | _ => none

/-- `value[key]`. -/
def index (v : Json) (key : String) : Json := (v.get? key).getD .null

def asStr? : Json → Option String
  | .str v => some v
  | _ => none

def asBool? : Json → Option Bool
  | .bool v => some v
  | _ => none

def asU64? : Json → Option Nat
  | .posInt v => some v
  | _ => none

def asArray? : Json → Option (List Json)
  | .arr v => some v
  | _ => none

def asObject? : Json → Option (List (String × Json))
  | .obj fields => some fields
  | _ => none

end Json
end Openstack

import Openstack.Lib.Json
import Openstack.DynamoDb.Expression

/-!
# Attribute values on the wire

`store.rs:78-134` (wire format to attribute value) and `provider.rs:258-276` (the two
expression maps of a request). A value carries one type tag; the tags are tried in a
fixed order, and a value without a usable tag is `Null`. The fields of a JSON object
have distinct names.
-/
namespace Openstack.DynamoDb

/-- `arr.iter().filter_map(|s| s.as_str())`. -/
def stringElements (arr : List Json) : List String := arr.filterMap Json.asStr?

/-- The tags whose payload holds no further attribute value. -/
def avFromScalarTag (v : Json) : Option AttributeValue :=
  match (v.get? "S").bind Json.asStr? with
  | some s => some (.s s)
  | none =>
  match (v.get? "N").bind Json.asStr? with
  | some n => some (.n n)
  | none =>
  match (v.get? "B").bind Json.asStr? with
  | some b => some (.b b)
  | none =>
  match (v.get? "BOOL").bind Json.asBool? with
  | some b => some (.bool b)
  | none =>
  if ((v.get? "NULL").bind Json.asBool?).getD false then some .null
  else
  match (v.get? "SS").bind Json.asArray? with
  | some arr => some (.ss (stringElements arr))
  | none =>
  match (v.get? "NS").bind Json.asArray? with
  | some arr => some (.ns (stringElements arr))
  | none =>
  match (v.get? "BS").bind Json.asArray? with
  | some arr => some (.bs (stringElements arr))
  | none => none

mutual

/-- `av_from_json`. -/
@[grind] def avFromJson : Json → AttributeValue
  | .obj fields =>
    match avFromScalarTag (.obj fields) with
    | some v => v
    | none =>
    match avFromListTag fields with
    | some items => .l items
    | none =>
    match avFromMapTag fields with
    | some entries => .m entries
    | none => .null
  | _ => .null

/-- `v.get("L").and_then(|x| x.as_array())`, with every element converted. -/
def avFromListTag : List (String × Json) → Option (List AttributeValue)
  | [] => none
  | (tag, payload) :: rest =>
    if tag = "L" then avFromArray payload else avFromListTag rest

/-- `v.get("M").and_then(|x| x.as_object())`, with every entry converted. -/
def avFromMapTag : List (String × Json) → Option (List (String × AttributeValue))
  | [] => none
  | (tag, payload) :: rest =>
    if tag = "M" then avFromObject payload else avFromMapTag rest

def avFromArray : Json → Option (List AttributeValue)
  | .arr elements => some (avFromElements elements)
  | _ => none

def avFromObject : Json → Option (List (String × AttributeValue))
  | .obj fields => some (avFromEntries fields)
  | _ => none

def avFromElements : List Json → List AttributeValue
  | [] => []
  | v :: rest => avFromJson v :: avFromElements rest

def avFromEntries : List (String × Json) → List (String × AttributeValue)
  | [] => []
  | (k, v) :: rest => (k, avFromJson v) :: avFromEntries rest

end

/-- Collect key-value pairs into a map. -/
def collect {V : Type} (entries : List (String × V)) : StrMap V :=
  entries.foldl (fun m e => m.insert e.1 e.2) ∅

def itemFromJsonMap (m : List (String × Json)) : Item := collect (avFromEntries m)

def parseExprNames (v : Option Json) : AttrNames :=
  collect (((v.bind Json.asObject?).getD []).filterMap fun e => e.2.asStr?.map fun s => (e.1, s))

def parseExprValues (v : Option Json) : AttrValues :=
  collect (avFromEntries ((v.bind Json.asObject?).getD []))

example : avFromJson (.obj [("N", .str "3"), ("S", .bool true)]) = .n "3" := rfl

end Openstack.DynamoDb

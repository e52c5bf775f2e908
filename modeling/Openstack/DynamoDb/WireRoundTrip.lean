import Openstack.DynamoDb.WireFormat

/-!
# Attribute values to the wire and back

`store.rs:49-75` (the serialiser) beside the decoder of `store.rs:78-134`. A value is written with one type
tag, and the decoder, which tries the tags in a fixed order, finds it under that tag. The entries of a map
are written in the order in which the value lists them.
-/
namespace Openstack.DynamoDb

mutual

/-- `Serialize for AttributeValue`. -/
def avToJson : AttributeValue → Json
  | .s v => .obj [("S", .str v)]
  | .n v => .obj [("N", .str v)]
  | .b v => .obj [("B", .str v)]
  | .bool v => .obj [("BOOL", .bool v)]
  | .null => .obj [("NULL", .bool true)]
  | .ss v => .obj [("SS", .arr (v.map Json.str))]
  | .ns v => .obj [("NS", .arr (v.map Json.str))]
  | .bs v => .obj [("BS", .arr (v.map Json.str))]
  | .l v => .obj [("L", .arr (elementsToJson v))]
  | .m v => .obj [("M", .obj (entriesToJson v))]

def elementsToJson : List AttributeValue → List Json
  | [] => []
  | v :: rest => avToJson v :: elementsToJson rest

def entriesToJson : List (String × AttributeValue) → List (String × Json)
  | [] => []
  | (k, v) :: rest => (k, avToJson v) :: entriesToJson rest

end

/-- A serialised `Item`. -/
def itemToJsonMap (item : Item) : List (String × Json) := entriesToJson item.toList

theorem stringElements_str (v : List String) : stringElements (v.map Json.str) = v := by
  induction v with
  | nil => rfl
  | cons x rest ih =>
    rw [stringElements, List.map_cons, List.filterMap_cons_some (by rfl), ← stringElements, ih]

section Tags

variable {payload : Json}

/-- The tags of lists and maps are not those of scalars and sets. -/
theorem avFromScalarTag_other {tag : String}
    (other : tag ∉ ["S", "N", "B", "BOOL", "NULL", "SS", "NS", "BS"]) :
    avFromScalarTag (.obj [(tag, payload)]) = none := by
  have missing : ∀ scalar ∈ ["S", "N", "B", "BOOL", "NULL", "SS", "NS", "BS"],
      (Json.obj [(tag, payload)]).get? scalar = none := by
    intro scalar listed
    have apart : (scalar == tag) = false := by
      rw [beq_eq_false_iff_ne]
      rintro rfl
      exact other listed
    rw [Json.get?, List.lookup, apart]
    rfl
  simp only [List.forall_mem_cons] at missing
  obtain ⟨s, n, b, bool, null, ss, ns, bs, _⟩ := missing
  simp [avFromScalarTag, s, n, b, bool, null, ss, ns, bs]

theorem avFromJson_scalar {fields : List (String × Json)} {v : AttributeValue}
    (found : avFromScalarTag (.obj fields) = some v) : avFromJson (.obj fields) = v := by
  rw [avFromJson, found]

theorem avFromJson_list (elements : List Json) :
    avFromJson (.obj [("L", .arr elements)]) = .l (avFromElements elements) := by
  rw [avFromJson, avFromScalarTag_other (by decide), avFromListTag, if_pos rfl, avFromArray]

theorem avFromJson_map (fields : List (String × Json)) :
    avFromJson (.obj [("M", .obj fields)]) = .m (avFromEntries fields) := by
  have noList : avFromListTag [("M", .obj fields)] = none := by
    rw [avFromListTag, if_neg (by decide), avFromListTag]
  rw [avFromJson, avFromScalarTag_other (by decide), noList, avFromMapTag, if_pos rfl, avFromObject]

end Tags

mutual

/-- Each variant comes back under its own tag. -/
theorem avFromJson_avToJson : (v : AttributeValue) → avFromJson (avToJson v) = v
  | .s _ | .n _ | .b _ | .bool _ | .null => by
    rw [avToJson]
    exact avFromJson_scalar rfl
  | .ss v => by
    rw [avToJson]
    refine (avFromJson_scalar (v := .ss (stringElements (v.map Json.str))) rfl).trans ?_
    rw [stringElements_str]
  | .ns v => by
    rw [avToJson]
    refine (avFromJson_scalar (v := .ns (stringElements (v.map Json.str))) rfl).trans ?_
    rw [stringElements_str]
  | .bs v => by
    rw [avToJson]
    refine (avFromJson_scalar (v := .bs (stringElements (v.map Json.str))) rfl).trans ?_
    rw [stringElements_str]
  | .l v => by rw [avToJson, avFromJson_list, avFromElements_elementsToJson v]
  | .m v => by rw [avToJson, avFromJson_map, avFromEntries_entriesToJson v]

theorem avFromElements_elementsToJson :
    (v : List AttributeValue) → avFromElements (elementsToJson v) = v
  | [] => rfl
  | v :: rest => by
    rw [elementsToJson, avFromElements, avFromJson_avToJson v, avFromElements_elementsToJson rest]

theorem avFromEntries_entriesToJson :
    (v : List (String × AttributeValue)) → avFromEntries (entriesToJson v) = v
  | [] => rfl
  | (k, v) :: rest => by
    rw [entriesToJson, avFromEntries, avFromJson_avToJson v, avFromEntries_entriesToJson rest]

end

/-- The entries of a map give the map back. -/
theorem collect_toList {V : Type} (m : StrMap V) : collect m.toList = m := by
  rw [collect, ← Std.ExtTreeMap.insertMany_list_eq_foldl]
  refine Std.ExtTreeMap.ext_getElem? fun k => ?_
  cases found : m[k]? with
  | some v =>
    have listed : (k, v) ∈ m.toList := Std.ExtTreeMap.mem_toList_iff_getElem?_eq_some.mpr found
    exact Std.ExtTreeMap.getElem?_insertMany_list_of_mem (Std.compare_self)
      Std.ExtTreeMap.distinct_keys_toList listed
  | none =>
    have unlisted : (m.toList.map Prod.fst).contains k = false := by
      rw [Std.ExtTreeMap.map_fst_toList_eq_keys, Std.ExtTreeMap.contains_keys,
        Std.ExtTreeMap.contains_eq_isSome_getElem?, found]
      rfl
    rw [Std.ExtTreeMap.getElem?_insertMany_list_of_contains_eq_false unlisted]
    exact Std.ExtTreeMap.getElem?_empty

/-- A value comes back as it was, and so does an item. -/
theorem wire_round_trip (v : AttributeValue) (item : Item) :
    avFromJson (avToJson v) = v ∧ itemFromJsonMap (itemToJsonMap item) = item := by
  refine ⟨avFromJson_avToJson v, ?_⟩
  rw [itemFromJsonMap, itemToJsonMap, avFromEntries_entriesToJson, collect_toList]

end Openstack.DynamoDb

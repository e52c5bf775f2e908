import Openstack.Lib.Json
import Openstack.Lib.StrMap

/-!
Values written as JSON and read back, as the derived code of `serde` does: a list is an array, a map
is an object, and a structure is an object that is read field by field.
-/
namespace Openstack.JsonCodec

variable {A : Type}

def writeList (write : A → Json) (l : List A) : Json := .arr (l.map write)

def readList (read : Json → Option A) : Json → Option (List A)
  | .arr items => items.mapM read
  | _ => none

def writeMap (write : A → Json) (m : StrMap A) : Json := .obj (m.toList.map fun e => (e.1, write e.2))

def readEntry (read : Json → Option A) (e : String × Json) : Option (String × A) :=
  (read e.2).map fun a => (e.1, a)

/-- A later entry replaces an earlier one with its key. -/
def readMap (read : Json → Option A) : Json → Option (StrMap A)
  | .obj fields => (fields.mapM (readEntry read)).map fun l => Std.ExtTreeMap.ofList l compare
  | _ => none

/-- A field that must be there. -/
def readField (read : Json → Option A) (v : Json) (key : String) : Option A := (v.get? key).bind read

variable {write : A → Json} {read : Json → Option A}

/-- Fields are looked up in the order in which they were written. -/
@[simp] theorem readField_cons (key name : String) (v : Json) (fields : List (String × Json)) :
    readField read (.obj ((name, v) :: fields)) key =
      if key = name then read v else readField read (.obj fields) key := by
  by_cases same : key = name
  · subst same
    simp [readField, Json.get?]
  · have other : (key == name) = false := beq_eq_false_iff_ne.mpr same
    simp [readField, Json.get?, List.lookup_cons, same, other]

theorem mapM_map_eq_some {B : Type} {put : A → B} {get : B → Option A} {l : List A}
    (reads : ∀ a ∈ l, get (put a) = some a) : (l.map put).mapM get = some l := by
  induction l with
  | nil => rfl
  | cons a rest ih =>
    obtain ⟨here, others⟩ := List.forall_mem_cons.mp reads
    rw [List.map_cons, List.mapM_cons, here, ih others]
    rfl

theorem readList_writeList {l : List A} (reads : ∀ a ∈ l, read (write a) = some a) :
    readList read (writeList write l) = some l :=
  mapM_map_eq_some reads

theorem ofList_toList (m : StrMap A) : Std.ExtTreeMap.ofList m.toList compare = m := by
  refine Std.ExtTreeMap.ext_getElem? fun k => ?_
  cases found : m[k]? with
  | some a =>
    have member := Std.ExtTreeMap.mem_toList_iff_getElem?_eq_some.mpr found
    exact Std.ExtTreeMap.getElem?_ofList_of_mem (Std.LawfulEqCmp.compare_eq_iff_eq.mpr rfl)
      Std.ExtTreeMap.distinct_keys_toList member
  | none =>
    apply Std.ExtTreeMap.getElem?_ofList_of_contains_eq_false
    rw [Bool.eq_false_iff]
    intro listed
    obtain ⟨e, member, same⟩ := List.mem_map.mp (List.contains_iff_mem.mp listed)
    have present := Std.ExtTreeMap.mem_toList_iff_getElem?_eq_some.mp member
    rw [same, found] at present
    cases present

theorem readMap_writeMap {m : StrMap A}
    (reads : ∀ (k : String) a, m[k]? = some a → read (write a) = some a) :
    readMap read (writeMap write m) = some m := by
  have entries : (m.toList.map fun e => (e.1, write e.2)).mapM (readEntry read) = some m.toList := by
    apply mapM_map_eq_some
    intro e member
    have found := Std.ExtTreeMap.mem_toList_iff_getElem?_eq_some.mp member
    rw [readEntry, reads e.1 e.2 found]
    rfl
  rw [writeMap, readMap, entries, Option.map_some, ofList_toList]

end Openstack.JsonCodec

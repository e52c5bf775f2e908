import Mathlib.Data.List.Basic
import Std.Data.ExtTreeMap

/-!
Finite maps with string keys. A `HashMap<String, V>` and a
`BTreeMap<String, V>` are both read through this one type: it is extensional,
so two maps are equal exactly when they agree on every key, and it enumerates
its entries in key order, which is the order of a `BTreeMap` and one of the
orders a `HashMap` may choose.
-/
namespace Openstack

/-- String-keyed map; extensional and ordered by key. -/
abbrev StrMap (V : Type) := Std.ExtTreeMap String V compare

namespace StrMap

variable {V W : Type}

theorem getElem?_insert (m : StrMap V) (k a : String) (v : V) :
    (m.insert k v)[a]? = if k = a then some v else m[a]? := by
  rw [Std.ExtTreeMap.getElem?_insert]
  simp only [Std.LawfulEqCmp.compare_eq_iff_eq]

theorem getElem?_erase (m : StrMap V) (k a : String) :
    (m.erase k)[a]? = if k = a then none else m[a]? := by
  rw [Std.ExtTreeMap.getElem?_erase]
  simp only [Std.LawfulEqCmp.compare_eq_iff_eq]

/-- Apply `f` to every value: the `values_mut` loop. -/
def mapValues (f : V → W) (m : StrMap V) : StrMap W := Std.ExtTreeMap.map (fun _ v => f v) m

@[simp] theorem getElem?_mapValues (f : V → W) (m : StrMap V) (k : String) :
    (mapValues f m)[k]? = m[k]?.map f := by
  simp [mapValues]

theorem mapValues_empty (f : V → W) : mapValues f ∅ = ∅ := by
  refine Std.ExtTreeMap.ext_getElem? fun k => ?_
  simp

theorem mapValues_insert (f : V → W) (m : StrMap V) (k : String) (v : V) :
    mapValues f (m.insert k v) = (mapValues f m).insert k (f v) := by
  refine Std.ExtTreeMap.ext_getElem? fun a => ?_
  rw [getElem?_mapValues, getElem?_insert, getElem?_insert, getElem?_mapValues]
  split
  · rfl
  · rfl

/-- Every value, in key order. -/
def values (m : StrMap V) : List V := m.toList.map Prod.snd

theorem mem_values {m : StrMap V} {v : V} : v ∈ values m ↔ ∃ k : String, m[k]? = some v := by
  simp only [values, List.mem_map, Prod.exists, exists_eq_right]
  constructor
  · rintro ⟨k, h⟩
    exact ⟨k, Std.ExtTreeMap.mem_toList_iff_getElem?_eq_some.mp h⟩
  · rintro ⟨k, h⟩
    exact ⟨k, Std.ExtTreeMap.mem_toList_iff_getElem?_eq_some.mpr h⟩

end StrMap
end Openstack

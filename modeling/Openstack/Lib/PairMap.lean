import Mathlib.Data.List.Basic
import Std.Data.ExtTreeMap

/-!
Finite maps whose keys are pairs of strings, for a `HashMap<(String, String), V>`. Like `StrMap` such a
map is extensional, and it enumerates its entries in the order of the keys.
-/
namespace Openstack

attribute [local instance] lexOrd

/-- Pair-keyed map; extensional and ordered by key. -/
abbrev PairMap (V : Type) := Std.ExtTreeMap (String × String) V lexOrd.compare

namespace PairMap

variable {V : Type}

instance : Std.TransCmp (lexOrd (α := String) (β := String)).compare :=
  inferInstanceAs (Std.TransOrd (String × String))

instance : Std.LawfulEqCmp (lexOrd (α := String) (β := String)).compare :=
  inferInstanceAs (Std.LawfulEqOrd (String × String))

theorem getElem?_insert (m : PairMap V) (k a : String × String) (v : V) :
    (m.insert k v)[a]? = if k = a then some v else m[a]? := by
  rw [Std.ExtTreeMap.getElem?_insert]
  simp only [Std.LawfulEqCmp.compare_eq_iff_eq]

/-- The entries whose key passes the test: `retain`. -/
def retain (m : PairMap V) (keep : String × String → Bool) : PairMap V := m.filter fun k _ => keep k

@[simp] theorem getElem?_retain (m : PairMap V) (keep : String × String → Bool) (k : String × String) :
    (m.retain keep)[k]? = if keep k then m[k]? else none := by
  rw [retain, Std.ExtTreeMap.getElem?_filter']
  cases m[k]? with
  | none => simp
  | some v => by_cases kept : keep k = true <;> simp [kept]

/-- An enumeration names each key once. -/
theorem filter_toList (m : PairMap V) (k : String × String) :
    m.toList.filter (·.1 = k) = (m[k]?.map fun v => (k, v)).toList := by
  have mem (p : (String × String) × V) :
      p ∈ m.toList.filter (·.1 = k) ↔ p.1 = k ∧ m[p.1]? = some p.2 := by
    rw [List.mem_filter, decide_eq_true_iff, ← Std.ExtTreeMap.mem_toList_iff_getElem?_eq_some, and_comm]
  have distinct : (m.toList.filter (·.1 = k)).Pairwise fun p q => ¬ lexOrd.compare p.1 q.1 = .eq :=
    Std.ExtTreeMap.distinct_keys_toList.filter _
  cases stored : m[k]? with
  | none =>
    apply List.eq_nil_iff_forall_not_mem.mpr
    intro p member
    obtain ⟨rfl, found⟩ := (mem p).mp member
    rw [stored] at found
    cases found
  | some v =>
    have all (p : (String × String) × V) (member : p ∈ m.toList.filter (·.1 = k)) : p = (k, v) := by
      obtain ⟨rfl, found⟩ := (mem p).mp member
      rw [stored, Option.some.injEq] at found
      rw [found]
    have there : (k, v) ∈ m.toList.filter (·.1 = k) := (mem (k, v)).mpr ⟨rfl, stored⟩
    generalize m.toList.filter (·.1 = k) = found at distinct all there
    cases found with
    | nil => cases there
    | cons p rest =>
      cases rest with
      | nil =>
        rw [all p (by simp)]
        rfl
      | cons q more =>
        have apart := (List.pairwise_cons.mp distinct).1 q (by simp)
        rw [all p (by simp), all q (by simp)] at apart
        exact absurd Std.ReflCmp.compare_self apart

end PairMap
end Openstack

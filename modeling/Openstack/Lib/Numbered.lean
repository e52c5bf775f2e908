import Mathlib.Data.List.Nodup
import Mathlib.Data.List.Perm.Subperm
import Std.Data.String.ToNat
import Openstack.Lib.StrMap

/-!
# Numbered keys

Lists that are sent as a key for each place: a reader counts up and stops at the first number without a
value. A finite map always has such a number.
-/
namespace Openstack.Numbered

variable {α V : Type}

/-- The values from a number on, up to the first number without one. -/
def collect (get : Nat → Option α) : Nat → Nat → List α
  | 0, _ => []
  | fuel + 1, number =>
    match get number with
    | none => []
    | some value => value :: collect get fuel (number + 1)

/-- With more fuel than values, the end of the list is a number without a value. -/
theorem collect_ends {get : Nat → Option α} {fuel number n : Nat} (missing : get (number + n) = none)
    (enough : n < fuel) : get (number + (collect get fuel number).length) = none := by
  induction fuel generalizing number n with
  | zero => omega
  | succ fuel ih =>
    rw [collect]
    split
    · next absent => exact absent
    · next value present =>
      cases n with
      | zero =>
        rw [Nat.add_zero, present] at missing
        cases missing
      | succ n =>
        have later : get (number + 1 + n) = none := by rwa [Nat.add_assoc, Nat.add_comm 1 n]
        have rest := ih later (by omega)
        rwa [List.length_cons, Nat.add_comm _ 1, ← Nat.add_assoc]

theorem collect_of_missing {get : Nat → Option α} (fuel : Nat) {number : Nat}
    (missing : get number = none) : collect get fuel number = [] := by
  cases fuel with
  | zero => rfl
  | succ fuel => simp only [collect, missing]

/-- Among more numbers than the map has keys, one has no value. -/
theorem exists_missing (m : StrMap V) {key : Nat → String} (distinct : ∀ i j, key i = key j → i = j)
    (number : Nat) : ∃ n < m.size + 1, m[key (number + n)]? = none := by
  by_contra all
  have keys : ((List.range (m.size + 1)).map fun n => key (number + n)).Nodup := by
    refine List.nodup_range.map fun i j same => ?_
    have := distinct _ _ same
    omega
  have listed : ((List.range (m.size + 1)).map fun n => key (number + n)) ⊆ m.keys := by
    intro k member
    obtain ⟨n, inRange, rfl⟩ := List.mem_map.mp member
    have present : m[key (number + n)]? ≠ none := fun absent => all ⟨n, List.mem_range.mp inRange, absent⟩
    rw [Std.ExtTreeMap.mem_keys, Std.ExtTreeMap.mem_iff_isSome_getElem?]
    exact Option.isSome_iff_ne_none.mpr present
  have bound := (keys.subperm listed).length_le
  rw [List.length_map, List.length_range, Std.ExtTreeMap.length_keys] at bound
  omega

/-- The key of a place. -/
def indexed (start : String) (i : Nat) (stop : String) : String := start ++ Nat.repr i ++ stop

theorem indexed_inj {start stop : String} {i j : Nat} (same : indexed start i stop = indexed start j stop) :
    i = j := by
  have lists := congrArg String.toList same
  rw [indexed, indexed, String.toList_append, String.toList_append, String.toList_append,
    String.toList_append] at lists
  have digits := List.append_cancel_left (List.append_cancel_right lists)
  exact Nat.repr_injective (String.toList_inj.mp digits)

end Openstack.Numbered

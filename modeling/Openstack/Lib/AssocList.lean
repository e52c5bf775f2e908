import Openstack.Lib.StrMap

/-!
Lists of keys and values, read by `List.lookup`: the first entry of a key counts, and where a key has one value
only the order does not matter.
-/
namespace Openstack.AssocList

section Lookup

variable {α β : Type} [BEq α] [LawfulBEq α] {l : List (α × β)} {k : α} {v : β}

theorem lookup_cons_ite [DecidableEq α] (name k : α) (v : β) (rest : List (α × β)) :
    ((k, v) :: rest).lookup name = if name = k then some v else rest.lookup name := by
  rw [List.lookup_cons]
  by_cases same : name = k
  · rw [beq_iff_eq.mpr same, if_pos same]
  · rw [beq_false_of_ne same, if_neg same]

theorem lookup_of_mem (member : (k, v) ∈ l) (unique : ∀ w, (k, w) ∈ l → w = v) : l.lookup k = some v := by
  cases found : l.lookup k with
  | none =>
    have apart := List.lookup_eq_none_iff.mp found (k, v) member
    simp at apart
  | some w =>
    obtain ⟨front, back, rfl, -⟩ := List.lookup_eq_some_iff.mp found
    rw [unique w (List.mem_append_right _ List.mem_cons_self)]

end Lookup

theorem lookup_map_value {α β γ : Type} [BEq α] (f : β → γ) (l : List (α × β)) (k : α) :
    (l.map fun entry => (entry.1, f entry.2)).lookup k = (l.lookup k).map f := by
  induction l with
  | nil => rfl
  | cons entry rest ih =>
    rw [List.map_cons, List.lookup_cons, List.lookup_cons, ih]
    cases k == entry.1 <;> rfl

/-- The entries of a map, in whatever order they come. -/
theorem lookup_of_perm {V : Type} {m : StrMap V} {entries : List (String × V)} (order : entries.Perm m.toList)
    (name : String) : entries.lookup name = m[name]? := by
  have member : ∀ value, (name, value) ∈ entries ↔ m[name]? = some value := fun value =>
    order.mem_iff.trans Std.ExtTreeMap.mem_toList_iff_getElem?_eq_some
  cases found : m[name]? with
  | some value =>
    refine lookup_of_mem ((member value).mpr found) fun other there => ?_
    rw [member, found] at there
    exact (Option.some.inj there).symm
  | none =>
    refine List.lookup_eq_none_iff.mpr fun entry there => ?_
    rw [bne_iff_ne]
    rintro rfl
    rw [(member entry.2).mp there] at found
    cases found

end Openstack.AssocList

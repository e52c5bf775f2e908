import Openstack.Lib.StrMap

/-!
Bucketed indexes: a map from a key string to the list of members filed under
it. `Represents` says that the buckets are exactly a given relation between keys
and members, each bucket without repetition and without empty leftovers; `add`
and `remove` insert and delete one pair of that relation.
-/
namespace Openstack

abbrev Buckets (P : Type) := StrMap (List P)

namespace Buckets

variable {P : Type}

/-- The members filed under `k`; an absent key has none. -/
def bucket (b : Buckets P) (k : String) : List P := b[k]?.getD []

/-- File `p` under `k` unless it is already there. -/
def add [DecidableEq P] (b : Buckets P) (k : String) (p : P) : Buckets P :=
  b.insert k (if p ∈ b.bucket k then b.bucket k else b.bucket k ++ [p])

/-- Take `p` out of bucket `k`; a bucket that becomes empty is dropped. -/
def remove [DecidableEq P] (b : Buckets P) (k : String) (p : P) : Buckets P :=
  match b[k]? with
  | none => b
  | some members =>
    if members.filter (· ≠ p) = [] then b.erase k else b.insert k (members.filter (· ≠ p))

structure Represents (b : Buckets P) (rel : String → P → Prop) : Prop where
  mem_iff : ∀ k p, p ∈ b.bucket k ↔ rel k p
  nodup : ∀ k, (b.bucket k).Nodup
  nonempty : ∀ k : String, b[k]? ≠ some []

theorem bucket_insert (b : Buckets P) (k a : String) (members : List P) :
    bucket (b.insert k members) a = if k = a then members else b.bucket a := by
  simp only [bucket, StrMap.getElem?_insert]
  split <;> rfl

theorem bucket_erase (b : Buckets P) (k a : String) :
    bucket (b.erase k) a = if k = a then [] else b.bucket a := by
  simp only [bucket, StrMap.getElem?_erase]
  split <;> rfl

theorem bucket_remove [DecidableEq P] (b : Buckets P) (k a : String) (p : P) :
    (b.remove k p).bucket a = if k = a then (b.bucket a).filter (· ≠ p) else b.bucket a := by
  unfold remove
  split
  · next hnone =>
    split
    · next h => subst h; simp [bucket, hnone]
    · rfl
  · next members hsome =>
    have hb : b.bucket k = members := by simp [bucket, hsome]
    split
    · next hempty =>
      rw [bucket_erase]
      split
      · next h => subst h; rw [hb, hempty]
      · rfl
    · rw [bucket_insert]
      split
      · next h => subst h; rw [hb]
      · rfl

theorem represents_empty : Represents (∅ : Buckets P) (fun _ _ => False) where
  mem_iff k p := by simp [bucket]
  nodup k := by simp [bucket]
  nonempty k := by simp

theorem Represents.congr {b : Buckets P} {rel rel' : String → P → Prop} (h : b.Represents rel)
    (same : ∀ k p, rel k p ↔ rel' k p) : b.Represents rel' where
  mem_iff k p := (h.mem_iff k p).trans (same k p)
  nodup := h.nodup
  nonempty := h.nonempty

/-- Buckets that represent one relation represent another exactly when the two
relations are the same. -/
theorem Represents.iff_same {b : Buckets P} {rel rel' : String → P → Prop} (h : b.Represents rel) :
    b.Represents rel' ↔ ∀ k p, rel k p ↔ rel' k p := by
  constructor
  · intro h' k p
    rw [← h.mem_iff, h'.mem_iff]
  · exact h.congr

theorem Represents.add [DecidableEq P] {b : Buckets P} {rel : String → P → Prop}
    (h : b.Represents rel) (k : String) (p : P) :
    (b.add k p).Represents (fun k' p' => rel k' p' ∨ (k' = k ∧ p' = p)) where
  mem_iff k' p' := by
    rw [Buckets.add, bucket_insert]
    by_cases hk : k = k'
    · subst hk
      by_cases hp : p ∈ b.bucket k
      · have hrel := (h.mem_iff k p).mp hp
        simp only [↓reduceIte, hp, h.mem_iff, true_and]
        exact ⟨Or.inl, fun hor => hor.elim id (fun he => he ▸ hrel)⟩
      · simp [hp, h.mem_iff]
    · simp [hk, h.mem_iff, Ne.symm hk]
  nodup k' := by
    rw [Buckets.add, bucket_insert]
    by_cases hk : k = k'
    · subst hk
      by_cases hp : p ∈ b.bucket k
      · simpa [hp] using h.nodup k
      · have hdisjoint : ∀ a ∈ b.bucket k, ¬ a = p := fun a ha he => hp (he ▸ ha)
        simpa [hp, List.nodup_append] using ⟨h.nodup k, hdisjoint⟩
    · simpa [hk] using h.nodup k'
  nonempty k' := by
    rw [Buckets.add, StrMap.getElem?_insert]
    split
    · split
      · next hp => exact fun he => by simp [Option.some.inj he] at hp
      · simp
    · exact h.nonempty k'

theorem Represents.remove [DecidableEq P] {b : Buckets P} {rel : String → P → Prop}
    (h : b.Represents rel) (k : String) (p : P) :
    (b.remove k p).Represents (fun k' p' => rel k' p' ∧ ¬ (k' = k ∧ p' = p)) where
  mem_iff k' p' := by
    rw [bucket_remove]
    by_cases hk : k = k'
    · subst hk; simp [h.mem_iff]
    · simp [hk, h.mem_iff, Ne.symm hk]
  nodup k' := by
    rw [bucket_remove]
    split
    · exact (h.nodup k').filter _
    · exact h.nodup k'
  nonempty k' := by
    unfold Buckets.remove
    split
    · exact h.nonempty k'
    · split
      · rw [StrMap.getElem?_erase]
        split
        · simp
        · exact h.nonempty k'
      · next hkept =>
        rw [StrMap.getElem?_insert]
        split
        · simpa using hkept
        · exact h.nonempty k'

end Buckets
end Openstack

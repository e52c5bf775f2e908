import Mathlib.Data.Set.Insert
import Mathlib.Logic.Function.Basic

/-!
Resources in the custody of holders, each of which holds one at most. A live resource that nobody holds is
lost: none of the operations brings it back, and only dropping one adds to what is lost.
-/
namespace Openstack

structure Custody (O R : Type) where
  live : Set R
  holds : O → Option R

namespace Custody

variable {O R : Type} [DecidableEq O]

/-- A new resource is created and held. -/
def gain (c : Custody O R) (o : O) (r : R) : Custody O R where
  live := insert r c.live
  holds := Function.update c.holds o (some r)

/-- What one holder has is passed on to another. -/
def give (c : Custody O R) (a b : O) : Custody O R where
  live := c.live
  holds := Function.update (Function.update c.holds a none) b (c.holds a)

/-- What a holder has is disposed of. -/
def release (c : Custody O R) (a : O) : Custody O R where
  live := {r | r ∈ c.live ∧ c.holds a ≠ some r}
  holds := Function.update c.holds a none

/-- A holder lets go of what it has, which stays live. -/
def drop (c : Custody O R) (a : O) : Custody O R where
  live := c.live
  holds := Function.update c.holds a none

structure Exclusive (c : Custody O R) : Prop where
  live : ∀ o r, c.holds o = some r → r ∈ c.live
  alone : ∀ o o' r, c.holds o = some r → c.holds o' = some r → o = o'

def Lost (c : Custody O R) (r : R) : Prop := r ∈ c.live ∧ ∀ o, c.holds o ≠ some r

variable {c : Custody O R} {a b o : O} {r x : R}

theorem holds_update {value : Option R} {other : O} :
    Function.update c.holds o value other = some x ↔
      (other = o ∧ value = some x) ∨ (other ≠ o ∧ c.holds other = some x) := by
  by_cases same : other = o
  · subst same
    simp
  · simp [same]

theorem holds_give {other : O} : (c.give a b).holds other = some x ↔
    (other = b ∧ c.holds a = some x) ∨ (other ≠ b ∧ other ≠ a ∧ c.holds other = some x) := by
  rw [give]
  dsimp only
  by_cases there : other = b
  · subst there
    simp
  · by_cases here : other = a
    · subst here
      simp [there]
    · simp [there, here]

/-- A holder drops what it has for what another passes on to it. -/
theorem give_drop (apart : a ≠ b) : (c.drop b).give a b =
    ⟨c.live, Function.update (Function.update c.holds b (c.holds a)) a none⟩ := by
  rw [drop, give]
  congr 1
  funext other
  by_cases here : other = a
  · subst here
    simp [apart]
  · by_cases there : other = b
    · subst there
      simp [apart, here]
    · simp [here, there]

theorem Exclusive.gain (excl : c.Exclusive) (fresh : r ∉ c.live) : (c.gain o r).Exclusive where
  live other x held := by
    rcases holds_update.mp held with ⟨-, same⟩ | ⟨-, old⟩
    · cases same
      exact Set.mem_insert _ _
    · exact Set.mem_insert_of_mem _ (excl.live other x old)
  alone p q x first second := by
    rcases holds_update.mp first with ⟨rfl, same⟩ | ⟨-, old⟩
    · cases same
      rcases holds_update.mp second with ⟨rfl, -⟩ | ⟨-, old⟩
      · rfl
      · exact absurd (excl.live q r old) fresh
    · rcases holds_update.mp second with ⟨rfl, same⟩ | ⟨-, old'⟩
      · cases same
        exact absurd (excl.live p r old) fresh
      · exact excl.alone p q x old old'

theorem Exclusive.drop (excl : c.Exclusive) (a : O) : (c.drop a).Exclusive where
  live other x held := by
    rcases holds_update.mp held with ⟨-, none⟩ | ⟨-, old⟩
    · cases none
    · exact excl.live other x old
  alone p q x first second := by
    rcases holds_update.mp first with ⟨-, none⟩ | ⟨-, old⟩
    · cases none
    · rcases holds_update.mp second with ⟨-, none⟩ | ⟨-, old'⟩
      · cases none
      · exact excl.alone p q x old old'

theorem Exclusive.release (excl : c.Exclusive) (a : O) : (c.release a).Exclusive where
  live other x held := by
    rcases holds_update.mp held with ⟨-, none⟩ | ⟨elsewhere, old⟩
    · cases none
    · exact ⟨excl.live other x old, fun here => elsewhere (excl.alone other a x old here)⟩
  alone := (excl.drop a).alone

theorem Exclusive.give (excl : c.Exclusive) (a b : O) : (c.give a b).Exclusive where
  live other x held := by
    rcases holds_give.mp held with ⟨-, here⟩ | ⟨-, -, old⟩
    · exact excl.live a x here
    · exact excl.live other x old
  alone p q x first second := by
    rcases holds_give.mp first with ⟨rfl, here⟩ | ⟨-, elsewhere, old⟩
    · rcases holds_give.mp second with ⟨rfl, -⟩ | ⟨-, elsewhere, old⟩
      · rfl
      · exact absurd (excl.alone q a x old here) elsewhere
    · rcases holds_give.mp second with ⟨rfl, here⟩ | ⟨-, -, old'⟩
      · exact absurd (excl.alone p a x old here) elsewhere
      · exact excl.alone p q x old old'

theorem lost_gain (fresh : r ∉ c.live) (free : c.holds o = none) :
    (c.gain o r).Lost x ↔ c.Lost x := by
  constructor
  · rintro ⟨there, unheld⟩
    rcases Set.mem_insert_iff.mp there with rfl | old
    · exact absurd (holds_update.mpr (Or.inl ⟨rfl, rfl⟩)) (unheld o)
    · refine ⟨old, fun p held => unheld p (holds_update.mpr (Or.inr ⟨?_, held⟩))⟩
      rintro rfl
      rw [free] at held
      cases held
  · rintro ⟨old, unheld⟩
    refine ⟨Set.mem_insert_of_mem _ old, fun p held => ?_⟩
    rcases holds_update.mp held with ⟨-, same⟩ | ⟨-, held⟩
    · cases same
      exact fresh old
    · exact unheld p held

theorem lost_give (apart : a ≠ b) (free : c.holds b = none) : (c.give a b).Lost x ↔ c.Lost x := by
  constructor
  · rintro ⟨there, unheld⟩
    refine ⟨there, fun p held => ?_⟩
    by_cases here : p = a
    · subst here
      exact unheld b (holds_give.mpr (Or.inl ⟨rfl, held⟩))
    · refine unheld p (holds_give.mpr (Or.inr ⟨?_, here, held⟩))
      rintro rfl
      rw [free] at held
      cases held
  · rintro ⟨there, unheld⟩
    refine ⟨there, fun p held => ?_⟩
    rcases holds_give.mp held with ⟨-, here⟩ | ⟨-, -, old⟩
    · exact unheld a here
    · exact unheld p old

theorem lost_release : (c.release a).Lost x ↔ c.Lost x := by
  constructor
  · rintro ⟨⟨there, other⟩, unheld⟩
    refine ⟨there, fun p held => ?_⟩
    by_cases here : p = a
    · subst here
      exact other held
    · exact unheld p (holds_update.mpr (Or.inr ⟨here, held⟩))
  · rintro ⟨there, unheld⟩
    refine ⟨⟨there, unheld a⟩, fun p held => ?_⟩
    rcases holds_update.mp held with ⟨-, none⟩ | ⟨-, old⟩
    · cases none
    · exact unheld p old

theorem lost_drop (excl : c.Exclusive) : (c.drop a).Lost x ↔ c.Lost x ∨ c.holds a = some x := by
  constructor
  · rintro ⟨there, unheld⟩
    by_cases here : c.holds a = some x
    · exact Or.inr here
    · refine Or.inl ⟨there, fun p held => unheld p (holds_update.mpr (Or.inr ⟨?_, held⟩))⟩
      rintro rfl
      exact here held
  · rintro (⟨there, unheld⟩ | here)
    · refine ⟨there, fun p held => ?_⟩
      rcases holds_update.mp held with ⟨-, none⟩ | ⟨-, old⟩
      · cases none
      · exact unheld p old
    · refine ⟨excl.live a x here, fun p held => ?_⟩
      rcases holds_update.mp held with ⟨-, none⟩ | ⟨elsewhere, old⟩
      · cases none
      · exact elsewhere (excl.alone p a x old here)

end Custody

end Openstack

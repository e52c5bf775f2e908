import Mathlib.Logic.Function.Basic
import Mathlib.Logic.Relation

/-!
Processes that share one state and no locks. Each process is at a stage, and one step of a stage
changes the shared state atomically and leads to the next stage. A schedule names the process that
moves next; `Solo` is the run of one process without interruption.
-/
namespace Openstack.Interleaving

variable {ι T S : Type}

structure Pool (ι T S : Type) where
  shared : S
  stage : ι → T

variable [DecidableEq ι] (step : T → S → T × S)

def Pool.advance (p : Pool ι T S) (i : ι) : Pool ι T S where
  shared := (step (p.stage i) p.shared).2
  stage := Function.update p.stage i (step (p.stage i) p.shared).1

@[simp] theorem Pool.advance_shared (p : Pool ι T S) (i : ι) :
    (p.advance step i).shared = (step (p.stage i) p.shared).2 := rfl

@[simp] theorem Pool.advance_stage_self (p : Pool ι T S) (i : ι) :
    (p.advance step i).stage i = (step (p.stage i) p.shared).1 := by
  simp [Pool.advance]

theorem Pool.advance_stage_of_ne (p : Pool ι T S) {i j : ι} (other : j ≠ i) :
    (p.advance step i).stage j = p.stage j := by
  simp [Pool.advance, other]

/-- What holds of the moved stage and of every other stage holds of every stage. -/
theorem Pool.forall_advance {p : Pool ι T S} {i : ι} {P : ι → T → Prop}
    (moved : P i (step (p.stage i) p.shared).1) (others : ∀ j, j ≠ i → P j (p.stage j)) :
    ∀ j, P j ((p.advance step i).stage j) := by
  intro j
  by_cases here : j = i
  · subst here
    rw [Pool.advance_stage_self]
    exact moved
  · rw [Pool.advance_stage_of_ne step p here]
    exact others j here

/-- One process runs without interruption from one stage and state to another. -/
def Solo : T × S → T × S → Prop := Relation.ReflTransGen fun a b => step a.1 a.2 = b

variable {step}

theorem Solo.refl (a : T × S) : Solo step a a := Relation.ReflTransGen.refl

theorem Solo.head {t : T} {s : S} {a b : T × S} (first : step t s = a) (rest : Solo step a b) :
    Solo step (t, s) b := Relation.ReflTransGen.head first rest

end Openstack.Interleaving

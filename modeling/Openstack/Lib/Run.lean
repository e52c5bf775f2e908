import Mathlib.Data.List.Basic

/-!
Finite runs of a deterministic step function: properties of every state a run
passes through, conditions on every step at the state it is taken in, and the
induction that links the two.
-/
namespace Openstack.Run

variable {S A : Type} (step : S → A → S)
variable {P : S → Prop} {C : S → A → Prop} {s : S} {acts : List A}

/-- `P` holds in the first state of the run and in every state it reaches. -/
def AllStates (P : S → Prop) : S → List A → Prop
  | s, [] => P s
  | s, a :: rest => P s ∧ AllStates P (step s a) rest

/-- `C` holds of every step, at the state the step is taken in. -/
def AllSteps (C : S → A → Prop) : S → List A → Prop
  | _, [] => True
  | s, a :: rest => C s a ∧ AllSteps C (step s a) rest

instance decidableAllSteps (C : S → A → Prop) [decC : ∀ s a, Decidable (C s a)] :
    (s : S) → (acts : List A) → Decidable (AllSteps step C s acts)
  | _, [] => isTrue trivial
  | s, a :: rest =>
    have := decidableAllSteps C (step s a) rest
    inferInstanceAs (Decidable (C s a ∧ AllSteps step C (step s a) rest))

variable {step}

theorem AllStates.imp {P Q : S → Prop} (weaker : ∀ s, P s → Q s) (s : S) (acts : List A)
    (states : AllStates step P s acts) : AllStates step Q s acts := by
  induction acts generalizing s with
  | nil => exact weaker s states
  | cons a rest ih => exact ⟨weaker s states.1, ih (step s a) states.2⟩

theorem AllStates.last (states : AllStates step P s acts) :
    P (acts.foldl step s) := by
  induction acts generalizing s with
  | nil => exact states
  | cons a rest ih => exact ih states.2

/-- An invariant that a step preserves under its condition holds along every run
whose steps all meet the condition. -/
theorem allStates_of_allSteps
    (preserved : ∀ s a, P s → C s a → P (step s a)) (s : S) (acts : List A)
    (start : P s) (steps : AllSteps step C s acts) : AllStates step P s acts := by
  induction acts generalizing s with
  | nil => exact start
  | cons a rest ih =>
    exact ⟨start, ih (step s a) (preserved s a start steps.1) steps.2⟩

/-- An invariant that every step preserves holds along every run. -/
theorem allStates_of_preserved (preserved : ∀ s a, P s → P (step s a)) (s : S)
    (acts : List A) (start : P s) : AllStates step P s acts := by
  induction acts generalizing s with
  | nil => exact start
  | cons a rest ih => exact ⟨start, ih (step s a) (preserved s a start)⟩

/-- The same under a condition, for the last state of the run. -/
theorem foldl_of_allSteps (preserved : ∀ s a, P s → C s a → P (step s a)) (s : S) (acts : List A)
    (start : P s) (steps : AllSteps step C s acts) : P (acts.foldl step s) := by
  induction acts generalizing s with
  | nil => exact start
  | cons a rest ih => exact ih (step s a) (preserved s a start steps.1) steps.2

/-- Under an invariant a condition on the steps gives another property of the steps. -/
theorem allSteps_of_invariant {C D : S → A → Prop}
    (preserved : ∀ s a, P s → C s a → P (step s a) ∧ D s a) (s : S) (acts : List A)
    (start : P s) (steps : AllSteps step C s acts) : AllSteps step D s acts := by
  induction acts generalizing s with
  | nil => trivial
  | cons a rest ih =>
    obtain ⟨next, here⟩ := preserved s a start steps.1
    exact ⟨here, ih (step s a) next steps.2⟩

theorem allSteps_and {C D : S → A → Prop}
    (left : AllSteps step C s acts) (right : AllSteps step D s acts) :
    AllSteps step (fun s a => C s a ∧ D s a) s acts := by
  induction acts generalizing s with
  | nil => trivial
  | cons a rest ih => exact ⟨⟨left.1, right.1⟩, ih left.2 right.2⟩

/-- The condition holds along the rest of a run. -/
theorem allSteps_drop (s : S) (before after : List A)
    (steps : AllSteps step C s (before ++ after)) :
    AllSteps step C (before.foldl step s) after := by
  induction before generalizing s with
  | nil => exact steps
  | cons a rest ih => exact ih (step s a) steps.2

/-- The condition holds along the first part of a run. -/
theorem allSteps_take (s : S) (before after : List A)
    (steps : AllSteps step C s (before ++ after)) : AllSteps step C s before := by
  induction before generalizing s with
  | nil => trivial
  | cons a rest ih => exact ⟨steps.1, ih (step s a) steps.2⟩

theorem AllSteps.imp {C D : S → A → Prop} (weaker : ∀ s a, C s a → D s a)
    (steps : AllSteps step C s acts) : AllSteps step D s acts := by
  induction acts generalizing s with
  | nil => trivial
  | cons a rest ih => exact ⟨weaker s a steps.1, ih steps.2⟩

/-- When the condition is exactly what one step needs, it is also exactly what a
run needs. -/
theorem allStates_iff_allSteps
    (exact_step : ∀ s a, P s → (P (step s a) ↔ C s a)) (s : S) (acts : List A) (start : P s) :
    AllStates step P s acts ↔ AllSteps step C s acts := by
  induction acts generalizing s with
  | nil => exact ⟨fun _ => trivial, fun _ => start⟩
  | cons a rest ih =>
    constructor
    · rintro ⟨_, later⟩
      have next : P (step s a) := by
        cases rest with
        | nil => exact later
        | cons b more => exact later.1
      exact ⟨(exact_step s a start).mp next, (ih _ next).mp later⟩
    · rintro ⟨cond, later⟩
      have next := (exact_step s a start).mpr cond
      exact ⟨start, (ih _ next).mpr later⟩

theorem allSteps_of_forall (each : ∀ s a, C s a) (s : S) (acts : List A) :
    AllSteps step C s acts := by
  induction acts generalizing s with
  | nil => trivial
  | cons a rest ih => exact ⟨each s a, ih (step s a)⟩

/-- The same for states and steps together, in the runs whose steps meet an assumption. -/
theorem allStates_and_allSteps_iff {D C F : S → A → Prop}
    (exact_step : ∀ s a, P s → F s a → (P (step s a) ∧ D s a ↔ C s a)) (s : S) (acts : List A)
    (start : P s) (assumed : AllSteps step F s acts) :
    AllStates step P s acts ∧ AllSteps step D s acts ↔ AllSteps step C s acts := by
  induction acts generalizing s with
  | nil => exact ⟨fun _ => trivial, fun _ => ⟨start, trivial⟩⟩
  | cons a rest ih =>
    have here := exact_step s a start assumed.1
    constructor
    · rintro ⟨⟨-, states⟩, safe, steps⟩
      have next : P (step s a) := by
        cases rest with
        | nil => exact states
        | cons b more => exact states.1
      exact ⟨here.mp ⟨next, safe⟩, (ih _ next assumed.2).mp ⟨states, steps⟩⟩
    · rintro ⟨cond, later⟩
      obtain ⟨next, safe⟩ := here.mpr cond
      obtain ⟨states, steps⟩ := (ih _ next assumed.2).mpr later
      exact ⟨⟨start, states⟩, safe, steps⟩

/-- The same for states, when the condition is exact in the states of an invariant. -/
theorem allStates_iff_allSteps_of_invariant {I P : S → Prop} {C F : S → A → Prop}
    (kept : ∀ s a, I s → F s a → I (step s a))
    (exact_step : ∀ s a, I s → P s → F s a → (P (step s a) ↔ C s a)) (s : S) (acts : List A)
    (invariant : I s) (start : P s) (assumed : AllSteps step F s acts) :
    AllStates step P s acts ↔ AllSteps step C s acts := by
  induction acts generalizing s with
  | nil => exact ⟨fun _ => trivial, fun _ => start⟩
  | cons a rest ih =>
    have here := exact_step s a invariant start assumed.1
    have later (next : P (step s a)) := ih _ (kept s a invariant assumed.1) next assumed.2
    constructor
    · rintro ⟨-, states⟩
      have next : P (step s a) := by
        cases rest with
        | nil => exact states
        | cons b more => exact states.1
      exact ⟨here.mp next, (later next).mp states⟩
    · rintro ⟨cond, steps⟩
      have next := here.mpr cond
      exact ⟨start, (later next).mpr steps⟩

/-- A condition on every step, said of each place in the run. -/
theorem allSteps_iff (s : S) (acts : List A) : AllSteps step C s acts ↔
    ∀ before a after, acts = before ++ a :: after → C (before.foldl step s) a := by
  constructor
  · rintro steps before a after rfl
    exact (allSteps_drop s before (a :: after) steps).1
  · intro each
    induction acts generalizing s with
    | nil => trivial
    | cons a rest ih =>
      refine ⟨each [] a rest rfl, ih _ fun before b after split => ?_⟩
      exact each (a :: before) b after (by rw [split, List.cons_append])

section Parts

variable {K V : Type} [DecidableEq K] (step) (key : A → K) (view : S → K → V) (part : V → A → V)

/-- Each part of the state goes its own way: it is what the acts of its key alone make of it. -/
def Apart (s : S) (acts : List A) : Prop :=
  ∀ before after, acts = before ++ after → ∀ k,
    view (before.foldl step s) k = (before.filter (key · = k)).foldl part (view s k)

/-- The same for one step. -/
def StepsApart (s : S) (a : A) : Prop :=
  ∀ k, view (step s a) k = if key a = k then part (view s k) a else view s k

variable {step key view part}

theorem apart_iff_steps (s : S) (acts : List A) :
    Apart step key view part s acts ↔
      AllSteps step (StepsApart step key view part) s acts := by
  constructor
  · intro apart
    refine (allSteps_iff s acts).mpr fun before a after split k => ?_
    have here := apart before (a :: after) split k
    have next := apart (before ++ [a]) after (by simpa using split) k
    rw [List.foldl_append, List.filter_append, List.foldl_append, ← here] at next
    refine next.trans ?_
    by_cases same : key a = k <;> simp [same]
  · rintro steps before after rfl k
    induction before generalizing s with
    | nil => rfl
    | cons a rest ih =>
      rw [List.foldl_cons, ih _ steps.2, steps.1 k]
      by_cases same : key a = k <;> simp [same]

end Parts

end Openstack.Run

import Openstack.Lib.Interleaving
import Openstack.Lib.Run

/-!
# Starting and stopping a service

`crates/service-framework/src/container.rs`: `ServiceContainer::ensure_running` and `stop`, cut into
their atomic steps. The locked state has a mirror that is read without a lock. The last access under a
guard and the release of the guard are one step, and so are the last step of `ensure_running` and the
release of `init_lock`. The counters of the metrics are left out.
-/
namespace Openstack.ServiceContainer

open Interleaving

inductive ServiceState where
  | available
  | starting
  | running
  | stopping
  | stopped
  | error (msg : String)
  deriving DecidableEq, Repr

/-- The constants `ATOMIC_AVAILABLE` to `ATOMIC_ERROR`. -/
inductive AtomicState where
  | available
  | starting
  | running
  | stopping
  | stopped
  | error
  deriving DecidableEq, Repr

def ServiceState.mirror : ServiceState → AtomicState
  | .available => .available
  | .starting => .starting
  | .running => .running
  | .stopping => .stopping
  | .stopped => .stopped
  | .error _ => .error

/-- What the calls `κ` on one container share. -/
structure Cells (κ : Type) where
  state : ServiceState := .available
  atomicState : AtomicState := .available
  initLock : Option κ := none
  /-- The call with the write guard of `state`. -/
  writer : Option κ := none
  /-- The number of read guards of `state`. -/
  readers : Nat := 0

/-- A change of `state` and then of its mirror. -/
inductive Transition where
  | toStarting
  | toRunning
  | toError (msg : String)
  | toStopping
  | toStopped
  deriving DecidableEq, Repr

namespace Transition

def target : Transition → ServiceState
  | .toStarting => .starting
  | .toRunning => .running
  | .toError msg => .error msg
  | .toStopping => .stopping
  | .toStopped => .stopped

/-- The mirror is stored while the write guard is still held. -/
def guarded : Transition → Bool
  | .toStarting | .toStopping | .toStopped => true
  | .toRunning | .toError _ => false

/-- The transition ends `ensure_running`. -/
def final : Transition → Bool
  | .toRunning | .toError _ => true
  | .toStarting | .toStopping | .toStopped => false

end Transition

/-- What a provider's `start()` or `stop()` answers, and what a call returns. -/
abbrev Outcome := Except String Unit

/-- What a call does next. -/
inductive Stage where
  /-- The first step of `ensure_running`: load the mirror. -/
  | load
  | readLock
  | look
  | initLock
  | recheckLock
  | recheck
  | writeLock (t : Transition)
  | write (t : Transition)
  | store (t : Transition)
  | callStart
  /-- `start()` is in progress. -/
  | starting
  | callStop
  | stopping
  | returned (r : Outcome)

def Transition.next : Transition → Stage
  | .toStarting => .callStart
  | .toRunning => .returned (.ok ())
  | .toError msg => .returned (.error msg)
  | .toStopping => .callStop
  | .toStopped => .returned (.ok ())

variable {κ : Type}

/-- One step of the call `i`; a step that waits for a lock changes nothing. The outcome is that of
the provider's call, when it ends. -/
@[grind] def Stage.step (i : κ) (outcome : Outcome) : Stage → Cells κ → Stage × Cells κ
  | .load, c =>
    match c.atomicState with
    | .running => (.returned (.ok ()), c)
    | .stopped => (.returned (.error "Service has been stopped"), c)
    | .available | .starting | .stopping | .error => (.readLock, c)
  | .readLock, c =>
    if c.writer = none then (.look, { c with readers := c.readers + 1 }) else (.readLock, c)
  | .look, c =>
    (match c.state with
      | .running => .returned (.ok ())
      | .error msg => .returned (.error ("Service in error state: " ++ msg))
      | .stopped => .returned (.error "Service has been stopped")
      | .available | .starting | .stopping => .initLock, { c with readers := c.readers - 1 })
  | .initLock, c =>
    if c.initLock = none then (.recheckLock, { c with initLock := some i }) else (.initLock, c)
  | .recheckLock, c =>
    if c.writer = none then (.recheck, { c with readers := c.readers + 1 }) else (.recheckLock, c)
  | .recheck, c =>
    if c.state = .running then
      (.returned (.ok ()), { c with readers := c.readers - 1, initLock := none })
    else (.writeLock .toStarting, { c with readers := c.readers - 1 })
  | .writeLock t, c =>
    if c.writer = none ∧ c.readers = 0 then (.write t, { c with writer := some i })
    else (.writeLock t, c)
  | .write t, c =>
    (.store t, { c with state := t.target, writer := if t.guarded then c.writer else none })
  | .store t, c =>
    (t.next,
      { c with
        atomicState := t.target.mirror
        writer := if t.guarded then none else c.writer
        initLock := if t.final then none else c.initLock })
  | .callStart, c => (.starting, c)
  | .starting, c =>
    match outcome with
    | .ok () => (.writeLock .toRunning, c)
    | .error msg => (.writeLock (.toError msg), c)
  | .callStop, c => (.stopping, c)
  | .stopping, c =>
    match outcome with
    | .ok () => (.writeLock .toStopped, c)
    | .error msg => (.returned (.error msg), c)
  | .returned r, c => (.returned r, c)

/-- Calls on one container. -/
abbrev Calls (κ : Type) := Pool κ Stage (Cells κ)

/-- The call that moves, and what the provider answers it. -/
abbrev Move (κ : Type) := κ × Outcome

def Calls.advance [DecidableEq κ] (s : Calls κ) (m : Move κ) : Calls κ := Pool.advance (Stage.step m.1 m.2) s m.1

/-! ## What one step changes -/

section Step

variable (i : κ) (outcome : Outcome) (stage : Stage) (c : Cells κ)

theorem step_state : (stage.step i outcome c).2.state = c.state ∨
    ∃ t, stage = .write t ∧ (stage.step i outcome c).2.state = t.target := by
  cases stage with
  | write t => exact .inr ⟨t, rfl, rfl⟩
  | look => exact .inl rfl
  | load | readLock | initLock | recheckLock | recheck | writeLock | starting | stopping =>
    simp only [Stage.step]
    split <;> exact .inl rfl
  | store | callStart | callStop | returned => exact .inl rfl

theorem step_atomicState : (stage.step i outcome c).2.atomicState = c.atomicState ∨
    ∃ t, stage = .store t ∧ (stage.step i outcome c).2.atomicState = t.target.mirror := by
  cases stage with
  | store t => exact .inr ⟨t, rfl, rfl⟩
  | look => exact .inl rfl
  | load | readLock | initLock | recheckLock | recheck | writeLock | starting | stopping =>
    simp only [Stage.step]
    split <;> exact .inl rfl
  | write | callStart | callStop | returned => exact .inl rfl

/-- The call holds `init_lock`. -/
def Stage.inside : Stage → Bool
  | .recheckLock | .recheck | .callStart | .starting => true
  | .writeLock t | .write t | .store t => t == .toStarting || t.final
  | .load | .readLock | .look | .initLock | .callStop | .stopping | .returned _ => false

/-- `init_lock` is taken when it is free, and released by the call that holds it. -/
theorem step_initLock : (stage.step i outcome c).2.initLock = c.initLock ∨
    (stage = .initLock ∧ c.initLock = none ∧ (stage.step i outcome c).2.initLock = some i) ∨
    (stage.inside = true ∧ (stage.step i outcome c).1.inside = false) := by
  cases stage with
  | initLock =>
    simp only [Stage.step]
    split
    · next free => exact .inr (.inl ⟨trivial, free, rfl⟩)
    · exact .inl rfl
  | recheck =>
    simp only [Stage.step]
    split
    · exact .inr (.inr ⟨rfl, rfl⟩)
    · exact .inl rfl
  | store t =>
    cases t with
    | toRunning | toError => exact .inr (.inr ⟨rfl, rfl⟩)
    | toStarting | toStopping | toStopped => exact .inl rfl
  | load | readLock | recheckLock | writeLock | starting | stopping =>
    simp only [Stage.step]
    split <;> exact .inl rfl
  | look | write | callStart | callStop | returned => exact .inl rfl

/-- Who is inside took the lock just now or was inside before. -/
theorem step_inside (inside : (stage.step i outcome c).1.inside = true) :
    stage.inside = true ∨ (stage.step i outcome c).2.initLock = some i := by
  revert inside
  cases stage with
  | initLock =>
    simp only [Stage.step]
    split
    · exact fun _ => .inr rfl
    · exact fun inside => .inl inside
  | load | readLock | stopping =>
    simp only [Stage.step]
    split <;> exact fun inside => .inl inside
  | look =>
    simp only [Stage.step]
    split <;> exact fun inside => .inl inside
  | writeLock t =>
    simp only [Stage.step]
    split <;> exact fun inside => .inl inside
  | store t =>
    cases t with
    | toStarting | toRunning | toError => exact fun _ => .inl rfl
    | toStopping | toStopped => exact fun inside => .inl inside
  | write | callStop | returned => exact fun inside => .inl inside
  | recheckLock | recheck | callStart | starting => exact fun _ => .inl rfl

end Step

section Start

/-- On the way to a `start()` or to its failure. -/
def Stage.unfinished : Stage → Bool
  | .callStart | .starting => true
  | .writeLock t | .write t | .store t => t != .toRunning
  | _ => false

/-- `start()` has succeeded in this call. -/
def Stage.completing : Stage → Bool
  | .writeLock t | .write t | .store t => t == .toRunning
  | _ => false

/-- The call is a `stop()`. -/
def Stage.ofStop : Stage → Bool
  | .callStop | .stopping => true
  | .writeLock t | .write t | .store t => t == .toStopping || t == .toStopped
  | _ => false

theorem inside_of_unfinished {stage : Stage} (unfinished : stage.unfinished = true)
    (noStop : stage.ofStop = false) : stage.inside = true := by
  cases stage with
  | writeLock t | write t | store t =>
    cases t with
    | toStarting | toError => rfl
    | toRunning => cases unfinished
    | toStopping | toStopped => cases noStop
  | callStart | starting => rfl
  | load | readLock | look | initLock | recheckLock | recheck | callStop | stopping | returned =>
    cases unfinished

variable (i : κ) (outcome : Outcome) {stage : Stage} (c : Cells κ)

theorem step_ofStop (noStop : stage.ofStop = false) : (stage.step i outcome c).1.ofStop = false := by
  cases stage with
  | writeLock t | recheckLock | recheck | load | readLock | initLock =>
    simp only [Stage.step]
    split <;> first | rfl | exact noStop
  | starting | look =>
    simp only [Stage.step]
    split <;> rfl
  | store t =>
    cases t with
    | toStarting | toRunning | toError => rfl
    | toStopping | toStopped => cases noStop
  | stopping | callStop => cases noStop
  | write | callStart | returned => exact noStop

theorem step_completing (noStop : stage.ofStop = false)
    (completing : (stage.step i outcome c).1.completing = true) :
    stage.completing = true ∨ (stage = .starting ∧ outcome = .ok ()) := by
  revert completing
  cases stage with
  | starting =>
    simp only [Stage.step]
    split
    · exact fun _ => .inr ⟨trivial, rfl⟩
    · intro completing
      cases completing
  | writeLock t | recheckLock | recheck | load | readLock | initLock | look =>
    simp only [Stage.step]
    split <;> exact fun completing => .inl completing
  | store t =>
    cases t with
    | toRunning => exact fun _ => .inl rfl
    | toStarting | toError => exact fun completing => .inl completing
    | toStopping | toStopped => cases noStop
  | stopping | callStop => cases noStop
  | write | callStart | returned => exact fun completing => .inl completing

theorem step_unfinished (noStop : stage.ofStop = false)
    (unfinished : (stage.step i outcome c).1.unfinished = true) :
    stage.unfinished = true ∨ (stage = .recheck ∧ c.state ≠ .running) := by
  revert unfinished
  cases stage with
  | recheck =>
    simp only [Stage.step]
    split
    · intro unfinished
      cases unfinished
    · next other => exact fun _ => .inr ⟨trivial, other⟩
  | writeLock t | recheckLock | load | readLock | initLock | look =>
    simp only [Stage.step]
    split <;> exact fun unfinished => .inl unfinished
  | store t =>
    cases t with
    | toRunning => exact fun unfinished => .inl unfinished
    | toStarting | toError | toStopping | toStopped => exact fun _ => .inl rfl
  | starting | callStart => exact fun _ => .inl rfl
  | stopping | callStop => cases noStop
  | write | returned => exact fun unfinished => .inl unfinished

theorem step_returned (noStop : stage.ofStop = false)
    (returned : (stage.step i outcome c).1 = .returned (.ok ())) :
    stage = .returned (.ok ()) ∨ c.atomicState = .running ∨ c.state = .running ∨
      stage.completing = true := by
  revert returned
  cases stage with
  | load =>
    simp only [Stage.step]
    split
    · next here => exact fun _ => .inr (.inl here)
    all_goals
      intro returned
      cases returned
  | look =>
    simp only [Stage.step]
    split
    · next here => exact fun _ => .inr (.inr (.inl here))
    all_goals
      intro returned
      cases returned
  | recheck =>
    simp only [Stage.step]
    split
    · next here => exact fun _ => .inr (.inr (.inl here))
    · intro returned
      cases returned
  | store t =>
    cases t with
    | toRunning => exact fun _ => .inr (.inr (.inr rfl))
    | toStarting | toError =>
      intro returned
      cases returned
    | toStopping | toStopped => cases noStop
  | writeLock t | recheckLock | readLock | initLock | starting =>
    simp only [Stage.step]
    split <;>
    · intro returned
      cases returned
  | stopping | callStop => cases noStop
  | write | callStart =>
    intro returned
    cases returned
  | returned => exact fun returned => .inl returned

end Start

/-! ## The init lock -/

/-- A call past its re-check holds the lock. -/
def LockHeld (s : Calls κ) : Prop := ∀ i, (s.stage i).inside = true → s.shared.initLock = some i

theorem LockHeld.unique {s : Calls κ} (held : LockHeld s) {i j : κ}
    (first : (s.stage i).inside = true) (second : (s.stage j).inside = true) : i = j :=
  Option.some.inj ((held i first).symm.trans (held j second))

variable [DecidableEq κ]

theorem LockHeld.advance {s : Calls κ} (held : LockHeld s) (m : Move κ) : LockHeld (s.advance m) := by
  refine Pool.forall_advance (Stage.step m.1 m.2)
    (P := fun j stage => stage.inside = true → (s.advance m).shared.initLock = some j) ?_ ?_
  · intro inside
    rcases step_inside m.1 m.2 (s.stage m.1) s.shared inside with before | taken
    · rcases step_initLock m.1 m.2 (s.stage m.1) s.shared with same | ⟨_, _, taken⟩ | ⟨_, left⟩
      · exact same.trans (held m.1 before)
      · exact taken
      · rw [left] at inside
        cases inside
    · exact taken
  · intro j other inside
    rcases step_initLock m.1 m.2 (s.stage m.1) s.shared with same | ⟨_, free, _⟩ | ⟨before, _⟩
    · exact same.trans (held j inside)
    · rw [held j inside] at free
      cases free
    · exact absurd (held.unique inside before) other

/-! ## Starting -/

/-- Calls, and whether some `start()` has completed successfully. -/
structure Observed (κ : Type) where
  calls : Calls κ
  succeeded : Bool

def Observed.advance (s : Observed κ) (m : Move κ) : Observed κ where
  calls := s.calls.advance m
  succeeded := s.succeeded ||
    match s.calls.stage m.1, m.2 with
    | .starting, .ok () => true
    | _, _ => false

/-- At most one `start()` is in progress, none is called or in progress after one has succeeded, and
`Ok` is returned only after that. -/
structure StartsOnce (s : Observed κ) : Prop where
  exclusive : ∀ i j, s.calls.stage i = .starting → s.calls.stage j = .starting → i = j
  final : s.succeeded = true → ∀ i, s.calls.stage i ≠ .callStart ∧ s.calls.stage i ≠ .starting
  returned : ∀ i, s.calls.stage i = .returned (.ok ()) → s.succeeded = true

structure StartInvariant (s : Observed κ) : Prop where
  held : LockHeld s.calls
  noStop : ∀ i, (s.calls.stage i).ofStop = false
  mirror : s.calls.shared.atomicState = .running → s.succeeded = true
  state : s.calls.shared.state = .running → s.succeeded = true
  completing : ∀ i, (s.calls.stage i).completing = true → s.succeeded = true
  returned : ∀ i, s.calls.stage i = .returned (.ok ()) → s.succeeded = true
  settled : s.succeeded = true → ∀ i, (s.calls.stage i).unfinished = false
  /-- The success is on record, or the call that had it is about to record it. -/
  recorded : s.succeeded = true → s.calls.shared.state = .running ∨
    ∃ i, s.calls.stage i = .writeLock .toRunning ∨ s.calls.stage i = .write .toRunning

section Advance

variable {s : Observed κ} {m : Move κ}

theorem succeeded_advance : (s.advance m).succeeded = true ↔
    s.succeeded = true ∨ (s.calls.stage m.1 = .starting ∧ m.2 = .ok ()) := by
  simp only [Observed.advance, Bool.or_eq_true]
  refine or_congr_right ?_
  split
  · next here ok => simp [here, ok]
  · next other =>
    simp only [Bool.false_eq_true, false_iff, not_and]
    exact fun here ok => other here ok

theorem stage_advance {P : κ → Stage → Prop}
    (moved : P m.1 ((s.calls.stage m.1).step m.1 m.2 s.calls.shared).1)
    (others : ∀ j, j ≠ m.1 → P j (s.calls.stage j)) : ∀ j, P j ((s.advance m).calls.stage j) :=
  Pool.forall_advance (Stage.step m.1 m.2) moved others

theorem StartInvariant.settled_advance (inv : StartInvariant s)
    (succeeded : (s.advance m).succeeded = true) :
    ∀ j, ((s.advance m).calls.stage j).unfinished = false := by
  refine stage_advance (P := fun _ stage => stage.unfinished = false) ?_ ?_
  · rw [Bool.eq_false_iff]
    intro unfinished
    rcases step_unfinished m.1 m.2 s.calls.shared (inv.noStop m.1) unfinished with before | ⟨here, other⟩
    · rcases succeeded_advance.mp succeeded with earlier | ⟨starting, ok⟩
      · rw [inv.settled earlier m.1] at before
        cases before
      · rw [starting, ok] at unfinished
        cases unfinished
    · rcases succeeded_advance.mp succeeded with earlier | ⟨starting, _⟩
      · -- the call that is about to record its success holds the lock, too
        rcases inv.recorded earlier with running | ⟨k, pending⟩
        · exact other running
        · have inside : (s.calls.stage k).inside = true := by rcases pending with same | same <;> rw [same] <;> rfl
          have same : k = m.1 := inv.held.unique inside (by rw [here]; rfl)
          rw [same, here] at pending
          rcases pending with wrong | wrong <;> cases wrong
      · rw [here] at starting
        cases starting
  · intro j other
    rcases succeeded_advance.mp succeeded with earlier | ⟨starting, _⟩
    · exact inv.settled earlier j
    · rw [Bool.eq_false_iff]
      intro unfinished
      exact other (inv.held.unique (inside_of_unfinished unfinished (inv.noStop j)) (by rw [starting]; rfl))

theorem StartInvariant.recorded_advance (inv : StartInvariant s)
    (succeeded : (s.advance m).succeeded = true) : (s.advance m).calls.shared.state = .running ∨
      ∃ i, (s.advance m).calls.stage i = .writeLock .toRunning ∨
        (s.advance m).calls.stage i = .write .toRunning := by
  have moved : (s.advance m).calls.stage m.1 =
      ((s.calls.stage m.1).step m.1 m.2 s.calls.shared).1 :=
    Pool.advance_stage_self (Stage.step m.1 m.2) s.calls m.1
  rcases succeeded_advance.mp succeeded with earlier | ⟨starting, ok⟩
  · rcases inv.recorded earlier with running | ⟨k, pending⟩
    · rcases step_state m.1 m.2 (s.calls.stage m.1) s.calls.shared with same | ⟨t, here, written⟩
      · exact .inl (same.trans running)
      · have settled := inv.settled earlier m.1
        rw [here] at settled
        have target : t = .toRunning := by simpa [Stage.unfinished] using settled
        rw [target] at written
        exact .inl written
    · by_cases mine : k = m.1
      · subst mine
        rcases pending with waiting | writing
        · rw [waiting] at moved
          refine .inr ⟨m.1, ?_⟩
          rw [moved]
          simp only [Stage.step]
          split
          · exact .inr rfl
          · exact .inl rfl
        · left
          change ((s.calls.stage m.1).step m.1 m.2 s.calls.shared).2.state = .running
          rw [writing]
          rfl
      · refine .inr ⟨k, ?_⟩
        have kept : (s.advance m).calls.stage k = s.calls.stage k :=
          Pool.advance_stage_of_ne (Stage.step m.1 m.2) s.calls mine
        rw [kept]
        exact pending
  · refine .inr ⟨m.1, .inl ?_⟩
    rw [moved, starting, ok]
    rfl

theorem StartInvariant.advance (inv : StartInvariant s) : StartInvariant (s.advance m) := by
  have kept : s.succeeded = true → (s.advance m).succeeded = true := fun earlier =>
    succeeded_advance.mpr (.inl earlier)
  refine ⟨inv.held.advance m, ?_, ?_, ?_, ?_, ?_, inv.settled_advance, inv.recorded_advance⟩
  · exact stage_advance (P := fun _ stage => stage.ofStop = false)
      (step_ofStop m.1 m.2 s.calls.shared (inv.noStop m.1)) fun j _ => inv.noStop j
  · intro running
    rcases step_atomicState m.1 m.2 (s.calls.stage m.1) s.calls.shared with same | ⟨t, here, stored⟩
    · exact kept (inv.mirror (same.symm.trans running))
    · have target : t = .toRunning := by
        have mirror := stored.symm.trans running
        cases t <;> first | rfl | cases mirror
      exact kept (inv.completing m.1 (by rw [here, target]; rfl))
  · intro running
    rcases step_state m.1 m.2 (s.calls.stage m.1) s.calls.shared with same | ⟨t, here, written⟩
    · exact kept (inv.state (same.symm.trans running))
    · have target : t = .toRunning := by
        have state := written.symm.trans running
        cases t <;> first | rfl | cases state
      exact kept (inv.completing m.1 (by rw [here, target]; rfl))
  · refine stage_advance (P := fun _ stage => stage.completing = true → (s.advance m).succeeded = true) ?_ ?_
    · intro completing
      rcases step_completing m.1 m.2 s.calls.shared (inv.noStop m.1) completing with before | now
      · exact kept (inv.completing m.1 before)
      · exact succeeded_advance.mpr (.inr now)
    · exact fun j _ completing => kept (inv.completing j completing)
  · refine stage_advance (P := fun _ stage => stage = .returned (.ok ()) →
      (s.advance m).succeeded = true) ?_ ?_
    · intro returned
      rcases step_returned m.1 m.2 s.calls.shared (inv.noStop m.1) returned with
        before | mirror | state | completing
      · exact kept (inv.returned m.1 before)
      · exact kept (inv.mirror mirror)
      · exact kept (inv.state state)
      · exact kept (inv.completing m.1 completing)
    · exact fun j _ returned => kept (inv.returned j returned)

end Advance

omit [DecidableEq κ] in
theorem StartInvariant.startsOnce {s : Observed κ} (inv : StartInvariant s) : StartsOnce s := by
  refine ⟨?_, ?_, inv.returned⟩
  · intro i j first second
    exact inv.held.unique (by rw [first]; rfl) (by rw [second]; rfl)
  · intro succeeded i
    have settled := inv.settled succeeded i
    constructor
    · intro called
      rw [called] at settled
      cases settled
    · intro starting
      rw [starting] at settled
      cases settled

/-- `ServiceContainer::new`, with every call of `ensure_running` still to come. -/
def Observed.new (κ : Type) : Observed κ := ⟨⟨{}, fun _ => .load⟩, false⟩

omit [DecidableEq κ] in
theorem startInvariant_new : StartInvariant (Observed.new κ) := by
  refine ⟨?_, fun _ => rfl, ?_, ?_, ?_, ?_, ?_, ?_⟩
  · intro i inside
    cases inside
  all_goals
    intros
    contradiction

/-- Any number of calls of `ensure_running`, in any order of their steps and with any outcomes. -/
theorem service_starts_once (moves : List (Move κ)) :
    Run.AllStates Observed.advance StartsOnce (Observed.new κ) moves := by
  have preserved : ∀ (s : Observed κ) m, StartInvariant s → StartInvariant (s.advance m) :=
    fun _ _ inv => inv.advance
  have invariant := Run.allStates_of_preserved preserved _ moves startInvariant_new
  exact Run.AllStates.imp (fun _ inv => StartInvariant.startsOnce inv) _ moves invariant

end Openstack.ServiceContainer

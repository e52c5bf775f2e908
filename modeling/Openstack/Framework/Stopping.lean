import Mathlib.Data.Fintype.Basic
import Openstack.Framework.Container

/-!
# Stopping a service that is being started

`stop` takes no `init_lock`, and `ensure_running` looks for a stopped service only before it waits for
the lock. So a call that is past its look when `stop` records the end starts the service again.
-/
namespace Openstack.ServiceContainer

open Interleaving

variable {ι : Type}

/-- One call of `stop()` among calls of `ensure_running`, with the calls that began after `stop()` had
returned `Ok`. -/
structure Overlapped (ι : Type) where
  calls : Calls (Option ι)
  late : ι → Bool

def Stage.atLoad : Stage → Bool
  | .load => true
  | _ => false

def Stage.succeeded : Stage → Bool
  | .returned (.ok ()) => true
  | _ => false

/-- `stop()` has returned `Ok`. -/
def Overlapped.stopped (s : Overlapped ι) : Bool := (s.calls.stage none).succeeded

def Overlapped.advance [DecidableEq ι] (s : Overlapped ι) (m : Move (Option ι)) : Overlapped ι where
  calls := s.calls.advance m
  late j := s.late j || (m.1 == some j && (s.calls.stage (some j)).atLoad && s.stopped)

/-- `ServiceContainer::new`, with every call still to come. -/
def Overlapped.new (ι : Type) : Overlapped ι where
  calls := ⟨{}, fun k => if k.isSome then .load else .writeLock .toStopping⟩
  late := fun _ => false

/-- The call is not in progress. -/
def Stage.resting : Stage → Bool
  | .load | .returned _ | .writeLock .toStopping => true
  | _ => false

/-- The mirror agrees with the locked state whenever no call is in progress. -/
def MirrorAgrees (s : Overlapped ι) : Prop :=
  (∀ k, (s.calls.stage k).resting = true) →
    s.calls.shared.atomicState = s.calls.shared.state.mirror

/-- What a `stop()` that returned `Ok` promises. -/
structure StaysStopped (s : Overlapped ι) : Prop where
  state : s.stopped = true → s.calls.shared.state = .stopped
  mirror : s.stopped = true → MirrorAgrees s
  noStart : s.stopped = true → ∀ k, s.calls.stage k ≠ .callStart ∧ s.calls.stage k ≠ .starting
  late : ∀ j r, s.late j = true → s.calls.stage (some j) = .returned r → ∃ msg, r = .error msg

/-- `ensure_running` has looked at the state and has not returned. -/
def Stage.pastLook : Stage → Bool
  | .initLock | .recheckLock | .recheck | .callStart | .starting => true
  | .writeLock t | .write t | .store t => t == .toStarting || t.final
  | .load | .readLock | .look | .callStop | .stopping | .returned _ => false

/-- `ensure_running` has recorded the outcome of `start()` and not yet stored the mirror. -/
def Stage.storing : Stage → Bool
  | .store t => t.final
  | _ => false

def Stage.recording (t : Transition) : Stage → Bool
  | .write u => u == t
  | _ => false

/-- When `stop()` records that the service is stopped, no `ensure_running` is past its look. -/
def StopsAlone (s : Overlapped ι) (m : Move (Option ι)) : Prop :=
  m.1 = none → (s.calls.stage none).recording .toStopped = true →
    ∀ j, (s.calls.stage (some j)).pastLook = false

/-- When `stop()` records that the service is stopping, no mirror is still to be stored. -/
def MirrorStored (s : Overlapped ι) (m : Move (Option ι)) : Prop :=
  m.1 = none → (s.calls.stage none).recording .toStopping = true →
    ∀ j, (s.calls.stage (some j)).storing = false

instance [Fintype ι] (s : Overlapped ι) (m : Move (Option ι)) : Decidable (StopsAlone s m) :=
  inferInstanceAs (Decidable (_ → _ → _))

instance [Fintype ι] (s : Overlapped ι) (m : Move (Option ι)) : Decidable (MirrorStored s m) :=
  inferInstanceAs (Decidable (_ → _ → _))

/-! ## After the end is recorded -/

/-- `stop()` has recorded that the service is stopped. -/
def Stage.ended : Stage → Bool
  | .store .toStopped | .returned (.ok ()) => true
  | _ => false

/-- A stage of `stop()`. -/
def Stage.stops : Stage → Bool
  | .returned _ => true
  | stage => stage.ofStop

section Step

variable (i : Option ι) (outcome : Outcome) {stage : Stage} (c : Cells (Option ι))

theorem step_stops (stops : stage.stops = true) : (stage.step i outcome c).1.stops = true := by
  cases stage with
  | writeLock t =>
    simp only [Stage.step]
    split <;> exact stops
  | stopping =>
    simp only [Stage.step]
    split <;> rfl
  | store t =>
    cases t with
    | toStopping | toStopped => rfl
    | toStarting | toRunning | toError => cases stops
  | write | callStop | returned => exact stops
  | load | readLock | look | initLock | recheckLock | recheck | callStart | starting => cases stops

/-- The record is written in the last step but one. -/
theorem step_ended (stops : stage.stops = true) (ended : (stage.step i outcome c).1.ended = true) :
    stage.ended = true ∨ (stage.recording .toStopped = true ∧
      (stage.step i outcome c).2.state = .stopped) := by
  revert ended
  cases stage with
  | writeLock t =>
    simp only [Stage.step]
    split <;>
    · intro ended
      cases ended
  | stopping =>
    simp only [Stage.step]
    split <;>
    · intro ended
      cases ended
  | write t =>
    cases t with
    | toStopped => exact fun _ => .inr ⟨rfl, rfl⟩
    | toStopping =>
      intro ended
      cases ended
    | toStarting | toRunning | toError => cases stops
  | store t =>
    cases t with
    | toStopped => exact fun _ => .inl rfl
    | toStopping =>
      intro ended
      cases ended
    | toStarting | toRunning | toError => cases stops
  | callStop =>
    intro ended
    cases ended
  | returned => exact fun ended => .inl ended
  | load | readLock | look | initLock | recheckLock | recheck | callStart | starting => cases stops

/-- A call that has not looked yet sees that the service is stopped. -/
theorem step_pastLook (noStop : stage.ofStop = false) (before : stage.pastLook = false)
    (stopped : c.state = .stopped) : (stage.step i outcome c).1.pastLook = false ∧
      (stage.step i outcome c).2.state = .stopped ∧
      (stage.step i outcome c).2.atomicState = c.atomicState := by
  cases stage with
  | load | readLock =>
    simp only [Stage.step]
    split <;> exact ⟨rfl, stopped, rfl⟩
  | look =>
    simp only [Stage.step, stopped]
    exact ⟨rfl, trivial, trivial⟩
  | returned => exact ⟨rfl, stopped, rfl⟩
  | writeLock t | write t | store t =>
    cases t with
    | toStarting | toRunning | toError => cases before
    | toStopping | toStopped => cases noStop
  | initLock | recheckLock | recheck | callStart | starting => cases before
  | callStop | stopping => cases noStop

end Step

structure StopInvariant (s : Overlapped ι) : Prop where
  noStop : ∀ j, (s.calls.stage (some j)).ofStop = false
  stops : (s.calls.stage none).stops = true
  state : (s.calls.stage none).ended = true → s.calls.shared.state = .stopped
  pastLook : (s.calls.stage none).ended = true → ∀ j, (s.calls.stage (some j)).pastLook = false
  mirror : s.stopped = true → s.calls.shared.atomicState = .stopped
  late : ∀ j, s.late j = true → s.stopped = true ∧ ∃ msg, s.calls.stage (some j) = .returned (.error msg)

theorem ended_of_succeeded {stage : Stage} (succeeded : stage.succeeded = true) : stage.ended = true := by
  cases stage with
  | returned r =>
    cases r with
    | ok => rfl
    | error => cases succeeded
  | load | readLock | look | initLock | recheckLock | recheck | writeLock | write | store | callStart |
    starting | callStop | stopping => cases succeeded

section Advance

variable [DecidableEq ι] {s : Overlapped ι} {m : Move (Option ι)}

/-- The moved call and the others. -/
theorem overlapped_forall {P : Option ι → Stage → Prop}
    (moved : P m.1 ((s.calls.stage m.1).step m.1 m.2 s.calls.shared).1)
    (others : ∀ k, k ≠ m.1 → P k (s.calls.stage k)) : ∀ k, P k ((s.advance m).calls.stage k) :=
  Pool.forall_advance (Stage.step m.1 m.2) moved others

theorem shared_advance : (s.advance m).calls.shared =
    ((s.calls.stage m.1).step m.1 m.2 s.calls.shared).2 := rfl

theorem stage_moved : (s.advance m).calls.stage m.1 =
    ((s.calls.stage m.1).step m.1 m.2 s.calls.shared).1 :=
  Pool.advance_stage_self (Stage.step m.1 m.2) s.calls m.1

theorem stage_kept {k : Option ι} (other : k ≠ m.1) :
    (s.advance m).calls.stage k = s.calls.stage k :=
  Pool.advance_stage_of_ne (Stage.step m.1 m.2) s.calls other

/-- Once the end is recorded, a step of `ensure_running` changes neither the state nor the mirror. -/
theorem StopInvariant.quiet (inv : StopInvariant s) {j : ι} (mine : m.1 = some j)
    (ended : (s.calls.stage none).ended = true) :
    ((s.calls.stage m.1).step m.1 m.2 s.calls.shared).1.pastLook = false ∧
      (s.advance m).calls.shared.state = .stopped ∧
      (s.advance m).calls.shared.atomicState = s.calls.shared.atomicState := by
  rw [shared_advance, mine]
  exact step_pastLook (some j) m.2 s.calls.shared (inv.noStop j) (inv.pastLook ended j) (inv.state ended)

/-- The step of `stop()` that leaves the end on record found it there or recorded it. -/
theorem StopInvariant.ended_advance (inv : StopInvariant s)
    (ended : ((s.advance m).calls.stage none).ended = true) :
    (s.calls.stage none).ended = true ∨ (m.1 = none ∧ (s.calls.stage none).recording .toStopped = true ∧
      (s.advance m).calls.shared.state = .stopped) := by
  by_cases mine : none = m.1
  · rw [mine, stage_moved, ← mine] at ended
    rcases step_ended none m.2 s.calls.shared inv.stops ended with before | ⟨recording, state⟩
    · exact .inl before
    · refine .inr ⟨mine.symm, recording, ?_⟩
      rw [shared_advance, ← mine]
      exact state
  · rw [stage_kept mine] at ended
    exact .inl ended

theorem StopInvariant.state_advance (inv : StopInvariant s)
    (ended : ((s.advance m).calls.stage none).ended = true) :
    (s.advance m).calls.shared.state = .stopped := by
  rcases inv.ended_advance ended with before | ⟨_, _, state⟩
  · cases mine : m.1 with
    | none =>
      rcases step_state none m.2 (s.calls.stage none) s.calls.shared with same | ⟨t, here, _⟩
      · rw [shared_advance, mine]
        exact same.trans (inv.state before)
      · rw [here] at before
        cases before
    | some j => exact (inv.quiet mine before).2.1
  · exact state

theorem StopInvariant.pastLook_advance (inv : StopInvariant s) (alone : StopsAlone s m)
    (ended : ((s.advance m).calls.stage none).ended = true) :
    ∀ j, ((s.advance m).calls.stage (some j)).pastLook = false := by
  intro j
  rcases inv.ended_advance ended with before | ⟨mine, recording, _⟩
  · by_cases moved : some j = m.1
    · rw [moved, stage_moved]
      exact (inv.quiet moved.symm before).1
    · rw [stage_kept moved]
      exact inv.pastLook before j
  · rw [stage_kept (by rw [mine]; exact Option.some_ne_none j)]
    exact alone mine recording j

theorem StopInvariant.mirror_advance (inv : StopInvariant s) (stopped : (s.advance m).stopped = true) :
    (s.advance m).calls.shared.atomicState = .stopped := by
  cases mine : m.1 with
  | some j =>
    have before : s.stopped = true := by
      rwa [Overlapped.stopped, stage_kept (by rw [mine]; exact (Option.some_ne_none j).symm)] at stopped
    rw [(inv.quiet mine (ended_of_succeeded before)).2.2]
    exact inv.mirror before
  | none =>
    rw [Overlapped.stopped, ← mine, stage_moved, mine] at stopped
    rw [shared_advance, mine]
    have stops := inv.stops
    cases here : s.calls.stage none with
    | returned r =>
      rw [here] at stopped
      exact inv.mirror (by rw [Overlapped.stopped, here]; exact stopped)
    | store t =>
      rw [here] at stopped stops
      cases t with
      | toStopped => rfl
      | toStopping => cases stopped
      | toStarting | toRunning | toError => cases stops
    | writeLock | stopping =>
      rw [here] at stopped
      simp only [Stage.step] at stopped
      split at stopped <;> cases stopped
    | write | callStop =>
      rw [here] at stopped
      cases stopped
    | load | readLock | look | initLock | recheckLock | recheck | callStart | starting =>
      rw [here] at stops
      cases stops

/-- What is returned stays returned. -/
theorem returned_advance {k : Option ι} {r : Outcome} (here : s.calls.stage k = .returned r) :
    (s.advance m).calls.stage k = .returned r := by
  by_cases mine : k = m.1
  · rw [mine, stage_moved, ← mine, here]
    rfl
  · rw [stage_kept mine, here]

theorem stopped_advance (stopped : s.stopped = true) : (s.advance m).stopped = true := by
  unfold Overlapped.stopped at stopped ⊢
  cases here : s.calls.stage none with
  | returned r =>
    rw [returned_advance here]
    rwa [here] at stopped
  | load | readLock | look | initLock | recheckLock | recheck | writeLock | write | store | callStart |
    starting | callStop | stopping =>
    rw [here] at stopped
    cases stopped

theorem StopInvariant.late_advance (inv : StopInvariant s) (j : ι) (late : (s.advance m).late j = true) :
    (s.advance m).stopped = true ∧
      ∃ msg, (s.advance m).calls.stage (some j) = .returned (.error msg) := by
  simp only [Overlapped.advance, Bool.or_eq_true, Bool.and_eq_true, beq_iff_eq] at late
  rcases late with before | ⟨⟨mine, load⟩, stopped⟩
  · obtain ⟨stopped, msg, returned⟩ := inv.late j before
    exact ⟨stopped_advance stopped, msg, returned_advance returned⟩
  · refine ⟨stopped_advance stopped, "Service has been stopped", ?_⟩
    have here : s.calls.stage m.1 = .load := by
      rw [mine]
      cases stage : s.calls.stage (some j) with
      | load => rfl
      | readLock | look | initLock | recheckLock | recheck | writeLock | write | store | callStart |
        starting | callStop | stopping | returned =>
        rw [stage] at load
        cases load
    rw [← mine, stage_moved, here, Stage.step, inv.mirror stopped]

theorem StopInvariant.advance (inv : StopInvariant s) (alone : StopsAlone s m) :
    StopInvariant (s.advance m) := by
  refine ⟨?_, ?_, inv.state_advance, inv.pastLook_advance alone, inv.mirror_advance, inv.late_advance⟩
  · have all := overlapped_forall (s := s) (m := m) (P := fun k stage => k ≠ none → stage.ofStop = false)
      (fun call => by
        obtain ⟨j, mine⟩ := Option.ne_none_iff_exists'.mp call
        rw [mine]
        exact step_ofStop (some j) m.2 s.calls.shared (inv.noStop j))
      (fun k _ call => by
        obtain ⟨j, rfl⟩ := Option.ne_none_iff_exists'.mp call
        exact inv.noStop j)
    exact fun j => all (some j) (Option.some_ne_none j)
  · refine overlapped_forall (s := s) (m := m) (P := fun k stage => k = none → stage.stops = true)
      ?_ ?_ none rfl
    · intro mine
      rw [mine]
      exact step_stops none m.2 s.calls.shared inv.stops
    · rintro k _ rfl
      exact inv.stops

end Advance

theorem StopInvariant.staysStopped {s : Overlapped ι} (inv : StopInvariant s) : StaysStopped s := by
  have ended : s.stopped = true → (s.calls.stage none).ended = true := ended_of_succeeded
  refine ⟨fun stopped => inv.state (ended stopped), ?_, ?_, ?_⟩
  · intro stopped _
    rw [inv.mirror stopped, inv.state (ended stopped)]
    rfl
  · intro stopped k
    cases k with
    | none =>
      have stops := inv.stops
      constructor <;>
      · intro here
        rw [here] at stops
        cases stops
    | some j =>
      have before := inv.pastLook (ended stopped) j
      constructor <;>
      · intro here
        rw [here] at before
        cases before
  · intro j r late returned
    obtain ⟨_, msg, here⟩ := inv.late j late
    rw [here] at returned
    cases returned
    exact ⟨msg, rfl⟩

theorem stopInvariant_new : StopInvariant (Overlapped.new ι) := by
  refine ⟨fun _ => rfl, rfl, ?_, ?_, ?_, ?_⟩
  all_goals
    intros
    contradiction

/-! ## The mirror -/

/-- The call has the write guard of `state`. -/
def Stage.guarded : Stage → Bool
  | .write _ => true
  | .store t => t.guarded
  | _ => false

section Step

variable {κ : Type} (i : κ) (outcome : Outcome) (stage : Stage) (c : Cells κ)

/-- The write guard is taken when it is free, and released by the call that has it. -/
theorem step_writer : (stage.step i outcome c).2.writer = c.writer ∨
    (c.writer = none ∧ (stage.step i outcome c).2.writer = some i) ∨
    (stage.guarded = true ∧ (stage.step i outcome c).1.guarded = false) := by
  cases stage with
  | writeLock t =>
    simp only [Stage.step]
    split
    · next free => exact .inr (.inl ⟨free.1, rfl⟩)
    · exact .inl rfl
  | write t =>
    cases t with
    | toStarting | toStopping | toStopped => exact .inl rfl
    | toRunning | toError => exact .inr (.inr ⟨rfl, rfl⟩)
  | store t =>
    cases t with
    | toStarting | toStopping | toStopped => exact .inr (.inr ⟨rfl, rfl⟩)
    | toRunning | toError => exact .inl rfl
  | load | readLock | initLock | recheckLock | recheck | starting | stopping =>
    simp only [Stage.step]
    split <;> exact .inl rfl
  | look | callStart | callStop | returned => exact .inl rfl

theorem step_guarded (guarded : (stage.step i outcome c).1.guarded = true) :
    stage.guarded = true ∨ (stage.step i outcome c).2.writer = some i := by
  revert guarded
  cases stage with
  | writeLock t =>
    simp only [Stage.step]
    split
    · exact fun _ => .inr rfl
    · exact fun guarded => .inl guarded
  | write t => exact fun _ => .inl rfl
  | store t =>
    cases t with
    | toStarting | toStopping | toStopped => exact fun _ => .inl rfl
    | toRunning | toError => exact fun guarded => .inl guarded
  | load | readLock | initLock | recheckLock | recheck | starting | stopping | look =>
    simp only [Stage.step]
    split <;> exact fun guarded => .inl guarded
  | callStart | callStop | returned => exact fun guarded => .inl guarded

/-- A mirror is to be stored after the state has been written, and not before. -/
theorem step_store {t : Transition} (next : (stage.step i outcome c).1 = .store t) :
    stage = .write t ∧ (stage.step i outcome c).2.state = t.target := by
  revert next
  cases stage with
  | write u =>
    intro next
    cases next
    exact ⟨rfl, rfl⟩
  | store u =>
    cases u <;>
    · intro next
      cases next
  | load | readLock | initLock | recheckLock | recheck | writeLock | starting | stopping | look =>
    simp only [Stage.step]
    split <;>
    · intro next
      cases next
  | callStart | callStop | returned =>
    intro next
    cases next

end Step

structure MirrorInvariant (s : Overlapped ι) : Prop where
  held : LockHeld s.calls
  writer : ∀ k, (s.calls.stage k).guarded = true → s.calls.shared.writer = some k
  pending : ∀ k t, s.calls.stage k = .store t → s.calls.shared.state = t.target
  agrees : (∀ k t, s.calls.stage k ≠ .store t) →
    s.calls.shared.atomicState = s.calls.shared.state.mirror

section Advance

variable [DecidableEq ι] {s : Overlapped ι} {m : Move (Option ι)}

theorem MirrorInvariant.writer_advance (inv : MirrorInvariant s) :
    ∀ k, ((s.advance m).calls.stage k).guarded = true → (s.advance m).calls.shared.writer = some k := by
  refine overlapped_forall (s := s) (m := m)
    (P := fun k stage => stage.guarded = true → (s.advance m).calls.shared.writer = some k) ?_ ?_
  · intro guarded
    rcases step_guarded m.1 m.2 (s.calls.stage m.1) s.calls.shared guarded with before | taken
    · rcases step_writer m.1 m.2 (s.calls.stage m.1) s.calls.shared with same | ⟨_, taken⟩ | ⟨_, released⟩
      · exact same.trans (inv.writer m.1 before)
      · exact taken
      · rw [released] at guarded
        cases guarded
    · exact taken
  · intro k other guarded
    rcases step_writer m.1 m.2 (s.calls.stage m.1) s.calls.shared with same | ⟨free, _⟩ | ⟨mine, _⟩
    · exact same.trans (inv.writer k guarded)
    · rw [inv.writer k guarded] at free
      cases free
    · exact absurd (Option.some.inj ((inv.writer k guarded).symm.trans (inv.writer m.1 mine))) other

omit [DecidableEq ι] in
/-- Nobody writes the state while another call has a mirror to store. -/
theorem MirrorInvariant.undisturbed (inv : MirrorInvariant s) (stop : StopInvariant s)
    (alone : StopsAlone s m) (stored : MirrorStored s m) {k : Option ι} {t u : Transition}
    (pending : s.calls.stage k = .store t) (writing : s.calls.stage m.1 = .write u) : k = m.1 := by
  cases guarded : t.guarded with
  | true =>
    have mine := inv.writer m.1 (by rw [writing]; rfl)
    have theirs := inv.writer k (by rw [pending]; exact guarded)
    exact Option.some.inj (theirs.symm.trans mine)
  | false =>
    have final : t.final = true := by cases t <;> first | rfl | cases guarded
    have inside : (s.calls.stage k).inside = true := by
      rw [pending, Stage.inside, final, Bool.or_true]
    cases call : m.1 with
    | some j =>
      have noStop := stop.noStop j
      rw [← call, writing] at noStop
      have holds : (s.calls.stage m.1).inside = true := by
        rw [writing]
        cases u <;> first | rfl | cases noStop
      rw [← call]
      exact inv.held.unique inside holds
    | none =>
      have stops := stop.stops
      rw [← call, writing] at stops
      cases k with
      | none => rfl
      | some j =>
        -- the condition excludes both records that `stop` makes
        cases u with
        | toStarting | toRunning | toError => cases stops
        | toStopping =>
          have none_storing := stored call (by rw [← call, writing]; rfl) j
          rw [pending, Stage.storing, final] at none_storing
          cases none_storing
        | toStopped =>
          have none_past := alone call (by rw [← call, writing]; rfl) j
          rw [pending, Stage.pastLook, final, Bool.or_true] at none_past
          cases none_past

theorem MirrorInvariant.advance (inv : MirrorInvariant s) (stop : StopInvariant s)
    (alone : StopsAlone s m) (stored : MirrorStored s m) : MirrorInvariant (s.advance m) := by
  refine ⟨inv.held.advance m, inv.writer_advance, ?_, ?_⟩
  · refine overlapped_forall (s := s) (m := m)
      (P := fun _ stage => ∀ t, stage = .store t → (s.advance m).calls.shared.state = t.target) ?_ ?_
    · intro t next
      exact (step_store m.1 m.2 (s.calls.stage m.1) s.calls.shared next).2
    · intro k other t pending
      rcases step_state m.1 m.2 (s.calls.stage m.1) s.calls.shared with same | ⟨u, writing, _⟩
      · exact same.trans (inv.pending k t pending)
      · exact absurd (inv.undisturbed stop alone stored pending writing) other
  · intro noStore
    by_cases storing : ∃ t, s.calls.stage m.1 = .store t
    · obtain ⟨t, here⟩ := storing
      have state := inv.pending m.1 t here
      rw [shared_advance, here]
      exact congrArg ServiceState.mirror state.symm
    · rcases step_atomicState m.1 m.2 (s.calls.stage m.1) s.calls.shared with kept | ⟨t, here, _⟩
      · rcases step_state m.1 m.2 (s.calls.stage m.1) s.calls.shared with same | ⟨u, writing, _⟩
        · rw [shared_advance, kept, same]
          refine inv.agrees fun k t pending => ?_
          by_cases mine : k = m.1
          · exact storing ⟨t, mine ▸ pending⟩
          · exact noStore k t (by rw [stage_kept mine, pending])
        · refine absurd ?_ (noStore m.1 u)
          rw [stage_moved, writing]
          rfl
      · exact absurd ⟨t, here⟩ storing

end Advance

theorem MirrorInvariant.mirrorAgrees {s : Overlapped ι} (inv : MirrorInvariant s) : MirrorAgrees s := by
  intro resting
  refine inv.agrees fun k t storing => ?_
  have rests := resting k
  rw [storing] at rests
  cases rests

theorem mirrorInvariant_new : MirrorInvariant (Overlapped.new ι) := by
  refine ⟨?_, ?_, ?_, fun _ => rfl⟩
  · intro k inside
    cases k <;> cases inside
  · intro k guarded
    cases k <;> cases guarded
  · intro k t storing
    cases k <;> cases storing

/-- `stop()` and any number of calls of `ensure_running`, in any order of their steps and with any
outcomes. -/
theorem service_stays_stopped [DecidableEq ι] (moves : List (Move (Option ι)))
    (alone : Run.AllSteps Overlapped.advance StopsAlone (Overlapped.new ι) moves) :
    Run.AllStates Overlapped.advance StaysStopped (Overlapped.new ι) moves ∧
    (Run.AllSteps Overlapped.advance MirrorStored (Overlapped.new ι) moves →
      Run.AllStates Overlapped.advance MirrorAgrees (Overlapped.new ι) moves) := by
  constructor
  · have preserved : ∀ (s : Overlapped ι) m, StopInvariant s → StopsAlone s m →
        StopInvariant (s.advance m) := fun _ _ inv alone => inv.advance alone
    have invariant := Run.allStates_of_allSteps preserved _ moves stopInvariant_new alone
    exact Run.AllStates.imp (fun _ inv => StopInvariant.staysStopped inv) _ moves invariant
  · intro stored
    have preserved : ∀ (s : Overlapped ι) m, StopInvariant s ∧ MirrorInvariant s →
        StopsAlone s m ∧ MirrorStored s m → StopInvariant (s.advance m) ∧ MirrorInvariant (s.advance m) :=
      fun _ _ inv cond => ⟨inv.1.advance cond.1, inv.2.advance inv.1 cond.1 cond.2⟩
    have invariant := Run.allStates_of_allSteps preserved _ moves
      ⟨stopInvariant_new, mirrorInvariant_new⟩ (Run.allSteps_and alone stored)
    exact Run.AllStates.imp (fun _ inv => inv.2.mirrorAgrees) _ moves invariant

/-! ## Two schedules -/

/-- Steps of one call, with a provider that succeeds. -/
def steps {κ : Type} (k : κ) (count : Nat) : List (Move κ) := List.replicate count (k, .ok ())

/-- A start, then a stop, then another call. -/
theorem service_stays_stopped_in_turn :
    Run.AllStates Overlapped.advance StaysStopped (Overlapped.new Bool)
      (steps (some false) 14 ++ steps none 8 ++ steps (some true) 1) ∧
    (Run.AllSteps Overlapped.advance MirrorStored (Overlapped.new Bool)
        (steps (some false) 14 ++ steps none 8 ++ steps (some true) 1) →
      Run.AllStates Overlapped.advance MirrorAgrees (Overlapped.new Bool)
        (steps (some false) 14 ++ steps none 8 ++ steps (some true) 1)) :=
  service_stays_stopped _ (by decide +kernel)

/-- A call that has passed its re-check when `stop()` begins starts the service after `stop()` has
returned `Ok`. -/
theorem start_after_stop :
    ((steps (some ()) 6 ++ steps none 8).foldl Overlapped.advance (Overlapped.new Unit)).stopped = true ∧
    ¬ Run.AllStates Overlapped.advance StaysStopped (Overlapped.new Unit)
      (steps (some ()) 6 ++ steps none 8 ++ steps (some ()) 2) := by
  refine ⟨by decide +kernel, fun states => ?_⟩
  exact absurd (states.last.state (by decide +kernel)) (by decide +kernel)

end Openstack.ServiceContainer

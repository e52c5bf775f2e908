import Openstack.Lib.Json
import Openstack.Lib.Run
import Openstack.Lib.Utf8

/-!
# The runtime interface of a container

The handlers of `crates/services/lambda/src/docker.rs`, lines 63-143, with `invoke` and `await_response`
as far as they touch the server: a queue of requests and one slot for the sender of the response. No
handler reads the request id in its path. `serde_json::from_str` is a parameter.
-/
namespace Openstack.Lambda

inductive InvocationResult where
  | success (payload : String)
  | functionError (errorType errorMessage : String)
  | timeout
  | containerError (message : String)
  deriving DecidableEq, Repr

/-- The number stands for the channel of the response. -/
structure InvocationRequest where
  number : Nat
  requestId : String
  payload : String
  deriving DecidableEq, Repr

/-- A result that a channel carried to its caller, and the id that its message was posted for. -/
structure Receipt where
  request : InvocationRequest
  postedFor : Option String
  result : InvocationResult
  deriving DecidableEq, Repr

structure RicState where
  invocationRx : List InvocationRequest := []
  currentResponseTx : Option InvocationRequest := none
  /-- The number of the next channel. -/
  invoked : Nat := 0
  /-- The channels whose callers still wait. -/
  waiting : List Nat := []
  received : List Receipt := []

inductive Event where
  | invoke (requestId payload : String)
  | next
  | response (reqId : String) (body : List UInt8)
  | error (reqId : String) (body : List UInt8)
  | initError (body : List UInt8)
  | timeout (number : Nat)

namespace RicState

section Handlers

variable (fromStr : String → Option Json) (ric : RicState)

/-- A channel closes when its caller has a result, when its sender is dropped and when time is up. -/
def close (number : Nat) : RicState := { ric with waiting := ric.waiting.filter (· ≠ number) }

def invoke (requestId payload : String) : RicState :=
  { ric with
    invocationRx := ric.invocationRx ++ [⟨ric.invoked, requestId, payload⟩]
    invoked := ric.invoked + 1
    waiting := ric.waiting ++ [ric.invoked] }

/-- The sender that is in the slot is dropped. -/
def dropCurrent : RicState :=
  match ric.currentResponseTx with
  | none => ric
  | some tx => ric.close tx.number

/-- `ric_next`, with the id and the payload that the runtime gets; it waits for a request. -/
def ricNext : Option (String × String) × RicState :=
  match ric.invocationRx with
  | [] => (none, ric)
  | req :: rest =>
    (some (req.requestId, req.payload),
      { ric.dropCurrent with invocationRx := rest, currentResponseTx := some req })

/-- `Sender::send`, which fails where the caller has left. -/
def send (tx : InvocationRequest) (postedFor : Option String) (result : InvocationResult) : RicState :=
  if tx.number ∈ ric.waiting then
    { ric.close tx.number with received := ric.received ++ [⟨tx, postedFor, result⟩] }
  else ric

/-- A message takes the sender out of the slot, whatever id it is posted for. -/
def answer (postedFor : Option String) (result : InvocationResult) : RicState :=
  match ric.currentResponseTx with
  | none => ric
  | some tx => { ric with currentResponseTx := none }.send tx postedFor result

def ricResponse (reqId : String) (body : List UInt8) : RicState :=
  ric.answer (some reqId) (.success (Utf8.lossy body))

/-- Type and message of an error. -/
def functionError (payload : String) : InvocationResult :=
  match fromStr payload with
  | none => .functionError "UnknownError" payload
  | some v =>
    .functionError (((v.get? "errorType").bind Json.asStr?).getD "UnknownError")
      (((v.get? "errorMessage").bind Json.asStr?).getD payload)

def ricError (reqId : String) (body : List UInt8) : RicState :=
  ric.answer (some reqId) (functionError fromStr (Utf8.lossy body))

def ricInitError (body : List UInt8) : RicState :=
  ric.answer none (.containerError ("Init error: " ++ Utf8.lossy body))

def step (event : Event) : RicState :=
  match event with
  | .invoke requestId payload => ric.invoke requestId payload
  | .next => ric.ricNext.2
  | .response reqId body => ric.ricResponse reqId body
  | .error reqId body => ric.ricError fromStr reqId body
  | .initError body => ric.ricInitError body
  | .timeout number => ric.close number

end Handlers

end RicState

/-- The id that a message is posted for; an init error has none. -/
@[grind] def Event.postedFor : Event → Option (Option String)
  | .response reqId _ | .error reqId _ => some (some reqId)
  | .initError _ => some none
  | .invoke _ _ | .next | .timeout _ => none

namespace RicState

/-- The requests whose senders the server has. -/
def senders (ric : RicState) : List InvocationRequest := ric.currentResponseTx.toList ++ ric.invocationRx

def Pending (ric : RicState) (r : InvocationRequest) : Prop := r ∈ ric.senders ∧ r.number ∈ ric.waiting

structure OwnResults (ric : RicState) : Prop where
  own : ∀ receipt ∈ ric.received, receipt.postedFor = some receipt.request.requestId
  once : (ric.received.map fun receipt => receipt.request.number).Nodup

/-- A message leaves pending what it is not posted for. -/
def SparesOthers (fromStr : String → Option Json) (ric : RicState) (event : Event) : Prop :=
  ∀ postedFor, event.postedFor = some postedFor → ∀ r, ric.Pending r → postedFor ≠ some r.requestId →
    (ric.step fromStr event).Pending r

/-- A message finds the slot empty, or the sender of what it is posted for, or one whose caller has
left. -/
def FindsItsOwn (ric : RicState) (event : Event) : Prop :=
  ∀ postedFor, event.postedFor = some postedFor → ∀ tx, ric.currentResponseTx = some tx →
    postedFor = some tx.requestId ∨ tx.number ∉ ric.waiting

structure Sound (ric : RicState) : Prop where
  distinct : (ric.senders.map (·.number)).Nodup
  known : ∀ r ∈ ric.senders, r.number < ric.invoked
  received : ∀ receipt ∈ ric.received,
    receipt.request.number < ric.invoked ∧ receipt.request.number ∉ ric.waiting
  once : (ric.received.map fun receipt => receipt.request.number).Nodup

section Steps

variable {fromStr : String → Option Json} {ric : RicState} {event : Event}

theorem mem_close {number n : Nat} : n ∈ (ric.close number).waiting ↔ n ∈ ric.waiting ∧ n ≠ number := by
  simp [close]

theorem Sound.close (sound : ric.Sound) (number : Nat) : (ric.close number).Sound where
  distinct := sound.distinct
  known := sound.known
  received receipt member := by
    obtain ⟨below, left⟩ := sound.received receipt member
    exact ⟨below, fun there => left (mem_close.mp there).1⟩
  once := sound.once

theorem Sound.invoke (sound : ric.Sound) (requestId payload : String) :
    (ric.invoke requestId payload).Sound := by
  have senders : (ric.invoke requestId payload).senders =
      ric.senders ++ [⟨ric.invoked, requestId, payload⟩] := by
    simp [RicState.senders, RicState.invoke]
  refine ⟨?_, fun r member => ?_, fun receipt member => ?_, sound.once⟩
  · rw [senders, List.map_append, List.nodup_append]
    refine ⟨sound.distinct, by simp, fun n old m new => ?_⟩
    obtain ⟨r, there, rfl⟩ := List.mem_map.mp old
    have below := sound.known r there
    simp only [List.map_cons, List.map_nil, List.mem_singleton] at new
    omega
  · rw [senders] at member
    change r.number < ric.invoked + 1
    rcases List.mem_append.mp member with old | new
    · have below := sound.known r old
      omega
    · rw [List.mem_singleton.mp new]
      exact Nat.lt_succ_self _
  · obtain ⟨below, left⟩ := sound.received receipt member
    refine ⟨Nat.lt_succ_of_lt below, fun there => ?_⟩
    rcases List.mem_append.mp there with old | new
    · exact left old
    · rw [List.mem_singleton.mp new] at below
      omega

/-- The sender in the slot goes. -/
theorem Sound.take (sound : ric.Sound) : ({ ric with currentResponseTx := none } : RicState).Sound where
  distinct := by
    have all := sound.distinct
    rw [senders, List.map_append] at all
    exact (List.nodup_append.mp all).2.1
  known r member := sound.known r (List.mem_append_right _ member)
  received := sound.received
  once := sound.once

theorem Sound.send (sound : ric.Sound) {tx : InvocationRequest} (below : tx.number < ric.invoked)
    (postedFor : Option String) (result : InvocationResult) : (ric.send tx postedFor result).Sound := by
  rw [RicState.send]
  split
  · next waiting =>
    refine ⟨sound.distinct, sound.known, fun receipt member => ?_, ?_⟩
    · rcases List.mem_append.mp member with old | new
      · exact (sound.close tx.number).received receipt old
      · rw [List.mem_singleton.mp new]
        exact ⟨below, fun there => (mem_close.mp there).2 rfl⟩
    · dsimp only
      rw [List.map_append, List.nodup_append]
      refine ⟨sound.once, by simp, fun n old m new => ?_⟩
      obtain ⟨receipt, there, rfl⟩ := List.mem_map.mp old
      rw [List.mem_singleton.mp new]
      -- what has been received no longer waits
      rintro same
      exact (sound.received receipt there).2 (same ▸ waiting)
  · exact sound

theorem Sound.answer (sound : ric.Sound) (postedFor : Option String) (result : InvocationResult) :
    (ric.answer postedFor result).Sound := by
  rw [RicState.answer]
  split
  · exact sound
  · next tx current =>
    exact sound.take.send (sound.known tx (by simp [senders, current])) postedFor result

theorem Sound.next (sound : ric.Sound) : ric.ricNext.2.Sound := by
  rw [ricNext]
  cases queue : ric.invocationRx with
  | nil => exact sound
  | cons req rest =>
    dsimp only
    have dropped : ric.dropCurrent.Sound := by
      rw [dropCurrent]
      split
      · exact sound
      · exact sound.close _
    have senders : ({ ric.dropCurrent with
        invocationRx := rest, currentResponseTx := some req } : RicState).senders = ric.invocationRx := by
      rw [RicState.senders, queue]
      rfl
    have invoked : ric.dropCurrent.invoked = ric.invoked := by
      rw [dropCurrent]
      split
      · rfl
      · rfl
    refine ⟨?_, fun r member => ?_, dropped.received, dropped.once⟩
    · rw [senders]
      exact sound.take.distinct
    · rw [senders] at member
      rw [invoked]
      exact sound.known r (List.mem_append_right _ member)

theorem Sound.step (sound : ric.Sound) : (ric.step fromStr event).Sound := by
  cases event with
  | invoke requestId payload => exact sound.invoke requestId payload
  | next => exact sound.next
  | response reqId body => exact sound.answer _ _
  | error reqId body => exact sound.answer _ _
  | initError body => exact sound.answer _ _
  | timeout number => exact sound.close number

theorem step_of_postedFor {postedFor : Option String} (posted : event.postedFor = some postedFor) :
    ∃ result, ric.step fromStr event = ric.answer postedFor result := by
  cases event with
  | response reqId body =>
    cases posted
    exact ⟨_, rfl⟩
  | error reqId body =>
    cases posted
    exact ⟨_, rfl⟩
  | initError body =>
    cases posted
    exact ⟨_, rfl⟩
  | invoke _ _ | next | timeout _ => cases posted

theorem received_of_not_posted (silent : event.postedFor = none) :
    (ric.step fromStr event).received = ric.received := by
  cases event with
  | invoke requestId payload => rfl
  | timeout number => rfl
  | next =>
    change ric.ricNext.2.received = ric.received
    rw [ricNext]
    split
    · rfl
    · change ric.dropCurrent.received = ric.received
      rw [dropCurrent]
      split
      · rfl
      · rfl
  | response _ _ | error _ _ | initError _ => cases silent

/-- A message for `tx`, whose sender is in the slot and whose caller waits. -/
theorem answer_waiting {tx : InvocationRequest} (current : ric.currentResponseTx = some tx)
    (waiting : tx.number ∈ ric.waiting) (postedFor : Option String) (result : InvocationResult) :
    (ric.answer postedFor result).received = ric.received ++ [⟨tx, postedFor, result⟩] ∧
      (ric.answer postedFor result).waiting = (ric.close tx.number).waiting ∧
        (ric.answer postedFor result).senders = ric.invocationRx := by
  rw [answer, current]
  dsimp only
  rw [send, if_pos waiting]
  exact ⟨rfl, rfl, rfl⟩

/-- A message that finds a sender whose caller has left. -/
theorem answer_left {tx : InvocationRequest} (current : ric.currentResponseTx = some tx)
    (left : tx.number ∉ ric.waiting) (postedFor : Option String) (result : InvocationResult) :
    ric.answer postedFor result = { ric with currentResponseTx := none } := by
  rw [answer, current]
  dsimp only
  rw [send, if_neg left]

theorem mem_senders_iff {tx r : InvocationRequest} (current : ric.currentResponseTx = some tx) :
    r ∈ ric.senders ↔ r = tx ∨ r ∈ ric.invocationRx := by
  rw [senders, current]
  simp

theorem sparesOthers_iff (sound : ric.Sound) : ric.SparesOthers fromStr event ↔ ric.FindsItsOwn event := by
  constructor
  · intro spares postedFor posted tx current
    by_cases waiting : tx.number ∈ ric.waiting
    · by_cases own : postedFor = some tx.requestId
      · exact Or.inl own
      · obtain ⟨result, made⟩ := @step_of_postedFor fromStr ric event postedFor posted
        have pending := spares postedFor posted tx ⟨(mem_senders_iff current).mpr (Or.inl rfl), waiting⟩ own
        rw [made, Pending, (answer_waiting current waiting postedFor result).2.1] at pending
        exact absurd rfl (mem_close.mp pending.2).2
    · exact Or.inr waiting
  · intro finds postedFor posted r pending other
    obtain ⟨result, made⟩ := @step_of_postedFor fromStr ric event postedFor posted
    rw [made]
    cases current : ric.currentResponseTx with
    | none =>
      rw [answer, current]
      exact pending
    | some tx =>
      obtain ⟨sender, waits⟩ := pending
      by_cases waiting : tx.number ∈ ric.waiting
      · have own := (finds postedFor posted tx current).resolve_right fun left => left waiting
        have queued : r ∈ ric.invocationRx := by
          refine ((mem_senders_iff current).mp sender).resolve_left ?_
          rintro rfl
          exact other own
        have numbers := sound.distinct
        rw [senders, current, Option.toList_some, List.singleton_append, List.map_cons,
          List.nodup_cons] at numbers
        have apart : r.number ≠ tx.number := fun same => numbers.1 (List.mem_map.mpr ⟨r, queued, same⟩)
        obtain ⟨-, waiting', senders'⟩ := answer_waiting current waiting postedFor result
        exact ⟨senders' ▸ queued, waiting' ▸ mem_close.mpr ⟨waits, apart⟩⟩
      · rw [answer_left current waiting]
        refine ⟨?_, waits⟩
        refine ((mem_senders_iff current).mp sender).resolve_left ?_
        rintro rfl
        exact waiting waits

theorem own_step (sound : ric.Sound) (results : ric.OwnResults) (finds : ric.FindsItsOwn event) :
    (ric.step fromStr event).OwnResults := by
  refine ⟨?_, sound.step.once⟩
  cases posted : event.postedFor with
  | none =>
    rw [received_of_not_posted posted]
    exact results.own
  | some postedFor =>
    obtain ⟨result, made⟩ := @step_of_postedFor fromStr ric event postedFor posted
    rw [made]
    cases current : ric.currentResponseTx with
    | none =>
      rw [answer, current]
      exact results.own
    | some tx =>
      by_cases waiting : tx.number ∈ ric.waiting
      · rw [(answer_waiting current waiting postedFor result).1]
        intro receipt member
        rcases List.mem_append.mp member with old | new
        · exact results.own receipt old
        · rw [List.mem_singleton.mp new]
          exact (finds postedFor posted tx current).resolve_right fun left => left waiting
      · rw [answer_left current waiting]
        exact results.own

theorem own_step_iff (results : ric.OwnResults) (sound : ric.Sound) :
    (ric.step fromStr event).OwnResults ∧ ric.SparesOthers fromStr event ↔ ric.FindsItsOwn event := by
  rw [sparesOthers_iff sound]
  exact and_iff_right_of_imp fun finds => own_step sound results finds

end Steps

end RicState

end Openstack.Lambda

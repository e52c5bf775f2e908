import Mathlib.Logic.Function.Iterate
import Openstack.Sqs.Visibility

/-!
# What a receive selects

`receive_messages` (`store.rs:282-317`) takes the first visible messages of the queue, up to the number
asked for, by its fast path as by its general loop. A receive count has 32 bits.
-/
namespace Openstack.Sqs

/-- The positions of the visible messages in queue order, with the first message at `idx`. -/
def visibleFrom (now : Instant) (idx : Nat) (msgs : List SqsMessage) : List Nat :=
  ((msgs.zipIdx idx).filter fun p => p.1.isVisibleAt now).map Prod.snd

def visiblePositions (now : Instant) (msgs : List SqsMessage) : List Nat := visibleFrom now 0 msgs

/-- When a message that is received now becomes visible again. -/
def receiveDeadline (vt : Nat) (now : Instant) : Option Instant :=
  if vt > 0 then some (now + seconds vt) else none

/-- A message after one more receive, with the count as a number. -/
def SqsMessage.receivedOnce (m : SqsMessage) (vt : Nat) (now : Instant) (counter : Nat) : SqsMessage :=
  { m with
    receiptHandle := receiptHandleOf counter
    receiveCount := m.receiveCount + 1
    attributes := m.attributes.insert "ApproximateReceiveCount" (toString (m.receiveCount + 1))
    visibleAfter := receiveDeadline vt now }

/-- The receive at `now` returns the positions of the first visible messages, up to `maxNumber` of them, and
turns `q` into `q'`. Each taken message has its own value of the counter in its handle. -/
structure SelectsFirst (now : Instant) (counter : Nat) (q : SqsQueue) (maxNumber : Nat) (vt : Nat)
    (positions : List Nat) (q' : SqsQueue) : Prop where
  first : positions = (visiblePositions now q.messages).take maxNumber
  count : positions.length = min maxNumber (q.approximateNumberOfMessages now)
  taken : ∀ k i (m : SqsMessage), positions[k]? = some i → q.messages[i]? = some m →
    q'.messages[i]? = some (m.receivedOnce vt now (fetchAdd^[k] counter))
  others : ∀ i, i ∉ positions → q'.messages[i]? = q.messages[i]?
  rest : q' = { q with messages := q'.messages }

theorem receiveLoop_full {maxNumber vt : Nat} {now : Instant} {received : List Nat}
    (full : received.length ≥ maxNumber) (idx counter : Nat) (msgs : List SqsMessage) :
    SqsQueue.receiveLoop maxNumber vt now received idx counter msgs = (received, msgs, counter) := by
  cases msgs with
  | nil => rfl
  | cons m rest => rw [SqsQueue.receiveLoop, if_pos full]

/-- For one message the fast path and the general loop agree. -/
theorem receiveFirst_eq_receiveLoop (vt : Nat) (now : Instant) (idx counter : Nat)
    (msgs : List SqsMessage) : SqsQueue.receiveFirst vt now idx counter msgs =
      SqsQueue.receiveLoop 1 vt now [] idx counter msgs := by
  induction msgs generalizing idx with
  | nil => rfl
  | cons m rest ih =>
    have room : ¬ ([] : List Nat).length ≥ 1 := Nat.not_succ_le_zero 0
    rw [SqsQueue.receiveFirst, SqsQueue.receiveLoop, if_neg room]
    split
    · have done : [idx].length ≥ 1 := Nat.le_refl 1
      simp [receiveLoop_full done]
    · simp only [ih (idx + 1)]

theorem visibleFrom_nil (now : Instant) (idx : Nat) : visibleFrom now idx [] = [] := rfl

theorem visibleFrom_cons (now : Instant) (idx : Nat) (m : SqsMessage) (rest : List SqsMessage) :
    visibleFrom now idx (m :: rest) =
      if m.isVisibleAt now then idx :: visibleFrom now (idx + 1) rest
      else visibleFrom now (idx + 1) rest := by
  rw [visibleFrom, List.zipIdx_cons, List.filter_cons]
  split
  · rfl
  · rfl

theorem length_visibleFrom (now : Instant) (idx : Nat) (msgs : List SqsMessage) :
    (visibleFrom now idx msgs).length = msgs.countP (·.isVisibleAt now) := by
  induction msgs generalizing idx with
  | nil => rfl
  | cons m rest ih =>
    rw [visibleFrom_cons, List.countP_cons]
    split
    · rw [List.length_cons, ih]
    · rw [ih, Nat.add_zero]

section Received

variable {vt limit counter idx counter' : Nat} {now : Instant} {msgs taken msgs' : List SqsMessage}
  {positions : List Nat}

theorem Received.positions_eq
    (received : Received vt now limit counter idx msgs positions taken msgs' counter') :
    positions = (visibleFrom now idx msgs).take limit := by
  induction received with
  | nil => rw [visibleFrom_nil, List.take_nil]
  | full => rw [List.take_zero]
  | take visible later ih => rw [visibleFrom_cons, if_pos visible, List.take_succ_cons, ← ih]
  | hidden invisible later ih =>
    rw [visibleFrom_cons, if_neg (by rw [invisible]; exact Bool.false_ne_true), ← ih]

/-- The taken messages get the values of the counter in queue order. -/
theorem Received.at_rank
    (received : Received vt now limit counter idx msgs positions taken msgs' counter') {k i : Nat}
    {m : SqsMessage} (rank : positions[k]? = some (idx + i)) (there : msgs[i]? = some m) :
    msgs'[i]? = some (m.beginReceive vt now (fetchAdd^[k] counter)) := by
  induction received generalizing k i with
  | nil => cases there
  | full => cases rank
  | @take limit counter idx counter' x rest taken rest' positions visible later ih =>
    cases k with
    | zero =>
      have here : idx = idx + i := by simpa using rank
      obtain rfl : i = 0 := by omega
      obtain rfl : x = m := by simpa using there
      rfl
    | succ k =>
      rw [List.getElem?_cons_succ] at rank
      have behind := later.le_position _ (List.mem_of_getElem? rank)
      obtain ⟨j, rfl⟩ : ∃ j, i = j + 1 := ⟨i - 1, by omega⟩
      have shift : idx + (j + 1) = idx + 1 + j := by omega
      rw [shift] at rank
      exact ih rank (by simpa using there)
  | @hidden limit counter idx counter' x rest taken rest' positions invisible later ih =>
    have behind := later.le_position _ (List.mem_of_getElem? rank)
    obtain ⟨j, rfl⟩ : ∃ j, i = j + 1 := ⟨i - 1, by omega⟩
    have shift : idx + (j + 1) = idx + 1 + j := by omega
    rw [shift] at rank
    exact ih rank (by simpa using there)

end Received

variable {now : Instant} {counter maxNumber : Nat} {q : SqsQueue} {vt : Option Nat}

theorem receiveMessages_first : (q.receiveMessages now counter maxNumber vt).1 =
    (visiblePositions now q.messages).take maxNumber := by
  obtain ⟨taken, received⟩ := receiveMessages_received now counter q maxNumber vt
  exact received.positions_eq

theorem receiveMessages_rest : (q.receiveMessages now counter maxNumber vt).2.1 =
    { q with messages := (q.receiveMessages now counter maxNumber vt).2.1.messages } := by
  unfold SqsQueue.receiveMessages
  split
  · rfl
  · rfl

theorem receiveMessages_others {i : Nat}
    (other : i ∉ (q.receiveMessages now counter maxNumber vt).1) :
    (q.receiveMessages now counter maxNumber vt).2.1.messages[i]? = q.messages[i]? := by
  obtain ⟨taken, received⟩ := receiveMessages_received now counter q maxNumber vt
  cases there : q.messages[i]? with
  | none =>
    have beyond := List.getElem?_eq_none_iff.mp there
    exact List.getElem?_eq_none_iff.mpr (by rw [received.length]; exact beyond)
  | some m =>
    obtain ⟨member, _⟩ | ⟨_, kept⟩ := received.at_position i m there
    · rw [Nat.zero_add] at member
      exact absurd member other
    · exact kept

theorem receiveMessages_taken {k i : Nat} {m : SqsMessage}
    (rank : (q.receiveMessages now counter maxNumber vt).1[k]? = some i) (there : q.messages[i]? = some m) :
    (q.receiveMessages now counter maxNumber vt).2.1.messages[i]? =
      some (m.beginReceive (vt.getD q.visibilityTimeout) now (fetchAdd^[k] counter)) := by
  obtain ⟨taken, received⟩ := receiveMessages_received now counter q maxNumber vt
  exact received.at_rank (by rwa [Nat.zero_add]) there

/-- The count is bumped as a number unless it is the largest that 32 bits hold. -/
theorem beginReceive_eq_receivedOnce (m : SqsMessage) (vt : Nat) (now : Instant) (counter : Nat) :
    m.beginReceive vt now counter = m.receivedOnce vt now counter ↔ m.receiveCount + 1 < 2 ^ 32 := by
  constructor
  · intro same
    have counts : (m.receiveCount + 1) % 2 ^ 32 = m.receiveCount + 1 := congrArg SqsMessage.receiveCount same
    rw [← counts]
    exact Nat.mod_lt _ (by decide)
  · intro small
    have counts : (m.receiveCount + 1) % 2 ^ 32 = m.receiveCount + 1 := Nat.mod_eq_of_lt small
    rw [SqsMessage.beginReceive, SqsMessage.receivedOnce, receiveDeadline]
    simp only [counts]

/-- No message that the receive takes has the largest receive count. -/
def CountsFit (now : Instant) (q : SqsQueue) (maxNumber : Nat) : Prop :=
  ∀ i ∈ (visiblePositions now q.messages).take maxNumber, ∀ m, q.messages[i]? = some m →
    m.receiveCount + 1 < 2 ^ 32

/-- A receive selects the first visible messages and bumps their counts exactly when these fit 32 bits; the
fast path for one message does what the general loop does. -/
theorem receive_selection_iff (now : Instant) (counter : Nat) (q : SqsQueue) (maxNumber : Nat)
    (vt : Option Nat) :
    (SelectsFirst now counter q maxNumber (vt.getD q.visibilityTimeout)
        (q.receiveMessages now counter maxNumber vt).1 (q.receiveMessages now counter maxNumber vt).2.1 ∧
      SqsQueue.receiveFirst (vt.getD q.visibilityTimeout) now 0 counter q.messages =
        SqsQueue.receiveLoop 1 (vt.getD q.visibilityTimeout) now [] 0 counter q.messages) ↔
      CountsFit now q maxNumber := by
  constructor
  · rintro ⟨selects, _⟩ i member m there
    rw [← @receiveMessages_first _ counter _ _ vt] at member
    obtain ⟨k, rank⟩ := List.getElem?_of_mem member
    have bumped := selects.taken k i m rank there
    rw [receiveMessages_taken rank there, Option.some.injEq] at bumped
    exact (beginReceive_eq_receivedOnce m _ now _).mp bumped
  · intro fits
    refine ⟨⟨receiveMessages_first, ?_, ?_, fun i => receiveMessages_others, receiveMessages_rest⟩,
      receiveFirst_eq_receiveLoop _ _ _ _ _⟩
    · rw [receiveMessages_first, List.length_take, visiblePositions, length_visibleFrom]
      rfl
    · intro k i m rank there
      have member : i ∈ (visiblePositions now q.messages).take maxNumber := by
        rw [← @receiveMessages_first _ counter _ _ vt]
        exact List.mem_of_getElem? rank
      rw [receiveMessages_taken rank there]
      exact congrArg some ((beginReceive_eq_receivedOnce m _ now _).mpr (fits i member m there))

/-- One message, received as often as its count can say. -/
def wornQueue : SqsQueue :=
  { SqsQueue.new 0 "jobs" "http://localhost:4566" "000000000000" "us-east-1" with
    messages := [{ SqsMessage.new emptyBodyEnv 0 1 ⟨"", none, ∅, none, none⟩ 0 1 with
      receiveCount := 2 ^ 32 - 1 }] }

/-- The next receive starts the count again. -/
theorem worn_count_wraps :
    ¬ SelectsFirst 0 3 wornQueue 1 30 (wornQueue.receiveMessages 0 3 1 none).1
        (wornQueue.receiveMessages 0 3 1 none).2.1 := by
  intro selects
  have bumped := congrArg (Option.map SqsMessage.receiveCount)
    (selects.taken 0 0 _ (by decide +kernel) rfl)
  exact absurd bumped (by decide +kernel)

end Openstack.Sqs

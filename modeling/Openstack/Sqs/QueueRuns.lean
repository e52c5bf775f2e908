import Openstack.Sqs.Conservation

/-!
# Runs of one queue

The operations of `store.rs` on one queue, each at its own instant and with the value the
process-wide message counter has then; other queues may have moved the counter in between. A
message is identified by its number in the order of acceptance, which the queue does not know: its
own ids and handles repeat once the counter has wrapped.
-/
namespace Openstack.Sqs

variable {w : Numbered} {n : Nat} {e : Event}

inductive QueueOp where
  | send (args : SendArgs)
  | receive (maxNumber : Nat) (visibilityTimeout : Option Nat)
  | delete (receiptHandle : String)
  | changeVisibility (receiptHandle : String) (visibilityTimeout : Nat)
  | purge

structure Event where
  now : Instant
  counter : Nat
  op : QueueOp

def SqsQueue.perform (env : Env) (q : SqsQueue) (e : Event) : SqsQueue :=
  match e.op with
  | .send args => (q.sendMessage env e.now e.counter args).2.1
  | .receive maxNumber visibilityTimeout =>
    (q.receiveMessages e.now e.counter maxNumber visibilityTimeout).2.1
  | .delete receiptHandle => (q.deleteMessage receiptHandle).2
  | .changeVisibility receiptHandle visibilityTimeout =>
    (q.changeVisibility e.now receiptHandle visibilityTimeout).2
  | .purge => q.purge

/-- The positions of the messages that the event returns. -/
def SqsQueue.answer (q : SqsQueue) (e : Event) : List Nat :=
  match e.op with
  | .receive maxNumber visibilityTimeout =>
    (q.receiveMessages e.now e.counter maxNumber visibilityTimeout).1
  | _ => []

/-- A receive of up to `limit` messages, from the position `idx` on: the positions taken, the taken
messages as they are afterwards, all messages afterwards, and the counter. -/
inductive Received (vt : Nat) (now : Instant) : (limit counter idx : Nat) → List SqsMessage →
    List Nat → List SqsMessage → List SqsMessage → Nat → Prop
  | nil (limit counter idx : Nat) : Received vt now limit counter idx [] [] [] [] counter
  | full (counter idx : Nat) (msgs : List SqsMessage) :
      Received vt now 0 counter idx msgs [] [] msgs counter
  | take {limit counter idx counter' : Nat} {m : SqsMessage} {rest taken rest' : List SqsMessage}
      {positions : List Nat} (visible : m.isVisibleAt now = true)
      (later : Received vt now limit (fetchAdd counter) (idx + 1) rest positions taken rest' counter') :
      Received vt now (limit + 1) counter idx (m :: rest) (idx :: positions)
        (m.beginReceive vt now counter :: taken) (m.beginReceive vt now counter :: rest') counter'
  | hidden {limit counter idx counter' : Nat} {m : SqsMessage} {rest taken rest' : List SqsMessage}
      {positions : List Nat} (invisible : m.isVisibleAt now = false)
      (later : Received vt now limit counter (idx + 1) rest positions taken rest' counter') :
      Received vt now limit counter idx (m :: rest) positions taken (m :: rest') counter'

theorem receiveFirst_received (vt : Nat) (now : Instant) (idx counter : Nat)
    (msgs : List SqsMessage) : ∃ taken,
    Received vt now 1 counter idx msgs (SqsQueue.receiveFirst vt now idx counter msgs).1 taken
      (SqsQueue.receiveFirst vt now idx counter msgs).2.1
      (SqsQueue.receiveFirst vt now idx counter msgs).2.2 := by
  induction msgs generalizing idx with
  | nil => exact ⟨[], .nil _ _ _⟩
  | cons m rest ih =>
    unfold SqsQueue.receiveFirst
    split
    · next visible => exact ⟨_, .take visible (.full _ _ _)⟩
    · next invisible =>
      obtain ⟨taken, later⟩ := ih (idx + 1)
      exact ⟨taken, .hidden (by simpa using invisible) later⟩

theorem receiveLoop_received (maxNumber vt : Nat) (now : Instant) (received : List Nat)
    (idx counter : Nat) (msgs : List SqsMessage) : ∃ positions taken,
    (SqsQueue.receiveLoop maxNumber vt now received idx counter msgs).1 = received ++ positions ∧
    Received vt now (maxNumber - received.length) counter idx msgs positions taken
      (SqsQueue.receiveLoop maxNumber vt now received idx counter msgs).2.1
      (SqsQueue.receiveLoop maxNumber vt now received idx counter msgs).2.2 := by
  induction msgs generalizing received idx counter with
  | nil => exact ⟨[], [], (List.append_nil _).symm, .nil _ _ _⟩
  | cons m rest ih =>
    unfold SqsQueue.receiveLoop
    split
    · next full =>
      rw [Nat.sub_eq_zero_of_le full]
      exact ⟨[], [], (List.append_nil _).symm, .full _ _ _⟩
    · next room =>
      split
      · next visible =>
        obtain ⟨positions, taken, same, later⟩ := ih (received ++ [idx]) (idx + 1) (fetchAdd counter)
        have limit : maxNumber - received.length =
            (maxNumber - (received ++ [idx]).length) + 1 := by
          rw [List.length_append, List.length_singleton]
          omega
        rw [limit]
        exact ⟨idx :: positions, _, by simpa using same, .take visible later⟩
      · next invisible =>
        obtain ⟨positions, taken, same, later⟩ := ih received (idx + 1) counter
        exact ⟨positions, taken, same, .hidden (by simpa using invisible) later⟩

theorem receiveMessages_received (now : Instant) (counter : Nat) (q : SqsQueue) (maxNumber : Nat)
    (vt : Option Nat) : ∃ taken,
    Received (vt.getD q.visibilityTimeout) now maxNumber counter 0 q.messages
      (q.receiveMessages now counter maxNumber vt).1 taken
      (q.receiveMessages now counter maxNumber vt).2.1.messages
      (q.receiveMessages now counter maxNumber vt).2.2 := by
  unfold SqsQueue.receiveMessages
  split
  · next idle =>
    rcases idle with rfl | empty
    · exact ⟨[], .full _ _ _⟩
    · simp only [empty]
      exact ⟨[], .nil _ _ _⟩
  · simp only
    split
    · next one =>
      subst one
      exact receiveFirst_received _ _ _ _ _
    · obtain ⟨positions, taken, same, received⟩ := receiveLoop_received maxNumber
        (vt.getD q.visibilityTimeout) now [] 0 counter q.messages
      rw [List.nil_append] at same
      rw [same]
      exact ⟨taken, received⟩

section Received

variable {vt limit counter idx counter' : Nat} {now : Instant} {msgs taken msgs' : List SqsMessage}
  {positions : List Nat}

theorem Received.taken_eq
    (received : Received vt now limit counter idx msgs positions taken msgs' counter')
    (front : List SqsMessage) (length : front.length = idx) :
    (positions.filterMap fun i => (front ++ msgs')[i]?) = taken := by
  induction received generalizing front with
  | nil | full => rfl
  | @take limit counter idx counter' m rest taken rest' positions visible later ih =>
    have here : (front ++ m.beginReceive vt now counter :: rest')[idx]? =
        some (m.beginReceive vt now counter) := by
      simp [← length]
    have others := ih (front ++ [m.beginReceive vt now counter]) (by simp [length])
    rw [List.append_assoc, List.singleton_append] at others
    rw [List.filterMap_cons, here, others]
  | @hidden limit counter idx counter' m rest taken rest' positions invisible later ih =>
    have others := ih (front ++ [m]) (by simp [length])
    rwa [List.append_assoc, List.singleton_append] at others

theorem Received.length (received : Received vt now limit counter idx msgs positions taken msgs' counter') :
    msgs'.length = msgs.length := by
  induction received with
  | nil | full => rfl
  | take _ _ ih => simp [ih]
  | hidden _ _ ih => simp [ih]

theorem Received.le_position
    (received : Received vt now limit counter idx msgs positions taken msgs' counter') :
    ∀ p ∈ positions, idx ≤ p := by
  induction received with
  | nil | full => simp
  | take _ _ ih =>
    intro p member
    rcases List.mem_cons.mp member with rfl | later
    · exact Nat.le_refl _
    · have := ih p later
      omega
  | hidden _ _ ih =>
    intro p member
    have := ih p member
    omega

theorem Received.sorted
    (received : Received vt now limit counter idx msgs positions taken msgs' counter') :
    positions.Pairwise (· < ·) := by
  induction received with
  | nil | full => exact .nil
  | take _ later ih => exact .cons (fun p member => later.le_position p member) ih
  | hidden _ _ ih => exact ih

/-- Position by position: a taken message was visible and begins a receive, and the others stay. -/
theorem Received.at_position
    (received : Received vt now limit counter idx msgs positions taken msgs' counter') (i : Nat)
    (m : SqsMessage) (there : msgs[i]? = some m) :
    (idx + i ∈ positions ∧ m.isVisibleAt now = true ∧
      ∃ c, msgs'[i]? = some (m.beginReceive vt now c)) ∨
    (idx + i ∉ positions ∧ msgs'[i]? = some m) := by
  induction received generalizing i with
  | nil => simp at there
  | full => exact .inr ⟨List.not_mem_nil, there⟩
  | @take limit counter idx counter' x rest taken rest' positions visible later ih =>
    cases i with
    | zero =>
      obtain rfl : x = m := by simpa using there
      exact .inl ⟨by simp, visible, counter, rfl⟩
    | succ j =>
      have shift : idx + (j + 1) = idx + 1 + j := by omega
      have behind : idx + 1 + j ≠ idx := by omega
      rw [shift]
      obtain ⟨member, seen, c, next⟩ | ⟨other, next⟩ := ih j (by simpa using there)
      · exact .inl ⟨List.mem_cons_of_mem _ member, seen, c, next⟩
      · exact .inr ⟨by simp [behind, other], next⟩
  | @hidden limit counter idx counter' x rest taken rest' positions invisible later ih =>
    cases i with
    | zero =>
      obtain rfl : x = m := by simpa using there
      refine .inr ⟨?_, rfl⟩
      intro member
      have := later.le_position _ member
      omega
    | succ j =>
      rw [show idx + (j + 1) = idx + 1 + j by omega]
      exact ih j (by simpa using there)

/-- A visible message in front of a taken one is taken too. -/
theorem Received.visible_before
    (received : Received vt now limit counter idx msgs positions taken msgs' counter') {i j : Nat}
    (before : i < j) (member : idx + j ∈ positions) {m : SqsMessage} (there : msgs[i]? = some m)
    (visible : m.isVisibleAt now = true) : idx + i ∈ positions := by
  induction received generalizing i j with
  | nil | full => cases member
  | @take limit counter idx counter' x rest taken rest' positions seen later ih =>
    cases i with
    | zero => simp
    | succ i =>
      obtain ⟨j, rfl⟩ : ∃ k, j = k + 1 := ⟨j - 1, by omega⟩
      have behind : idx + (j + 1) ≠ idx := by omega
      have tail : idx + 1 + j ∈ positions := by
        rw [show idx + 1 + j = idx + (j + 1) by omega]
        exact (List.mem_cons.mp member).resolve_left behind
      have found := ih (i := i) (j := j) (by omega) tail (by simpa using there)
      rw [show idx + (i + 1) = idx + 1 + i by omega]
      exact List.mem_cons_of_mem _ found
  | @hidden limit counter idx counter' x rest taken rest' positions invisible later ih =>
    cases i with
    | zero =>
      obtain rfl : x = m := by simpa using there
      rw [visible] at invisible
      cases invisible
    | succ i =>
      obtain ⟨j, rfl⟩ : ∃ k, j = k + 1 := ⟨j - 1, by omega⟩
      rw [show idx + (i + 1) = idx + 1 + i by omega]
      rw [show idx + (j + 1) = idx + 1 + j by omega] at member
      exact ih (i := i) (j := j) (by omega) member (by simpa using there)

end Received

theorem removeByHandle_eq (rh : String) (msgs : List SqsMessage) :
    (SqsQueue.removeByHandle rh msgs).2 = msgs.eraseIdx (msgs.findIdx (·.receiptHandle = rh)) := by
  induction msgs with
  | nil => rfl
  | cons m rest ih =>
    unfold SqsQueue.removeByHandle
    by_cases here : m.receiptHandle = rh
    · simp [here, List.findIdx_cons]
    · simp [here, ih, List.findIdx_cons]

/-- At each position the deadline is set or the message stays. -/
theorem setVisibility_at (rh : String) (deadline : Option Instant) (msgs : List SqsMessage) (i : Nat)
    (m : SqsMessage) (there : msgs[i]? = some m) :
    (SqsQueue.setVisibility rh deadline msgs).2[i]? = some m ∨
    m.receiptHandle = rh ∧
      (SqsQueue.setVisibility rh deadline msgs).2[i]? = some { m with visibleAfter := deadline } := by
  induction msgs generalizing i with
  | nil => simp at there
  | cons x rest ih =>
    unfold SqsQueue.setVisibility
    cases i with
    | zero =>
      obtain rfl : x = m := by simpa using there
      by_cases here : x.receiptHandle = rh
      · exact .inr ⟨here, by simp [here]⟩
      · exact .inl (by simp [here])
    | succ i =>
      have later := ih i (by simpa using there)
      by_cases here : x.receiptHandle = rh
      · exact .inl (by simpa [here] using there)
      · simpa [here] using later

theorem setVisibility_length (rh : String) (deadline : Option Instant) (msgs : List SqsMessage) :
    (SqsQueue.setVisibility rh deadline msgs).2.length = msgs.length := by
  rw [← List.length_map (fun m : SqsMessage => m.messageId), setVisibility_ids, List.length_map]

/-- A queue whose messages carry their number in the order of acceptance. -/
structure Numbered where
  queue : SqsQueue
  numbers : List Nat
  /-- How many messages the queue has accepted. -/
  accepted : Nat
  length_eq : numbers.length = queue.messages.length
  sorted : numbers.Pairwise (· < ·)
  below : ∀ n ∈ numbers, n < accepted

namespace Numbered

/-- A new queue. -/
def ofNew (name : String) : Numbered where
  queue := SqsQueue.new 0 name "http://localhost:4566" "000000000000" "us-east-1"
  numbers := []
  accepted := 0
  length_eq := rfl
  sorted := .nil
  below := fun _ member => absurd member List.not_mem_nil

/-- The queue accepts the message of the event. -/
def accepts (w : Numbered) : QueueOp → Bool
  | .send args => !w.queue.isDuplicate args
  | _ => false

/-- The numbers of the messages that stay, and that of a new one. -/
@[grind] def numbersAfter (w : Numbered) (op : QueueOp) : List Nat :=
  match op with
  | .send _ => if w.accepts op then w.numbers ++ [w.accepted] else w.numbers
  | .delete rh => w.numbers.eraseIdx (w.queue.messages.findIdx (·.receiptHandle = rh))
  | .purge => []
  | _ => w.numbers

theorem numbersAfter_length (env : Env) (w : Numbered) (e : Event) :
    (w.numbersAfter e.op).length = (w.queue.perform env e).messages.length := by
  unfold numbersAfter SqsQueue.perform
  cases op : e.op with
  | send args =>
    simp only [accepts, SqsQueue.sendMessage]
    by_cases duplicate : w.queue.isDuplicate args = true
    · simp [duplicate, w.length_eq]
    · simp [duplicate, w.length_eq]
  | receive maxNumber vt =>
    simp only [receiveMessages_length, w.length_eq]
  | delete rh =>
    simp only [SqsQueue.deleteMessage, removeByHandle_eq, List.length_eraseIdx, w.length_eq]
  | changeVisibility rh vt =>
    simp only [SqsQueue.changeVisibility, setVisibility_length, w.length_eq]
  | purge => rfl

theorem numbersAfter_sorted (w : Numbered) (op : QueueOp) :
    (w.numbersAfter op).Pairwise (· < ·) := by
  unfold numbersAfter
  cases op with
  | send args =>
    simp only
    split
    · refine List.pairwise_append.mpr ⟨w.sorted, List.pairwise_singleton _ _, ?_⟩
      intro n member k last
      rw [List.mem_singleton.mp last]
      exact w.below n member
    · exact w.sorted
  | delete rh => exact w.sorted.sublist (List.eraseIdx_sublist _ _)
  | purge => exact .nil
  | receive | changeVisibility => exact w.sorted

def acceptedAfter (w : Numbered) (op : QueueOp) : Nat :=
  if w.accepts op then w.accepted + 1 else w.accepted

theorem numbersAfter_below (w : Numbered) (op : QueueOp) :
    ∀ n ∈ w.numbersAfter op, n < w.acceptedAfter op := by
  have grows : w.accepted ≤ w.acceptedAfter op := by
    unfold acceptedAfter
    split <;> omega
  intro n member
  have old : n ∈ w.numbers → n < w.acceptedAfter op := by
    intro before
    have := w.below n before
    omega
  unfold numbersAfter at member
  cases op with
  | send args =>
    simp only at member
    split at member
    · next accepted =>
      rcases List.mem_append.mp member with before | new
      · exact old before
      · rw [List.mem_singleton.mp new, acceptedAfter, if_pos accepted]
        omega
    · exact old member
  | delete rh => exact old (List.mem_of_mem_eraseIdx member)
  | purge => cases member
  | receive | changeVisibility => exact old member

def step (env : Env) (w : Numbered) (e : Event) : Numbered where
  queue := w.queue.perform env e
  numbers := w.numbersAfter e.op
  accepted := w.acceptedAfter e.op
  length_eq := w.numbersAfter_length env e
  sorted := w.numbersAfter_sorted e.op
  below := w.numbersAfter_below e.op

def run (env : Env) (w : Numbered) (events : List Event) : Numbered := events.foldl (step env) w

/-- The numbers of the messages that the event returns, in the order of the answer. -/
def returned (w : Numbered) (e : Event) : List Nat :=
  (w.queue.answer e).filterMap fun i => w.numbers[i]?

/-- The message with the number is in the queue. -/
def Has (w : Numbered) (n : Nat) (m : SqsMessage) : Prop :=
  ∃ i : Nat, w.numbers[i]? = some n ∧ w.queue.messages[i]? = some m

theorem numbers_inj {i j n : Nat} (left : w.numbers[i]? = some n) (right : w.numbers[j]? = some n) : i = j := by
  have nodup : w.numbers.Nodup := w.sorted.imp (fun before => Nat.ne_of_lt before)
  obtain ⟨bound, here⟩ := List.getElem?_eq_some_iff.mp left
  obtain ⟨bound', there⟩ := List.getElem?_eq_some_iff.mp right
  exact (List.Nodup.getElem_inj_iff nodup).mp (here.trans there.symm)

theorem Has.unique {m m' : SqsMessage} (left : w.Has n m) (right : w.Has n m') : m = m' := by
  obtain ⟨i, number, here⟩ := left
  obtain ⟨j, number', there⟩ := right
  obtain rfl := numbers_inj number number'
  exact Option.some.inj (here.symm.trans there)

theorem Has.below {m : SqsMessage} (has : w.Has n m) : n < w.accepted := by
  obtain ⟨i, number, _⟩ := has
  exact w.below n (List.mem_of_getElem? number)

theorem has_of_number {i n : Nat} (number : w.numbers[i]? = some n) :
    ∃ m, w.queue.messages[i]? = some m := by
  obtain ⟨bound, _⟩ := List.getElem?_eq_some_iff.mp number
  rw [w.length_eq] at bound
  exact ⟨_, List.getElem?_eq_getElem bound⟩

/-- The message that an accepted send stores. -/
def newMessage (env : Env) (w : Numbered) (e : Event) (args : SendArgs) : SqsMessage :=
  SqsMessage.new env e.now e.counter args (args.delayOverride.getD w.queue.delaySeconds)
    ((w.queue.sequenceCounter + 1) % 2 ^ 64)

/-- What an event makes of a message that stays in the queue. -/
inductive Changes (w : Numbered) (e : Event) (n : Nat) (m : SqsMessage) : SqsMessage → Prop
  | kept (other : n ∉ w.returned e) : Changes w e n m m
  | received {maxNumber counter : Nat} {vt : Option Nat} (op : e.op = .receive maxNumber vt)
      (member : n ∈ w.returned e) (visible : m.isVisibleAt e.now = true) :
      Changes w e n m (m.beginReceive (vt.getD w.queue.visibilityTimeout) e.now counter)
  | shown {rh : String} {vt : Nat} (deadline : Option Instant) (op : e.op = .changeVisibility rh vt)
      (handle : m.receiptHandle = rh) : Changes w e n m { m with visibleAfter := deadline }

theorem mem_returned {i n : Nat} (number : w.numbers[i]? = some n) :
    n ∈ w.returned e ↔ i ∈ w.queue.answer e := by
  unfold returned
  rw [List.mem_filterMap]
  constructor
  · rintro ⟨j, member, there⟩
    rwa [numbers_inj number there]
  · exact fun member => ⟨i, member, number⟩

theorem not_returned (empty : w.queue.answer e = []) :
    n ∉ w.returned e := by
  simp [returned, empty]

/-- After an event a number belongs to the message that was just accepted, or to the message it
belonged to before. -/
theorem step_has {env : Env} {m' : SqsMessage} (has : (w.step env e).Has n m') :
    (n = w.accepted ∧ ∃ args, e.op = .send args ∧ w.queue.isDuplicate args = false ∧
      m' = newMessage env w e args) ∨
    ∃ m, w.Has n m ∧ Changes w e n m m' := by
  obtain ⟨i, number, there⟩ := has
  obtain ⟨now, counter, op⟩ := e
  cases op with
  | send args =>
    have none : n ∉ w.returned ⟨now, counter, .send args⟩ := not_returned rfl
    cases duplicate : w.queue.isDuplicate args with
    | true =>
      have numbers : w.numbers[i]? = some n := by
        simpa [step, numbersAfter, accepts, duplicate] using number
      have messages : w.queue.messages[i]? = some m' := by
        simpa [step, SqsQueue.perform, SqsQueue.sendMessage, duplicate] using there
      exact .inr ⟨m', ⟨i, numbers, messages⟩, .kept none⟩
    | false =>
      have numbers : (w.numbers ++ [w.accepted])[i]? = some n := by
        simpa [step, numbersAfter, accepts, duplicate] using number
      have messages : (w.queue.messages ++ [newMessage env w ⟨now, counter, .send args⟩ args])[i]? =
          some m' := by
        simpa [step, SqsQueue.perform, SqsQueue.sendMessage, newMessage, duplicate] using there
      by_cases old : i < w.numbers.length
      · rw [List.getElem?_append_left old] at numbers
        rw [List.getElem?_append_left (w.length_eq ▸ old)] at messages
        exact .inr ⟨m', ⟨i, numbers, messages⟩, .kept none⟩
      · obtain ⟨bound, _⟩ := List.getElem?_eq_some_iff.mp numbers
        have last : i = w.numbers.length := by
          rw [List.length_append, List.length_singleton] at bound
          omega
        have same : w.accepted = n := by simpa [last] using numbers
        have new : newMessage env w ⟨now, counter, .send args⟩ args = m' := by
          simpa [last, w.length_eq] using messages
        exact .inl ⟨same.symm, args, rfl, duplicate, new.symm⟩
  | receive maxNumber vt =>
    obtain ⟨taken, received⟩ := receiveMessages_received now counter w.queue maxNumber vt
    have numbers : w.numbers[i]? = some n := number
    obtain ⟨m, here⟩ := has_of_number numbers
    have member := mem_returned (e := ⟨now, counter, .receive maxNumber vt⟩) numbers
    refine .inr ⟨m, ⟨i, numbers, here⟩, ?_⟩
    obtain ⟨position, visible, c, next⟩ | ⟨position, next⟩ := received.at_position i m here
    · obtain rfl := Option.some.inj (next.symm.trans there)
      exact .received rfl (member.mpr (by simpa [SqsQueue.answer] using position)) visible
    · obtain rfl := Option.some.inj (next.symm.trans there)
      refine .kept ?_
      rw [member]
      simpa [SqsQueue.answer] using position
  | delete rh =>
    have none : n ∉ w.returned ⟨now, counter, .delete rh⟩ := not_returned rfl
    have numbers : (w.numbers.eraseIdx (w.queue.messages.findIdx (·.receiptHandle = rh)))[i]? =
        some n := number
    have messages : (w.queue.messages.eraseIdx
        (w.queue.messages.findIdx (·.receiptHandle = rh)))[i]? = some m' := by
      rw [← removeByHandle_eq]
      exact there
    rw [List.getElem?_eraseIdx] at numbers messages
    refine .inr ⟨m', ?_, .kept none⟩
    split at numbers
    · next before =>
      rw [if_pos before] at messages
      exact ⟨i, numbers, messages⟩
    · next behind =>
      rw [if_neg behind] at messages
      exact ⟨i + 1, numbers, messages⟩
  | changeVisibility rh vt =>
    have numbers : w.numbers[i]? = some n := number
    obtain ⟨m, here⟩ := has_of_number numbers
    refine .inr ⟨m, ⟨i, numbers, here⟩, ?_⟩
    obtain next | ⟨handle, next⟩ := setVisibility_at rh
      (if vt = 0 then none else some (now + seconds vt)) w.queue.messages i m here
    · obtain rfl := Option.some.inj (next.symm.trans there)
      exact .kept (not_returned rfl)
    · obtain rfl := Option.some.inj (next.symm.trans there)
      exact .shown _ rfl handle
  | purge => simp [step, numbersAfter] at number

/-- A returned message was in sight, and begins a receive. -/
theorem returned_has (env : Env) (member : n ∈ w.returned e) :
    ∃ m maxNumber vt counter, e.op = .receive maxNumber vt ∧ w.Has n m ∧
      m.isVisibleAt e.now = true ∧
      (w.step env e).Has n (m.beginReceive (vt.getD w.queue.visibilityTimeout) e.now counter) := by
  obtain ⟨now, counter, op⟩ := e
  cases op with
  | receive maxNumber vt =>
    obtain ⟨taken, received⟩ := receiveMessages_received now counter w.queue maxNumber vt
    obtain ⟨i, position, number⟩ := List.mem_filterMap.mp member
    obtain ⟨m, here⟩ := has_of_number number
    obtain ⟨_, visible, c, next⟩ | ⟨other, _⟩ := received.at_position i m here
    · exact ⟨m, maxNumber, vt, c, rfl, ⟨i, number, here⟩, visible, i, number, next⟩
    · exact absurd (by simpa [SqsQueue.answer] using position) other
  | send | delete | changeVisibility | purge => exact absurd member (not_returned rfl)

theorem accepted_le_step (env : Env) (w : Numbered) (e : Event) :
    w.accepted ≤ (w.step env e).accepted := by
  unfold step acceptedAfter
  simp only
  split <;> omega

end Numbered

end Openstack.Sqs

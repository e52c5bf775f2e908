import Openstack.Sqs.QueueRuns

/-!
# Visibility timeouts and delays

A message is out of sight until the deadline that its send or its last receive has set, unless a
ChangeMessageVisibility with its current handle moves the deadline. A message has a handle from the
start, before any receive has given one out.
-/
namespace Openstack.Sqs

variable {w : Numbered} {e : Event} {n : Nat} {env : Env} {deadline : Instant}

namespace Numbered

/-- In the course of the events a ChangeMessageVisibility names the handle that the message has
then. -/
def Reshown (env : Env) (w : Numbered) (n : Nat) (events : List Event) : Prop :=
  ∃ before e after rh vt m, events = before ++ e :: after ∧ e.op = .changeVisibility rh vt ∧
    (w.run env before).Has n m ∧ m.receiptHandle = rh

theorem Reshown.cons {rest : List Event}
    (later : (w.step env e).Reshown env n rest) : w.Reshown env n (e :: rest) := by
  obtain ⟨before, c, after, rh, vt, m, rfl, op, has, handle⟩ := later
  exact ⟨e :: before, c, after, rh, vt, m, rfl, op, has, handle⟩

/-- The message with the number, if it is there, is out of sight until `deadline`. -/
def HiddenUntil (w : Numbered) (n : Nat) (deadline : Instant) : Prop :=
  n < w.accepted ∧ ∀ m, w.Has n m → m.visibleAfter = some deadline

theorem HiddenUntil.not_returned (hidden : w.HiddenUntil n deadline) (env : Env) (early : e.now < deadline) :
    n ∉ w.returned e := by
  intro member
  obtain ⟨m, _, _, _, _, has, visible, _⟩ := returned_has env member
  rw [SqsMessage.isVisibleAt, hidden.2 m has] at visible
  have late : deadline ≤ e.now := by simpa using visible
  exact absurd early (Int.not_lt.mpr late)

/-- Until its deadline a hidden message stays hidden, unless it is shown by its handle. -/
theorem HiddenUntil.step (env : Env) (hidden : w.HiddenUntil n deadline) (early : e.now < deadline) :
    w.Reshown env n [e] ∨ (w.step env e).HiddenUntil n deadline := by
  by_cases reshown : w.Reshown env n [e]
  · exact .inl reshown
  · have later : n < (w.step env e).accepted :=
      Nat.lt_of_lt_of_le hidden.1 (accepted_le_step env w e)
    refine .inr ⟨later, fun m' has => ?_⟩
    obtain ⟨new, _⟩ | ⟨m, before, change⟩ := step_has has
    · have old := hidden.1
      omega
    · cases change with
      | kept => exact hidden.2 _ before
      | received _ member => exact absurd member (hidden.not_returned env early)
      | shown _ op handle => exact absurd ⟨[], e, [], _, _, _, rfl, op, before, handle⟩ reshown

/-- The same along a run that ends before the deadline. -/
theorem HiddenUntil.run (env : Env) (hidden : w.HiddenUntil n deadline) (events : List Event)
    (early : ∀ e ∈ events, e.now < deadline) :
    w.Reshown env n events ∨ (w.run env events).HiddenUntil n deadline := by
  induction events generalizing w with
  | nil => exact .inr hidden
  | cons e rest ih =>
    obtain ⟨before, c, after, rh, vt, m, same, op, has, handle⟩ | next :=
      hidden.step env (early e List.mem_cons_self)
    · have first : before = [] ∧ c = e := by
        cases before with
        | nil => exact ⟨rfl, (List.head_eq_of_cons_eq same).symm⟩
        | cons x more => simp at same
      obtain ⟨rfl, rfl⟩ := first
      exact .inl ⟨[], c, rest, rh, vt, m, rfl, op, has, handle⟩
    · obtain reshown | after := ih next fun e' member => early e' (List.mem_cons_of_mem _ member)
      · exact .inl reshown.cons
      · exact .inr after

/-- A received message is hidden until its timeout is over. -/
theorem hidden_of_returned {n maxNumber : Nat}
    {vt : Option Nat} (op : e.op = .receive maxNumber vt) (member : n ∈ w.returned e)
    (positive : 0 < vt.getD w.queue.visibilityTimeout) :
    (w.step env e).HiddenUntil n (e.now + seconds (vt.getD w.queue.visibilityTimeout)) := by
  obtain ⟨m, max', vt', counter, same, has, _, next⟩ := returned_has env member
  rw [op] at same
  cases same
  refine ⟨next.below, fun m' after => ?_⟩
  rw [after.unique next, SqsMessage.beginReceive]
  simp [positive]

/-- A delayed message is hidden until its delay is over. -/
theorem hidden_of_sent {args : SendArgs} (op : e.op = .send args) (accepted : w.queue.isDuplicate args = false)
    (positive : 0 < args.delayOverride.getD w.queue.delaySeconds) :
    (w.step env e).HiddenUntil w.accepted
      (e.now + seconds (args.delayOverride.getD w.queue.delaySeconds)) := by
  have counted : w.accepts e.op = true := by simp [accepts, op, accepted]
  refine ⟨by simp [step, acceptedAfter, counted], fun m' has => ?_⟩
  obtain ⟨_, args', same, _, rfl⟩ | ⟨m, before, _⟩ := step_has has
  · rw [op] at same
    cases same
    simp [newMessage, SqsMessage.new, positive]
  · exact absurd before.below (Nat.lt_irrefl _)

end Numbered

/-- The clock does not go back. -/
def Clocked (events : List Event) : Prop := events.Pairwise fun e e' => e.now ≤ e'.now

/-- In a run with a clock that does not go back: a message that a receive returns is not returned
again before its timeout is over, and a message that is sent is not returned before its delay is
over, unless a ChangeMessageVisibility with its current handle came in between. -/
theorem visibility_exclusive (env : Env) (w : Numbered) (events : List Event)
    (clocked : Clocked events) :
    (∀ before first between last after maxNumber vt n,
      events = before ++ first :: (between ++ last :: after) →
      first.op = .receive maxNumber vt → n ∈ (w.run env before).returned first →
      last.now < first.now + seconds (vt.getD (w.run env before).queue.visibilityTimeout) →
      n ∈ ((w.run env before).run env (first :: between)).returned last →
      ((w.run env before).step env first).Reshown env n between) ∧
    ∀ before first between last after args,
      events = before ++ first :: (between ++ last :: after) →
      first.op = .send args → (w.run env before).queue.isDuplicate args = false →
      last.now < first.now + seconds (args.delayOverride.getD (w.run env before).queue.delaySeconds) →
      (w.run env before).accepted ∈ ((w.run env before).run env (first :: between)).returned last →
      ((w.run env before).step env first).Reshown env (w.run env before).accepted between := by
  -- the events in between are not later than the last one
  have ordered : ∀ before first between last after, events = before ++ first :: (between ++ last :: after) →
      first.now ≤ last.now ∧ ∀ e ∈ between, e.now ≤ last.now := by
    rintro before first between last after rfl
    have tail := (List.pairwise_append.mp clocked).2.1
    have behind := List.pairwise_cons.mp tail
    refine ⟨behind.1 last (by simp), fun e member => ?_⟩
    exact (List.pairwise_append.mp behind.2).2.2 e member last List.mem_cons_self
  have seen : ∀ (w : Numbered) n deadline between last, w.HiddenUntil n deadline →
      (∀ e ∈ between, e.now ≤ last.now) → last.now < deadline →
      n ∈ (w.run env between).returned last → w.Reshown env n between := by
    intro w n deadline between last hidden earlier early member
    obtain reshown | still := hidden.run env between fun e inside =>
      Int.lt_of_le_of_lt (earlier e inside) early
    · exact reshown
    · exact absurd member (still.not_returned env early)
  have positive : ∀ {a b : Int} {n : Nat}, a ≤ b → b < a + seconds n → 0 < n := by
    intro a b n after early
    rcases Nat.eq_zero_or_pos n with rfl | more
    · simp only [seconds] at early
      omega
    · exact more
  constructor
  · intro before first between last after maxNumber vt n same op member early again
    obtain ⟨later, earlier⟩ := ordered before first between last after same
    exact seen _ n _ between last (Numbered.hidden_of_returned op member (positive later early))
      earlier early again
  · intro before first between last after args same op accepted early again
    obtain ⟨later, earlier⟩ := ordered before first between last after same
    exact seen _ _ _ between last (Numbered.hidden_of_sent op accepted (positive later early))
      earlier early again

/-- The digest of the empty body. -/
def emptyBodyEnv : Env := ⟨fun _ => "d41d8cd98f00b204e9800998ecf8427e", fun _ => none⟩

/-- An empty standard queue. -/
def emptyQueue : Numbered := .ofNew "jobs"

/-- Send a message with the given delay, while the message counter is at one. -/
def sendDelayed (delay : Nat) : Event := ⟨0, 1, .send ⟨"", some delay, ∅, none, none⟩⟩

def receiveAt (now : Instant) (vt : Nat) : Event := ⟨now, 3, .receive 1 (some vt)⟩

/-- A message is received, and is not returned again ten seconds later. -/
theorem visibility_exclusive_two_receives :
    0 ∉ (emptyQueue.run emptyBodyEnv [sendDelayed 0, receiveAt 0 30]).returned
      (receiveAt (seconds 10) 30) := by
  intro again
  have exclusive := visibility_exclusive emptyBodyEnv emptyQueue
    [sendDelayed 0, receiveAt 0 30, receiveAt (seconds 10) 30] (by unfold Clocked; decide)
  obtain ⟨before, _, _, _, _, _, same, _⟩ := exclusive.1 [sendDelayed 0] (receiveAt 0 30) []
    (receiveAt (seconds 10) 30) [] 1 (some 30) 0 rfl rfl (by decide) (by decide) again
  simp at same

/-- The handle of a delayed message can be written down before it was ever received, and shows the
message at once. -/
theorem delay_skipped_by_handle :
    ¬ ∀ (env : Env) (w : Numbered) (before : List Event) (first : Event) (between : List Event)
        (last : Event) (args : SendArgs),
      Clocked (before ++ first :: (between ++ [last])) → first.op = .send args →
      (w.run env before).queue.isDuplicate args = false →
      last.now < first.now + seconds (args.delayOverride.getD (w.run env before).queue.delaySeconds) →
      (w.run env before).accepted ∉ ((w.run env before).run env (first :: between)).returned last := by
  intro delayed
  refine delayed emptyBodyEnv emptyQueue [] (sendDelayed 60)
    [⟨0, 3, .changeVisibility "rh-0000000000000002" 0⟩] (receiveAt 0 30) _ (by unfold Clocked; decide) rfl
    (by decide) (by decide) (by decide +kernel)

end Openstack.Sqs

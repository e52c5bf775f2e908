import Openstack.Sqs.QueueRuns

/-!
# Deduplication in FIFO queues

`store.rs:239-280` and `store.rs:462-502`. The table of ids knows the ids that sends give themselves. Nothing
reads the flag that `ContentBasedDeduplication` sets, so a body that stands in for the id is not looked up
and not kept.
-/
namespace Openstack.Sqs

/-- A step of a queue: an operation, new attributes, or the end of the messages for the dead-letter queue. -/
inductive QueueStep where
  | event (e : Event)
  | setAttributes (now : Instant) (attrs : StrMap String)
  | removeDlqCandidates

def SqsQueue.take (env : Env) (q : SqsQueue) : QueueStep → SqsQueue
  | .event e => q.perform env e
  | .setAttributes now attrs => q.applyQueueAttributes env now attrs
  | .removeDlqCandidates => q.removeDlqCandidates

/-- The arguments, when the step is a send. -/
def QueueStep.send? : QueueStep → Option SendArgs
  | .event ⟨_, _, .send args⟩ => some args
  | _ => none

theorem QueueStep.eq_send {a : QueueStep} {args : SendArgs} (sends : a.send? = some args) :
    ∃ now counter, a = .event ⟨now, counter, .send args⟩ := by
  unfold QueueStep.send? at sends
  split at sends
  · next now counter args' =>
    cases sends
    exact ⟨now, counter, rfl⟩
  · cases sends

/-- The body stands in for the id. -/
def SqsQueue.byContent (q : SqsQueue) (args : SendArgs) : Bool :=
  args.dedupId.isNone && q.contentBasedDeduplication

/-- The explicit id, or the body when there is none and content counts. -/
def SqsQueue.effectiveId (q : SqsQueue) (args : SendArgs) : Option String :=
  if q.byContent args then some args.body else args.dedupId

/-- A FIFO queue with the ids of the sends made to it: those known at first, those that sends have given
themselves, the bodies that have stood in for one, and the ids of the messages that went in. -/
structure Tally where
  queue : SqsQueue
  fifo : queue.fifo = true
  known : List String
  explicit : List String
  contents : List String
  enqueued : List String

section Steps

variable (env : Env) (q : SqsQueue)

theorem removeByHandle_length_le (rh : String) (msgs : List SqsMessage) :
    (SqsQueue.removeByHandle rh msgs).2.length ≤ msgs.length := by
  rw [removeByHandle_eq, List.length_eraseIdx]
  split <;> omega

/-- Only a send touches the table or makes the queue longer, and nothing makes it another kind of queue. -/
theorem take_other {a : QueueStep} (other : a.send? = none) :
    (q.take env a).fifo = q.fifo ∧ (q.take env a).dedupIds = q.dedupIds ∧
      (q.take env a).messages.length ≤ q.messages.length := by
  cases a with
  | event e =>
    obtain ⟨now, counter, op⟩ := e
    cases op with
    | send args => cases other
    | receive maxNumber vt =>
      have length := receiveMessages_length now counter q maxNumber vt
      refine ⟨?_, ?_, length.le⟩
      · simp only [SqsQueue.take, SqsQueue.perform, SqsQueue.receiveMessages]
        split <;> rfl
      · simp only [SqsQueue.take, SqsQueue.perform, SqsQueue.receiveMessages]
        split <;> rfl
    | delete rh => exact ⟨rfl, rfl, removeByHandle_length_le rh q.messages⟩
    | changeVisibility rh vt => exact ⟨rfl, rfl, (setVisibility_length rh _ q.messages).le⟩
    | purge => exact ⟨rfl, rfl, Nat.zero_le _⟩
  | setAttributes now attrs => exact ⟨rfl, rfl, le_rfl⟩
  | removeDlqCandidates =>
    simp only [SqsQueue.take, SqsQueue.removeDlqCandidates]
    split
    · exact ⟨rfl, rfl, le_rfl⟩
    · exact ⟨rfl, rfl, List.length_filter_le _ _⟩

theorem take_fifo (a : QueueStep) : (q.take env a).fifo = q.fifo := by
  cases sends : a.send? with
  | none => exact (take_other env q sends).1
  | some args =>
    obtain ⟨now, counter, rfl⟩ := QueueStep.eq_send sends
    simp only [SqsQueue.take, SqsQueue.perform, SqsQueue.sendMessage]
    split <;> rfl

end Steps

namespace Tally

def start (q : SqsQueue) (fifo : q.fifo = true) : Tally := ⟨q, fifo, q.dedupIds.keys, [], [], []⟩

/-- The step puts a message into the queue. -/
def grows (env : Env) (t : Tally) (a : QueueStep) : Bool :=
  decide (t.queue.messages.length < (t.queue.take env a).messages.length)

def step (env : Env) (t : Tally) (a : QueueStep) : Tally where
  queue := t.queue.take env a
  fifo := by rw [take_fifo, t.fifo]
  known := t.known
  explicit := t.explicit ++ (a.send?.bind SendArgs.dedupId).toList
  contents := t.contents ++ (a.send?.filter t.queue.byContent).toList.map SendArgs.body
  enqueued := t.enqueued ++ if t.grows env a then (a.send?.bind t.queue.effectiveId).toList else []

/-- The sends with one id have put exactly one message into the queue, and none when the id was known. -/
def OneEach (t : Tally) : Prop := ∀ id, t.enqueued.count id =
  if id ∈ t.known then 0 else if id ∈ t.explicit ++ t.contents then 1 else 0

/-- A body that stands in for the id is not the id of an earlier send, and an id that no send has given is
not the body that has stood in for one. -/
def Fits (t : Tally) (a : QueueStep) : Prop :=
  ∀ args, a.send? = some args →
    (t.queue.byContent args = true → args.body ∉ t.known ++ t.explicit ++ t.contents) ∧
    ∀ id, args.dedupId = some id → id ∈ t.known ++ t.explicit ∨ id ∉ t.contents

/-- The table has the ids known at first and those that sends have given. -/
def Recorded (t : Tally) : Prop :=
  ∀ id, t.queue.dedupIds.contains id = true ↔ id ∈ t.known ++ t.explicit

variable {env : Env} {t : Tally}

theorem start_recorded (q : SqsQueue) (fifo : q.fifo = true) : (start q fifo).Recorded := by
  intro id
  rw [start, List.append_nil, Std.ExtTreeMap.mem_keys]
  rfl

theorem start_oneEach (q : SqsQueue) (fifo : q.fifo = true) : (start q fifo).OneEach := by
  intro id
  simp [start]

theorem step_other {a : QueueStep} (other : a.send? = none) :
    (t.step env a).explicit = t.explicit ∧ (t.step env a).contents = t.contents ∧
      (t.step env a).enqueued = t.enqueued := by
  simp [step, other]

section Send

variable {args : SendArgs} {now : Instant} {counter : Nat}

/-- The queue knows the id exactly when the table does. -/
theorem isDuplicate_iff (recorded : t.Recorded) : t.queue.isDuplicate args = true ↔
    ∃ id, args.dedupId = some id ∧ id ∈ t.known ++ t.explicit := by
  rw [SqsQueue.isDuplicate, t.fifo]
  cases args.dedupId with
  | none => simp
  | some did => simpa using recorded did

/-- A message goes in unless its id is known. -/
theorem grows_send : t.grows env (.event ⟨now, counter, .send args⟩) = !t.queue.isDuplicate args := by
  simp only [grows, SqsQueue.take, SqsQueue.perform, SqsQueue.sendMessage]
  cases t.queue.isDuplicate args <;> simp

/-- A send enters its own id into the table. -/
theorem contains_send (id : String) :
    (t.queue.take env (.event ⟨now, counter, .send args⟩)).dedupIds.contains id = true ↔
      t.queue.dedupIds.contains id = true ∨ args.dedupId = some id := by
  obtain ⟨body, delay, attributes, group, dedupId⟩ := args
  simp only [SqsQueue.take, SqsQueue.perform, SqsQueue.sendMessage, SqsQueue.isDuplicate]
  cases dedupId with
  | none => simp
  | some did =>
    by_cases known : t.queue.dedupIds.contains did = true
    · simp only [t.fifo, known, Bool.and_self, if_true, Option.some.injEq]
      constructor
      · exact .inl
      · rintro (there | rfl)
        · exact there
        · exact known
    · simp [t.fifo, known, Std.ExtTreeMap.contains_insert, or_comm]

end Send

/-- Every step keeps the record. -/
theorem Recorded.step (recorded : t.Recorded) (a : QueueStep) : (t.step env a).Recorded := by
  intro id
  cases sends : a.send? with
  | none =>
    have same := (take_other env t.queue sends).2.1
    rw [(step_other sends).1]
    simpa [Tally.step, same] using recorded id
  | some args =>
    obtain ⟨now, counter, rfl⟩ := QueueStep.eq_send sends
    have entered := @contains_send env t args now counter id
    simp only [Tally.step] at entered ⊢
    rw [entered, recorded id, ← List.append_assoc, List.mem_append (t := Option.toList _)]
    simp [sends]

/-- One more message leaves one for each id exactly when its id is new. -/
theorem count_concat_iff {known used used' enqueued : List String} {x : String}
    (one : ∀ id, enqueued.count id = if id ∈ known then 0 else if id ∈ used then 1 else 0)
    (grown : ∀ id, id ∈ used' ↔ id ∈ used ∨ id = x) :
    (∀ id, (enqueued ++ [x]).count id = if id ∈ known then 0 else if id ∈ used' then 1 else 0) ↔
      x ∉ known ++ used := by
  rw [List.mem_append, not_or]
  constructor
  · intro each
    have here := each x
    rw [List.count_append, List.count_singleton_self, one x, if_pos ((grown x).mpr (.inr rfl))] at here
    by_cases old : x ∈ known
    · rw [if_pos old, if_pos old] at here
      omega
    · rw [if_neg old, if_neg old] at here
      refine ⟨old, fun again => ?_⟩
      rw [if_pos again] at here
      omega
  · rintro ⟨unknown, unused⟩ id
    rw [List.count_append, one id]
    by_cases same : id = x
    · subst same
      rw [if_neg unknown, if_neg unused, if_neg unknown, if_pos ((grown id).mpr (.inr rfl)),
        List.count_singleton_self]
    · have other : id ∈ used' ↔ id ∈ used := (grown id).trans (or_iff_left same)
      simp [other, Ne.symm same]

/-- A step leaves one message for each id exactly when it fits. -/
theorem step_oneEach_iff (recorded : t.Recorded) (one : t.OneEach) (a : QueueStep) :
    (t.step env a).OneEach ↔ t.Fits a := by
  cases sends : a.send? with
  | none =>
    obtain ⟨explicit, contents, enqueued⟩ : (t.step env a).explicit = t.explicit ∧
        (t.step env a).contents = t.contents ∧ (t.step env a).enqueued = t.enqueued := step_other sends
    refine iff_of_true ?_ fun args other => ?_
    · rw [OneEach, explicit, contents, enqueued]
      exact one
    · rw [sends] at other
      cases other
  | some args =>
    obtain ⟨now, counter, rfl⟩ := QueueStep.eq_send sends
    have fits : t.Fits (.event ⟨now, counter, .send args⟩) ↔
        (t.queue.byContent args = true → args.body ∉ t.known ++ t.explicit ++ t.contents) ∧
        ∀ id, args.dedupId = some id → id ∈ t.known ++ t.explicit ∨ id ∉ t.contents := by
      rw [Fits, sends]
      simp
    rw [fits, OneEach]
    simp only [step, grows_send, sends, Option.bind_some, Bool.not_eq_true']
    cases given : args.dedupId with
    | some did =>
      have plain : t.queue.byContent args = false := by simp [SqsQueue.byContent, given]
      have own : t.queue.effectiveId args = some did := by simp [SqsQueue.effectiveId, plain, given]
      have duplicate := @isDuplicate_iff t args recorded
      simp only [given, Option.some.injEq, exists_eq_left'] at duplicate
      simp only [plain, own, Option.filter_some, Bool.false_eq_true, if_false, Option.toList_none,
        List.map_nil, List.append_nil, Option.toList_some, false_implies, true_and, Option.some.injEq,
        forall_eq']
      by_cases known : did ∈ t.known ++ t.explicit
      · -- the id is known: nothing goes in
        rw [duplicate.mpr known]
        refine iff_of_true (fun id => ?_) (.inl known)
        rw [if_neg (by simp), List.append_nil, one id]
        by_cases old : id ∈ t.known
        · rw [if_pos old, if_pos old]
        · have same : id ∈ t.explicit ++ [did] ++ t.contents ↔ id ∈ t.explicit ++ t.contents := by
            simp only [List.mem_append, List.mem_singleton] at known ⊢
            constructor
            · rintro ((there | rfl) | there)
              · exact .inl there
              · exact .inl (known.resolve_left old)
              · exact .inr there
            · rintro (there | there)
              · exact .inl (.inl there)
              · exact .inr there
          simp only [same]
      · have grown : ∀ id, id ∈ t.explicit ++ [did] ++ t.contents ↔
            id ∈ t.explicit ++ t.contents ∨ id = did := by
          intro id
          simp only [List.mem_append, List.mem_singleton]
          exact or_right_comm
        rw [Bool.eq_false_iff.mpr fun same => known (duplicate.mp same), if_pos rfl,
          count_concat_iff one grown, ← List.append_assoc, List.mem_append, not_or]
        exact ⟨fun new => .inr new.2, fun new => ⟨known, new.resolve_left known⟩⟩
    | none =>
      have fresh : t.queue.isDuplicate args = false := by simp [SqsQueue.isDuplicate, given]
      simp only [fresh, if_true, Option.toList_none, List.append_nil, reduceCtorEq, false_implies,
        implies_true, and_true]
      by_cases content : t.queue.byContent args = true
      · have own : t.queue.effectiveId args = some args.body := by rw [SqsQueue.effectiveId, if_pos content]
        simp only [content, own, Option.filter_some, if_true, Option.toList_some, List.map_cons,
          List.map_nil, forall_const]
        rw [count_concat_iff one fun id => by simp [or_assoc], ← List.append_assoc]
      · have own : t.queue.effectiveId args = none := by
          rw [SqsQueue.effectiveId, if_neg content, given]
        simp only [content, own, Option.filter_some, if_false, Option.toList_none, List.map_nil,
          List.append_nil, Bool.false_eq_true, false_implies, iff_true]
        exact one

end Tally

/-- Along a run each id has put one message into the queue exactly when every send fits. -/
theorem fifo_deduplicates_iff (env : Env) (q : SqsQueue) (fifo : q.fifo = true) (steps : List QueueStep) :
    Run.AllStates (Tally.step env) Tally.OneEach (Tally.start q fifo) steps ↔
      Run.AllSteps (Tally.step env) Tally.Fits (Tally.start q fifo) steps :=
  Run.allStates_iff_allSteps_of_invariant (fun _ a recorded _ => recorded.step a)
    (fun _ a recorded one _ => Tally.step_oneEach_iff recorded one a) _ steps
    (Tally.start_recorded q fifo) (Tally.start_oneEach q fifo)
    (Run.allSteps_of_forall (C := fun _ _ => True) (fun _ _ => trivial) _ steps)

def contentQueue : SqsQueue :=
  { SqsQueue.new 0 "orders.fifo" "http://localhost:4566" "000000000000" "us-east-1" with
    contentBasedDeduplication := true }

def plainEnv : Env := ⟨id, fun _ => none⟩

def sendAs (id : Option String) (body : String) : QueueStep :=
  .event ⟨0, 1, .send ⟨body, none, ∅, some "g", id⟩⟩

theorem explicit_id_once : Run.AllStates (Tally.step plainEnv) Tally.OneEach (Tally.start contentQueue rfl)
    [sendAs (some "1") "a", .event ⟨0, 3, .purge⟩, sendAs (some "1") "b", sendAs none "c"] := by
  refine (fifo_deduplicates_iff plainEnv contentQueue rfl _).mpr ⟨?_, ?_, ?_, ?_, trivial⟩
  · rintro args ⟨⟩
    exact ⟨by decide +kernel, fun id given => .inr (by simp [Tally.start])⟩
  · rintro args ⟨⟩
  · rintro args ⟨⟩
    refine ⟨by decide +kernel, fun id given => .inr ?_⟩
    simp [Tally.start, Tally.step, sendAs, QueueStep.send?, SqsQueue.byContent]
  · rintro args ⟨⟩
    exact ⟨by decide +kernel, by rintro id ⟨⟩⟩

/-- With ContentBasedDeduplication two sends of one body put two messages into the queue. -/
theorem same_body_twice : ¬ Run.AllStates (Tally.step plainEnv) Tally.OneEach
    (Tally.start contentQueue rfl) [sendAs none "a", sendAs none "a"] := by
  intro states
  have count := states.last "a"
  exact absurd count (by decide +kernel)

end Openstack.Sqs

import Openstack.Lib.Run
import Openstack.Sqs.Provider

/-!
# Message conservation

What each query action does to the messages of a queue, and from it what a whole
run does: an accepted message stays in its queue until a delete with its current
receipt handle, a purge or the deletion of the queue, as long as no receive takes
a message to the maximum of its queue's redrive policy. A message that gets there
is filtered out and moved nowhere.
-/
namespace Openstack.Sqs

/-! ## What one operation does to a queue's messages -/

/-- The message at position `i` is among the first `maxNumber` visible ones. -/
def SqsQueue.delivers (q : SqsQueue) (now : Instant) (maxNumber i : Nat) (m : SqsMessage) : Bool :=
  m.isVisibleAt now && decide ((q.messages.take i).countP (·.isVisibleAt now) < maxNumber)

/-- Receiving bumps the receive count of a message or leaves the message alone. -/
def ReceiveAt (vt : Nat) (now : Instant) (taken : Bool) (m m' : SqsMessage) : Prop :=
  if taken then ∃ counter, m' = m.beginReceive vt now counter else m' = m

theorem receiveFirst_getElem? (vt : Nat) (now : Instant) (idx counter : Nat)
    (msgs : List SqsMessage) (i : Nat) (m' : SqsMessage)
    (found : (SqsQueue.receiveFirst vt now idx counter msgs).2.1[i]? = some m') :
    ∃ m, msgs[i]? = some m ∧ ReceiveAt vt now (m.isVisibleAt now &&
      decide ((msgs.take i).countP (·.isVisibleAt now) < 1)) m m' := by
  induction msgs generalizing idx i with
  | nil => simp [SqsQueue.receiveFirst] at found
  | cons x rest ih =>
    by_cases vis : x.isVisibleAt now = true
    · simp only [SqsQueue.receiveFirst, vis, if_true] at found
      cases i with
      | zero =>
        have head : x.beginReceive vt now counter = m' := by simpa using found
        exact ⟨x, rfl, by simp only [vis]; exact ⟨counter, head.symm⟩⟩
      | succ j =>
        refine ⟨m', by simpa using found, ?_⟩
        simp [ReceiveAt, vis]
    · simp only [SqsQueue.receiveFirst, vis] at found
      cases i with
      | zero =>
        have head : x = m' := by simpa using found
        subst head
        exact ⟨x, rfl, by simp [ReceiveAt, vis]⟩
      | succ j =>
        obtain ⟨m, hm, step⟩ := ih (idx + 1) j (by simpa using found)
        exact ⟨m, by simpa using hm, by simpa [List.countP_cons, vis] using step⟩

theorem receiveLoop_getElem? (maxNumber vt : Nat) (now : Instant) (received : List Nat)
    (idx counter : Nat) (msgs : List SqsMessage) (i : Nat) (m' : SqsMessage)
    (found : (SqsQueue.receiveLoop maxNumber vt now received idx counter msgs).2.1[i]? = some m') :
    ∃ m, msgs[i]? = some m ∧ ReceiveAt vt now (m.isVisibleAt now &&
      decide (received.length + (msgs.take i).countP (·.isVisibleAt now) < maxNumber)) m m' := by
  induction msgs generalizing received idx counter i with
  | nil => simp [SqsQueue.receiveLoop] at found
  | cons x rest ih =>
    by_cases full : received.length ≥ maxNumber
    · simp only [SqsQueue.receiveLoop, full, if_true] at found
      refine ⟨m', found, ?_⟩
      have stop : ¬ received.length + ((x :: rest).take i).countP (·.isVisibleAt now) < maxNumber := by
        omega
      simp [ReceiveAt, stop]
    · have room : received.length < maxNumber := by omega
      by_cases vis : x.isVisibleAt now = true
      · simp only [SqsQueue.receiveLoop, full, vis, if_true, if_false] at found
        cases i with
        | zero =>
          have head : x.beginReceive vt now counter = m' := by simpa using found
          exact ⟨x, rfl, by simp [ReceiveAt, vis, room]; exact ⟨counter, head.symm⟩⟩
        | succ j =>
          obtain ⟨m, hm, step⟩ := ih (received ++ [idx]) (idx + 1) (fetchAdd counter) j
            (by simpa using found)
          refine ⟨m, by simpa using hm, ?_⟩
          have shift : (received ++ [idx]).length + (rest.take j).countP (·.isVisibleAt now) =
              received.length + ((x :: rest).take (j + 1)).countP (·.isVisibleAt now) := by
            simp [vis]
            omega
          rw [shift] at step
          exact step
      · simp only [SqsQueue.receiveLoop, full, vis, if_false] at found
        cases i with
        | zero =>
          have head : x = m' := by simpa using found
          subst head
          exact ⟨x, rfl, by simp [ReceiveAt, vis]⟩
        | succ j =>
          obtain ⟨m, hm, step⟩ := ih received (idx + 1) counter j (by simpa using found)
          exact ⟨m, by simpa using hm, by simpa [List.countP_cons, vis] using step⟩

/-- Receiving changes no message but the delivered ones, and those by
`begin_receive`. -/
theorem receiveMessages_getElem? (now : Instant) (counter : Nat) (q : SqsQueue) (maxNumber : Nat)
    (vt : Option Nat) (i : Nat) (m' : SqsMessage)
    (found : (q.receiveMessages now counter maxNumber vt).2.1.messages[i]? = some m') :
    ∃ m, q.messages[i]? = some m ∧
      ReceiveAt (vt.getD q.visibilityTimeout) now (q.delivers now maxNumber i m) m m' := by
  unfold SqsQueue.receiveMessages at found
  unfold SqsQueue.delivers
  split at found
  · next idle =>
    refine ⟨m', found, ?_⟩
    rcases idle with zero | empty
    · simp [ReceiveAt, zero]
    · simp [empty] at found
  · by_cases one : maxNumber = 1
    · simp only [one, if_true] at found
      obtain ⟨m, hm, step⟩ := receiveFirst_getElem? _ _ _ _ _ i m' found
      exact ⟨m, hm, by rw [one]; exact step⟩
    · simp only [one, if_false] at found
      obtain ⟨m, hm, step⟩ := receiveLoop_getElem? _ _ _ _ _ _ _ i m' found
      exact ⟨m, hm, by simpa using step⟩

theorem ReceiveAt.messageId {vt : Nat} {now : Instant} {taken : Bool} {m m' : SqsMessage}
    (step : ReceiveAt vt now taken m m') : m'.messageId = m.messageId := by
  unfold ReceiveAt at step
  split at step
  · obtain ⟨counter, rfl⟩ := step
    rfl
  · rw [step]

theorem receiveFirst_length (vt : Nat) (now : Instant) (idx counter : Nat)
    (msgs : List SqsMessage) :
    (SqsQueue.receiveFirst vt now idx counter msgs).2.1.length = msgs.length := by
  induction msgs generalizing idx with
  | nil => rfl
  | cons x rest ih =>
    unfold SqsQueue.receiveFirst
    split
    · rfl
    · simp [ih (idx + 1)]

theorem receiveLoop_length (maxNumber vt : Nat) (now : Instant) (received : List Nat)
    (idx counter : Nat) (msgs : List SqsMessage) :
    (SqsQueue.receiveLoop maxNumber vt now received idx counter msgs).2.1.length =
      msgs.length := by
  induction msgs generalizing received idx counter with
  | nil => rfl
  | cons x rest ih =>
    unfold SqsQueue.receiveLoop
    split
    · rfl
    · split
      · simp [ih (received ++ [idx]) (idx + 1) (fetchAdd counter)]
      · simp [ih received (idx + 1) counter]

theorem receiveMessages_length (now : Instant) (counter : Nat) (q : SqsQueue) (maxNumber : Nat)
    (vt : Option Nat) :
    (q.receiveMessages now counter maxNumber vt).2.1.messages.length = q.messages.length := by
  unfold SqsQueue.receiveMessages
  split
  · rfl
  · by_cases one : maxNumber = 1
    · simp [one, receiveFirst_length]
    · simp [one, receiveLoop_length]

/-- The receive count a message has after a receive, on the queue before it. -/
def SqsQueue.receiveCountAfter (q : SqsQueue) (now : Instant) (maxNumber i : Nat) (m : SqsMessage) :
    Nat :=
  if q.delivers now maxNumber i m then (m.receiveCount + 1) % 2 ^ 32 else m.receiveCount

/-- A message is still there after a receive, with the receive count it is due. -/
theorem receiveMessages_keeps (now : Instant) (counter : Nat) (q : SqsQueue) (maxNumber : Nat)
    (vt : Option Nat) (i : Nat) (m : SqsMessage) (found : q.messages[i]? = some m) :
    ∃ m' ∈ (q.receiveMessages now counter maxNumber vt).2.1.messages,
      m'.messageId = m.messageId ∧ m'.receiveCount = q.receiveCountAfter now maxNumber i m := by
  have bound : i < (q.receiveMessages now counter maxNumber vt).2.1.messages.length := by
    rw [receiveMessages_length]
    exact (List.getElem?_eq_some_iff.mp found).1
  obtain ⟨m0, hm0, step⟩ := receiveMessages_getElem? now counter q maxNumber vt i _
    (List.getElem?_eq_getElem bound)
  have same : m0 = m := Option.some.inj (hm0.symm.trans found)
  subst same
  refine ⟨_, List.getElem_mem bound, step.messageId, ?_⟩
  unfold SqsQueue.receiveCountAfter
  unfold ReceiveAt at step
  split at step
  · next taken =>
    obtain ⟨c, eq⟩ := step
    rw [eq, if_pos taken]
    rfl
  · next left => rw [step, if_neg left]

theorem redriveStep_keeps (q : SqsQueue) (m : SqsMessage) (stored : m ∈ q.messages)
    (below : ∀ rp, q.redrivePolicy = some rp → m.receiveCount < rp.maxReceiveCount) :
    m ∈ (redriveStep q).messages := by
  unfold redriveStep SqsQueue.removeDlqCandidates
  cases policy : q.redrivePolicy with
  | none => exact stored
  | some rp =>
    simp only
    split
    · exact List.mem_filter.mpr ⟨stored, by simpa using below rp policy⟩
    · exact stored

@[simp] theorem receiveMessages_redrivePolicy (now : Instant) (counter : Nat) (q : SqsQueue)
    (maxNumber : Nat) (vt : Option Nat) :
    (q.receiveMessages now counter maxNumber vt).2.1.redrivePolicy = q.redrivePolicy := by
  unfold SqsQueue.receiveMessages
  split <;> rfl

theorem removeByHandle_keeps (rh : String) (msgs : List SqsMessage) (m : SqsMessage)
    (stored : m ∈ msgs) (other : m.receiptHandle ≠ rh) :
    m ∈ (SqsQueue.removeByHandle rh msgs).2 := by
  induction msgs with
  | nil => cases stored
  | cons x rest ih =>
    unfold SqsQueue.removeByHandle
    rcases List.mem_cons.mp stored with head | tail
    · subst head
      simp [other]
    · split
      · exact tail
      · exact List.mem_cons_of_mem _ (ih tail)

theorem deleteMessages_keeps (handles : List (String × String)) (q : SqsQueue) (m : SqsMessage)
    (stored : m ∈ q.messages) (other : ∀ e ∈ handles, m.receiptHandle ≠ e.2) :
    m ∈ (handles.foldl (fun q e => (q.deleteMessage e.2).2) q).messages := by
  induction handles generalizing q with
  | nil => exact stored
  | cons e rest ih =>
    have first : m ∈ (q.deleteMessage e.2).2.messages :=
      removeByHandle_keeps e.2 q.messages m stored (other e (by simp))
    exact ih _ first (fun e' he' => other e' (by simp [he']))

theorem setVisibility_ids (rh : String) (after : Option Instant) (msgs : List SqsMessage) :
    (SqsQueue.setVisibility rh after msgs).2.map (·.messageId) = msgs.map (·.messageId) := by
  induction msgs with
  | nil => rfl
  | cons x rest ih =>
    unfold SqsQueue.setVisibility
    split
    · rfl
    · simp [ih]

/-- The identifiers of the messages in the queue. -/
def SqsQueue.ids (q : SqsQueue) : List String := q.messages.map (·.messageId)

theorem changeVisibility_ids (now : Instant) (q : SqsQueue) (rh : String) (vt : Nat) :
    (q.changeVisibility now rh vt).2.ids = q.ids := setVisibility_ids _ _ _

theorem changeVisibilities_ids (now : Instant) (entries : List (String × String × Nat))
    (q : SqsQueue) :
    (entries.foldl (fun q e => (q.changeVisibility now e.2.1 e.2.2).2) q).ids = q.ids := by
  induction entries generalizing q with
  | nil => rfl
  | cons e rest ih => exact (ih _).trans (changeVisibility_ids now q e.2.1 e.2.2)

/-- A send appends the accepted message, if any. -/
theorem sendMessage_ids (env : Env) (now : Instant) (counter : Nat) (q : SqsQueue)
    (args : SendArgs) :
    (q.sendMessage env now counter args).2.1.ids =
      q.ids ++ ((q.sendMessage env now counter args).1.map (·.messageId)).toList := by
  unfold SqsQueue.sendMessage
  split
  · simp
  · simp [SqsQueue.ids]

/-- The identifiers of the messages a batch accepted. -/
def batchAccepted (results : List (String × Option SendMessageResult)) : List String :=
  results.flatMap (fun r => (r.2.map (·.messageId)).toList)

theorem sendBatch_ids (env : Env) (now : Instant) (counter : Nat) (q : SqsQueue)
    (entries : List (String × SendArgs)) :
    (sendBatch env now counter q entries).2.1.ids =
      q.ids ++ batchAccepted (sendBatch env now counter q entries).1 := by
  induction entries generalizing counter q with
  | nil => simp [sendBatch, batchAccepted]
  | cons e rest ih =>
    simp [sendBatch, ih, sendMessage_ids, batchAccepted]

/-! ## What one request does to a queue -/

@[simp] theorem Session.wrap_store (s : Session) (action inner : String) :
    (s.wrap action inner).2.store = s.store := rfl

@[simp] theorem Session.noResult_store (s : Session) (action : String) :
    (s.noResult action).2.store = s.store := rfl

@[simp] theorem Session.setQueue_queues (s : Session) (name a : String) (q : SqsQueue) :
    (s.setQueue name q).store.queues[a]? = if name = a then some q else s.store.queues[a]? :=
  StrMap.getElem?_insert _ _ _ _

/-- Replacing one queue keeps a message when its new contents do. -/
theorem Session.setQueue_keeps {s : Session} {name target : String} {q tq tq' : SqsQueue}
    {id : String} (hq : s.store.queues[name]? = some q) (held : id ∈ q.ids)
    (htarget : s.store.queues[target]? = some tq)
    (step : target = name → tq = q → id ∈ tq'.ids) :
    ∃ q', (s.setQueue target tq').store.queues[name]? = some q' ∧ id ∈ q'.ids := by
  rw [Session.setQueue_queues]
  split
  · next same =>
    have this_queue : tq = q := by
      rw [same] at htarget
      exact Option.some.inj (htarget.symm.trans hq)
    exact ⟨tq', rfl, step same this_queue⟩
  · exact ⟨q, hq, held⟩

theorem Session.updateQueue_keeps {s : Session} {name target : String} {q : SqsQueue}
    {f : SqsQueue → SqsQueue} {id : String} (hq : s.store.queues[name]? = some q)
    (held : id ∈ q.ids) (step : target = name → id ∈ (f q).ids) :
    ∃ q', (s.updateQueue target f).store.queues[name]? = some q' ∧ id ∈ q'.ids := by
  rw [Session.updateQueue]
  cases htarget : s.store.queues[target]? with
  | none => exact ⟨q, hq, held⟩
  | some tq =>
    refine Session.setQueue_keeps hq held htarget ?_
    intro same this_queue
    rw [this_queue]
    exact step same

/-- The removals the protocol promises: by the current receipt handle, by a purge
and with the whole queue. -/
def Action.removes (req : Request) (q : SqsQueue) (id : String) : Action → Prop
  | .deleteQueue => True
  | .purgeQueue => True
  | .deleteMessage => ∃ rh, req.params["ReceiptHandle"]? = some rh ∧
      ∃ m ∈ q.messages, m.messageId = id ∧ m.receiptHandle = rh
  | .deleteMessageBatch => ∃ e ∈ deleteEntries req.params,
      ∃ m ∈ q.messages, m.messageId = id ∧ m.receiptHandle = e.2
  | _ => False

/-- No message reaches the maximum of the queue's redrive policy in this receive. -/
def SqsQueue.receiveStaysBelowMax (q : SqsQueue) (req : Request) : Bool :=
  match q.redrivePolicy with
  | none => true
  | some rp => q.messages.zipIdx.all fun mi =>
      decide (q.receiveCountAfter req.now (maxNumberOfMessages req.params) mi.2 mi.1 <
        rp.maxReceiveCount)

theorem handleReceiveMessage_keeps (req : Request) (s : Session) (name : String) (q : SqsQueue)
    (hq : s.store.queues[name]? = some q) (id : String) (held : id ∈ q.ids)
    (below : req.queueName? = some name → q.receiveStaysBelowMax req = true) :
    ∃ q', (handleReceiveMessage req s).2.store.queues[name]? = some q' ∧ id ∈ q'.ids := by
  unfold handleReceiveMessage
  cases hname : req.queueName? with
  | none => exact ⟨q, hq, held⟩
  | some target =>
    cases htarget : s.store.queues[target]? with
    | none => exact ⟨q, by simpa [htarget] using hq, held⟩
    | some tq =>
      simp only [htarget, Session.wrap_store]
      refine Session.setQueue_keeps hq held htarget ?_
      intro same this_queue
      subst same this_queue
      obtain ⟨m, stored, hid⟩ := List.mem_map.mp held
      obtain ⟨i, bound, hm⟩ := List.mem_iff_getElem.mp stored
      have found : tq.messages[i]? = some m := by rw [List.getElem?_eq_getElem bound, hm]
      obtain ⟨m', hm', hid', count⟩ := receiveMessages_keeps req.now s.messageIds tq
        (maxNumberOfMessages req.params)
        (req.params["VisibilityTimeout"]?.bind (RustFmt.parseUnsigned 32)) i m found
      refine List.mem_map.mpr ⟨m', redriveStep_keeps _ m' hm' ?_, hid'.trans hid⟩
      intro rp policy
      rw [receiveMessages_redrivePolicy] at policy
      have all := below hname
      simp only [SqsQueue.receiveStaysBelowMax, policy, List.all_eq_true, decide_eq_true_eq] at all
      rw [count]
      exact all (m, i) (List.mk_mem_zipIdx_iff_getElem?.mpr found)

theorem handleSendMessage_keeps (env : Env) (req : Request) (s : Session) (name : String)
    (q : SqsQueue) (hq : s.store.queues[name]? = some q) (id : String) (held : id ∈ q.ids) :
    ∃ q', (handleSendMessage env req s).2.store.queues[name]? = some q' ∧ id ∈ q'.ids := by
  rw [handleSendMessage]
  cases req.queueName? with
  | none => exact ⟨q, hq, held⟩
  | some target =>
    cases req.params["MessageBody"]? with
    | none => exact ⟨q, hq, held⟩
    | some body =>
      cases htarget : s.store.queues[target]? with
      | none => exact ⟨q, by simpa [htarget] using hq, held⟩
      | some tq =>
        simp only [htarget, Session.wrap_store]
        refine Session.setQueue_keeps hq held htarget ?_
        intro _ this_queue
        rw [sendMessage_ids, this_queue]
        exact List.mem_append_left _ held

theorem handleSendMessageBatch_keeps (env : Env) (req : Request) (s : Session) (name : String)
    (q : SqsQueue) (hq : s.store.queues[name]? = some q) (id : String) (held : id ∈ q.ids) :
    ∃ q', (handleSendMessageBatch env req s).2.store.queues[name]? = some q' ∧ id ∈ q'.ids := by
  rw [handleSendMessageBatch]
  cases req.queueName? with
  | none => exact ⟨q, hq, held⟩
  | some target =>
    cases htarget : s.store.queues[target]? with
    | none => exact ⟨q, by simpa [htarget] using hq, held⟩
    | some tq =>
      simp only [htarget, Session.wrap_store]
      refine Session.setQueue_keeps hq held htarget ?_
      intro _ this_queue
      rw [sendBatch_ids, this_queue]
      exact List.mem_append_left _ held

theorem handleCreateQueue_keeps (env : Env) (req : Request) (s : Session) (name : String)
    (q : SqsQueue) (hq : s.store.queues[name]? = some q) :
    (handleCreateQueue env req s).2.store.queues[name]? = some q := by
  rw [handleCreateQueue]
  cases req.params["QueueName"]? with
  | none => exact hq
  | some created =>
    simp only [Session.wrap_store, SqsStore.createQueue]
    cases hexists : s.store.queues[created]? with
    | some old => exact hq
    | none =>
      rw [StrMap.getElem?_insert, if_neg]
      · exact hq
      · intro same
        rw [same, hq] at hexists
        cases hexists

theorem handleDeleteQueue_keeps (req : Request) (s : Session) (name : String) (q : SqsQueue)
    (hq : s.store.queues[name]? = some q) (other : req.queueName? ≠ some name) :
    (handleDeleteQueue req s).2.store.queues[name]? = some q := by
  rw [handleDeleteQueue]
  cases hname : req.queueName? with
  | none => exact hq
  | some target =>
    have ne : target ≠ name := by
      intro same
      exact other (by rw [hname, same])
    simp only
    split
    · simp [SqsStore.deleteQueue, StrMap.getElem?_erase, ne, hq]
    · exact hq

/-- Every action keeps a message in its queue, unless it is a promised removal or
a receive that reaches the maximum. -/
theorem Action.handle_keeps (env : Env) (req : Request) (s : Session) (action : Action)
    (name : String) (q : SqsQueue) (hq : s.store.queues[name]? = some q) (id : String)
    (held : id ∈ q.ids)
    (below : action = .receiveMessage → req.queueName? = some name →
      q.receiveStaysBelowMax req = true)
    (kept : req.queueName? = some name → ¬ action.removes req q id) :
    ∃ q', (action.handle env req s).2.store.queues[name]? = some q' ∧ id ∈ q'.ids := by
  have unchanged : ∃ q', s.store.queues[name]? = some q' ∧ id ∈ q'.ids := ⟨q, hq, held⟩
  cases action with
  | listQueues => exact unchanged
  | getQueueUrl =>
    simp only [Action.handle, handleGetQueueUrl]
    repeat' split
    all_goals exact unchanged
  | getQueueAttributes =>
    simp only [Action.handle, handleGetQueueAttributes]
    repeat' split
    all_goals exact unchanged
  | createQueue => exact ⟨q, handleCreateQueue_keeps env req s name q hq, held⟩
  | deleteQueue =>
    exact ⟨q, handleDeleteQueue_keeps req s name q hq (fun hname => kept hname trivial), held⟩
  | setQueueAttributes =>
    simp only [Action.handle, handleSetQueueAttributes]
    split
    · exact unchanged
    · split
      · exact unchanged
      · next tq htarget =>
        refine Session.setQueue_keeps hq held htarget ?_
        intro _ this_queue
        rw [this_queue]
        exact held
  | purgeQueue =>
    simp only [Action.handle, handlePurgeQueue]
    split
    · exact unchanged
    · next target hname =>
      split
      · exact unchanged
      · next tq htarget =>
        refine Session.setQueue_keeps hq held htarget ?_
        intro same _
        exact absurd trivial (kept (by rw [hname, same]))
  | sendMessage => exact handleSendMessage_keeps env req s name q hq id held
  | sendMessageBatch => exact handleSendMessageBatch_keeps env req s name q hq id held
  | receiveMessage => exact handleReceiveMessage_keeps req s name q hq id held (below rfl)
  | deleteMessage =>
    simp only [Action.handle, handleDeleteMessage]
    split
    · exact unchanged
    · next target hname =>
      split
      · exact unchanged
      · next rh hrh =>
        refine Session.updateQueue_keeps hq held ?_
        intro same
        obtain ⟨m, stored, hid⟩ := List.mem_map.mp held
        have other : m.receiptHandle ≠ rh := by
          intro current
          exact kept (by rw [hname, same]) ⟨rh, hrh, m, stored, hid, current⟩
        exact List.mem_map.mpr ⟨m, removeByHandle_keeps rh q.messages m stored other, hid⟩
  | deleteMessageBatch =>
    simp only [Action.handle, handleDeleteMessageBatch]
    split
    · exact unchanged
    · next target hname =>
      refine Session.updateQueue_keeps hq held ?_
      intro same
      obtain ⟨m, stored, hid⟩ := List.mem_map.mp held
      have other : ∀ e ∈ deleteEntries req.params, m.receiptHandle ≠ e.2 := by
        intro e he current
        exact kept (by rw [hname, same]) ⟨e, he, m, stored, hid, current⟩
      exact List.mem_map.mpr ⟨m, deleteMessages_keeps _ q m stored other, hid⟩
  | changeMessageVisibility =>
    simp only [Action.handle, handleChangeMessageVisibility]
    split
    · exact unchanged
    · split
      · exact unchanged
      · refine Session.updateQueue_keeps hq held ?_
        intro _
        rw [changeVisibility_ids]
        exact held
  | changeMessageVisibilityBatch =>
    simp only [Action.handle, handleChangeMessageVisibilityBatch]
    split
    · exact unchanged
    · refine Session.updateQueue_keeps hq held ?_
      intro _
      rw [changeVisibilities_ids]
      exact held

/-! ## Runs -/

namespace World

def queue? (w : World) (key name : String) : Option SqsQueue :=
  w.stores[key]?.bind fun store => store.queues[name]?

/-- The message is in the queue. -/
def Holds (w : World) (key name id : String) : Prop :=
  ∃ q, w.queue? key name = some q ∧ id ∈ q.ids

/-- The message is in the dead-letter queue named by the queue's redrive policy. -/
def Redriven (w : World) (key name id : String) : Prop :=
  ∃ q rp, w.queue? key name = some q ∧ q.redrivePolicy = some rp ∧
    ∃ key' name' d, w.queue? key' name' = some d ∧ d.arn = rp.deadLetterTargetArn ∧ id ∈ d.ids

/-- The identifiers that a send request reports as accepted into the queue. -/
def acceptedBy (env : Env) (w : World) (req : Request) (key name : String) : List String :=
  if req.storeKey = key ∧ req.queueName? = some name then
    match Action.parse req.action, w.queue? key name with
    | some .sendMessage, some q =>
      match req.params["MessageBody"]? with
      | none => []
      | some body =>
        ((q.sendMessage env req.now w.messageIds (sendArgs req.params body)).1.map
          (·.messageId)).toList
    | some .sendMessageBatch, some q =>
      batchAccepted (sendBatch env req.now w.messageIds q (batchEntries req.params)).1
    | _, _ => []
  else []

/-- The request is a promised removal of the message from the queue. -/
def Removes (w : World) (req : Request) (key name id : String) : Prop :=
  req.storeKey = key ∧ req.queueName? = some name ∧
    ∃ action q, Action.parse req.action = some action ∧ w.queue? key name = some q ∧
      action.removes req q id

/-- A receive on a queue with a redrive policy takes no message to the maximum. -/
def staysBelowMax (w : World) (req : Request) : Bool :=
  match Action.parse req.action, req.queueName? with
  | some .receiveMessage, some name =>
    match w.queue? req.storeKey name with
    | none => true
    | some q => q.receiveStaysBelowMax req
  | _, _ => true

def step (env : Env) (w : World) (req : Request) : World := (dispatch env w req).2

def run (env : Env) (w : World) (reqs : List Request) : World := reqs.foldl (step env) w

end World

theorem World.queue?_put (w : World) (key a name : String) (s : Session) :
    (w.put key s).queue? a name =
      if key = a then s.store.queues[name]? else w.queue? a name := by
  simp only [World.queue?, World.put, StrMap.getElem?_insert]
  split <;> rfl

/-- One request keeps a message in its queue, unless it is a promised removal or
a receive that reaches the maximum. -/
theorem World.step_keeps (env : Env) (w : World) (req : Request) (key name id : String)
    (held : w.Holds key name id) (below : w.staysBelowMax req = true)
    (kept : ¬ w.Removes req key name id) : (w.step env req).Holds key name id := by
  obtain ⟨q, hq, hid⟩ := held
  obtain ⟨store, hstore, hname⟩ := Option.bind_eq_some_iff.mp hq
  rw [World.step, dispatch]
  cases haction : Action.parse req.action with
  | none => exact ⟨q, hq, hid⟩
  | some action =>
    by_cases same : req.storeKey = key
    · subst same
      simp only [hstore]
      have after := action.handle_keeps env req (w.session store) name q hname id hid
        (by
          intro receive target
          simpa [World.staysBelowMax, haction, receive, target, hq] using below)
        (fun target lawful => kept ⟨rfl, target, action, q, haction, hq, lawful⟩)
      obtain ⟨q', hq', hid'⟩ := after
      exact ⟨q', by rw [World.queue?_put, if_pos rfl]; exact hq', hid'⟩
    · have frame : ∀ s, (w.put req.storeKey s).Holds key name id := by
        intro s
        exact ⟨q, by rw [World.queue?_put, if_neg same]; exact hq, hid⟩
      cases hother : w.stores[req.storeKey]? with
      | some other => exact frame _
      | none =>
        cases action with
        | createQueue => exact frame _
        | _ => exact ⟨q, hq, hid⟩

theorem World.step_queue? (env : Env) (w : World) (req : Request) (action : Action)
    (store : SqsStore) (name : String) (haction : Action.parse req.action = some action)
    (hstore : w.stores[req.storeKey]? = some store) :
    (w.step env req).queue? req.storeKey name =
      (action.handle env req (w.session store)).2.store.queues[name]? := by
  rw [World.step, dispatch, haction]
  simp only [hstore]
  rw [World.queue?_put, if_pos rfl]

/-- What a send reports as accepted is in the queue afterwards. -/
theorem World.accepted_held (env : Env) (w : World) (req : Request) (key name id : String)
    (accepted : id ∈ w.acceptedBy env req key name) : (w.step env req).Holds key name id := by
  rw [World.acceptedBy] at accepted
  split at accepted
  · next addressed =>
    obtain ⟨rfl, hname⟩ := addressed
    split at accepted
    · next q haction hq =>
      obtain ⟨store, hstore, hqueue⟩ := Option.bind_eq_some_iff.mp hq
      split at accepted
      · cases accepted
      · next body hbody =>
        refine ⟨(q.sendMessage env req.now w.messageIds (sendArgs req.params body)).2.1, ?_, ?_⟩
        · rw [World.step_queue? env w req _ store name haction hstore]
          simp [Action.handle, handleSendMessage, hname, hbody, World.session, hqueue]
        · rw [sendMessage_ids]
          exact List.mem_append_right _ accepted
    · next q haction hq =>
      obtain ⟨store, hstore, hqueue⟩ := Option.bind_eq_some_iff.mp hq
      refine ⟨(sendBatch env req.now w.messageIds q (batchEntries req.params)).2.1, ?_, ?_⟩
      · rw [World.step_queue? env w req _ store name haction hstore]
        simp [Action.handle, handleSendMessageBatch, hname, World.session, hqueue]
      · rw [sendBatch_ids]
        exact List.mem_append_right _ accepted
    · cases accepted
  · cases accepted

/-- A held message is still held after a run, or some request of the run was a
promised removal of it. -/
theorem World.run_keeps (env : Env) (w : World) (reqs : List Request) (key name id : String)
    (held : w.Holds key name id)
    (steps : Run.AllSteps (World.step env) (fun w req => w.staysBelowMax req = true) w reqs) :
    (w.run env reqs).Holds key name id ∨
      ∃ before req after, reqs = before ++ req :: after ∧
        (w.run env before).Removes req key name id := by
  induction reqs generalizing w with
  | nil => exact Or.inl held
  | cons req rest ih =>
    obtain ⟨below, later⟩ := steps
    by_cases removed : w.Removes req key name id
    · exact Or.inr ⟨[], req, rest, rfl, removed⟩
    · rcases ih (w.step env req) (w.step_keeps env req key name id held below removed) later with
        still | ⟨before, r, after, split, lawful⟩
      · exact Or.inl still
      · exact Or.inr ⟨req :: before, r, after, by rw [split]; rfl, lawful⟩

/-- Every accepted message is at the end in its queue or in the dead-letter queue
of its queue, unless a later request was a promised removal of it. -/
def World.Conserved (env : Env) (w : World) (reqs : List Request) : Prop :=
  ∀ before req after, reqs = before ++ req :: after →
    ∀ key name id, id ∈ (w.run env before).acceptedBy env req key name →
      (w.run env reqs).Holds key name id ∨ (w.run env reqs).Redriven key name id ∨
        ∃ between removal rest, after = between ++ removal :: rest ∧
          (w.run env (before ++ req :: between)).Removes removal key name id

/-- In every run over any queues in which no receive takes a message to the
maximum of a redrive policy, every accepted message is conserved. -/
theorem accepted_messages_conserved (env : Env) (w : World) (reqs : List Request)
    (steps : Run.AllSteps (World.step env) (fun w req => w.staysBelowMax req = true) w reqs) :
    w.Conserved env reqs := by
  intro before req after split key name id accepted
  subst split
  have held := World.accepted_held env _ req key name id accepted
  have later := (Run.allSteps_drop w before (req :: after) steps).2
  have foldl_run : ∀ more, ((w.run env before).step env req).run env more =
      w.run env (before ++ req :: more) := by
    intro more
    simp [World.run, List.foldl_append]
  rcases World.run_keeps env _ after key name id held later with
    still | ⟨between, removal, rest, hsplit, lawful⟩
  · rw [foldl_run] at still
    exact Or.inl still
  · rw [foldl_run] at lawful
    exact Or.inr (Or.inr ⟨between, removal, rest, hsplit, lawful⟩)

/-! ## A queue with maximum one -/

/-- A redrive policy to the queue `dlq` after one receive. -/
def policyText : String :=
  "\x7b\"deadLetterTargetArn\":\"arn:aws:sqs:us-east-1:000000000000:dlq\",\"maxReceiveCount\":1\x7d"

/-- MD5 and JSON parsing on the two texts the runs below use. -/
def policyEnv : Env :=
  { md5Hex := fun s => if s = "hello" then "5d41402abc4b2a76b9719d911017c592" else ""
    parseJson := fun s =>
      if s = policyText then some (.obj [("deadLetterTargetArn",
        .str "arn:aws:sqs:us-east-1:000000000000:dlq"), ("maxReceiveCount", .posInt 1)])
      else none }

def policyRequest (action : String) (params : List (String × String)) : Request :=
  { accountId := "000000000000"
    region := "us-east-1"
    headers := ∅
    action := action
    params := params.foldl (fun m kv => m.insert kv.1 kv.2) ∅
    now := 0 }

/-- Create the dead-letter queue and the queue `q` with that policy. -/
def createBoth : List Request :=
  [policyRequest "CreateQueue" [("QueueName", "dlq")],
   policyRequest "CreateQueue" [("QueueName", "q"), ("Attribute.1.Name", "RedrivePolicy"),
     ("Attribute.1.Value", policyText)]]

def sendHello : Request :=
  policyRequest "SendMessage" [("QueueUrl", "http://localhost:4566/000000000000/q"),
    ("MessageBody", "hello")]

def receiveFromQ : Request :=
  policyRequest "ReceiveMessage" [("QueueUrl", "http://localhost:4566/000000000000/q")]

/-- A message sent to that queue is conserved while nothing is received from it. -/
theorem accepted_messages_conserved_sendHello :
    World.Conserved policyEnv {} (createBoth ++ [sendHello, sendHello,
      policyRequest "ReceiveMessage" [("QueueUrl", "http://localhost:4566/000000000000/dlq")]]) :=
  accepted_messages_conserved policyEnv {} _ (by decide)

/-- No queue of any account holds a message. -/
def World.drained (w : World) : Bool :=
  (StrMap.values w.stores).all fun store =>
    (StrMap.values store.queues).all fun q => q.messages.isEmpty

theorem World.drained_ids {w : World} (drained : w.drained = true) {key name : String}
    {q : SqsQueue} (hq : w.queue? key name = some q) : q.ids = [] := by
  obtain ⟨store, hstore, hname⟩ := Option.bind_eq_some_iff.mp hq
  have all := List.all_eq_true.mp drained store (StrMap.mem_values.mpr ⟨key, hstore⟩)
  have empty := List.all_eq_true.mp all q (StrMap.mem_values.mpr ⟨name, hname⟩)
  simp [SqsQueue.ids, List.isEmpty_iff.mp empty]

/-- The first receive takes the message to the maximum, and afterwards it is in
no queue at all. -/
theorem received_message_dropped :
    ¬ World.Conserved policyEnv {} (createBoth ++ [sendHello, receiveFromQ]) := by
  intro conserved
  have drained : (World.run policyEnv {} (createBoth ++ [sendHello, receiveFromQ])).drained =
      true := by decide
  have accepted : messageUuidLike 1 ∈ (World.run policyEnv {} createBoth).acceptedBy policyEnv
      sendHello sendHello.storeKey "q" := by decide
  rcases conserved createBoth sendHello [receiveFromQ] rfl _ _ _ accepted with
    held | redriven | ⟨between, removal, rest, hsplit, removed⟩
  · obtain ⟨q, hq, hid⟩ := held
    rw [World.drained_ids drained hq] at hid
    cases hid
  · obtain ⟨_, _, _, _, key, name, d, hd, _, hid⟩ := redriven
    rw [World.drained_ids drained hd] at hid
    cases hid
  · have only : between = [] ∧ removal = receiveFromQ := by
      cases between with
      | nil => exact ⟨rfl, (List.cons.inj hsplit).1.symm⟩
      | cons b more => simp at hsplit
    obtain ⟨rfl, rfl⟩ := only
    obtain ⟨_, _, action, q, haction, _, lawful⟩ := removed
    have receive : Action.parse receiveFromQ.action = some .receiveMessage := by decide
    rw [receive] at haction
    cases haction
    exact lawful

end Openstack.Sqs

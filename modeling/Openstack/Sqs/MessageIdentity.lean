import Openstack.Sqs.QueueRuns

/-!
# Message ids and receipt handles

Ids and handles are printed from one counter of the process. As long as the counter does not wrap,
each printed number is new, so no two messages share an id and no two receives share a handle.
-/
namespace Openstack.Sqs

/-! ## The printed numbers -/

theorem receiptHandleOf_inj {a b : Nat} (same : receiptHandleOf a = receiptHandleOf b) : a = b := by
  have text := congrArg String.toList same
  simp only [receiptHandleOf, String.toList_append, List.append_cancel_left_eq] at text
  exact RustFmt.hex_inj text

/-- The first field holds the upper 32 bits and the last one the lower 48. -/
theorem messageUuidLike_inj {a b : Nat} (fitsA : a < 2 ^ 64) (fitsB : b < 2 ^ 64)
    (same : messageUuidLike a = messageUuidLike b) : a = b := by
  have text := congrArg String.toList same
  simp only [messageUuidLike, String.toList_append, List.append_assoc] at text
  have width : ∀ n, (RustFmt.hex 8 (n / 2 ^ 32 % 2 ^ 32)).toList.length = 8 := fun n =>
    RustFmt.length_hex (by decide) (Nat.mod_lt _ (by decide))
  have last : ∀ n, (RustFmt.hex 12 (n % 2 ^ 48)).toList.length = 12 := fun n =>
    RustFmt.length_hex (by decide) (Nat.mod_lt _ (by decide))
  obtain ⟨upper, _⟩ := List.append_inj text (by rw [width, width])
  simp only [← List.append_assoc] at text
  obtain ⟨_, lower⟩ := List.append_inj' text (by rw [last, last])
  have high := RustFmt.hex_inj upper
  have low := RustFmt.hex_inj lower
  omega

/-! ## Runs of a process -/

/-- The operations on a queue, and those that make, change or clear one. -/
inductive ProcessOp where
  | perform (op : QueueOp)
  /-- The redrive step of ReceiveMessage. -/
  | redrive
  | setAttributes (attrs : StrMap String)
  /-- CreateQueue, for a name that is new or was deleted. -/
  | create (name baseUrl accountId region : String) (attrs : StrMap String)

/-- An operation on one of the queues of all accounts and regions. -/
structure ProcessEvent (κ : Type) where
  queue : κ
  now : Instant
  op : ProcessOp

/-- The queues, and `MESSAGE_ID_COUNTER`. -/
structure Process (κ : Type) where
  queues : κ → SqsQueue
  counter : Nat

/-- An id or a handle given out. -/
inductive Issue where
  /-- A new message, with its first handle. -/
  | sent (id handle : String)
  /-- The handle of a receive. -/
  | received (id handle : String)
  deriving DecidableEq, Repr

namespace Issue

def id : Issue → String
  | .sent id _ => id
  | .received id _ => id

def handle : Issue → String
  | .sent _ handle => handle
  | .received _ handle => handle

def sentId? : Issue → Option String
  | .sent id _ => some id
  | .received _ _ => none

/-- How often the counter moved for it. -/
def increments : Issue → Nat
  | .sent _ _ => 2
  | .received _ _ => 1

end Issue

/-- The messages of an answer, as they are in the queue afterwards. -/
def SqsQueue.taken (q : SqsQueue) (now : Instant) (counter maxNumber : Nat) (vt : Option Nat) :
    List SqsMessage :=
  let received := q.receiveMessages now counter maxNumber vt
  received.1.filterMap fun i => received.2.1.messages[i]?

/-- The queue after an operation, what it gives out, and the counter. -/
def ProcessOp.apply (env : Env) (now : Instant) (counter : Nat) (q : SqsQueue) :
    ProcessOp → SqsQueue × List Issue × Nat
  | .perform (.send args) =>
    let sent := q.sendMessage env now counter args
    (sent.2.1, (sent.2.1.messages.drop q.messages.length).map fun m =>
      .sent m.messageId m.receiptHandle, sent.2.2)
  | .perform (.receive maxNumber vt) =>
    let received := q.receiveMessages now counter maxNumber vt
    (received.2.1, (q.taken now counter maxNumber vt).map fun m =>
      .received m.messageId m.receiptHandle, received.2.2)
  | .perform (.delete rh) => ((q.deleteMessage rh).2, [], counter)
  | .perform (.changeVisibility rh vt) => ((q.changeVisibility now rh vt).2, [], counter)
  | .perform .purge => (q.purge, [], counter)
  | .redrive => (q.removeDlqCandidates, [], counter)
  | .setAttributes attrs => (q.applyQueueAttributes env now attrs, [], counter)
  | .create name baseUrl accountId region attrs =>
    ((SqsQueue.new now name baseUrl accountId region).applyQueueAttributes env now attrs, [], counter)

namespace Process

variable {κ : Type} [DecidableEq κ]

def step (env : Env) (p : Process κ) (e : ProcessEvent κ) : Process κ :=
  let after := e.op.apply env e.now p.counter (p.queues e.queue)
  ⟨Function.update p.queues e.queue after.1, after.2.2⟩

def issued (env : Env) (p : Process κ) (e : ProcessEvent κ) : List Issue :=
  (e.op.apply env e.now p.counter (p.queues e.queue)).2.1

def run (env : Env) (p : Process κ) (events : List (ProcessEvent κ)) : Process κ :=
  events.foldl (step env) p

/-- Everything given out in the run, in order. -/
def log (env : Env) : Process κ → List (ProcessEvent κ) → List Issue
  | _, [] => []
  | p, e :: rest => p.issued env e ++ log env (p.step env e) rest

end Process

def increments (log : List Issue) : Nat := (log.map Issue.increments).sum

theorem increments_append (a b : List Issue) : increments (a ++ b) = increments a + increments b := by
  simp [increments]

theorem increments_received (taken : List SqsMessage) :
    increments (taken.map fun m => .received m.messageId m.receiptHandle) = taken.length := by
  induction taken with
  | nil => rfl
  | cons m rest ih =>
    simp only [increments, List.map_cons, List.sum_cons, Issue.increments, List.length_cons] at ih ⊢
    omega

/-! ## Stamps -/

/-- The ids and handles are printed from the numbers behind `n`, one after the other. -/
def Stamped : Nat → List Issue → Prop
  | _, [] => True
  | n, .sent id handle :: rest =>
    id = messageUuidLike (n + 1) ∧ handle = receiptHandleOf (n + 2) ∧ Stamped (n + 2) rest
  | n, .received _ handle :: rest => handle = receiptHandleOf (n + 1) ∧ Stamped (n + 1) rest

theorem stamped_append {n : Nat} {a b : List Issue} (left : Stamped n a)
    (right : Stamped (n + increments a) b) : Stamped n (a ++ b) := by
  induction a generalizing n with
  | nil => exact right
  | cons x rest ih =>
    cases x with
    | sent id handle =>
      refine ⟨left.1, left.2.1, ih left.2.2 ?_⟩
      simpa [increments, Issue.increments, Nat.add_assoc] using right
    | received id handle =>
      refine ⟨left.1, ih left.2 ?_⟩
      simpa [increments, Issue.increments, Nat.add_assoc] using right

theorem Stamped.handle_number {n : Nat} {log : List Issue} (stamped : Stamped n log) :
    ∀ x ∈ log, ∃ k, n < k ∧ k ≤ n + increments log ∧ x.handle = receiptHandleOf k := by
  induction log generalizing n with
  | nil => simp
  | cons y rest ih =>
    intro x member
    cases y with
    | sent id handle =>
      have total : increments (.sent id handle :: rest) = 2 + increments rest := rfl
      rcases List.mem_cons.mp member with rfl | later
      · exact ⟨n + 2, by omega, by omega, stamped.2.1⟩
      · obtain ⟨k, low, high, same⟩ := ih stamped.2.2 x later
        exact ⟨k, by omega, by omega, same⟩
    | received id handle =>
      have total : increments (.received id handle :: rest) = 1 + increments rest := rfl
      rcases List.mem_cons.mp member with rfl | later
      · exact ⟨n + 1, by omega, by omega, stamped.1⟩
      · obtain ⟨k, low, high, same⟩ := ih stamped.2 x later
        exact ⟨k, by omega, by omega, same⟩

theorem Stamped.id_number {n : Nat} {log : List Issue} (stamped : Stamped n log) :
    ∀ id ∈ log.filterMap Issue.sentId?, ∃ k, n < k ∧ k ≤ n + increments log ∧
      id = messageUuidLike k := by
  induction log generalizing n with
  | nil => simp
  | cons y rest ih =>
    intro x member
    cases y with
    | sent id handle =>
      have total : increments (.sent id handle :: rest) = 2 + increments rest := rfl
      rcases List.mem_cons.mp member with rfl | later
      · exact ⟨n + 1, by omega, by omega, stamped.1⟩
      · obtain ⟨k, low, high, same⟩ := ih stamped.2.2 x later
        exact ⟨k, by omega, by omega, same⟩
    | received id handle =>
      have total : increments (.received id handle :: rest) = 1 + increments rest := rfl
      obtain ⟨k, low, high, same⟩ := ih stamped.2 x member
      exact ⟨k, by omega, by omega, same⟩

theorem Stamped.handles_nodup {n : Nat} {log : List Issue} (stamped : Stamped n log) :
    (log.map Issue.handle).Nodup := by
  induction log generalizing n with
  | nil => exact List.nodup_nil
  | cons y rest ih =>
    have fresh : ∀ {first next : Nat}, y.handle = receiptHandleOf first → first ≤ next →
        Stamped next rest → y.handle ∉ rest.map Issue.handle := by
      intro first next here bound later member
      obtain ⟨x, inside, same⟩ := List.mem_map.mp member
      obtain ⟨k, low, _, number⟩ := later.handle_number x inside
      have equal := receiptHandleOf_inj (here.symm.trans (same.symm.trans number))
      omega
    cases y with
    | sent id handle =>
      exact List.nodup_cons.mpr ⟨fresh stamped.2.1 (Nat.le_refl _) stamped.2.2, ih stamped.2.2⟩
    | received id handle =>
      exact List.nodup_cons.mpr ⟨fresh stamped.1 (Nat.le_refl _) stamped.2, ih stamped.2⟩

theorem Stamped.ids_nodup {n : Nat} {log : List Issue} (stamped : Stamped n log)
    (few : n + increments log < 2 ^ 64) : (log.filterMap Issue.sentId?).Nodup := by
  induction log generalizing n with
  | nil => exact List.nodup_nil
  | cons y rest ih =>
    cases y with
    | sent id handle =>
      have total : increments (.sent id handle :: rest) = 2 + increments rest := rfl
      refine List.nodup_cons.mpr ⟨?_, ih stamped.2.2 (by omega)⟩
      intro member
      obtain ⟨k, low, high, number⟩ := stamped.2.2.id_number id member
      have equal := messageUuidLike_inj (by omega) (by omega) (stamped.1.symm.trans number)
      omega
    | received id handle =>
      have total : increments (.received id handle :: rest) = 1 + increments rest := rfl
      exact ih stamped.2 (by omega)

/-! ## The handle last given out for a message -/

def current (log : List Issue) (id : String) : Option String :=
  (log.reverse.find? fun x => x.id = id).map Issue.handle

theorem current_append (a b : List Issue) (id : String) :
    current (a ++ b) id = (current b id).or (current a id) := by
  unfold current
  rw [List.reverse_append, List.find?_append]
  cases b.reverse.find? fun x => x.id = id <;> rfl

theorem current_eq_none {log : List Issue} {id : String} (other : id ∉ log.map Issue.id) :
    current log id = none := by
  unfold current
  rw [Option.map_eq_none_iff, List.find?_eq_none]
  intro x member same
  have inside := List.mem_reverse.mp member
  exact other (List.mem_map.mpr ⟨x, inside, by simpa using same⟩)

theorem current_isSome {log : List Issue} {id : String} (given : id ∈ log.map Issue.id) :
    ∃ x ∈ log, current log id = some x.handle := by
  obtain ⟨y, member, same⟩ := List.mem_map.mp given
  cases found : log.reverse.find? fun x => x.id = id with
  | none => exact absurd same (by simpa using List.find?_eq_none.mp found y (List.mem_reverse.mpr member))
  | some x =>
    refine ⟨x, List.mem_reverse.mp (List.mem_of_find?_eq_some found), ?_⟩
    rw [current, found, Option.map_some]

theorem mem_of_current {log : List Issue} {id handle : String} (given : current log id = some handle) :
    handle ∈ log.map Issue.handle := by
  obtain ⟨x, found, rfl⟩ := Option.map_eq_some_iff.mp given
  exact List.mem_map_of_mem (List.mem_reverse.mp (List.mem_of_find?_eq_some found))

/-- With one entry for each id, an entry is the last of its id. -/
theorem current_of_nodup {log : List Issue} (nodup : (log.map Issue.id).Nodup) {x : Issue}
    (member : x ∈ log) : current log x.id = some x.handle := by
  obtain ⟨y, inside, given⟩ := current_isSome (List.mem_map_of_mem (f := Issue.id) member)
  obtain ⟨z, found, same⟩ := Option.map_eq_some_iff.mp given
  have zmem := List.mem_reverse.mp (List.mem_of_find?_eq_some found)
  have zid : z.id = x.id := by simpa using List.find?_some found
  have equal : z = x := List.inj_on_of_nodup_map nodup zmem member zid
  rw [given, ← same, equal]

/-- A handle that was followed by another one for the same message is the last of no message. -/
theorem superseded {front back : List Issue} {x y : Issue}
    (nodup : ((front ++ x :: back).map Issue.handle).Nodup) (later : y ∈ back) (same : y.id = x.id)
    (id : String) : current (front ++ x :: back) id ≠ some x.handle := by
  intro last
  rw [List.map_append, List.map_cons] at nodup
  have apart := List.nodup_append.mp nodup
  have notBack : x.handle ∉ back.map Issue.handle := (List.nodup_cons.mp apart.2.1).1
  rw [current_append, show x :: back = [x] ++ back from rfl, current_append] at last
  by_cases inBack : id ∈ back.map Issue.id
  · obtain ⟨z, member, given⟩ := current_isSome inBack
    rw [given, Option.some_or, Option.some_or, Option.some.injEq] at last
    exact notBack (last ▸ List.mem_map_of_mem member)
  · rw [current_eq_none inBack, Option.none_or] at last
    by_cases here : id = x.id
    · exact inBack (List.mem_map.mpr ⟨y, later, same.trans here.symm⟩)
    · have other : id ∉ [x].map Issue.id := by simpa using here
      rw [current_eq_none other, Option.none_or] at last
      exact apart.2.2 _ (mem_of_current last) _ List.mem_cons_self rfl

/-! ## What a receive gives out -/

section Received

variable {vt limit counter idx counter' : Nat} {now : Instant} {msgs taken msgs' : List SqsMessage}
  {positions : List Nat}

theorem fetchAdd_eq {counter n : Nat} (start : counter = (1 + n) % 2 ^ 64) :
    fetchAdd counter = (1 + (n + 1)) % 2 ^ 64 := by
  rw [fetchAdd, start]
  omega

theorem Received.stamped
    (received : Received vt now limit counter idx msgs positions taken msgs' counter') {n : Nat}
    (start : counter = (1 + n) % 2 ^ 64) (few : n + taken.length < 2 ^ 64) :
    Stamped n (taken.map fun m => .received m.messageId m.receiptHandle) ∧
      counter' = (1 + (n + taken.length)) % 2 ^ 64 := by
  induction received generalizing n with
  | nil | full => exact ⟨trivial, start⟩
  | @take limit counter idx counter' m rest taken rest' positions visible later ih =>
    rw [List.length_cons] at few
    obtain ⟨stamped, last⟩ := ih (fetchAdd_eq start) (by omega)
    have number : counter = n + 1 := by omega
    refine ⟨⟨congrArg receiptHandleOf number, stamped⟩, ?_⟩
    rw [last, List.length_cons]
    congr 1
    omega
  | hidden _ _ ih => exact ih start few

theorem Received.ids
    (received : Received vt now limit counter idx msgs positions taken msgs' counter') :
    msgs'.map (·.messageId) = msgs.map (·.messageId) ∧
      (taken.map (·.messageId)).Sublist (msgs.map (·.messageId)) := by
  induction received with
  | nil => exact ⟨rfl, List.Sublist.refl _⟩
  | full => exact ⟨rfl, List.nil_sublist _⟩
  | @take limit counter idx counter' m rest taken rest' positions visible later ih =>
    have same : (m.beginReceive vt now counter).messageId = m.messageId := rfl
    simp only [List.map_cons, same, ih.1]
    exact ⟨trivial, ih.2.cons_cons _⟩
  | @hidden limit counter idx counter' m rest taken rest' positions invisible later ih =>
    simp only [List.map_cons, ih.1]
    exact ⟨trivial, ih.2.cons _⟩

/-- A message in the queue was taken, or has the handle it had. -/
theorem Received.kept
    (received : Received vt now limit counter idx msgs positions taken msgs' counter')
    (nodup : (msgs.map (·.messageId)).Nodup) :
    ∀ m ∈ msgs', m ∈ taken ∨ m ∈ msgs ∧ m.messageId ∉ taken.map (·.messageId) := by
  induction received with
  | nil => simp
  | full => exact fun m member => .inr ⟨member, List.not_mem_nil⟩
  | @take limit counter idx counter' x rest taken rest' positions visible later ih =>
    have tail := List.nodup_cons.mp nodup
    intro m member
    rcases List.mem_cons.mp member with rfl | inside
    · exact .inl List.mem_cons_self
    · obtain listed | ⟨old, other⟩ := ih tail.2 m inside
      · exact .inl (List.mem_cons_of_mem _ listed)
      · refine .inr ⟨List.mem_cons_of_mem _ old, ?_⟩
        rw [List.map_cons, List.mem_cons, not_or]
        refine ⟨?_, other⟩
        intro same
        have listed : x.messageId ∈ rest.map (·.messageId) :=
          List.mem_map.mpr ⟨m, old, same⟩
        exact tail.1 listed
  | @hidden limit counter idx counter' x rest taken rest' positions invisible later ih =>
    have tail := List.nodup_cons.mp nodup
    intro m member
    rcases List.mem_cons.mp member with rfl | inside
    · exact .inr ⟨List.mem_cons_self, fun listed => tail.1 (later.ids.2.subset listed)⟩
    · obtain listed | ⟨old, other⟩ := ih tail.2 m inside
      · exact .inl listed
      · exact .inr ⟨List.mem_cons_of_mem _ old, other⟩

end Received

/-! ## One operation -/

/-- What an operation may leave behind when `n` numbers were given out before it: the queue, what
it gave out, and the counter. -/
structure Gives (n : Nat) (q : SqsQueue) (after : SqsQueue × List Issue × Nat) : Prop where
  stamped : Stamped n after.2.1
  counter : after.2.2 = (1 + (n + increments after.2.1)) % 2 ^ 64
  ids : after.1.ids.Sublist (q.ids ++ after.2.1.filterMap Issue.sentId?)
  once : (after.2.1.map Issue.id).Nodup
  known : ∀ id ∈ after.2.1.map Issue.id, id ∈ q.ids ∨ id ∈ after.2.1.filterMap Issue.sentId?
  handles : ∀ m ∈ after.1.messages,
    (∃ x ∈ after.2.1, x.id = m.messageId ∧ x.handle = m.receiptHandle) ∨
    m.messageId ∉ after.2.1.map Issue.id ∧
      ∃ old ∈ q.messages, old.messageId = m.messageId ∧ old.receiptHandle = m.receiptHandle

/-- An operation that gives nothing out: the messages stay or go, with their ids and handles. -/
theorem Gives.of_sublist {n counter : Nat} {q q' : SqsQueue} (start : counter = (1 + n) % 2 ^ 64)
    (fewer : (q'.messages.map fun m => (m.messageId, m.receiptHandle)).Sublist
      (q.messages.map fun m => (m.messageId, m.receiptHandle))) : Gives n q (q', [], counter) where
  stamped := trivial
  counter := start
  ids := by
    have first := fewer.map Prod.fst
    rw [List.map_map, List.map_map] at first
    rw [List.filterMap_nil, List.append_nil]
    exact first
  once := List.nodup_nil
  known := by simp
  handles := by
    intro m member
    have pair : (m.messageId, m.receiptHandle) ∈
        q'.messages.map fun m => (m.messageId, m.receiptHandle) := List.mem_map.mpr ⟨m, member, rfl⟩
    obtain ⟨old, before, same⟩ := List.mem_map.mp (fewer.subset pair)
    rw [Prod.mk.injEq] at same
    exact .inr ⟨List.not_mem_nil, old, before, same⟩

theorem Gives.send {n counter : Nat} {q : SqsQueue} (env : Env) (now : Instant) (args : SendArgs)
    (start : counter = (1 + n) % 2 ^ 64) (few : n + 2 < 2 ^ 64)
    (fresh : messageUuidLike (n + 1) ∉ q.ids) (accepted : q.isDuplicate args = false) :
    Gives n q ((ProcessOp.perform (.send args)).apply env now counter q) := by
  have number : counter = n + 1 := by omega
  have next : fetchAdd counter = n + 2 := by
    rw [fetchAdd]
    omega
  simp only [ProcessOp.apply, SqsQueue.sendMessage, accepted, Bool.false_eq_true, if_false,
    List.drop_left, List.map_cons, List.map_nil]
  constructor
  · exact ⟨congrArg messageUuidLike number, congrArg receiptHandleOf next, trivial⟩
  · simp only [increments, Issue.increments, List.map_cons, List.map_nil, List.sum_cons,
      List.sum_nil, fetchAdd]
    omega
  · simp [SqsQueue.ids, Issue.sentId?]
  · simp
  · simp [Issue.id, Issue.sentId?]
  · intro m member
    rcases List.mem_append.mp member with old | new
    · have other : m.messageId ≠ messageUuidLike (n + 1) := by
        intro same
        exact fresh (List.mem_map.mpr ⟨m, old, same⟩)
      refine .inr ⟨?_, m, old, rfl, rfl⟩
      simpa [Issue.id, SqsMessage.new, number] using other
    · rw [List.mem_singleton.mp new]
      exact .inl ⟨_, List.mem_singleton_self _, rfl, rfl⟩

theorem Gives.receive {n counter : Nat} {q : SqsQueue} (env : Env) (now : Instant) (maxNumber : Nat)
    (vt : Option Nat) (start : counter = (1 + n) % 2 ^ 64)
    (few : n + increments ((ProcessOp.perform (.receive maxNumber vt)).apply env now counter q).2.1 <
      2 ^ 64) (nodup : q.ids.Nodup) :
    Gives n q ((ProcessOp.perform (.receive maxNumber vt)).apply env now counter q) := by
  obtain ⟨taken, received⟩ := receiveMessages_received now counter q maxNumber vt
  have same : q.taken now counter maxNumber vt = taken := received.taken_eq [] rfl
  simp only [ProcessOp.apply, same, increments_received] at few ⊢
  obtain ⟨stamped, last⟩ := received.stamped start few
  have ids : ((taken.map fun m => Issue.received m.messageId m.receiptHandle).map Issue.id) =
      taken.map (·.messageId) := by
    rw [List.map_map]
    rfl
  have none : (taken.map fun m => Issue.received m.messageId m.receiptHandle).filterMap
      Issue.sentId? = [] := by
    rw [List.filterMap_map]
    exact List.filterMap_eq_nil_iff.mpr fun _ _ => rfl
  constructor
  · exact stamped
  · rw [increments_received]
    exact last
  · rw [none, List.append_nil, SqsQueue.ids, received.ids.1]
    exact List.Sublist.refl _
  · rw [ids]
    exact nodup.sublist received.ids.2
  · intro id member
    rw [ids] at member
    exact .inl (received.ids.2.subset member)
  · intro m member
    rw [ids]
    obtain listed | ⟨old, other⟩ := received.kept nodup m member
    · exact .inl ⟨_, List.mem_map_of_mem listed, rfl, rfl⟩
    · exact .inr ⟨other, m, old, rfl, rfl⟩

theorem setVisibility_pairs (rh : String) (deadline : Option Instant) (msgs : List SqsMessage) :
    (SqsQueue.setVisibility rh deadline msgs).2.map (fun m => (m.messageId, m.receiptHandle)) =
      msgs.map fun m => (m.messageId, m.receiptHandle) := by
  induction msgs with
  | nil => rfl
  | cons m rest ih =>
    unfold SqsQueue.setVisibility
    by_cases here : m.receiptHandle = rh
    · simp [here]
    · simp [here, ih]

theorem ProcessOp.apply_gives {env : Env} {now : Instant} {n counter : Nat} {q : SqsQueue}
    {op : ProcessOp} (start : counter = (1 + n) % 2 ^ 64)
    (few : n + increments (op.apply env now counter q).2.1 < 2 ^ 64) (nodup : q.ids.Nodup)
    (fresh : ∀ k, n < k → k < 2 ^ 64 → messageUuidLike k ∉ q.ids) :
    Gives n q (op.apply env now counter q) := by
  cases op with
  | perform op =>
    cases op with
    | send args =>
      cases duplicate : q.isDuplicate args with
      | true =>
        simp only [ProcessOp.apply, SqsQueue.sendMessage, duplicate, if_true, List.drop_length,
          List.map_nil]
        exact .of_sublist start (List.Sublist.refl _)
      | false =>
        have total : increments
            ((ProcessOp.perform (.send args)).apply env now counter q).2.1 = 2 := by
          simp [ProcessOp.apply, SqsQueue.sendMessage, duplicate, increments, Issue.increments]
        rw [total] at few
        exact .send env now args start few (fresh _ (by omega) (by omega)) duplicate
    | receive maxNumber vt => exact .receive env now maxNumber vt start few nodup
    | delete rh =>
      refine .of_sublist start ?_
      rw [SqsQueue.deleteMessage, removeByHandle_eq]
      exact (List.eraseIdx_sublist _ _).map _
    | changeVisibility rh vt =>
      refine .of_sublist start ?_
      rw [SqsQueue.changeVisibility, setVisibility_pairs]
    | purge => exact .of_sublist start (List.nil_sublist _)
  | redrive =>
    refine .of_sublist start ?_
    unfold SqsQueue.removeDlqCandidates
    split
    · exact List.Sublist.refl _
    · exact List.filter_sublist.map _
  | setAttributes attrs => exact .of_sublist start (List.Sublist.refl _)
  | create name baseUrl accountId region attrs => exact .of_sublist start (List.nil_sublist _)

/-! ## Whole runs -/

section Runs

variable {κ : Type} [DecidableEq κ]

/-- The queues after everything in `log` was given out. -/
structure Identified (p : Process κ) (log : List Issue) : Prop where
  stamped : Stamped 0 log
  counter : p.counter = (1 + increments log) % 2 ^ 64
  nodup : ∀ k, (p.queues k).ids.Nodup
  apart : ∀ k k', k ≠ k' → (p.queues k).ids.Disjoint (p.queues k').ids
  sent : ∀ k, ∀ id ∈ (p.queues k).ids, id ∈ log.filterMap Issue.sentId?
  last : ∀ k, ∀ m ∈ (p.queues k).messages, current log m.messageId = some m.receiptHandle

omit [DecidableEq κ] in
theorem Identified.fresh {p : Process κ} {log : List Issue} (inv : Identified p log) {k : κ}
    (number : Nat) (new : increments log < number) (fits : number < 2 ^ 64) :
    messageUuidLike number ∉ (p.queues k).ids := by
  intro member
  obtain ⟨old, _, high, same⟩ := inv.stamped.id_number _ (inv.sent k _ member)
  have equal := messageUuidLike_inj fits (by omega) same
  omega

omit [DecidableEq κ] in
theorem Identified.gives {env : Env} {p : Process κ} {log : List Issue} (inv : Identified p log)
    (e : ProcessEvent κ) (few : increments (log ++ p.issued env e) < 2 ^ 64) :
    Gives (increments log) (p.queues e.queue) (e.op.apply env e.now p.counter (p.queues e.queue)) := by
  rw [increments_append] at few
  exact ProcessOp.apply_gives inv.counter few (inv.nodup _) fun k new fits => inv.fresh k new fits

omit [DecidableEq κ] in
/-- The ids that an operation on another queue gives out are not in this one. -/
theorem Identified.not_issued {env : Env} {p : Process κ} {log : List Issue} (inv : Identified p log)
    {e : ProcessEvent κ} (few : increments (log ++ p.issued env e) < 2 ^ 64) {k : κ}
    (other : k ≠ e.queue) {id : String} (member : id ∈ (p.queues k).ids) :
    id ∉ (p.issued env e).map Issue.id := by
  have gives := inv.gives e few
  have whole := stamped_append inv.stamped (by simpa using gives.stamped)
  have nodup := whole.ids_nodup (by simpa [Process.issued] using few)
  rw [List.filterMap_append] at nodup
  intro issued
  rcases gives.known id issued with old | new
  · exact inv.apart k e.queue other member old
  · exact (List.nodup_append.mp nodup).2.2 _ (inv.sent k id member) _ new rfl

theorem Identified.step {env : Env} {p : Process κ} {log : List Issue} (inv : Identified p log)
    (e : ProcessEvent κ) (few : increments (log ++ p.issued env e) < 2 ^ 64) :
    Identified (p.step env e) (log ++ p.issued env e) := by
  have gives := inv.gives e few
  have whole : Stamped 0 (log ++ p.issued env e) :=
    stamped_append inv.stamped (by simpa [Process.issued] using gives.stamped)
  have once := whole.ids_nodup (by simpa using few)
  rw [List.filterMap_append] at once
  have parts := List.nodup_append.mp once
  have here : (p.step env e).queues e.queue =
      (e.op.apply env e.now p.counter (p.queues e.queue)).1 := Function.update_self ..
  have there : ∀ k, k ≠ e.queue → (p.step env e).queues k = p.queues k := fun k other =>
    Function.update_of_ne other ..
  -- an id in the changed queue was there before or was just sent
  have origin : ∀ id ∈ ((p.step env e).queues e.queue).ids,
      id ∈ (p.queues e.queue).ids ∨ id ∈ (p.issued env e).filterMap Issue.sentId? := by
    intro id member
    rw [here] at member
    exact List.mem_append.mp (gives.ids.subset member)
  have foreign : ∀ k, k ≠ e.queue →
      (p.queues k).ids.Disjoint ((p.step env e).queues e.queue).ids := by
    intro k other id left right
    rcases origin id right with old | new
    · exact inv.apart k e.queue other left old
    · exact parts.2.2 _ (inv.sent k id left) _ new rfl
  constructor
  · exact whole
  · rw [increments_append]
    exact gives.counter
  · intro k
    by_cases same : k = e.queue
    · subst same
      rw [here]
      refine List.Nodup.sublist gives.ids ?_
      refine List.nodup_append.mpr ⟨inv.nodup _, parts.2.1, ?_⟩
      intro id old id' new
      exact parts.2.2 _ (inv.sent _ id old) _ new
    · rw [there k same]
      exact inv.nodup k
  · intro k k' different
    by_cases left : k = e.queue
    · subst left
      rw [there k' (Ne.symm different)]
      exact (foreign k' (Ne.symm different)).symm
    · rw [there k left]
      by_cases right : k' = e.queue
      · subst right
        exact foreign k left
      · rw [there k' right]
        exact inv.apart k k' different
  · intro k id member
    rw [List.filterMap_append, List.mem_append]
    by_cases same : k = e.queue
    · subst same
      exact (origin id member).imp (inv.sent _ id) (fun new => new)
    · rw [there k same] at member
      exact .inl (inv.sent k id member)
  · intro k m member
    rw [current_append]
    by_cases same : k = e.queue
    · subst same
      rw [here] at member
      rcases gives.handles m member with ⟨x, listed, id, handle⟩ | ⟨other, old, before, id, handle⟩
      · have now : current (p.issued env e) x.id = some x.handle := current_of_nodup gives.once listed
        rw [← id, ← handle, now, Option.some_or]
      · have none : current (p.issued env e) m.messageId = none := current_eq_none other
        rw [none, Option.none_or, ← id, ← handle]
        exact inv.last _ old before
    · rw [there k same] at member
      have mine : m.messageId ∈ (p.queues k).ids := List.mem_map_of_mem member
      rw [current_eq_none (inv.not_issued few same mine), Option.none_or]
      exact inv.last k m member

theorem Identified.run {env : Env} {p : Process κ} {log : List Issue} (inv : Identified p log)
    (events : List (ProcessEvent κ)) (few : increments (log ++ p.log env events) < 2 ^ 64) :
    Identified (p.run env events) (log ++ p.log env events) := by
  induction events generalizing p log with
  | nil => simpa [Process.run, Process.log] using inv
  | cons e rest ih =>
    rw [Process.log, ← List.append_assoc] at few ⊢
    have bound := few
    rw [increments_append] at bound
    exact ih (inv.step e (by omega)) few

/-- A process that has just started. -/
structure Process.Fresh (p : Process κ) : Prop where
  counter : p.counter = 1
  empty : ∀ k, (p.queues k).messages = []

omit [DecidableEq κ] in
theorem Process.Fresh.identified {p : Process κ} (fresh : p.Fresh) : Identified p [] where
  stamped := trivial
  counter := fresh.counter
  nodup := by
    intro k
    rw [SqsQueue.ids, fresh.empty]
    exact List.nodup_nil
  apart := by
    intro k k' _
    rw [SqsQueue.ids, fresh.empty]
    exact List.disjoint_nil_left _
  sent := by
    intro k id member
    rw [SqsQueue.ids, fresh.empty] at member
    cases member
  last := by
    intro k m member
    rw [fresh.empty] at member
    cases member

/-! ## Handles that no message has -/

theorem removeByHandle_absent {rh : String} {msgs : List SqsMessage}
    (absent : ∀ m ∈ msgs, m.receiptHandle ≠ rh) : SqsQueue.removeByHandle rh msgs = (false, msgs) := by
  induction msgs with
  | nil => rfl
  | cons m rest ih =>
    have later := ih fun x member => absent x (List.mem_cons_of_mem _ member)
    simp [SqsQueue.removeByHandle, absent m List.mem_cons_self, later]

theorem setVisibility_absent {rh : String} {msgs : List SqsMessage} (deadline : Option Instant)
    (absent : ∀ m ∈ msgs, m.receiptHandle ≠ rh) :
    SqsQueue.setVisibility rh deadline msgs = (false, msgs) := by
  induction msgs with
  | nil => rfl
  | cons m rest ih =>
    have later := ih fun x member => absent x (List.mem_cons_of_mem _ member)
    simp [SqsQueue.setVisibility, absent m List.mem_cons_self, later]

omit [DecidableEq κ] in
/-- At most one message, of at most one queue, has a given handle. -/
theorem Identified.holder_unique {p : Process κ} {log : List Issue} (inv : Identified p log)
    {k k' : κ} {i j : Nat} {m m' : SqsMessage} (left : (p.queues k).messages[i]? = some m)
    (right : (p.queues k').messages[j]? = some m') (same : m.receiptHandle = m'.receiptHandle) :
    k = k' ∧ i = j := by
  have handles := inv.stamped.handles_nodup
  obtain ⟨x, found, hx⟩ := Option.map_eq_some_iff.mp (inv.last k m (List.mem_of_getElem? left))
  obtain ⟨y, found', hy⟩ := Option.map_eq_some_iff.mp (inv.last k' m' (List.mem_of_getElem? right))
  have equal : x = y := List.inj_on_of_nodup_map handles
    (List.mem_reverse.mp (List.mem_of_find?_eq_some found))
    (List.mem_reverse.mp (List.mem_of_find?_eq_some found')) (hx.trans (same.trans hy.symm))
  have ids : m.messageId = m'.messageId := by
    have idx : x.id = m.messageId := by simpa using List.find?_some found
    have idy : y.id = m'.messageId := by simpa using List.find?_some found'
    rw [← idx, ← idy, equal]
  have leftId : (p.queues k).ids[i]? = some m.messageId := by simp [SqsQueue.ids, left]
  have rightId : (p.queues k').ids[j]? = some m.messageId := by simp [SqsQueue.ids, right, ids]
  by_cases queue : k = k'
  · subst queue
    obtain ⟨bound, at_i⟩ := List.getElem?_eq_some_iff.mp leftId
    obtain ⟨bound', at_j⟩ := List.getElem?_eq_some_iff.mp rightId
    exact ⟨rfl, (List.Nodup.getElem_inj_iff (inv.nodup k)).mp (at_i.trans at_j.symm)⟩
  · exact absurd (List.mem_of_getElem? rightId)
      (inv.apart k k' queue (List.mem_of_getElem? leftId))

omit [DecidableEq κ] in
theorem Identified.superseded_absent {p : Process κ} {log : List Issue} (inv : Identified p log)
    {front back : List Issue} {x y : Issue} (split : log = front ++ x :: back) (later : y ∈ back)
    (same : y.id = x.id) (k : κ) : ∀ m ∈ (p.queues k).messages, m.receiptHandle ≠ x.handle := by
  intro m member equal
  have last := inv.last k m member
  have handles := inv.stamped.handles_nodup
  subst split
  rw [equal] at last
  exact superseded handles later same m.messageId last

/-- In every run of a process whose counter does not wrap, every message gets an id of its own and
every receive a handle of its own, and a handle that a later receive replaced does nothing. -/
theorem receipt_handles_identify (env : Env) (p : Process κ) (events : List (ProcessEvent κ))
    (fresh : p.Fresh) (few : increments (p.log env events) < 2 ^ 64) :
    ((p.log env events).filterMap Issue.sentId?).Nodup ∧
    ((p.log env events).map Issue.handle).Nodup ∧
    (∀ (k k' : κ) (i j : Nat) (m m' : SqsMessage),
      ((p.run env events).queues k).messages[i]? = some m →
      ((p.run env events).queues k').messages[j]? = some m' →
      m.receiptHandle = m'.receiptHandle → k = k' ∧ i = j) ∧
    ∀ (front back : List Issue) (x y : Issue), p.log env events = front ++ x :: back → y ∈ back →
      y.id = x.id → ∀ (k : κ) (now : Instant) (vt : Nat),
      ((p.run env events).queues k).deleteMessage x.handle = (false, (p.run env events).queues k) ∧
      ((p.run env events).queues k).changeVisibility now x.handle vt =
        (false, (p.run env events).queues k) := by
  have inv : Identified (p.run env events) (p.log env events) := fresh.identified.run events few
  refine ⟨inv.stamped.ids_nodup (by omega), inv.stamped.handles_nodup, ?_, ?_⟩
  · intro k k' i j m m' left right same
    exact inv.holder_unique left right same
  · intro front back x y split later same k now vt
    have absent := inv.superseded_absent split later same k
    constructor
    · rw [SqsQueue.deleteMessage, removeByHandle_absent absent]
    · rw [SqsQueue.changeVisibility, setVisibility_absent _ absent]

end Runs

/-- One queue, in a process that has just started. -/
def startedProcess : Process Unit :=
  ⟨fun _ => SqsQueue.new 0 "jobs" "http://localhost:4566" "000000000000" "us-east-1", 1⟩

/-- A message is sent and received twice, each time for no time at all. -/
def twoReceives : List (ProcessEvent Unit) :=
  [⟨(), 0, .perform (.send ⟨"", none, ∅, none, none⟩)⟩, ⟨(), 0, .perform (.receive 1 (some 0))⟩,
    ⟨(), 0, .perform (.receive 1 (some 0))⟩]

theorem receipt_handles_identify_two_receives :
    let env : Env := ⟨fun _ => "d41d8cd98f00b204e9800998ecf8427e", fun _ => none⟩
    ((startedProcess.run env twoReceives).queues ()).deleteMessage "rh-0000000000000003" =
      (false, (startedProcess.run env twoReceives).queues ()) := by
  intro env
  have identify := receipt_handles_identify env startedProcess twoReceives ⟨rfl, fun _ => rfl⟩
    (by decide +kernel)
  have log : startedProcess.log env twoReceives =
      [.sent "00000000-0000-4001-8000-000000000001" "rh-0000000000000002",
        .received "00000000-0000-4001-8000-000000000001" "rh-0000000000000003",
        .received "00000000-0000-4001-8000-000000000001" "rh-0000000000000004"] := by decide +kernel
  exact (identify.2.2.2 [_] [_] _ _ log List.mem_cons_self rfl () 0 0).1

end Openstack.Sqs

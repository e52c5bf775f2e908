import Openstack.Sqs.Visibility

/-!
# Batches against single sends

A SendMessageBatch (`provider.rs:596-660`) beside the SendMessage requests (`provider.rs:547-594`) that its
entries stand for, one after the other on the same clock and counters. The batch drops the message
attributes of its entries, stops at the first entry without an id or a body, and never answers an error
once it has a queue URL.
-/
namespace Openstack.Sqs

/-! ## The requests that a batch stands for -/

def entryFront (i : Nat) : String := "SendMessageBatchRequestEntry" ++ "." ++ toString i ++ "."

/-- The name of a parameter within entry `i`. -/
def entryField? (i : Nat) (key : String) : Option String :=
  (RustStr.stripPrefix (entryFront i).toList key.toList).map String.ofList

/-- The parameters of entry `i`, with the queue URL of the batch. -/
def entryParams (params : Params) (i : Nat) : Params :=
  let named : Params := Std.ExtTreeMap.ofList (params.toList.filterMap fun kv =>
    (entryField? i kv.1).map fun field => (field, kv.2)) compare
  match params["QueueUrl"]? with
  | none => named.erase "QueueUrl"
  | some url => named.insert "QueueUrl" url

/-- Some parameter belongs to entry `i`. -/
def namesEntry (params : Params) (i : Nat) : Bool :=
  params.toList.any fun kv => (entryField? i kv.1).isSome

/-- The numbers of the entries, from one on. -/
def entryNumbers (params : Params) : List Nat :=
  indexed params fun i => if namesEntry params i then some i else none

def Request.sendEntry (req : Request) (i : Nat) : Request :=
  { req with action := "SendMessage", params := entryParams req.params i }

/-- One SendMessage for each entry: the answers, and what is left. -/
@[grind] def sendEntries (env : Env) (req : Request) : Session → List Nat → List DispatchResponse × Session
  | s, [] => ([], s)
  | s, i :: rest =>
    let sent := handleSendMessage env (req.sendEntry i) s
    let later := sendEntries env req sent.2 rest
    (sent.1 :: later.1, later.2)

/-- The batch leaves the store that the single sends leave, and is refused when one of them is. -/
def BatchIsSends (env : Env) (req : Request) (s : Session) : Prop :=
  let singles := sendEntries env req s (entryNumbers req.params)
  (handleSendMessageBatch env req s).2.store = singles.2.store ∧
    ((handleSendMessageBatch env req s).1.statusCode ≠ 200 ↔ ∃ r ∈ singles.1, r.statusCode ≠ 200)

/-! ## When they agree -/

def entryId (params : Params) (i : Nat) : Option String := params[entryFront i ++ "Id"]?

def entryBody (params : Params) (i : Nat) : Option String := params[entryFront i ++ "MessageBody"]?

def entryDedupId (params : Params) (i : Nat) : Option String :=
  params[entryFront i ++ "MessageDeduplicationId"]?

/-- The queue is FIFO and knows the deduplication id of the entry, or an entry before has it too. -/
def RepeatsId (q : SqsQueue) (params : Params) (before : List Nat) (i : Nat) : Prop :=
  q.fifo = true ∧ ∃ did, entryDedupId params i = some did ∧
    (q.dedupIds.contains did = true ∨ ∃ j ∈ before, entryDedupId params j = some did)

/-- Entry `i` and those before it have ids, and it has no message attribute. -/
def PlainEntry (params : Params) (before : List Nat) (i : Nat) : Prop :=
  (∀ j ∈ before ++ [i], (entryId params j).isSome = true) ∧
    params[entryFront i ++ "MessageAttribute.1.Name"]? = none

/-- Each entry has a body, and is plain or repeats a deduplication id. -/
def EntriesPlain (q : SqsQueue) (params : Params) : Prop :=
  ∀ before i after, entryNumbers params = before ++ i :: after →
    (entryBody params i).isSome = true ∧ (RepeatsId q params before i ∨ PlainEntry params before i)

/-- The queue exists and its entries are plain, or the batch has no entries; without a queue URL it must
have some. -/
def SendsLikeSingles (req : Request) (s : Session) : Prop :=
  match req.queueName? with
  | none => entryNumbers req.params ≠ []
  | some name =>
    match s.store.queues[name]? with
    | none => entryNumbers req.params = []
    | some q => EntriesPlain q req.params

/-! ## Parameters -/

theorem entryField?_eq_some {i : Nat} {key field : String} :
    entryField? i key = some field ↔ key = entryFront i ++ field := by
  rw [entryField?, RustStr.stripPrefix]
  constructor
  · intro found
    split at found
    · next starts =>
      obtain ⟨rest, same⟩ := List.isPrefixOf_iff_prefix.mp starts
      rw [← same, List.drop_left, Option.map_some, Option.some.injEq] at found
      rw [← String.toList_inj, String.toList_append, ← found, String.toList_ofList, same]
    · cases found
  · rintro rfl
    have starts : (entryFront i).toList.isPrefixOf (entryFront i ++ field).toList = true := by
      rw [String.toList_append]
      exact List.isPrefixOf_iff_prefix.mpr (List.prefix_append _ _)
    rw [if_pos starts, String.toList_append, List.drop_left, Option.map_some, String.ofList_toList]

theorem entryParams_named (params : Params) (i : Nat) (field : String) :
    (Std.ExtTreeMap.ofList (params.toList.filterMap fun kv =>
      (entryField? i kv.1).map fun field => (field, kv.2)) compare : Params)[field]? =
      params[entryFront i ++ field]? := by
  cases held : params[entryFront i ++ field]? with
  | some v =>
    refine Std.ExtTreeMap.getElem?_ofList_of_mem Std.ReflCmp.compare_self ?_ ?_
    · refine List.Pairwise.filterMap _ ?_ Std.ExtTreeMap.distinct_keys_toList
      rintro ⟨key, w⟩ ⟨key', w'⟩ apart ⟨f, x⟩ found ⟨f', x'⟩ found' same
      obtain ⟨g, own, pair⟩ := Option.map_eq_some_iff.mp found
      obtain ⟨g', own', pair'⟩ := Option.map_eq_some_iff.mp found'
      cases pair
      cases pair'
      rw [Std.LawfulEqCmp.compare_eq_iff_eq] at same
      simp only at same
      subst same
      rw [entryField?_eq_some] at own own'
      exact apart (by rw [own, own']; exact Std.ReflCmp.compare_self)
    · refine List.mem_filterMap.mpr ⟨(entryFront i ++ field, v), ?_, ?_⟩
      · exact Std.ExtTreeMap.mem_toList_iff_getElem?_eq_some.mpr held
      · rw [entryField?_eq_some.mpr rfl, Option.map_some]
  | none =>
    refine Std.ExtTreeMap.getElem?_ofList_of_contains_eq_false ?_
    rw [← Bool.not_eq_true, List.contains_iff_mem, List.mem_map]
    rintro ⟨⟨f, v⟩, listed, rfl⟩
    obtain ⟨⟨key, w⟩, member, found⟩ := List.mem_filterMap.mp listed
    obtain ⟨g, own, pair⟩ := Option.map_eq_some_iff.mp found
    cases pair
    rw [entryField?_eq_some] at own
    subst own
    rw [Std.ExtTreeMap.mem_toList_iff_getElem?_eq_some, held] at member
    cases member

theorem entryParams_get (params : Params) (i : Nat) (field : String) :
    (entryParams params i)[field]? =
      if field = "QueueUrl" then params["QueueUrl"]? else params[entryFront i ++ field]? := by
  rw [entryParams]
  cases url : params["QueueUrl"]? with
  | none =>
    simp only [StrMap.getElem?_erase, entryParams_named, eq_comm (a := "QueueUrl")]
  | some u =>
    simp only [StrMap.getElem?_insert, entryParams_named, eq_comm (a := "QueueUrl")]

theorem namesEntry_of_some {params : Params} {i : Nat} {field v : String}
    (held : params[entryFront i ++ field]? = some v) : namesEntry params i = true := by
  refine List.any_eq_true.mpr ⟨(entryFront i ++ field, v), ?_, ?_⟩
  · exact Std.ExtTreeMap.mem_toList_iff_getElem?_eq_some.mpr held
  · rw [entryField?_eq_some.mpr rfl, Option.isSome_some]

/-! ## Sends in a row -/

/-- The sends of a list, one after the other. -/
@[grind] def sendAll (env : Env) (now : Instant) : Nat → SqsQueue → List SendArgs → SqsQueue × Nat
  | counter, q, [] => (q, counter)
  | counter, q, args :: rest =>
    sendAll env now (q.sendMessage env now counter args).2.2 (q.sendMessage env now counter args).2.1 rest

section Sends

variable {env : Env} {now : Instant}

theorem sendBatch_queue (counter : Nat) (q : SqsQueue) (entries : List (String × SendArgs)) :
    (sendBatch env now counter q entries).2 = sendAll env now counter q (entries.map Prod.snd) := by
  induction entries generalizing counter q with
  | nil => rfl
  | cons e rest ih => exact ih _ _

theorem sendMessage_duplicate {q : SqsQueue} {args : SendArgs} (duplicate : q.isDuplicate args = true)
    (counter : Nat) : q.sendMessage env now counter args = (none, q, counter) := by
  rw [SqsQueue.sendMessage, if_pos duplicate]

/-- An accepted message goes to the end of the queue with its attributes. -/
theorem sendMessage_fresh {q : SqsQueue} {args : SendArgs} (fresh : ¬ q.isDuplicate args = true)
    (counter : Nat) : ∃ msg, msg.messageAttributes = args.messageAttributes ∧
      (q.sendMessage env now counter args).2.1.messages = q.messages ++ [msg] := by
  rw [SqsQueue.sendMessage, if_neg fresh]
  exact ⟨_, rfl, rfl⟩

theorem sendMessage_messages (q : SqsQueue) (args : SendArgs) (counter : Nat) :
    ∃ more, (q.sendMessage env now counter args).2.1.messages = q.messages ++ more := by
  by_cases duplicate : q.isDuplicate args = true
  · exact ⟨[], by rw [sendMessage_duplicate duplicate, List.append_nil]⟩
  · obtain ⟨msg, _, sent⟩ := @sendMessage_fresh env now _ _ duplicate counter
    exact ⟨[msg], sent⟩

theorem sendAll_messages (args : List SendArgs) (q : SqsQueue) (counter : Nat) :
    ∃ more, (sendAll env now counter q args).1.messages = q.messages ++ more := by
  induction args generalizing q counter with
  | nil => exact ⟨[], (List.append_nil _).symm⟩
  | cons a rest ih =>
    obtain ⟨first, one⟩ := @sendMessage_messages env now q a counter
    obtain ⟨more, later⟩ := ih (q.sendMessage env now counter a).2.1 (q.sendMessage env now counter a).2.2
    exact ⟨first ++ more, by rw [sendAll, later, one, List.append_assoc]⟩

/-- After an accepted message the queue is `front ++ msg :: more` for good. -/
theorem sendAll_fresh {q : SqsQueue} {args : SendArgs} (fresh : ¬ q.isDuplicate args = true)
    (rest : List SendArgs) (counter : Nat) : ∃ msg more,
      msg.messageAttributes = args.messageAttributes ∧
        (sendAll env now counter q (args :: rest)).1.messages = q.messages ++ msg :: more := by
  obtain ⟨msg, same, sent⟩ := @sendMessage_fresh env now _ _ fresh counter
  obtain ⟨more, later⟩ := @sendAll_messages env now rest
    (q.sendMessage env now counter args).2.1 (q.sendMessage env now counter args).2.2
  exact ⟨msg, more, same, by rw [sendAll, later, sent, List.append_assoc, List.singleton_append]⟩

theorem sendMessage_fifo (q : SqsQueue) (args : SendArgs) (counter : Nat) :
    (q.sendMessage env now counter args).2.1.fifo = q.fifo := by
  rw [SqsQueue.sendMessage]
  split
  · rfl
  · rfl

theorem sendMessage_knows {q : SqsQueue} (fifo : q.fifo = true) (args : SendArgs) (counter : Nat)
    (did : String) : (q.sendMessage env now counter args).2.1.dedupIds.contains did = true ↔
      q.dedupIds.contains did = true ∨ args.dedupId = some did := by
  by_cases duplicate : q.isDuplicate args = true
  · rw [sendMessage_duplicate duplicate]
    refine ⟨.inl, fun known => known.elim id fun own => ?_⟩
    rw [SqsQueue.isDuplicate, own] at duplicate
    simpa [fifo] using duplicate
  · rw [SqsQueue.sendMessage, if_neg duplicate]
    cases own : args.dedupId with
    | none => simp
    | some d =>
      simp only [Std.ExtTreeMap.contains_insert, Bool.or_eq_true, beq_iff_eq,
        Std.LawfulEqCmp.compare_eq_iff_eq, Option.some.injEq]
      exact or_comm

theorem isDuplicate_iff (q : SqsQueue) (args : SendArgs) : q.isDuplicate args = true ↔
    q.fifo = true ∧ ∃ did, args.dedupId = some did ∧ q.dedupIds.contains did = true := by
  rw [SqsQueue.isDuplicate]
  cases args.dedupId with
  | none => simp
  | some did => simp

/-- A send after others is a duplicate when the queue knew its id or one of the others has it. -/
theorem isDuplicate_sendAll (before : List SendArgs) (q : SqsQueue) (counter : Nat) (args : SendArgs) :
    (sendAll env now counter q before).1.isDuplicate args = true ↔
      q.fifo = true ∧ ∃ did, args.dedupId = some did ∧
        (q.dedupIds.contains did = true ∨ ∃ b ∈ before, b.dedupId = some did) := by
  induction before generalizing q counter with
  | nil => simp [sendAll, isDuplicate_iff]
  | cons b rest ih =>
    rw [sendAll, ih, sendMessage_fifo]
    refine and_congr_right fun fifo => exists_congr fun did => and_congr_right fun _ => ?_
    rw [sendMessage_knows fifo, or_assoc]
    exact or_congr_right (List.exists_mem_cons_iff (fun x : SendArgs => x.dedupId = some did) b rest).symm

theorem forall_split_cons {α : Type} {x : α} {l : List α} {P : List α → α → Prop} :
    (∀ before i after, x :: l = before ++ i :: after → P before i) ↔
      P [] x ∧ ∀ before i after, l = before ++ i :: after → P (x :: before) i := by
  constructor
  · intro each
    exact ⟨each [] x l rfl, fun before i after split => each (x :: before) i after (by rw [split]; rfl)⟩
  · rintro ⟨first, later⟩ before i after split
    cases before with
    | nil =>
      cases split
      exact first
    | cons y before =>
      obtain ⟨rfl, rest⟩ := List.cons.inj split
      exact later before i after rest

/-- The sends of the batch: without attributes, and none once an entry was not kept. -/
def keptSends (single : Nat → SendArgs) (keep : Nat → Bool) (kept : Bool) (entries : List Nat) :
    List SendArgs :=
  if kept then (entries.takeWhile keep).map fun i => { single i with messageAttributes := ∅ } else []

theorem keptSends_cons (single : Nat → SendArgs) (keep : Nat → Bool) (kept : Bool) (i : Nat)
    (rest : List Nat) : keptSends single keep kept (i :: rest) =
      if kept && keep i then
        { single i with messageAttributes := ∅ } :: keptSends single keep (kept && keep i) rest
      else keptSends single keep (kept && keep i) rest := by
  cases kept <;> cases here : keep i <;> simp [keptSends, here]

/-- The batch leaves the queue of the single sends exactly when each of these is a duplicate in its turn,
or is kept and carries no attributes. -/
theorem keptSends_iff (single : Nat → SendArgs) (keep : Nat → Bool) (kept : Bool) (entries : List Nat)
    (q : SqsQueue) (counter : Nat) :
    (sendAll env now counter q (keptSends single keep kept entries)).1 =
        (sendAll env now counter q (entries.map single)).1 ↔
      ∀ before i after, entries = before ++ i :: after →
        (sendAll env now counter q (before.map single)).1.isDuplicate (single i) = true ∨
          (kept = true ∧ ∀ j ∈ before ++ [i], keep j = true) ∧ (single i).messageAttributes = ∅ := by
  induction entries generalizing q counter kept with
  | nil => cases kept <;> simp [keptSends]
  | cons i rest ih =>
    rw [forall_split_cons, keptSends_cons, List.map_cons]
    have flags : ∀ before j, (kept = true ∧ ∀ k ∈ i :: before ++ [j], keep k = true) ↔
        (kept && keep i) = true ∧ ∀ k ∈ before ++ [j], keep k = true := by
      intro before j
      rw [List.cons_append, List.forall_mem_cons, Bool.and_eq_true, and_assoc]
    by_cases duplicate : q.isDuplicate (single i) = true
    · -- both pass over the entry
      have again : q.isDuplicate { single i with messageAttributes := ∅ } = true := duplicate
      have same : (sendAll env now counter q (single i :: rest.map single)).1 =
          (sendAll env now counter q (rest.map single)).1 := by
        rw [sendAll, sendMessage_duplicate duplicate]
      have passed : (sendAll env now counter q (if kept && keep i then
          { single i with messageAttributes := ∅ } :: keptSends single keep (kept && keep i) rest
          else keptSends single keep (kept && keep i) rest)).1 =
            (sendAll env now counter q (keptSends single keep (kept && keep i) rest)).1 := by
        split
        · rw [sendAll, sendMessage_duplicate again]
        · rfl
      rw [same, passed, ih]
      refine Iff.trans ?_ (and_iff_right (.inl duplicate)).symm
      refine forall_congr' fun before => forall_congr' fun j => forall_congr' fun after =>
        imp_congr_right fun _ => ?_
      rw [flags, List.map_cons, sendAll, sendMessage_duplicate duplicate]
    · obtain ⟨msg, more, attributes, sent⟩ := @sendAll_fresh env now _ _ duplicate
        (rest.map single) counter
      by_cases plain : (kept && keep i) = true ∧ (single i).messageAttributes = ∅
      · -- both send the same message
        have own : { single i with messageAttributes := ∅ } = single i := by rw [← plain.2]
        rw [if_pos plain.1, own, sendAll, sendAll, ih]
        have here : (sendAll env now counter q ([].map single)).1.isDuplicate (single i) = true ∨
            (kept = true ∧ ∀ j ∈ [] ++ [i], keep j = true) ∧ (single i).messageAttributes = ∅ := by
          refine .inr ⟨?_, plain.2⟩
          simpa using plain.1
        refine Iff.trans ?_ (and_iff_right here).symm
        refine forall_congr' fun before => forall_congr' fun j => forall_congr' fun after =>
          imp_congr_right fun _ => ?_
        rw [flags, List.map_cons, sendAll]
      · refine iff_of_false ?_ ?_
        · intro same
          have messages := congrArg SqsQueue.messages same
          rw [sent] at messages
          cases flag : kept && keep i with
          | false =>
            rw [flag] at messages
            have long := congrArg List.length messages
            simp [keptSends, sendAll] at long
          | true =>
            rw [flag, if_pos rfl] at messages
            obtain ⟨msg', more', none', sent'⟩ := @sendAll_fresh env now _
              { single i with messageAttributes := ∅ } duplicate
              (keptSends single keep true rest) counter
            rw [sent'] at messages
            have heads := (List.cons.inj (List.append_cancel_left messages)).1
            exact plain ⟨flag, by rw [← attributes, ← heads, none']⟩
        · rintro ⟨head | ⟨⟨flag, each⟩, empty⟩, _⟩
          · exact duplicate head
          · refine plain ⟨?_, empty⟩
            rw [flag, each i (by simp)]
            rfl

end Sends

/-! ## Entries -/

/-- What SendMessage reads for entry `i`. -/
def entryArgs (params : Params) (i : Nat) : SendArgs :=
  sendArgs (entryParams params i) ((entryBody params i).getD "")

/-- What the batch loop reads for entry `i`. -/
def batchEntry (params : Params) (i : Nat) : Option (String × SendArgs) :=
  (entryId params i).bind fun id => (entryBody params i).map fun _ =>
    (id, { entryArgs params i with messageAttributes := ∅ })

section Entries

variable {params : Params} {i : Nat}

theorem entryParams_other {field : String} (other : field ≠ "QueueUrl") :
    (entryParams params i)[field]? = params[entryFront i ++ field]? := by
  rw [entryParams_get, if_neg other]

theorem entryArgs_dedupId : (entryArgs params i).dedupId = entryDedupId params i :=
  entryParams_other (by decide)

theorem entryArgs_attributes : (entryArgs params i).messageAttributes = ∅ ↔
    params[entryFront i ++ "MessageAttribute.1.Name"]? = none := by
  rw [← entryParams_other (i := i) (show "MessageAttribute.1.Name" ≠ "QueueUrl" by decide)]
  exact extractMessageAttributes_eq_empty_iff _

theorem batchEntries_eq (params : Params) : batchEntries params = indexed params (batchEntry params) := by
  unfold batchEntries
  congr 1
  funext i
  have id : indexedParam params "SendMessageBatchRequestEntry" i "Id" = entryId params i := rfl
  have body : indexedParam params "SendMessageBatchRequestEntry" i "MessageBody" = entryBody params i := rfl
  rw [id, body, batchEntry]
  cases entryId params i with
  | none => rfl
  | some id =>
    cases text : entryBody params i with
    | none => rfl
    | some body =>
      have delay : (entryParams params i)["DelaySeconds"]? =
          indexedParam params "SendMessageBatchRequestEntry" i "DelaySeconds" := entryParams_other (by decide)
      have group : (entryParams params i)["MessageGroupId"]? =
          indexedParam params "SendMessageBatchRequestEntry" i "MessageGroupId" := entryParams_other (by decide)
      have dedup : (entryParams params i)["MessageDeduplicationId"]? =
          indexedParam params "SendMessageBatchRequestEntry" i "MessageDeduplicationId" :=
        entryParams_other (by decide)
      simp [entryArgs, sendArgs, delay, group, dedup, text]

theorem batchEntry_named (found : (batchEntry params i).isSome = true) : namesEntry params i = true := by
  cases id : entryId params i with
  | none =>
    rw [batchEntry, id] at found
    cases found
  | some id' => exact namesEntry_of_some id

theorem batchEntry_isSome (body : (entryBody params i).isSome = true) :
    (batchEntry params i).isSome = (entryId params i).isSome := by
  obtain ⟨text, held⟩ := Option.isSome_iff_exists.mp body
  rw [batchEntry, held]
  cases entryId params i <;> rfl

/-- The loop over the entries sees those that are named, up to the first one that it cannot read. -/
theorem indexedFrom_takeWhile {α : Type} {entry : Nat → Option α} {named : Nat → Bool}
    (covers : ∀ i, (entry i).isSome = true → named i = true) (fuel i : Nat) :
    indexedFrom entry fuel i =
      ((indexedFrom (fun i => if named i then some i else none) fuel i).takeWhile
        fun i => (entry i).isSome).filterMap entry := by
  induction fuel generalizing i with
  | zero => rfl
  | succ fuel ih =>
    rw [indexedFrom, indexedFrom]
    cases read : entry i with
    | none =>
      by_cases here : named i = true
      · simp [here, read]
      · simp [here]
    | some e =>
      have here := covers i (by rw [read]; rfl)
      simp only [here, if_true]
      rw [List.takeWhile_cons_of_pos (by rw [read]; rfl), List.filterMap_cons_some read, ih (i + 1)]

theorem batchEntries_sends (params : Params) : (batchEntries params).map Prod.snd =
    keptSends (entryArgs params) (fun i => (batchEntry params i).isSome) true (entryNumbers params) := by
  rw [batchEntries_eq, indexed, indexedFrom_takeWhile fun i => batchEntry_named, keptSends, if_pos rfl,
    ← indexed, ← entryNumbers, List.map_filterMap, ← List.filterMap_eq_map]
  refine List.filterMap_congr fun i member => ?_
  have read := List.mem_takeWhile_imp member
  rw [batchEntry] at read ⊢
  cases id : entryId params i with
  | none =>
    rw [id] at read
    cases read
  | some _ =>
    cases body : entryBody params i with
    | none =>
      rw [id, body] at read
      cases read
    | some _ => rfl

end Entries

/-! ## The single sends -/

section Singles

variable {env : Env} {req : Request} {s : Session} {name : String}

theorem sendEntry_queueName (req : Request) (i : Nat) : (req.sendEntry i).queueName? = req.queueName? := by
  rw [Request.queueName?, Request.queueName?, Request.sendEntry, entryParams_get, if_pos rfl]

theorem sendEntry_body (req : Request) (i : Nat) :
    (req.sendEntry i).params["MessageBody"]? = entryBody req.params i := entryParams_other (by decide)

/-- A send that is refused leaves the session as it is. -/
theorem sendEntries_refused {answer : Nat → DispatchResponse} {entries : List Nat}
    (refused : ∀ i ∈ entries, handleSendMessage env (req.sendEntry i) s = (answer i, s)) :
    sendEntries env req s entries = (entries.map answer, s) := by
  induction entries with
  | nil => rfl
  | cons i rest ih =>
    rw [sendEntries, refused i List.mem_cons_self]
    simp [ih fun j member => refused j (List.mem_cons_of_mem _ member)]

theorem sendEntry_noUrl (url : req.queueName? = none) (i : Nat) :
    handleSendMessage env (req.sendEntry i) s = (missingParameter "QueueUrl", s) := by
  rw [handleSendMessage, sendEntry_queueName, url]

theorem sendEntry_noBody (url : req.queueName? = some name) {i : Nat}
    (body : entryBody req.params i = none) (s : Session) :
    handleSendMessage env (req.sendEntry i) s = (missingParameter "MessageBody", s) := by
  rw [handleSendMessage, sendEntry_queueName, url]
  simp only [sendEntry_body, body]

theorem sendEntry_noQueue (url : req.queueName? = some name) (queue : s.store.queues[name]? = none)
    (i : Nat) : ∃ r : DispatchResponse, r.statusCode = 400 ∧
      handleSendMessage env (req.sendEntry i) s = (r, s) := by
  cases body : entryBody req.params i with
  | none => exact ⟨_, rfl, sendEntry_noBody url body s⟩
  | some text =>
    refine ⟨nonExistentQueue, rfl, ?_⟩
    rw [handleSendMessage, sendEntry_queueName, url]
    simp only [sendEntry_body, body, queue]

/-- Each answer is that of a single send. -/
theorem mem_sendEntries {entries : List Nat} {i : Nat} (member : i ∈ entries) (s : Session) :
    ∃ s', (handleSendMessage env (req.sendEntry i) s').1 ∈ (sendEntries env req s entries).1 := by
  induction entries generalizing s with
  | nil => cases member
  | cons j rest ih =>
    rw [sendEntries]
    rcases List.mem_cons.mp member with rfl | later
    · exact ⟨s, List.mem_cons_self⟩
    · obtain ⟨s', found⟩ := ih later (handleSendMessage env (req.sendEntry j) s).2
      exact ⟨s', List.mem_cons_of_mem _ found⟩

/-- The session after a send to the queue `q` called `name`. -/
def Session.afterSend (s : Session) (env : Env) (now : Instant) (name : String) (q : SqsQueue)
    (args : SendArgs) : Session :=
  let sent := q.sendMessage env now s.messageIds args
  (newRequestId ({ s with messageIds := sent.2.2 }.setQueue name sent.2.1)).2

theorem sendEntry_sent (url : req.queueName? = some name) {q : SqsQueue}
    (queue : s.store.queues[name]? = some q) {i : Nat} (body : (entryBody req.params i).isSome = true) :
    (handleSendMessage env (req.sendEntry i) s).1.statusCode = 200 ∧
      (handleSendMessage env (req.sendEntry i) s).2 =
        s.afterSend env req.now name q (entryArgs req.params i) := by
  obtain ⟨text, held⟩ := Option.isSome_iff_exists.mp body
  have args : sendArgs (req.sendEntry i).params text = entryArgs req.params i := by
    rw [entryArgs, held, Option.getD_some]
    rfl
  rw [handleSendMessage, sendEntry_queueName, url]
  simp only [sendEntry_body, held, queue, args]
  exact ⟨rfl, rfl⟩

theorem afterSend_queues (env : Env) (now : Instant) (q : SqsQueue) (args : SendArgs) (k : String) :
    (s.afterSend env now name q args).store.queues[k]? =
      if name = k then some (q.sendMessage env now s.messageIds args).2.1 else s.store.queues[k]? :=
  Session.setQueue_queues _ _ _ _

/-- Entries with bodies are sent to the queue one after the other. -/
theorem sendEntries_queue (url : req.queueName? = some name) {entries : List Nat}
    (bodies : ∀ i ∈ entries, (entryBody req.params i).isSome = true) {q : SqsQueue}
    (queue : s.store.queues[name]? = some q) :
    (sendEntries env req s entries).2.store.queues = s.store.queues.insert name
        (sendAll env req.now s.messageIds q (entries.map (entryArgs req.params))).1 ∧
      ∀ r ∈ (sendEntries env req s entries).1, r.statusCode = 200 := by
  induction entries generalizing s q with
  | nil =>
    refine ⟨Std.ExtTreeMap.ext_getElem? fun k => ?_, fun r member => by cases member⟩
    rw [List.map_nil, sendAll, StrMap.getElem?_insert]
    split
    · next same => rw [← same, sendEntries, queue]
    · rfl
  | cons i rest ih =>
    obtain ⟨ok, after⟩ := @sendEntry_sent env _ _ _ url _ queue _ (bodies i List.mem_cons_self)
    have stored : (s.afterSend env req.now name q (entryArgs req.params i)).store.queues[name]? =
        some (q.sendMessage env req.now s.messageIds (entryArgs req.params i)).2.1 := by
      rw [afterSend_queues, if_pos rfl]
    obtain ⟨queues, answers⟩ := ih (fun j member => bodies j (List.mem_cons_of_mem _ member)) stored
    rw [sendEntries, after]
    refine ⟨Std.ExtTreeMap.ext_getElem? fun k => ?_, fun r member => ?_⟩
    · rw [queues, StrMap.getElem?_insert, StrMap.getElem?_insert, afterSend_queues]
      split
      · rfl
      · rfl
    · rcases List.mem_cons.mp member with rfl | later
      · exact ok
      · exact answers r later

end Singles

/-! ## The batch -/

theorem handleSendMessageBatch_queue {env : Env} {req : Request} {s : Session} {name : String}
    {q : SqsQueue} (url : req.queueName? = some name) (queue : s.store.queues[name]? = some q) :
    (handleSendMessageBatch env req s).2.store.queues = s.store.queues.insert name
        (sendAll env req.now s.messageIds q (keptSends (entryArgs req.params)
          (fun i => (batchEntry req.params i).isSome) true (entryNumbers req.params))).1 ∧
      (handleSendMessageBatch env req s).1.statusCode = 200 := by
  rw [handleSendMessageBatch, url]
  simp only [queue]
  refine ⟨?_, rfl⟩
  rw [← batchEntries_sends, ← sendBatch_queue]
  rfl

/-- With a queue and bodies, the batch leaves the store of the single sends exactly when its entries are
plain. -/
theorem batch_store_iff {env : Env} {req : Request} {s : Session} {name : String} {q : SqsQueue}
    (url : req.queueName? = some name) (queue : s.store.queues[name]? = some q)
    (bodies : ∀ i ∈ entryNumbers req.params, (entryBody req.params i).isSome = true) :
    (handleSendMessageBatch env req s).2.store = (sendEntries env req s (entryNumbers req.params)).2.store ↔
      ∀ before i after, entryNumbers req.params = before ++ i :: after →
        RepeatsId q req.params before i ∨ PlainEntry req.params before i := by
  have stores : ∀ a b : SqsStore, a = b ↔ a.queues = b.queues := by
    intro a b
    cases a
    cases b
    simp
  have inserts : ∀ a b : SqsQueue, s.store.queues.insert name a = s.store.queues.insert name b ↔ a = b := by
    intro a b
    refine ⟨fun same => ?_, fun same => by rw [same]⟩
    have found := congrArg (fun m : StrMap SqsQueue => m[name]?) same
    simpa using found
  rw [stores, (handleSendMessageBatch_queue url queue).1, (sendEntries_queue url bodies queue).1, inserts,
    keptSends_iff]
  refine forall_congr' fun before => forall_congr' fun i => forall_congr' fun after =>
    forall_congr' fun split => ?_
  have body : ∀ j ∈ before ++ [i], (entryBody req.params j).isSome = true := by
    intro j member
    refine bodies j ?_
    rw [split, ← List.singleton_append, ← List.append_assoc]
    exact List.mem_append_left _ member
  refine or_congr ?_ (and_congr ?_ entryArgs_attributes)
  · rw [isDuplicate_sendAll, RepeatsId]
    simp [exists_exists_and_eq_and, entryArgs_dedupId]
  · rw [and_iff_right rfl]
    exact forall₂_congr fun j member => by rw [batchEntry_isSome (body j member)]

/-- A batch send does what its single sends do exactly when its queue exists and its entries are plain, or
it has no entries. -/
theorem batch_is_sends_iff (env : Env) (req : Request) (s : Session) :
    BatchIsSends env req s ↔ SendsLikeSingles req s := by
  rw [BatchIsSends, SendsLikeSingles]
  cases url : req.queueName? with
  | none =>
    have batch : handleSendMessageBatch env req s = (missingParameter "QueueUrl", s) := by
      rw [handleSendMessageBatch, url]
    have refused : (missingParameter "QueueUrl").statusCode ≠ 200 := by decide
    rw [batch, sendEntries_refused fun i _ => @sendEntry_noUrl env _ s url i]
    simp only [List.mem_map]
    constructor
    · rintro ⟨_, agree⟩ none_left
      obtain ⟨_, ⟨i, member, _⟩, _⟩ := agree.mp refused
      rw [none_left] at member
      cases member
    · intro some_left
      obtain ⟨i, member⟩ := List.exists_mem_of_ne_nil _ some_left
      exact ⟨trivial, iff_of_true refused ⟨_, ⟨i, member, rfl⟩, refused⟩⟩
  | some name =>
    cases queue : s.store.queues[name]? with
    | none =>
      have batch : handleSendMessageBatch env req s = s.wrap "SendMessageBatch" "" := by
        rw [handleSendMessageBatch, url]
        simp only [queue]
      have fails := fun i => @sendEntry_noQueue env _ _ _ url queue i
      rw [batch, sendEntries_refused fun i _ => (fails i).choose_spec.2]
      simp only [queue, Session.wrap_store, true_and]
      constructor
      · intro agree
        by_contra some_left
        obtain ⟨i, member⟩ := List.exists_mem_of_ne_nil _ some_left
        refine agree.mpr ⟨_, List.mem_map.mpr ⟨i, member, rfl⟩, ?_⟩ rfl
        rw [(fails i).choose_spec.1]
        decide
      · intro none_left
        rw [none_left]
        exact iff_of_false (fun bad => bad rfl) (by simp)
    | some q =>
      have ok := (@handleSendMessageBatch_queue env _ _ _ _ url queue).2
      simp only [queue]
      by_cases bodies : ∀ i ∈ entryNumbers req.params, (entryBody req.params i).isSome = true
      · have answers := (@sendEntries_queue env _ _ _ url _ bodies _ queue).2
        have agree : (handleSendMessageBatch env req s).1.statusCode ≠ 200 ↔
            ∃ r ∈ (sendEntries env req s (entryNumbers req.params)).1, r.statusCode ≠ 200 :=
          iff_of_false (fun bad => bad ok) (by rintro ⟨r, member, bad⟩; exact bad (answers r member))
        rw [and_iff_left agree, batch_store_iff url queue bodies]
        refine forall_congr' fun before => forall_congr' fun i => forall_congr' fun after =>
          forall_congr' fun split => ?_
        exact (and_iff_right (bodies i (by rw [split]; simp))).symm
      · refine iff_of_false ?_ ?_
        · rintro ⟨_, agree⟩
          obtain ⟨i, member, lost⟩ : ∃ i ∈ entryNumbers req.params, entryBody req.params i = none := by
            simpa using bodies
          obtain ⟨s', found⟩ := @mem_sendEntries env req _ _ member s
          rw [sendEntry_noBody url lost s'] at found
          have refused : (missingParameter "MessageBody").statusCode ≠ 200 := by decide
          exact agree.mpr ⟨_, found, refused⟩ ok
        · intro each
          refine bodies fun i member => ?_
          obtain ⟨before, after, split⟩ := List.append_of_mem member
          exact (each before i after split).1

/-- A batch of one empty message for a queue that is not there. -/
def lostBatch : Request :=
  { accountId := "000000000000"
    region := "us-east-1"
    headers := ∅
    action := "SendMessageBatch"
    params := Std.ExtTreeMap.ofList [("QueueUrl", "http://localhost:4566/000000000000/jobs"),
      ("SendMessageBatchRequestEntry.1.Id", "a"), ("SendMessageBatchRequestEntry.1.MessageBody", "")] compare
    now := 0 }

/-- SendMessage answers that the queue does not exist, the batch answers 200. -/
theorem batch_hides_missing_queue : ¬ BatchIsSends emptyBodyEnv lostBatch ⟨{}, 1, 1⟩ := by
  rintro ⟨_, agree⟩
  have refused : ∃ r ∈ (sendEntries emptyBodyEnv lostBatch ⟨{}, 1, 1⟩ (entryNumbers lostBatch.params)).1,
      r.statusCode ≠ 200 := by decide +kernel
  exact agree.mpr refused (by decide +kernel)

end Openstack.Sqs

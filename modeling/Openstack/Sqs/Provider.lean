import Openstack.Sqs.Queue

/-!
# The SQS provider, query protocol

`crates/services/sqs/src/provider.rs`: the handlers and the dispatch of form
requests. A request carries its parameters as `parse_params` and
`apply_transport_compat` leave them, and the instant its handler reads the clock
at. A response's attribute maps are printed in key order, one of the orders the
source's hash maps may choose. The JSON mode of the protocol is in `Wire`.
-/
namespace Openstack.Sqs

abbrev Params := StrMap String

structure DispatchResponse where
  statusCode : Nat
  body : String
  contentType : String
  deriving DecidableEq, Repr

inductive DispatchError where
  | notImplemented (action : String)
  deriving DecidableEq, Repr

def escapeXmlChar : Char → List Char
  | '&' => "&amp;".toList
  | '<' => "&lt;".toList
  | '>' => "&gt;".toList
  | '"' => "&quot;".toList
  | c => [c]

/-- `escape_xml` and `push_xml_escaped`; their fast path returns the same text. -/
def escapeXml (s : String) : String := String.ofList (s.toList.flatMap escapeXmlChar)

def xmlns : String := " xmlns=\"http://queue.amazonaws.com/doc/2012-11-05/\">"

def xmlHeader : String := "<?xml version=\"1.0\" encoding=\"UTF-8\"?>"

def xmlMetadata (requestId : String) : String :=
  "<ResponseMetadata><RequestId>" ++ requestId ++ "</RequestId></ResponseMetadata>"

def xmlWrap (action requestId inner : String) : DispatchResponse :=
  { statusCode := 200
    body := xmlHeader ++ "<" ++ action ++ "Response" ++ xmlns ++ "<" ++ action ++ "Result>" ++ inner ++
      "</" ++ action ++ "Result>" ++ xmlMetadata requestId ++ "</" ++ action ++ "Response>"
    contentType := "text/xml" }

def xmlNoResult (action requestId : String) : DispatchResponse :=
  { statusCode := 200
    body := xmlHeader ++ "<" ++ action ++ "Response" ++ xmlns ++ xmlMetadata requestId ++
      "</" ++ action ++ "Response>"
    contentType := "text/xml" }

def sqsError (code message : String) : DispatchResponse :=
  { statusCode := 400
    body := xmlHeader ++ "<ErrorResponse" ++ xmlns ++ "<Error><Type>Sender</Type><Code>" ++ code ++
      "</Code><Message>" ++ message ++ "</Message></Error></ErrorResponse>"
    contentType := "text/xml" }

def missingParameter (name : String) : DispatchResponse :=
  sqsError "MissingParameter" (name ++ " is required")

def nonExistentQueue : DispatchResponse :=
  sqsError "AWS.SimpleQueueService.NonExistentQueue" "Queue does not exist"

/-- A loop over `1, 2, ..` that stops at the first number without an entry. Each
number has a key of its own, so no more than `params.size` numbers have one. -/
def indexedFrom {α : Type} (entry : Nat → Option α) : Nat → Nat → List α
  | 0, _ => []
  | fuel + 1, i =>
    match entry i with
    | none => []
    | some e => e :: indexedFrom entry fuel (i + 1)

def indexed {α : Type} (params : Params) (entry : Nat → Option α) : List α :=
  indexedFrom entry params.size 1

/-- `params.get(&format!("{prefix}.{i}.{field}"))`. -/
def indexedParam (params : Params) (namePrefix : String) (i : Nat) (field : String) :
    Option String :=
  params[namePrefix ++ "." ++ toString i ++ "." ++ field]?

def extractIndexedKv (params : Params) (namePrefix : String) : StrMap String :=
  (indexed params fun i => do
    let name ← indexedParam params namePrefix i "Name"
    let value ← indexedParam params namePrefix i "Value"
    return (name, value)).foldl (fun acc kv => acc.insert kv.1 kv.2) ∅

def extractMessageAttributes (params : Params) : StrMap MessageAttributeValue :=
  (indexed params fun i => do
    let name ← indexedParam params "MessageAttribute" i "Name"
    let value : MessageAttributeValue :=
      { dataType := (indexedParam params "MessageAttribute" i "Value.DataType").getD ""
        stringValue := indexedParam params "MessageAttribute" i "Value.StringValue"
        binaryValue := none }
    return (name, value)).foldl (fun acc kv => acc.insert kv.1 kv.2) ∅

theorem indexed_eq_nil {α : Type} {params : Params} {entry : Nat → Option α} (first : entry 1 = none) :
    indexed params entry = [] := by
  unfold indexed
  cases params.size with
  | zero => rfl
  | succ n => simp [indexedFrom, first]

theorem indexedParam_first (params : Params) (field : String) :
    indexedParam params field 1 "Name" = params[field ++ ".1.Name"]? := by
  unfold indexedParam
  rw [String.append_assoc, String.append_assoc, String.append_assoc]
  rfl

theorem extractMessageAttributes_eq_empty {params : Params}
    (first : params["MessageAttribute.1.Name"]? = none) : extractMessageAttributes params = ∅ := by
  have name : indexedParam params "MessageAttribute" 1 "Name" = none :=
    (indexedParam_first params "MessageAttribute").trans first
  rw [extractMessageAttributes, indexed_eq_nil]
  · rfl
  · simp [name]

/-- The inserting loops keep what is there. -/
theorem insertAll_contains {V : Type} (entries : List (String × V)) {m : StrMap V} {k : String}
    (held : m.contains k = true) :
    (entries.foldl (fun acc kv => acc.insert kv.1 kv.2) m).contains k = true := by
  induction entries generalizing m with
  | nil => exact held
  | cons e rest ih =>
    refine ih ?_
    rw [Std.ExtTreeMap.contains_insert, held, Bool.or_true]

/-- There are message attributes exactly when the first one has a name. -/
theorem extractMessageAttributes_eq_empty_iff (params : Params) :
    extractMessageAttributes params = ∅ ↔ params["MessageAttribute.1.Name"]? = none := by
  constructor
  · intro empty
    by_contra named
    obtain ⟨name, held⟩ := Option.ne_none_iff_exists'.mp named
    have some_param : 0 < params.size := by
      refine Nat.pos_of_ne_zero fun zero => ?_
      rw [Std.ExtTreeMap.eq_empty_iff_size_eq_zero.mpr zero] at held
      simp at held
    obtain ⟨n, size⟩ : ∃ n, params.size = n + 1 := ⟨params.size - 1, by omega⟩
    have first : indexedParam params "MessageAttribute" 1 "Name" = some name :=
      (indexedParam_first params "MessageAttribute").trans held
    rw [extractMessageAttributes, indexed, size, indexedFrom] at empty
    simp only [first, Option.bind_eq_bind, Option.bind_some, Option.pure_def, List.foldl_cons] at empty
    have lost := congrArg (fun m => m.contains name) empty
    simp only [insertAll_contains _ Std.ExtTreeMap.contains_insert_self] at lost
    simp at lost
  · exact extractMessageAttributes_eq_empty

def queueNameFromUrl (url : String) : String := RustStr.rsplitFirst '/' url

structure Request where
  accountId : String
  region : String
  headers : StrMap String
  action : String
  params : Params
  now : Instant

def Request.queueName? (req : Request) : Option String :=
  req.params["QueueUrl"]?.map queueNameFromUrl

def baseQueueUrl (req : Request) : String :=
  if req.headers.contains "host" then
    "http://sqs." ++ req.headers["x-amz-region"]?.getD req.region ++
      ".localhost.localstack.cloud:4566"
  else "http://localhost:4566"

/-- `AccountRegionKey::new`. -/
def accountRegionKey (accountId region : String) : String := accountId ++ "\x00" ++ region

def Request.storeKey (req : Request) : String := accountRegionKey req.accountId req.region

/-- One account's store in one region, with the two process-wide counters. -/
structure Session where
  store : SqsStore
  messageIds : Nat
  requestIds : Nat

def newRequestId (s : Session) : String × Session :=
  ("r-" ++ RustFmt.hex 16 s.requestIds, { s with requestIds := fetchAdd s.requestIds })

/-- Answer with `xml_wrap`, which takes a fresh request id. -/
def Session.wrap (s : Session) (action inner : String) : DispatchResponse × Session :=
  (xmlWrap action (newRequestId s).1 inner, (newRequestId s).2)

def Session.noResult (s : Session) (action : String) : DispatchResponse × Session :=
  (xmlNoResult action (newRequestId s).1, (newRequestId s).2)

def Session.setQueue (s : Session) (name : String) (q : SqsQueue) : Session :=
  { s with store := { s.store with queues := s.store.queues.insert name q } }

def handleCreateQueue (env : Env) (req : Request) (s : Session) : DispatchResponse × Session :=
  match req.params["QueueName"]? with
  | none => (missingParameter "QueueName", s)
  | some name =>
    let created := s.store.createQueue env req.now name (baseQueueUrl req) req.accountId req.region
      (extractIndexedKv req.params "Attribute")
    { s with store := created.2 }.wrap "CreateQueue"
      ("<QueueUrl>" ++ escapeXml created.1.url ++ "</QueueUrl>")

def handleDeleteQueue (req : Request) (s : Session) : DispatchResponse × Session :=
  match req.queueName? with
  | none => (missingParameter "QueueUrl", s)
  | some name =>
    let deleted := s.store.deleteQueue name
    if deleted.1 then { s with store := deleted.2 }.noResult "DeleteQueue"
    else (nonExistentQueue, s)

def handleListQueues (req : Request) (s : Session) : DispatchResponse × Session :=
  let queues := s.store.listQueues (req.params["QueueNamePrefix"]?.getD "")
  s.wrap "ListQueues"
    (String.join (queues.map fun q => "<QueueUrl>" ++ escapeXml q.url ++ "</QueueUrl>"))

def handleGetQueueUrl (req : Request) (s : Session) : DispatchResponse × Session :=
  match req.params["QueueName"]? with
  | none => (missingParameter "QueueName", s)
  | some name =>
    match s.store.queues[name]? with
    | none => (nonExistentQueue, s)
    | some q => s.wrap "GetQueueUrl" ("<QueueUrl>" ++ escapeXml q.url ++ "</QueueUrl>")

def queueAttributes (now : Instant) (q : SqsQueue) : List (String × String) :=
  [("QueueArn", q.arn),
   ("VisibilityTimeout", toString q.visibilityTimeout),
   ("MessageRetentionPeriod", toString q.messageRetentionPeriod),
   ("MaximumMessageSize", toString q.maximumMessageSize),
   ("DelaySeconds", toString q.delaySeconds),
   ("ReceiveMessageWaitTimeSeconds", toString q.receiveMessageWaitTimeSeconds),
   ("ApproximateNumberOfMessages", toString (q.approximateNumberOfMessages now)),
   ("ApproximateNumberOfMessagesNotVisible",
     toString (q.approximateNumberOfMessagesNotVisible now)),
   ("CreatedTimestamp", toString (timestamp q.created)),
   ("LastModifiedTimestamp", toString (timestamp q.lastModified)),
   ("FifoQueue", toString q.fifo),
   ("ContentBasedDeduplication", toString q.contentBasedDeduplication)]

def handleGetQueueAttributes (req : Request) (s : Session) : DispatchResponse × Session :=
  match req.queueName? with
  | none => (missingParameter "QueueUrl", s)
  | some name =>
    match s.store.queues[name]? with
    | none => (nonExistentQueue, s)
    | some q =>
      let requested := indexed req.params fun i => req.params["AttributeName." ++ toString i]?
      let all := requested.isEmpty || requested.contains "All"
      let shown := (queueAttributes req.now q).filter fun kv => all || requested.contains kv.1
      s.wrap "GetQueueAttributes" (String.join (shown.map fun kv =>
        "<Attribute><Name>" ++ kv.1 ++ "</Name><Value>" ++ escapeXml kv.2 ++ "</Value></Attribute>"))

def handleSetQueueAttributes (env : Env) (req : Request) (s : Session) :
    DispatchResponse × Session :=
  match req.queueName? with
  | none => (missingParameter "QueueUrl", s)
  | some name =>
    match s.store.queues[name]? with
    | none => (nonExistentQueue, s)
    | some q =>
      (s.setQueue name (q.applyQueueAttributes env req.now
        (extractIndexedKv req.params "Attribute"))).noResult "SetQueueAttributes"

def handlePurgeQueue (req : Request) (s : Session) : DispatchResponse × Session :=
  match req.queueName? with
  | none => (missingParameter "QueueUrl", s)
  | some name =>
    match s.store.queues[name]? with
    | none => (nonExistentQueue, s)
    | some q => (s.setQueue name q.purge).noResult "PurgeQueue"

def sendArgs (params : Params) (body : String) : SendArgs :=
  { body := body
    delayOverride := params["DelaySeconds"]?.bind (RustFmt.parseUnsigned 32)
    messageAttributes := extractMessageAttributes params
    messageGroupId := params["MessageGroupId"]?
    dedupId := params["MessageDeduplicationId"]? }

def handleSendMessage (env : Env) (req : Request) (s : Session) : DispatchResponse × Session :=
  match req.queueName? with
  | none => (missingParameter "QueueUrl", s)
  | some name =>
    match req.params["MessageBody"]? with
    | none => (missingParameter "MessageBody", s)
    | some body =>
      match s.store.queues[name]? with
      | none => (nonExistentQueue, s)
      | some q =>
        let sent := q.sendMessage env req.now s.messageIds (sendArgs req.params body)
        let inner := match sent.1 with
          | none => "<MessageId>duplicate</MessageId><MD5OfMessageBody></MD5OfMessageBody>" ++
              "<SequenceNumber>0</SequenceNumber>"
          | some msg => "<MessageId>" ++ escapeXml msg.messageId ++ "</MessageId><MD5OfMessageBody>" ++
              escapeXml msg.md5OfBody ++ "</MD5OfMessageBody><SequenceNumber>" ++
              toString msg.sequenceNumber ++ "</SequenceNumber>"
        ({ s with messageIds := sent.2.2 }.setQueue name sent.2.1).wrap "SendMessage" inner

/-- The entries of a batch send: id and send parameters. -/
def batchEntries (params : Params) : List (String × SendArgs) :=
  indexed params fun i => do
    let id ← indexedParam params "SendMessageBatchRequestEntry" i "Id"
    let body ← indexedParam params "SendMessageBatchRequestEntry" i "MessageBody"
    let args : SendArgs :=
      { body := body
        delayOverride := (indexedParam params "SendMessageBatchRequestEntry" i "DelaySeconds").bind
          (RustFmt.parseUnsigned 32)
        messageAttributes := ∅
        messageGroupId := indexedParam params "SendMessageBatchRequestEntry" i "MessageGroupId"
        dedupId := indexedParam params "SendMessageBatchRequestEntry" i "MessageDeduplicationId" }
    return (id, args)

/-- The batch loop: one result for each entry, the queue and the counter. -/
def sendBatch (env : Env) (now : Instant) :
    Nat → SqsQueue → List (String × SendArgs) →
      List (String × Option SendMessageResult) × SqsQueue × Nat
  | counter, q, [] => ([], q, counter)
  | counter, q, (id, args) :: rest =>
    let sent := q.sendMessage env now counter args
    let later := sendBatch env now sent.2.2 sent.2.1 rest
    ((id, sent.1) :: later.1, later.2)

def batchResultXml (r : String × Option SendMessageResult) : String :=
  match r.2 with
  | none => "<SendMessageBatchResultEntry><Id>" ++ escapeXml r.1 ++
      "</Id><MessageId>dup</MessageId><MD5OfMessageBody></MD5OfMessageBody>" ++
      "</SendMessageBatchResultEntry>"
  | some msg => "<SendMessageBatchResultEntry><Id>" ++ escapeXml r.1 ++ "</Id><MessageId>" ++
      escapeXml msg.messageId ++ "</MessageId><MD5OfMessageBody>" ++ escapeXml msg.md5OfBody ++
      "</MD5OfMessageBody></SendMessageBatchResultEntry>"

/-- A batch for a missing queue leaves its loop at the first entry and still
answers 200. -/
def handleSendMessageBatch (env : Env) (req : Request) (s : Session) : DispatchResponse × Session :=
  match req.queueName? with
  | none => (missingParameter "QueueUrl", s)
  | some name =>
    match s.store.queues[name]? with
    | none => s.wrap "SendMessageBatch" ""
    | some q =>
      let sent := sendBatch env req.now s.messageIds q (batchEntries req.params)
      ({ s with messageIds := sent.2.2 }.setQueue name sent.2.1).wrap "SendMessageBatch"
        (String.join (sent.1.map batchResultXml))

def maxNumberOfMessages (params : Params) : Nat :=
  min ((params["MaxNumberOfMessages"]?.bind (RustFmt.parseUnsigned 64)).getD 1) 10

def messageXml (msg : SqsMessage) : String :=
  "<Message><MessageId>" ++ msg.messageId ++ "</MessageId><ReceiptHandle>" ++ msg.receiptHandle ++
    "</ReceiptHandle><MD5OfBody>" ++ msg.md5OfBody ++ "</MD5OfBody><Body>" ++ escapeXml msg.body ++
    "</Body>" ++
    String.join (msg.attributes.toList.map fun kv => "<Attribute><Name>" ++ escapeXml kv.1 ++
      "</Name><Value>" ++ escapeXml kv.2 ++ "</Value></Attribute>") ++
    String.join (msg.messageAttributes.toList.map fun kv => "<MessageAttribute><Name>" ++
      escapeXml kv.1 ++ "</Name><Value><DataType>" ++ escapeXml kv.2.dataType ++
      "</DataType><StringValue>" ++ escapeXml (kv.2.stringValue.getD "") ++
      "</StringValue></Value></MessageAttribute>") ++
    "</Message>"

/-- The redrive step at the end of `handle_receive_message`: the candidates leave
the queue and go nowhere. -/
def redriveStep (q : SqsQueue) : SqsQueue :=
  match q.redrivePolicy with
  | none => q
  | some rp =>
    if q.messages.any (fun m => decide (m.receiveCount ≥ rp.maxReceiveCount)) then
      q.removeDlqCandidates
    else q

def handleReceiveMessage (req : Request) (s : Session) : DispatchResponse × Session :=
  match req.queueName? with
  | none => (missingParameter "QueueUrl", s)
  | some name =>
    match s.store.queues[name]? with
    | none => (nonExistentQueue, s)
    | some q =>
      let received := q.receiveMessages req.now s.messageIds (maxNumberOfMessages req.params)
        (req.params["VisibilityTimeout"]?.bind (RustFmt.parseUnsigned 32))
      let delivered := received.1.filterMap fun idx => received.2.1.messages[idx]?
      ({ s with messageIds := received.2.2 }.setQueue name (redriveStep received.2.1)).wrap
        "ReceiveMessage" (String.join (delivered.map messageXml))

/-- Update the queue when it exists; a missing queue is no error here. -/
def Session.updateQueue (s : Session) (name : String) (f : SqsQueue → SqsQueue) : Session :=
  match s.store.queues[name]? with
  | none => s
  | some q => s.setQueue name (f q)

def handleDeleteMessage (req : Request) (s : Session) : DispatchResponse × Session :=
  match req.queueName? with
  | none => (missingParameter "QueueUrl", s)
  | some name =>
    match req.params["ReceiptHandle"]? with
    | none => (missingParameter "ReceiptHandle", s)
    | some rh => (s.updateQueue name fun q => (q.deleteMessage rh).2).noResult "DeleteMessage"

/-- The entries of a batch delete: id and receipt handle. -/
def deleteEntries (params : Params) : List (String × String) :=
  indexed params fun i => do
    let id ← indexedParam params "DeleteMessageBatchRequestEntry" i "Id"
    let rh ← indexedParam params "DeleteMessageBatchRequestEntry" i "ReceiptHandle"
    return (id, rh)

def handleDeleteMessageBatch (req : Request) (s : Session) : DispatchResponse × Session :=
  match req.queueName? with
  | none => (missingParameter "QueueUrl", s)
  | some name =>
    let entries := deleteEntries req.params
    (s.updateQueue name fun q => entries.foldl (fun q e => (q.deleteMessage e.2).2) q).wrap
      "DeleteMessageBatch" (String.join (entries.map fun e =>
        "<DeleteMessageBatchResultEntry><Id>" ++ escapeXml e.1 ++
          "</Id></DeleteMessageBatchResultEntry>"))

def handleChangeMessageVisibility (req : Request) (s : Session) : DispatchResponse × Session :=
  match req.queueName? with
  | none => (missingParameter "QueueUrl", s)
  | some name =>
    match req.params["ReceiptHandle"]? with
    | none => (missingParameter "ReceiptHandle", s)
    | some rh =>
      let vt := (req.params["VisibilityTimeout"]?.bind (RustFmt.parseUnsigned 32)).getD 30
      (s.updateQueue name fun q => (q.changeVisibility req.now rh vt).2).noResult
        "ChangeMessageVisibility"

/-- The entries of a batch visibility change: id, receipt handle and timeout. -/
def visibilityEntries (params : Params) : List (String × String × Nat) :=
  indexed params fun i => do
    let id ← indexedParam params "ChangeMessageVisibilityBatchRequestEntry" i "Id"
    let rh ← indexedParam params "ChangeMessageVisibilityBatchRequestEntry" i "ReceiptHandle"
    let vt := ((indexedParam params "ChangeMessageVisibilityBatchRequestEntry" i
      "VisibilityTimeout").bind (RustFmt.parseUnsigned 32)).getD 30
    return (id, rh, vt)

def handleChangeMessageVisibilityBatch (req : Request) (s : Session) : DispatchResponse × Session :=
  match req.queueName? with
  | none => (missingParameter "QueueUrl", s)
  | some name =>
    let entries := visibilityEntries req.params
    (s.updateQueue name fun q =>
        entries.foldl (fun q e => (q.changeVisibility req.now e.2.1 e.2.2).2) q).wrap
      "ChangeMessageVisibilityBatch" (String.join (entries.map fun e =>
        "<ChangeMessageVisibilityBatchResultEntry><Id>" ++ escapeXml e.1 ++
          "</Id></ChangeMessageVisibilityBatchResultEntry>"))

/-- The actions of the query protocol. -/
inductive Action where
  | listQueues | getQueueUrl | getQueueAttributes
  | createQueue | deleteQueue | setQueueAttributes | purgeQueue
  | sendMessage | sendMessageBatch | receiveMessage
  | deleteMessage | deleteMessageBatch
  | changeMessageVisibility | changeMessageVisibilityBatch
  deriving DecidableEq, Repr

def Action.all : List (String × Action) :=
  [("ListQueues", .listQueues), ("GetQueueUrl", .getQueueUrl),
   ("GetQueueAttributes", .getQueueAttributes), ("CreateQueue", .createQueue),
   ("DeleteQueue", .deleteQueue), ("SetQueueAttributes", .setQueueAttributes),
   ("PurgeQueue", .purgeQueue), ("SendMessage", .sendMessage),
   ("SendMessageBatch", .sendMessageBatch), ("ReceiveMessage", .receiveMessage),
   ("DeleteMessage", .deleteMessage), ("DeleteMessageBatch", .deleteMessageBatch),
   ("ChangeMessageVisibility", .changeMessageVisibility),
   ("ChangeMessageVisibilityBatch", .changeMessageVisibilityBatch)]

def Action.parse (name : String) : Option Action := Action.all.lookup name

def Action.handle (env : Env) (req : Request) (s : Session) : Action → DispatchResponse × Session
  | .listQueues => handleListQueues req s
  | .getQueueUrl => handleGetQueueUrl req s
  | .getQueueAttributes => handleGetQueueAttributes req s
  | .createQueue => handleCreateQueue env req s
  | .deleteQueue => handleDeleteQueue req s
  | .setQueueAttributes => handleSetQueueAttributes env req s
  | .purgeQueue => handlePurgeQueue req s
  | .sendMessage => handleSendMessage env req s
  | .sendMessageBatch => handleSendMessageBatch env req s
  | .receiveMessage => handleReceiveMessage req s
  | .deleteMessage => handleDeleteMessage req s
  | .deleteMessageBatch => handleDeleteMessageBatch req s
  | .changeMessageVisibility => handleChangeMessageVisibility req s
  | .changeMessageVisibilityBatch => handleChangeMessageVisibilityBatch req s

/-- The stores of every account and region, and the process-wide counters. -/
structure World where
  stores : StrMap SqsStore := ∅
  messageIds : Nat := 1
  requestIds : Nat := 1

def World.session (w : World) (store : SqsStore) : Session := ⟨store, w.messageIds, w.requestIds⟩

def World.put (w : World) (key : String) (s : Session) : World :=
  { stores := w.stores.insert key s.store, messageIds := s.messageIds, requestIds := s.requestIds }

/-- What an action answers while its account has no store in the region. Only a
list of queues is not an error, and takes a request id. -/
def withoutStore (w : World) : Action → DispatchResponse × World
  | .listQueues =>
    let answer := (w.session {}).wrap "ListQueues" ""
    (answer.1, { w with requestIds := answer.2.requestIds })
  | _ => (nonExistentQueue, w)

/-- `dispatch` for a request of the query protocol. -/
def dispatch (env : Env) (w : World) (req : Request) :
    Except DispatchError DispatchResponse × World :=
  match Action.parse req.action with
  | none => (.error (.notImplemented req.action), w)
  | some action =>
    match w.stores[req.storeKey]?, action with
    | some store, _ =>
      let answer := action.handle env req (w.session store)
      (.ok answer.1, w.put req.storeKey answer.2)
    | none, .createQueue =>
      let answer := Action.handle env req (w.session {}) .createQueue
      (.ok answer.1, w.put req.storeKey answer.2)
    | none, _ =>
      let answer := withoutStore w action
      (.ok answer.1, answer.2)

end Openstack.Sqs

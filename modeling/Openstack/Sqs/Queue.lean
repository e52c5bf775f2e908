import Openstack.Lib.Json
import Openstack.Lib.RustFmt
import Openstack.Lib.RustStr
import Openstack.Lib.StrMap

/-!
# SQS messages, queues and the queue store

`crates/services/sqs/src/store.rs`. Instants are nanoseconds since the epoch and
are arguments, as is the process-wide message counter, which is returned beside
each result. `md5_hex` and the JSON parser come from outside the repository and
are fields of `Env`. Arithmetic is that of the release profile, without overflow
checks: the counter wraps at 64 bits and a receive count at 32.
-/
namespace Openstack.Sqs

/-- What the service takes from other crates. -/
structure Env where
  md5Hex : String → String
  parseJson : String → Option Json

/-- Nanoseconds since the epoch. -/
abbrev Instant := Int

def seconds (n : Nat) : Int := 1000000000 * n

def timestampMillis (t : Instant) : Int := t / 1000000

def timestamp (t : Instant) : Int := t / 1000000000

def fetchAdd (counter : Nat) : Nat := (counter + 1) % 2 ^ 64

def messageUuidLike (id : Nat) : String :=
  RustFmt.hex 8 ((id / 2 ^ 32) % 2 ^ 32) ++ "-" ++ RustFmt.hex 4 ((id / 2 ^ 16) % 2 ^ 16) ++ "-4" ++
    RustFmt.hex 3 (id % 2 ^ 12) ++ "-8" ++ RustFmt.hex 3 ((id / 2 ^ 12) % 2 ^ 12) ++ "-" ++
    RustFmt.hex 12 (id % 2 ^ 48)

def receiptHandleOf (id : Nat) : String := "rh-" ++ RustFmt.hex 16 id

structure MessageAttributeValue where
  dataType : String
  stringValue : Option String
  binaryValue : Option (List UInt8)
  deriving DecidableEq, Repr

structure SqsMessage where
  messageId : String
  receiptHandle : String
  body : String
  md5OfBody : String
  attributes : StrMap String
  messageAttributes : StrMap MessageAttributeValue
  sentAt : Instant
  visibleAfter : Option Instant
  receiveCount : Nat
  delaySeconds : Nat
  messageGroupId : Option String
  messageDeduplicationId : Option String
  sequenceNumber : Nat

structure SendMessageResult where
  messageId : String
  md5OfBody : String
  sequenceNumber : Nat
  deriving DecidableEq, Repr

/-- The parameters of one send. -/
structure SendArgs where
  body : String
  delayOverride : Option Nat
  messageAttributes : StrMap MessageAttributeValue
  messageGroupId : Option String
  dedupId : Option String

namespace SqsMessage

/-- `SqsMessage::new`; the identifier and the handle take one counter value each. -/
def new (env : Env) (now : Instant) (counter : Nat) (args : SendArgs) (delaySeconds : Nat)
    (sequenceNumber : Nat) : SqsMessage :=
  { messageId := messageUuidLike counter
    receiptHandle := receiptHandleOf (fetchAdd counter)
    body := args.body
    md5OfBody := env.md5Hex args.body
    attributes := (((∅ : StrMap String).insert "ApproximateFirstReceiveTimestamp" "0").insert
      "ApproximateReceiveCount" "0").insert "SentTimestamp" (toString (timestampMillis now))
    messageAttributes := args.messageAttributes
    sentAt := now
    visibleAfter := if delaySeconds > 0 then some (now + seconds delaySeconds) else none
    receiveCount := 0
    delaySeconds := delaySeconds
    messageGroupId := args.messageGroupId
    messageDeduplicationId := args.dedupId
    sequenceNumber := sequenceNumber }

def isVisibleAt (m : SqsMessage) (now : Instant) : Bool :=
  match m.visibleAfter with
  | none => true
  | some t => decide (now ≥ t)

def beginReceive (m : SqsMessage) (visibilityTimeoutSecs : Nat) (now : Instant) (counter : Nat) :
    SqsMessage :=
  let count := (m.receiveCount + 1) % 2 ^ 32
  { m with
    receiptHandle := receiptHandleOf counter
    receiveCount := count
    attributes := m.attributes.insert "ApproximateReceiveCount" (toString count)
    visibleAfter :=
      if visibilityTimeoutSecs > 0 then some (now + seconds visibilityTimeoutSecs) else none }

end SqsMessage

structure RedrivePolicy where
  deadLetterTargetArn : String
  maxReceiveCount : Nat
  deriving DecidableEq, Repr

structure SqsQueue where
  name : String
  url : String
  arn : String
  created : Instant
  lastModified : Instant
  visibilityTimeout : Nat
  messageRetentionPeriod : Nat
  maximumMessageSize : Nat
  delaySeconds : Nat
  receiveMessageWaitTimeSeconds : Nat
  fifo : Bool
  contentBasedDeduplication : Bool
  redrivePolicy : Option RedrivePolicy
  policy : Option String
  messages : List SqsMessage
  sequenceCounter : Nat
  dedupIds : StrMap String

namespace SqsQueue

def new (now : Instant) (name baseUrl accountId region : String) : SqsQueue :=
  { name := name
    url := baseUrl ++ "/" ++ accountId ++ "/" ++ name
    arn := "arn:aws:sqs:" ++ region ++ ":" ++ accountId ++ ":" ++ name
    created := now
    lastModified := now
    visibilityTimeout := 30
    messageRetentionPeriod := 345600
    maximumMessageSize := 262144
    delaySeconds := 0
    receiveMessageWaitTimeSeconds := 0
    fifo := RustStr.endsWith name ".fifo"
    contentBasedDeduplication := false
    redrivePolicy := none
    policy := none
    messages := []
    sequenceCounter := 0
    dedupIds := ∅ }

/-- A FIFO queue has already recorded this deduplication id. -/
def isDuplicate (q : SqsQueue) (args : SendArgs) : Bool :=
  match args.dedupId with
  | none => false
  | some did => q.fifo && q.dedupIds.contains did

/-- `send_message`: the result when the message was accepted, the queue and the
message counter. -/
def sendMessage (env : Env) (now : Instant) (counter : Nat) (q : SqsQueue) (args : SendArgs) :
    Option SendMessageResult × SqsQueue × Nat :=
  if q.isDuplicate args then (none, q, counter)
  else
    let seq := (q.sequenceCounter + 1) % 2 ^ 64
    let msg := SqsMessage.new env now counter args (args.delayOverride.getD q.delaySeconds) seq
    let dedupIds := match args.dedupId with
      | none => q.dedupIds
      | some did => q.dedupIds.insert did msg.messageId
    (some ⟨msg.messageId, msg.md5OfBody, msg.sequenceNumber⟩,
      { q with sequenceCounter := seq, dedupIds := dedupIds, messages := q.messages ++ [msg] },
      fetchAdd (fetchAdd counter))

/-- The `max_number == 1` loop: positions received, messages, counter. -/
def receiveFirst (vt : Nat) (now : Instant) :
    Nat → Nat → List SqsMessage → List Nat × List SqsMessage × Nat
  | _, counter, [] => ([], [], counter)
  | idx, counter, m :: rest =>
    if m.isVisibleAt now then ([idx], m.beginReceive vt now counter :: rest, fetchAdd counter)
    else
      let later := receiveFirst vt now (idx + 1) counter rest
      (later.1, m :: later.2.1, later.2.2)

/-- The general loop; `received` holds the positions taken so far. -/
def receiveLoop (maxNumber vt : Nat) (now : Instant) :
    List Nat → Nat → Nat → List SqsMessage → List Nat × List SqsMessage × Nat
  | received, _, counter, [] => (received, [], counter)
  | received, idx, counter, m :: rest =>
    if received.length ≥ maxNumber then (received, m :: rest, counter)
    else if m.isVisibleAt now then
      let later := receiveLoop maxNumber vt now (received ++ [idx]) (idx + 1) (fetchAdd counter) rest
      (later.1, m.beginReceive vt now counter :: later.2.1, later.2.2)
    else
      let later := receiveLoop maxNumber vt now received (idx + 1) counter rest
      (later.1, m :: later.2.1, later.2.2)

def receiveMessages (now : Instant) (counter : Nat) (q : SqsQueue) (maxNumber : Nat)
    (visibilityTimeout : Option Nat) : List Nat × SqsQueue × Nat :=
  if maxNumber = 0 ∨ q.messages = [] then ([], q, counter)
  else
    let vt := visibilityTimeout.getD q.visibilityTimeout
    let result :=
      if maxNumber = 1 then receiveFirst vt now 0 counter q.messages
      else receiveLoop maxNumber vt now [] 0 counter q.messages
    (result.1, { q with messages := result.2.1 }, result.2.2)

/-- Drop the first message with this receipt handle. -/
def removeByHandle (receiptHandle : String) : List SqsMessage → Bool × List SqsMessage
  | [] => (false, [])
  | m :: rest =>
    if m.receiptHandle = receiptHandle then (true, rest)
    else ((removeByHandle receiptHandle rest).1, m :: (removeByHandle receiptHandle rest).2)

def deleteMessage (q : SqsQueue) (receiptHandle : String) : Bool × SqsQueue :=
  let result := removeByHandle receiptHandle q.messages
  (result.1, { q with messages := result.2 })

/-- Set the deadline of the first message with this receipt handle. -/
def setVisibility (receiptHandle : String) (visibleAfter : Option Instant) :
    List SqsMessage → Bool × List SqsMessage
  | [] => (false, [])
  | m :: rest =>
    if m.receiptHandle = receiptHandle then (true, { m with visibleAfter := visibleAfter } :: rest)
    else
      let later := setVisibility receiptHandle visibleAfter rest
      (later.1, m :: later.2)

def changeVisibility (now : Instant) (q : SqsQueue) (receiptHandle : String)
    (visibilityTimeout : Nat) : Bool × SqsQueue :=
  let visibleAfter := if visibilityTimeout = 0 then none else some (now + seconds visibilityTimeout)
  let result := setVisibility receiptHandle visibleAfter q.messages
  (result.1, { q with messages := result.2 })

def purge (q : SqsQueue) : SqsQueue := { q with messages := [] }

def approximateNumberOfMessages (now : Instant) (q : SqsQueue) : Nat :=
  q.messages.countP (·.isVisibleAt now)

def approximateNumberOfMessagesNotVisible (now : Instant) (q : SqsQueue) : Nat :=
  q.messages.countP (fun m => !m.isVisibleAt now)

/-- `messages_for_dlq`; no caller in the repository sends these anywhere. -/
def messagesForDlq (q : SqsQueue) : List SqsMessage :=
  match q.redrivePolicy with
  | none => []
  | some rp => q.messages.filter (fun m => decide (m.receiveCount ≥ rp.maxReceiveCount))

def removeDlqCandidates (q : SqsQueue) : SqsQueue :=
  match q.redrivePolicy with
  | none => q
  | some rp =>
    { q with messages := q.messages.filter (fun m => decide (m.receiveCount < rp.maxReceiveCount)) }

/-- `apply_queue_attributes`. A value that does not parse leaves its field alone. -/
def applyQueueAttributes (env : Env) (now : Instant) (q : SqsQueue) (attrs : StrMap String) :
    SqsQueue :=
  let u32 (name : String) (current : Nat) : Nat :=
    (attrs[name]?.bind (RustFmt.parseUnsigned 32)).getD current
  { q with
    visibilityTimeout := u32 "VisibilityTimeout" q.visibilityTimeout
    messageRetentionPeriod := u32 "MessageRetentionPeriod" q.messageRetentionPeriod
    maximumMessageSize := u32 "MaximumMessageSize" q.maximumMessageSize
    delaySeconds := u32 "DelaySeconds" q.delaySeconds
    receiveMessageWaitTimeSeconds :=
      u32 "ReceiveMessageWaitTimeSeconds" q.receiveMessageWaitTimeSeconds
    contentBasedDeduplication :=
      match attrs["ContentBasedDeduplication"]? with
      | none => q.contentBasedDeduplication
      | some v => v == "true"
    redrivePolicy :=
      match attrs["RedrivePolicy"]?.bind env.parseJson with
      | none => q.redrivePolicy
      | some rp => some
        ⟨((rp.index "deadLetterTargetArn").asStr?).getD "",
          (((rp.index "maxReceiveCount").asU64?).getD 3) % 2 ^ 32⟩
    lastModified := now }

end SqsQueue

structure SqsStore where
  queues : StrMap SqsQueue := ∅

namespace SqsStore

/-- `create_queue`: an existing queue of that name is returned as it is. -/
def createQueue (env : Env) (now : Instant) (store : SqsStore)
    (name baseUrl accountId region : String) (attributes : StrMap String) : SqsQueue × SqsStore :=
  match store.queues[name]? with
  | some q => (q, store)
  | none =>
    let q := (SqsQueue.new now name baseUrl accountId region).applyQueueAttributes env now attributes
    (q, { store with queues := store.queues.insert name q })

def deleteQueue (store : SqsStore) (name : String) : Bool × SqsStore :=
  (store.queues.contains name, { store with queues := store.queues.erase name })

def listQueues (store : SqsStore) (namePrefix : String) : List SqsQueue :=
  (StrMap.values store.queues).filter (fun q => RustStr.startsWith q.name namePrefix)

end SqsStore
end Openstack.Sqs

import Openstack.Framework.Dispatch

/-!
# SNS Publish

`crates/services/sns/src/store.rs` and `provider.rs`, lines 492-668: the subscriptions of a topic,
filter policies and the fan-out of a published message. The fresh message id and the time are
arguments, and so is the text that `serde_json` prints. Of a topic only its presence counts here, and
of a subscription the fields that the fan-out reads.
-/
namespace Openstack.Sns

structure MessageAttribute where
  dataType : String
  stringValue : Option String
  binaryValue : Option (List UInt8)

/-- Attribute names with the values they may have. -/
structure FilterPolicy where
  policy : StrMap (List Json)

/-- `FilterPolicy::matches`; only strings are compared. -/
def FilterPolicy.passes (fp : FilterPolicy) (attributes : StrMap MessageAttribute) : Bool :=
  fp.policy.toList.all fun entry =>
    match attributes[entry.1]? with
    | none => false
    | some attr => entry.2.any fun v =>
      match v.asStr? with
      | some s => s == attr.stringValue.getD ""
      | none => false

inductive Protocol where
  | sqs
  | http
  | https
  | lambda
  | email
  | emailJson
  | sms
  | application
  | firehose
  deriving DecidableEq, Repr

structure Subscription where
  subscriptionArn : String
  topicArn : String
  protocol : Protocol
  endpoint : String
  rawMessageDelivery : Bool
  filterPolicy : Option FilterPolicy

structure Topic where
  topicArn : String
  name : String

structure SnsStore where
  topics : StrMap Topic := ∅
  subscriptions : StrMap Subscription := ∅

def SnsStore.listSubscriptionsByTopic (store : SnsStore) (topicArn : String) : List Subscription :=
  (StrMap.values store.subscriptions).filter (·.topicArn == topicArn)

/-- The entries `MessageAttributes.entry.1`, `MessageAttributes.entry.2` and so on. -/
def extractMessageAttributes (params : Sqs.Params) : StrMap MessageAttribute :=
  (Sqs.indexed params fun i => do
    let name ← Sqs.indexedParam params "MessageAttributes.entry" i "Name"
    let value : MessageAttribute :=
      { dataType := (Sqs.indexedParam params "MessageAttributes.entry" i "Value.DataType").getD ""
        stringValue := Sqs.indexedParam params "MessageAttributes.entry" i "Value.StringValue"
        binaryValue := none }
    return (name, value)).foldl (fun acc kv => acc.insert kv.1 kv.2) ∅

/-- A Publish with the account and region it is made in. -/
structure PublishRequest where
  accountId : String
  region : String
  params : Sqs.Params
  messageId : String
  timestamp : String

def PublishRequest.attributes (req : PublishRequest) : StrMap MessageAttribute :=
  extractMessageAttributes req.params

structure SnsError where
  code : String
  message : String
  status : Nat
  deriving DecidableEq, Repr

def formatSnsNotification (print : Json → String) (topicArn messageId message subject timestamp : String) :
    String :=
  print (.obj [("Message", .str message), ("MessageId", .str messageId), ("Signature", .str "EXAMPLE"),
    ("SignatureVersion", .str "1"), ("SigningCertURL", .str ""), ("Subject", .str subject),
    ("Timestamp", .str timestamp), ("TopicArn", .str topicArn), ("Type", .str "Notification"),
    ("UnsubscribeURL", .str "")])

structure PublishPayload where
  deliveryTasks : List Subscription
  message : String
  subject : String
  topicArn : String
  messageId : String
  messageAttributes : StrMap MessageAttribute
  region : String
  accountId : String
  timestamp : String

/-- A subscription without a policy gets every message. -/
def Subscription.passes (s : Subscription) (attributes : StrMap MessageAttribute) : Bool :=
  match s.filterPolicy with
  | none => true
  | some fp => fp.passes attributes

def PublishPayload.textFor (print : Json → String) (p : PublishPayload) (s : Subscription) : String :=
  if s.rawMessageDelivery then p.message
  else formatSnsNotification print p.topicArn p.messageId p.message p.subject p.timestamp

/-- The account of the queue comes from its ARN, the region from the caller. -/
def queueContext (print : Json → String) (p : PublishPayload) (s : Subscription) : SyntheticContext :=
  let parts := arnParts s.endpoint
  sendMessageContext p.region (parts[4]?.getD p.accountId) (parts.getLast?.getD "unknown")
    (p.textFor print s)

/-- Only SQS subscriptions lead to a request; the other protocols are stubs. -/
def dispatchPublishDeliveries (print : Json → String) (p : PublishPayload) : List SyntheticContext :=
  p.deliveryTasks.filterMap fun s =>
    if s.passes p.messageAttributes then
      match s.protocol with
      | .sqs => some (queueContext print p s)
      | _ => none
    else none

def publishPayload (store : SnsStore) (req : PublishRequest) : Except SnsError PublishPayload :=
  match req.params["TopicArn"]? with
  | none => .error ⟨"InvalidParameter", "TopicArn is required", 400⟩
  | some topicArn =>
    if store.topics.contains topicArn then
      match req.params["Message"]? with
      | none => .error ⟨"InvalidParameter", "Message is required", 400⟩
      | some message => .ok
        { deliveryTasks := store.listSubscriptionsByTopic topicArn
          message := message
          subject := req.params["Subject"]?.getD ""
          topicArn := topicArn
          messageId := req.messageId
          messageAttributes := extractMessageAttributes req.params
          region := req.region
          accountId := req.accountId
          timestamp := req.timestamp }
    else .error ⟨"NotFound", "Topic not found", 404⟩

/-- What an accepted Publish collects. -/
theorem publishPayload_eq_ok_iff {store : SnsStore} {req : PublishRequest} {p : PublishPayload} :
    publishPayload store req = .ok p ↔ ∃ topicArn message, req.params["TopicArn"]? = some topicArn ∧
      store.topics.contains topicArn = true ∧ req.params["Message"]? = some message ∧
      p = ⟨store.listSubscriptionsByTopic topicArn, message, req.params["Subject"]?.getD "", topicArn,
        req.messageId, req.attributes, req.region, req.accountId, req.timestamp⟩ := by
  unfold publishPayload
  constructor
  · intro collected
    split at collected
    · cases collected
    · next topicArn named =>
      split at collected
      · next known =>
        split at collected
        · cases collected
        · next message given =>
          cases collected
          exact ⟨topicArn, message, named, known, given, rfl⟩
      · cases collected
  · rintro ⟨topicArn, message, named, known, given, rfl⟩
    simp only [named, known, given, if_true]
    rfl

/-- `handle_publish`: the message id, and the requests it makes. -/
def handlePublish (print : Json → String) (store : SnsStore) (req : PublishRequest) :
    Except SnsError (String × List SyntheticContext) :=
  (publishPayload store req).map fun p => (p.messageId, dispatchPublishDeliveries print p)

end Openstack.Sns

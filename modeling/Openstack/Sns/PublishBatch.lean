import Openstack.Sns.Publish

/-!
# SNS PublishBatch

`provider.rs:673-706`. The handler of a batch gets no dispatcher, so an entry that it reports as successful
leads to no request, where a Publish of the same message leads to one for each queue whose policy lets it
through.
-/
namespace Openstack.Sns

/-- An answer with the requests that go to the dispatcher. -/
structure Outcome (α : Type) where
  answer : Except SnsError α
  requests : List SyntheticContext

/-- `Publish` in `dispatch`; without a dispatcher a delivery is only logged. -/
def publish (print : Json → String) (dispatcher : Bool) (store : SnsStore) (req : PublishRequest) :
    Outcome String :=
  match handlePublish print store req with
  | .error e => ⟨.error e, []⟩
  | .ok (messageId, contexts) => ⟨.ok messageId, if dispatcher then contexts else []⟩

/-- An entry with the number it has in the form. -/
structure BatchEntry where
  index : Nat
  id : String
  message : String

/-- A batch with its account and region, the message ids that are drawn for its entries, and the time. -/
structure BatchRequest where
  accountId : String
  region : String
  params : Sqs.Params
  messageIds : Nat → String
  timestamp : String

/-- The entries `1`, `2` and so on, up to the first without an id or without a message. -/
def BatchRequest.entries (req : BatchRequest) : List BatchEntry :=
  Sqs.indexed req.params fun i => do
    let id ← Sqs.indexedParam req.params "PublishBatchRequestEntries.member" i "Id"
    let message ← Sqs.indexedParam req.params "PublishBatchRequestEntries.member" i "Message"
    return ⟨i, id, message⟩

/-- A member of `Successful`: its entry, and the message id in the answer. -/
structure BatchResult where
  entry : BatchEntry
  messageId : String

/-- `handle_publish_batch`; `Failed` is always empty. -/
def handlePublishBatch (store : SnsStore) (req : BatchRequest) : Except SnsError (List BatchResult) :=
  match req.params["TopicArn"]? with
  | none => .error ⟨"InvalidParameter", "TopicArn is required", 400⟩
  | some topicArn =>
    if store.topics.contains topicArn then
      .ok (req.entries.map fun e => ⟨e, req.messageIds e.index⟩)
    else .error ⟨"NotFound", "Topic not found", 404⟩

/-- `PublishBatch` in `dispatch`, where the handler is called with the store and the form alone. -/
def publishBatch (store : SnsStore) (req : BatchRequest) : Outcome (List BatchResult) :=
  ⟨handlePublishBatch store req, []⟩

/-- The fields of an entry, under the names that they have in the form of a Publish. -/
def BatchRequest.entryFields (req : BatchRequest) (i : Nat) : Sqs.Params :=
  let member := "PublishBatchRequestEntries.member." ++ toString i ++ "."
  (req.params.toList.filterMap fun kv =>
    (RustStr.stripPrefix member.toList kv.1.toList).map fun field => (String.ofList field, kv.2)).foldl
      (fun acc kv => acc.insert kv.1 kv.2) ∅

/-- A Publish to the topic of the batch with the fields of one entry. -/
def BatchRequest.publishOf (req : BatchRequest) (topicArn : String) (result : BatchResult) :
    PublishRequest where
  accountId := req.accountId
  region := req.region
  params :=
    ((req.entryFields result.entry.index).insert "TopicArn" topicArn).insert "Message" result.entry.message
  messageId := result.messageId
  timestamp := req.timestamp

section Requests

variable {print : Json → String} {store : SnsStore}

/-- A published message leads to no request when no queue gets it. -/
theorem dispatchPublishDeliveries_eq_nil_iff {p : PublishPayload} :
    dispatchPublishDeliveries print p = [] ↔
      ∀ s ∈ p.deliveryTasks, s.protocol = .sqs → s.passes p.messageAttributes = false := by
  rw [dispatchPublishDeliveries, List.filterMap_eq_nil_iff]
  apply forall₂_congr
  intro s _
  cases passes : s.passes p.messageAttributes with
  | false => simp
  | true => cases s.protocol <;> simp

/-- The Publish of an entry is well formed, so its requests are those for the topic's subscriptions. -/
theorem publish_publishOf_requests {topicArn : String} (known : store.topics.contains topicArn = true)
    (dispatcher : Bool) (req : BatchRequest) (result : BatchResult) :
    (publish print dispatcher store (req.publishOf topicArn result)).requests = [] ↔
      (dispatcher = true → ∀ s ∈ store.listSubscriptionsByTopic topicArn, s.protocol = .sqs →
        s.passes (req.publishOf topicArn result).attributes = false) := by
  have topic : (req.publishOf topicArn result).params["TopicArn"]? = some topicArn := by
    rw [BatchRequest.publishOf, StrMap.getElem?_insert, if_neg (by decide), StrMap.getElem?_insert,
      if_pos rfl]
  have message : (req.publishOf topicArn result).params["Message"]? = some result.entry.message := by
    rw [BatchRequest.publishOf, StrMap.getElem?_insert, if_pos rfl]
  simp only [publish, handlePublish, publishPayload, topic, message, known, if_true, Except.map]
  cases dispatcher with
  | false => simp
  | true =>
    rw [if_pos rfl, dispatchPublishDeliveries_eq_nil_iff]
    exact ⟨fun excluded _ => excluded, fun excluded => excluded rfl⟩

end Requests

/-- A batch sends what the Publishes of its entries send exactly when these send nothing. -/
theorem publishBatch_requests_iff (print : Json → String) (dispatcher : Bool) (store : SnsStore)
    (req : BatchRequest) (topicArn : String) (results : List BatchResult)
    (named : req.params["TopicArn"]? = some topicArn)
    (answered : (publishBatch store req).answer = .ok results) :
    (publishBatch store req).requests = (results.flatMap fun result =>
        (publish print dispatcher store (req.publishOf topicArn result)).requests) ↔
      (dispatcher = true → ∀ result ∈ results, ∀ s ∈ store.listSubscriptionsByTopic topicArn,
        s.protocol = .sqs → s.passes (req.publishOf topicArn result).attributes = false) := by
  have known : store.topics.contains topicArn = true := by
    simp only [publishBatch, handlePublishBatch, named] at answered
    split at answered
    · assumption
    · cases answered
  have none_sent : (publishBatch store req).requests = [] := rfl
  rw [none_sent, eq_comm, List.flatMap_eq_nil_iff]
  constructor
  · intro silent present result there
    exact (publish_publishOf_requests known dispatcher req result).mp (silent result there) present
  · intro excluded result there
    exact (publish_publishOf_requests known dispatcher req result).mpr fun present =>
      excluded present result there

def alertsArn : String := "arn:aws:sns:us-east-1:000000000000:alerts"

/-- A topic with one subscription. -/
def alertsTo (protocol : Protocol) (endpoint : String) : SnsStore where
  topics := (∅ : StrMap Topic).insert alertsArn ⟨alertsArn, "alerts"⟩
  subscriptions := (∅ : StrMap Subscription).insert "s" ⟨"s", alertsArn, protocol, endpoint, true, none⟩

def oneAlert : BatchRequest where
  accountId := "000000000000"
  region := "us-east-1"
  params := ((((∅ : StrMap String).insert "TopicArn" alertsArn).insert
    "PublishBatchRequestEntries.member.1.Id" "e1").insert
    "PublishBatchRequestEntries.member.1.Message" "fire")
  messageIds := fun _ => "m"
  timestamp := ""

theorem oneAlert_answer (protocol : Protocol) (endpoint : String) :
    (publishBatch (alertsTo protocol endpoint) oneAlert).answer = .ok [⟨⟨1, "e1", "fire"⟩, "m"⟩] := by
  rfl

theorem alertsTo_subscriptions (protocol : Protocol) (endpoint : String) :
    (alertsTo protocol endpoint).listSubscriptionsByTopic alertsArn =
      [⟨"s", alertsArn, protocol, endpoint, true, none⟩] := by
  rfl

theorem alertsTo_known (protocol : Protocol) (endpoint : String) :
    (alertsTo protocol endpoint).topics.contains alertsArn = true := by
  rfl

theorem batch_to_mail : (publishBatch (alertsTo .email "a@b") oneAlert).requests =
    [(⟨⟨1, "e1", "fire"⟩, "m"⟩ : BatchResult)].flatMap fun result =>
      (publish (fun _ => "") true (alertsTo .email "a@b") (oneAlert.publishOf alertsArn result)).requests := by
  refine (publishBatch_requests_iff (fun _ => "") true _ oneAlert alertsArn _ rfl
    (oneAlert_answer .email "a@b")).mpr ?_
  intro _ result _ s there queue
  rw [alertsTo_subscriptions, List.mem_singleton] at there
  subst there
  cases queue

/-- A queue that subscribes to the topic gets a published message, and nothing of a batch. -/
theorem batch_skips_queue : ∃ results,
    (publishBatch (alertsTo .sqs "arn:aws:sqs:us-east-1:000000000000:jobs") oneAlert).answer = .ok results ∧
      (publishBatch (alertsTo .sqs "arn:aws:sqs:us-east-1:000000000000:jobs") oneAlert).requests ≠
        results.flatMap fun result => (publish (fun _ => "") true
          (alertsTo .sqs "arn:aws:sqs:us-east-1:000000000000:jobs")
          (oneAlert.publishOf alertsArn result)).requests := by
  refine ⟨_, oneAlert_answer .sqs _, fun same => ?_⟩
  rw [List.flatMap_singleton] at same
  have excluded := (publish_publishOf_requests (alertsTo_known .sqs _) true oneAlert _).mp same.symm rfl _
    (by rw [alertsTo_subscriptions]; exact List.mem_singleton_self _) rfl
  cases excluded

end Openstack.Sns

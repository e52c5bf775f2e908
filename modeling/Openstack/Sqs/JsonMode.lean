import Openstack.Sqs.JsonRequests
import Openstack.Sqs.QueueRuns

/-!
# The JSON mode beside the query protocol

The same call as a form and as a JSON body. The JSON mode reads strings only, so numbers and nested
objects are lost on it, and it has no redrive step.
-/
namespace Openstack.Sqs

variable {q : SqsQueue} {name : String} {k : String}

/-! ## Calls in both encodings -/

/-- A call of an operation that both modes have, with its optional parameters. -/
inductive QueueCall where
  | createQueue (name : String) (attributes : Option (StrMap String))
  | sendMessage (url body : String) (delaySeconds : Option Nat) (group dedup : Option String)
      (attributes : Option (StrMap (String × Option String)))
  | receiveMessage (url : String) (maxNumber visibilityTimeout : Option Nat)
  | deleteQueue (url : String)

namespace QueueCall

def operation : QueueCall → String
  | .createQueue _ _ => "CreateQueue"
  | .sendMessage _ _ _ _ _ _ => "SendMessage"
  | .receiveMessage _ _ _ => "ReceiveMessage"
  | .deleteQueue _ => "DeleteQueue"

def attributeValue (v : String × Option String) : MessageAttributeValue := ⟨v.1, v.2, none⟩

/-- The parameters, as the query protocol reads them. -/
def Carried (headers : StrMap String) (p : Params) : QueueCall → Prop
  | .createQueue name attributes =>
    p["QueueName"]? = some name ∧ extractIndexedKv p "Attribute" = attributes.getD ∅
  | .sendMessage url body delaySeconds group dedup attributes =>
    p["QueueUrl"]? = some (compatUrl headers url) ∧ p["MessageBody"]? = some body ∧
      p["DelaySeconds"]? = delaySeconds.map toString ∧ p["MessageGroupId"]? = group ∧
      p["MessageDeduplicationId"]? = dedup ∧
      extractMessageAttributes p = StrMap.mapValues attributeValue (attributes.getD ∅)
  | .receiveMessage url maxNumber visibilityTimeout =>
    p["QueueUrl"]? = some (compatUrl headers url) ∧
      p["MaxNumberOfMessages"]? = maxNumber.map toString ∧
      p["VisibilityTimeout"]? = visibilityTimeout.map toString
  | .deleteQueue url => p["QueueUrl"]? = some (compatUrl headers url)

def optional (name : String) (value : Option Json) : List (String × Json) :=
  (value.map fun v => (name, v)).toList

def attributeJson (v : String × Option String) : Json :=
  .obj (("DataType", .str v.1) :: optional "StringValue" (v.2.map .str))

/-- The fields of the JSON body, in key order. -/
def jsonFields : QueueCall → List (String × Json)
  | .createQueue name attributes =>
    optional "Attributes" (attributes.map fun m => .obj (m.toList.map fun kv => (kv.1, .str kv.2))) ++
      [("QueueName", .str name)]
  | .sendMessage url body delaySeconds group dedup attributes =>
    optional "DelaySeconds" (delaySeconds.map .posInt) ++
      optional "MessageAttributes"
        (attributes.map fun m => .obj (m.toList.map fun kv => (kv.1, attributeJson kv.2))) ++
      [("MessageBody", .str body)] ++
      optional "MessageDeduplicationId" (dedup.map .str) ++
      optional "MessageGroupId" (group.map .str) ++ [("QueueUrl", .str url)]
  | .receiveMessage url maxNumber visibilityTimeout =>
    optional "MaxNumberOfMessages" (maxNumber.map .posInt) ++ [("QueueUrl", .str url)] ++
      optional "VisibilityTimeout" (visibilityTimeout.map .posInt)
  | .deleteQueue url => [("QueueUrl", .str url)]

end QueueCall

/-- The call as a form. -/
structure FormRequest (env : Env) (call : QueueCall) (req : WireRequest) : Prop where
  mode : req.queryModeJson = false
  query : req.queryParams = ∅
  action : req.action env = some call.operation
  carried : call.Carried req.headers (req.params env)

/-- The call as a JSON body. -/
structure JsonModeRequest (env : Env) (call : QueueCall) (req : WireRequest) : Prop where
  mode : req.queryModeJson = true
  json : JsonRequest env req call.operation call.jsonFields

/-- The names that the four operations look up, but for those that only follow another one. -/
def readNames : List String :=
  ["Action", "QueueName", "QueueUrl", "MessageBody", "DelaySeconds", "MessageGroupId",
    "MessageDeduplicationId", "MaxNumberOfMessages", "VisibilityTimeout", "Attribute.1.Name",
    "MessageAttribute.1.Name"]

/-- The text of a body, read as a form, has none of them. -/
def Silent (req : WireRequest) : Prop := ∀ k ∈ readNames, (formParams req.body)[k]? = none

instance (req : WireRequest) : Decidable (Silent req) :=
  inferInstanceAs (Decidable (∀ k ∈ readNames, (formParams req.body)[k]? = none))

/-! ## What the JSON mode reads -/

section Reading

variable {env : Env} {call : QueueCall} {req : WireRequest}

def fieldNames : List String :=
  ["Attributes", "QueueName", "DelaySeconds", "MessageAttributes", "MessageBody",
    "MessageDeduplicationId", "MessageGroupId", "QueueUrl", "MaxNumberOfMessages", "VisibilityTimeout"]

theorem mem_optional {value : Option Json} {f : String × Json} :
    f ∈ QueueCall.optional name value ↔ f.1 = name ∧ value = some f.2 := by
  obtain ⟨n, v⟩ := f
  cases value with
  | none => simp [QueueCall.optional]
  | some w =>
    simp only [QueueCall.optional, Option.map_some, Option.toList_some, List.mem_singleton,
      Prod.mk.injEq, Option.some.injEq]
    exact and_congr_right fun _ => eq_comm

theorem optional_names (name : String) (value : Option Json) :
    ((QueueCall.optional name value).map Prod.fst).Sublist [name] := by
  cases value with
  | none => exact List.nil_sublist _
  | some v => exact List.Sublist.refl _

theorem inKeyOrder_jsonFields (call : QueueCall) : InKeyOrder call.jsonFields := by
  have names : (call.jsonFields.map Prod.fst).Pairwise (· < ·) := by
    cases call with
    | createQueue name attributes =>
      have listed : ["Attributes", "QueueName"].Pairwise (· < ·) := by decide
      rw [QueueCall.jsonFields, List.map_append]
      exact listed.sublist ((optional_names "Attributes" _).append (.refl ["QueueName"]))
    | sendMessage url body delaySeconds group dedup attributes =>
      have listed : ["DelaySeconds", "MessageAttributes", "MessageBody", "MessageDeduplicationId",
          "MessageGroupId", "QueueUrl"].Pairwise (· < ·) := by decide
      simp only [QueueCall.jsonFields, List.map_append]
      exact listed.sublist ((((((optional_names "DelaySeconds" _).append
        (optional_names "MessageAttributes" _)).append (.refl ["MessageBody"])).append
        (optional_names "MessageDeduplicationId" _)).append (optional_names "MessageGroupId" _)).append
        (.refl ["QueueUrl"]))
    | receiveMessage url maxNumber visibilityTimeout =>
      have listed : ["MaxNumberOfMessages", "QueueUrl", "VisibilityTimeout"].Pairwise (· < ·) := by
        decide
      simp only [QueueCall.jsonFields, List.map_append]
      exact listed.sublist (((optional_names "MaxNumberOfMessages" _).append
        (.refl ["QueueUrl"])).append (optional_names "VisibilityTimeout" _))
    | deleteQueue url => exact List.pairwise_singleton _ _
  exact List.pairwise_map.mp names

theorem name_mem_fieldNames : ∀ f ∈ call.jsonFields, f.1 ∈ fieldNames := by
  intro f member
  cases call <;>
    simp only [QueueCall.jsonFields, List.mem_append, List.mem_cons, List.not_mem_nil, or_false,
      mem_optional] at member <;>
    simp only [fieldNames, List.mem_cons, List.not_mem_nil, or_false] <;> grind

/-- No entry of an object field goes under a name that is read. -/
theorem entry_ne_readName (listed : k ∈ readNames) :
    ∀ f ∈ call.jsonFields, ∀ e, f.1 ++ "." ++ e ≠ k := by
  have apart : ∀ n ∈ fieldNames, ∀ k ∈ readNames, ¬ (n ++ ".").toList <+: k.toList := by decide
  rintro f member e rfl
  have whole : (f.1 ++ "." ++ e).toList = (f.1 ++ ".").toList ++ e.toList := String.toList_append
  refine apart f.1 (name_mem_fieldNames f member) _ listed ?_
  rw [whole]
  exact List.prefix_append _ _

theorem JsonModeRequest.faithful (request : JsonModeRequest env call req) (silent : Silent req) :
    Faithful env req call.operation call.jsonFields := by
  refine request.json.faithful_iff.mpr (.inl ⟨silent "Action" (by decide), .inl ⟨?_, ?_⟩⟩)
  · intro v member
    have named := name_mem_fieldNames _ member
    simp [fieldNames] at named
  · have plain : ∀ op ∈ ["CreateQueue", "SendMessage", "ReceiveMessage", "DeleteQueue"],
        '.' ∉ op.toList := by decide
    exact plain _ (by cases call <;> simp [QueueCall.operation])

theorem JsonModeRequest.param_none (request : JsonModeRequest env call req) (silent : Silent req)
     (listed : k ∈ readNames) (notAction : k ≠ "Action")
    (absent : ∀ v, ¬ StringField call.jsonFields k v) : (parseParams env req)[k]? = none := by
  rw [request.json.params_other notAction absent (entry_ne_readName listed)]
  exact silent k listed

theorem extractIndexedKv_eq_empty {params : Params} (first : params["Attribute.1.Name"]? = none) :
    extractIndexedKv params "Attribute" = ∅ := by
  have name : indexedParam params "Attribute" 1 "Name" = none :=
    (indexedParam_first params "Attribute").trans first
  rw [extractIndexedKv, indexed_eq_nil]
  · rfl
  · simp [name]

end Reading

/-! ## Effects of the operations -/

section Effects

variable (env : Env) (w : World)

/-- The stores after a change of one queue, where it is there. -/
@[grind] def updateStores (key name : String) (f : SqsQueue → SqsQueue) : StrMap SqsStore :=
  match w.stores[key]? with
  | none => w.stores
  | some store => w.stores.insert key
    (match store.queues[name]? with
      | none => store
      | some q => { store with queues := store.queues.insert name (f q) })

/-- The messages that a ReceiveMessage answers with. -/
def delivered (req : Request) : List SqsMessage :=
  match w.stores[req.storeKey]?.bind fun store => req.queueName?.bind fun name => store.queues[name]? with
  | none => []
  | some q =>
    if req.action = "ReceiveMessage" then
      let received := q.receiveMessages req.now w.messageIds (maxNumberOfMessages req.params)
        (req.params["VisibilityTimeout"]?.bind (RustFmt.parseUnsigned 32))
      received.1.filterMap fun idx => received.2.1.messages[idx]?
    else []

variable {env w}

theorem insert_inj {V : Type} {m : StrMap V} {v v' : V} :
    m.insert k v = m.insert k v' ↔ v = v' := by
  constructor
  · intro same
    have here := congrArg (fun m : StrMap V => m[k]?) same
    simpa using here
  · rintro rfl
    rfl

theorem updateStores_eq_iff {key name : String} {f g : SqsQueue → SqsQueue} :
    updateStores w key name f = updateStores w key name g ↔
      ∀ store q, w.stores[key]? = some store → store.queues[name]? = some q → f q = g q := by
  unfold updateStores
  cases found : w.stores[key]? with
  | none => simp
  | some store =>
    simp only [insert_inj]
    cases queue : store.queues[name]? with
    | none =>
      simp only [true_iff]
      intro other q same stored
      rw [← Option.some.inj same, queue] at stored
      cases stored
    | some q =>
      simp only [SqsStore.mk.injEq, insert_inj]
      constructor
      · intro same other q' listed stored
        rw [← Option.some.inj listed, queue] at stored
        rw [← Option.some.inj stored]
        exact same
      · intro same
        exact same store q rfl queue

variable {req : Request} {name : String}

theorem dispatch_send {body : String} (action : req.action = "SendMessage")
    (queue : req.queueName? = some name) (message : req.params["MessageBody"]? = some body) :
    (dispatch env w req).2.stores = updateStores w req.storeKey name
      fun q => (q.sendMessage env req.now w.messageIds (sendArgs req.params body)).2.1 := by
  have parsed : Action.parse req.action = some .sendMessage := by rw [action]; decide
  unfold dispatch updateStores
  rw [parsed]
  cases w.stores[req.storeKey]? with
  | none => rfl
  | some store =>
    simp only [Action.handle, handleSendMessage, queue, message, World.session]
    cases store.queues[name]? <;> rfl

theorem dispatchJson_send {body : String} (action : req.action = "SendMessage")
    (queue : req.queueName? = some name) (message : req.params["MessageBody"]? = some body) :
    (dispatchJson env w req).2.stores = updateStores w req.storeKey name
      fun q => (q.sendMessage env req.now w.messageIds (sendArgs req.params body)).2.1 := by
  have parsed : Action.parse req.action = some .sendMessage := by rw [action]; decide
  unfold dispatchJson updateStores
  rw [parsed]
  cases w.stores[req.storeKey]? with
  | none => rfl
  | some store =>
    simp only [jsonHandle, jsonSendMessage, queue, message, World.session]
    cases store.queues[name]? <;> rfl

theorem dispatch_receive (action : req.action = "ReceiveMessage") (queue : req.queueName? = some name) :
    (dispatch env w req).2.stores = updateStores w req.storeKey name fun q => redriveStep
      (q.receiveMessages req.now w.messageIds (maxNumberOfMessages req.params)
        (req.params["VisibilityTimeout"]?.bind (RustFmt.parseUnsigned 32))).2.1 := by
  have parsed : Action.parse req.action = some .receiveMessage := by rw [action]; decide
  unfold dispatch updateStores
  rw [parsed]
  cases w.stores[req.storeKey]? with
  | none => rfl
  | some store =>
    simp only [Action.handle, handleReceiveMessage, queue, World.session]
    cases store.queues[name]? <;> rfl

theorem dispatchJson_receive (action : req.action = "ReceiveMessage")
    (queue : req.queueName? = some name) :
    (dispatchJson env w req).2.stores = updateStores w req.storeKey name fun q =>
      (q.receiveMessages req.now w.messageIds (maxNumberOfMessages req.params)
        (req.params["VisibilityTimeout"]?.bind (RustFmt.parseUnsigned 32))).2.1 := by
  have parsed : Action.parse req.action = some .receiveMessage := by rw [action]; decide
  unfold dispatchJson updateStores
  rw [parsed]
  cases w.stores[req.storeKey]? with
  | none => rfl
  | some store =>
    simp only [jsonHandle, jsonReceiveMessage, queue, World.session]
    cases store.queues[name]? <;> rfl

theorem dispatch_create (action : req.action = "CreateQueue")
    (named : req.params["QueueName"]? = some name) :
    (dispatch env w req).2.stores = w.stores.insert req.storeKey
      ((w.stores[req.storeKey]?.getD {}).createQueue env req.now name (baseQueueUrl req)
        req.accountId req.region (extractIndexedKv req.params "Attribute")).2 := by
  have parsed : Action.parse req.action = some .createQueue := by rw [action]; decide
  unfold dispatch
  rw [parsed]
  cases w.stores[req.storeKey]? <;> simp [Action.handle, handleCreateQueue, named, World.session,
    World.put, Session.wrap, newRequestId]

theorem dispatchJson_create (action : req.action = "CreateQueue")
    (named : req.params["QueueName"]? = some name) :
    (dispatchJson env w req).2.stores = w.stores.insert req.storeKey
      ((w.stores[req.storeKey]?.getD {}).createQueue env req.now name (baseQueueUrl req)
        req.accountId req.region (extractIndexedKv req.params "Attribute")).2 := by
  have parsed : Action.parse req.action = some .createQueue := by rw [action]; decide
  unfold dispatchJson
  rw [parsed]
  cases w.stores[req.storeKey]? <;> simp [jsonHandle, jsonCreateQueue, named, World.session, World.put]

/-- The two modes delete alike. -/
theorem dispatch_delete {other : Request} (action : req.action = "DeleteQueue")
    (action' : other.action = "DeleteQueue") (queue : req.queueName? = some name)
    (queue' : other.queueName? = some name) (key : other.storeKey = req.storeKey) :
    (dispatch env w req).2.stores = (dispatchJson env w other).2.stores := by
  have parsed : Action.parse "DeleteQueue" = some .deleteQueue := by decide
  unfold dispatch dispatchJson
  rw [action, action', parsed, key]
  cases w.stores[req.storeKey]? with
  | none => rfl
  | some store =>
    simp only [Action.handle, handleDeleteQueue, jsonHandle, jsonDeleteQueue, queue, queue',
      World.session]
    by_cases gone : (store.deleteQueue name).1 = true
    · simp only [gone, if_true]
      rfl
    · simp [gone]

end Effects

/-! ## Parameters that make no difference -/

section Harmless

variable {env : Env} {now : Instant}

/-- An accepted message keeps the delay and the attributes it was sent with. -/
theorem sendMessage_eq_iff {counter : Nat} {args args' : SendArgs}
    (body : args.body = args'.body) (group : args.messageGroupId = args'.messageGroupId)
    (dedup : args.dedupId = args'.dedupId) :
    (q.sendMessage env now counter args).2.1 = (q.sendMessage env now counter args').2.1 ↔
      q.isDuplicate args = true ∨
        args.delayOverride.getD q.delaySeconds = args'.delayOverride.getD q.delaySeconds ∧
          args.messageAttributes = args'.messageAttributes := by
  have duplicate : q.isDuplicate args' = q.isDuplicate args := by
    simp only [SqsQueue.isDuplicate, dedup]
  unfold SqsQueue.sendMessage
  rw [duplicate]
  cases q.isDuplicate args with
  | true => simp
  | false =>
    simp only [Bool.false_eq_true, if_false, false_or, dedup, SqsQueue.mk.injEq, List.append_cancel_left_eq,
      List.cons.injEq, and_true, true_and, SqsMessage.new, SqsMessage.mk.injEq, body, group]
    constructor
    · rintro ⟨attributes, _, delay⟩
      exact ⟨delay, attributes⟩
    · rintro ⟨delay, attributes⟩
      simp [delay, attributes]

/-- Attributes that leave a new queue as it is. -/
@[mk_iff] structure Idle (env : Env) (attributes : StrMap String) : Prop where
  visibilityTimeout : (attributes["VisibilityTimeout"]?.bind (RustFmt.parseUnsigned 32)).getD 30 = 30
  messageRetentionPeriod :
    (attributes["MessageRetentionPeriod"]?.bind (RustFmt.parseUnsigned 32)).getD 345600 = 345600
  maximumMessageSize :
    (attributes["MaximumMessageSize"]?.bind (RustFmt.parseUnsigned 32)).getD 262144 = 262144
  delaySeconds : (attributes["DelaySeconds"]?.bind (RustFmt.parseUnsigned 32)).getD 0 = 0
  receiveMessageWaitTimeSeconds :
    (attributes["ReceiveMessageWaitTimeSeconds"]?.bind (RustFmt.parseUnsigned 32)).getD 0 = 0
  contentBasedDeduplication : attributes["ContentBasedDeduplication"]? ≠ some "true"
  redrivePolicy : attributes["RedrivePolicy"]?.bind env.parseJson = none

theorem applyQueueAttributes_eq_iff {name baseUrl accountId region : String}
    {attributes : StrMap String} :
    (SqsQueue.new now name baseUrl accountId region).applyQueueAttributes env now attributes =
      (SqsQueue.new now name baseUrl accountId region).applyQueueAttributes env now ∅ ↔
      Idle env attributes := by
  simp only [SqsQueue.applyQueueAttributes, SqsQueue.new, SqsQueue.mk.injEq, true_and, and_true,
    Std.ExtTreeMap.getElem?_empty, Option.bind_none, Option.getD_none, idle_iff]
  cases attributes["ContentBasedDeduplication"]? <;>
    cases attributes["RedrivePolicy"]?.bind env.parseJson <;> simp

theorem createQueue_eq_iff {store : SqsStore} {name baseUrl accountId region : String}
    {attributes : StrMap String} :
    (store.createQueue env now name baseUrl accountId region attributes).2 =
      (store.createQueue env now name baseUrl accountId region ∅).2 ↔
      (∃ q, store.queues[name]? = some q) ∨ Idle env attributes := by
  unfold SqsStore.createQueue
  cases store.queues[name]? with
  | some q => simp
  | none => simp [insert_inj, applyQueueAttributes_eq_iff]

end Harmless

/-! ## Receiving one message or several -/

section Receiving

variable {vt vt' limit limit' counter counter' counter'' idx : Nat} {now : Instant}
  {msgs taken taken' msgs' msgs'' : List SqsMessage} {positions positions' : List Nat}

/-- How many messages are in sight. -/
def inSight (now : Instant) (msgs : List SqsMessage) : Nat := msgs.countP (·.isVisibleAt now)

theorem inSight_visible {m : SqsMessage} (visible : m.isVisibleAt now = true) :
    inSight now (m :: msgs) = inSight now msgs + 1 :=
  List.countP_cons_of_pos (p := fun m : SqsMessage => m.isVisibleAt now) visible

theorem inSight_hidden {m : SqsMessage} (invisible : m.isVisibleAt now = false) :
    inSight now (m :: msgs) = inSight now msgs :=
  List.countP_cons_of_neg (p := fun m : SqsMessage => m.isVisibleAt now) (by simp [invisible])

theorem Received.length_taken
    (received : Received vt now limit counter idx msgs positions taken msgs' counter') :
    taken.length = min limit (inSight now msgs) := by
  induction received with
  | nil => simp [inSight]
  | full => simp
  | take visible later ih =>
    rw [List.length_cons, ih, inSight_visible visible]
    omega
  | hidden invisible later ih => rw [ih, inSight_hidden invisible]

theorem Received.nothing
    (received : Received vt now limit counter idx msgs positions taken msgs' counter')
    (none : min limit (inSight now msgs) = 0) : positions = [] ∧ msgs' = msgs := by
  induction received with
  | nil | full => exact ⟨rfl, rfl⟩
  | take visible later ih =>
    rw [inSight_visible visible] at none
    omega
  | hidden invisible later ih =>
    rw [inSight_hidden invisible] at none
    obtain ⟨same, rest⟩ := ih none
    exact ⟨same, by rw [rest]⟩

/-- Which messages are taken depends on how many there are to take. -/
theorem Received.unique
    (received : Received vt now limit counter idx msgs positions taken msgs' counter')
    (other : Received vt' now limit' counter idx msgs positions' taken' msgs'' counter'')
    (count : min limit (inSight now msgs) = min limit' (inSight now msgs)) :
    positions = positions' ∧ (vt = vt' → msgs' = msgs'') := by
  induction received generalizing limit' positions' taken' msgs'' counter'' with
  | nil =>
    obtain ⟨same, rest⟩ := other.nothing (by simp [inSight])
    exact ⟨same.symm, fun _ => rest.symm⟩
  | full =>
    obtain ⟨same, rest⟩ := other.nothing (by omega)
    exact ⟨same.symm, fun _ => rest.symm⟩
  | take visible later ih =>
    rw [inSight_visible visible] at count
    cases other with
    | full => omega
    | take _ later' =>
      obtain ⟨same, rest⟩ := ih later' (by omega)
      refine ⟨by rw [same], fun equal => ?_⟩
      rw [rest equal, equal]
    | hidden invisible _ =>
      rw [visible] at invisible
      cases invisible
  | hidden invisible later ih =>
    rw [inSight_hidden invisible] at count
    cases other with
    | full =>
      obtain ⟨same, rest⟩ := later.nothing (by omega)
      exact ⟨same, fun _ => by rw [rest]⟩
    | take visible _ =>
      rw [visible] at invisible
      cases invisible
    | hidden _ later' =>
      obtain ⟨same, rest⟩ := ih later' count
      refine ⟨same, fun equal => ?_⟩
      rw [rest equal]

/-- `visible_after` of a message that was just received. -/
def deadline (vt : Nat) (now : Instant) : Option Instant :=
  if vt > 0 then some (now + seconds vt) else none

theorem deadline_inj (same : deadline vt now = deadline vt' now) : vt = vt' := by
  unfold deadline at same
  split at same
  · split at same
    · have sum : now + seconds vt = now + seconds vt' := Option.some.inj same
      have equal := Int.add_left_cancel sum
      unfold seconds at equal
      omega
    · cases same
  · split at same
    · cases same
    · omega

theorem Received.deadline_taken
    (received : Received vt now limit counter idx msgs positions taken msgs' counter') :
    ∀ m ∈ taken, m.visibleAfter = deadline vt now := by
  induction received with
  | nil | full => simp
  | take visible later ih =>
    intro m member
    rcases List.mem_cons.mp member with rfl | inside
    · rfl
    · exact ih m inside
  | hidden invisible later ih => exact ih

/-- The receive counts once the first message in sight has been received. -/
def countsAfterFirst (now : Instant) : List SqsMessage → List Nat
  | [] => []
  | m :: rest =>
    if m.isVisibleAt now then (m.receiveCount + 1) % 2 ^ 32 :: rest.map (·.receiveCount)
    else m.receiveCount :: countsAfterFirst now rest

theorem Received.counts
    (received : Received vt now 1 counter idx msgs positions taken msgs' counter') :
    msgs'.map (·.receiveCount) = countsAfterFirst now msgs := by
  induction msgs generalizing idx positions taken msgs' counter' with
  | nil =>
    cases received
    rfl
  | cons m rest ih =>
    cases received with
    | take visible later =>
      obtain ⟨_, same⟩ := later.nothing (by simp)
      simp [countsAfterFirst, visible, same, SqsMessage.beginReceive]
    | hidden invisible later => simp [countsAfterFirst, invisible, ih later]

theorem receiveMessages_queue (now : Instant) (counter : Nat) (q : SqsQueue) (maxNumber : Nat)
    (vt : Option Nat) : (q.receiveMessages now counter maxNumber vt).2.1 =
      { q with messages := (q.receiveMessages now counter maxNumber vt).2.1.messages } := by
  unfold SqsQueue.receiveMessages
  split <;> rfl

/-- No message has been received too often. -/
def NoneSpent (q : SqsQueue) : Prop :=
  ∀ rp, q.redrivePolicy = some rp → ∀ m ∈ q.messages, m.receiveCount < rp.maxReceiveCount

theorem redriveStep_of_noneSpent (none : NoneSpent q) : redriveStep q = q := by
  unfold redriveStep
  split
  · rfl
  · next rp policy =>
    rw [if_neg]
    intro any
    obtain ⟨m, member, spent⟩ := List.any_eq_true.mp any
    have below := none rp policy m member
    simp only [decide_eq_true_eq] at spent
    omega

theorem noneSpent_of_length (length : (redriveStep q).messages.length = q.messages.length) : NoneSpent q := by
  intro rp policy m member
  by_contra spent
  have any : q.messages.any (fun m => decide (m.receiveCount ≥ rp.maxReceiveCount)) = true :=
    List.any_eq_true.mpr ⟨m, member, by simpa using spent⟩
  simp only [redriveStep, policy, any, if_true, SqsQueue.removeDlqCandidates] at length
  have kept := List.length_filter_eq_length_iff.mp length m member
  simp only [decide_eq_true_eq] at kept
  exact spent kept

/-- A receive of up to `maxNumber` messages for `vt` does what one of one message for the default
time does, and there is nothing to redrive afterwards. -/
structure ReceivesAlike (now : Instant) (q : SqsQueue) (maxNumber : Nat) (vt : Option Nat) : Prop where
  count : min maxNumber (inSight now q.messages) = min 1 (inSight now q.messages)
  timeout : 0 < inSight now q.messages → vt.getD q.visibilityTimeout = q.visibilityTimeout
  redrive : ∀ rp, q.redrivePolicy = some rp → ∀ n ∈ countsAfterFirst now q.messages,
    n < rp.maxReceiveCount

/-- The messages of an answer. -/
def shown (received : List Nat × SqsQueue × Nat) : List SqsMessage :=
  received.1.filterMap fun idx => received.2.1.messages[idx]?

theorem receive_alike_iff {maxNumber : Nat} {timeout : Option Nat} :
    (redriveStep (q.receiveMessages now counter maxNumber timeout).2.1 =
        (q.receiveMessages now counter 1 none).2.1 ∧
      shown (q.receiveMessages now counter maxNumber timeout) =
        shown (q.receiveMessages now counter 1 none)) ↔
      ReceivesAlike now q maxNumber timeout := by
  obtain ⟨taken, form⟩ := receiveMessages_received now counter q maxNumber timeout
  obtain ⟨taken', json⟩ := receiveMessages_received now counter q 1 none
  have formShown : shown (q.receiveMessages now counter maxNumber timeout) = taken :=
    form.taken_eq [] rfl
  have jsonShown : shown (q.receiveMessages now counter 1 none) = taken' := json.taken_eq [] rfl
  have formQueue := receiveMessages_queue now counter q maxNumber timeout
  have jsonQueue := receiveMessages_queue now counter q 1 none
  rw [Option.getD_none] at json
  constructor
  · rintro ⟨state, answer⟩
    have lengths : (redriveStep (q.receiveMessages now counter maxNumber timeout).2.1).messages.length =
        (q.receiveMessages now counter maxNumber timeout).2.1.messages.length := by
      rw [state, json.length, form.length]
    have unspent := noneSpent_of_length lengths
    rw [redriveStep_of_noneSpent unspent] at state
    have count : min maxNumber (inSight now q.messages) = min 1 (inSight now q.messages) := by
      have same := congrArg List.length answer
      rw [formShown, jsonShown, form.length_taken, json.length_taken] at same
      exact same
    refine ⟨count, ?_, ?_⟩
    · intro some
      have same : taken = taken' := by rw [← formShown, ← jsonShown, answer]
      cases first : taken' with
      | nil =>
        have length := json.length_taken
        rw [first, List.length_nil] at length
        omega
      | cons m rest =>
        have inForm : m ∈ taken := by simp [same, first]
        have inJson : m ∈ taken' := by simp [first]
        exact deadline_inj ((form.deadline_taken m inForm).symm.trans (json.deadline_taken m inJson))
    · intro rp policy n member
      rw [← json.counts] at member
      obtain ⟨m, inside, rfl⟩ := List.mem_map.mp member
      rw [← state] at inside
      refine unspent rp ?_ m inside
      rw [formQueue]
      exact policy
  · rintro ⟨count, timeoutSame, redrive⟩
    have positions := (form.unique json count).1
    have messages : (q.receiveMessages now counter maxNumber timeout).2.1.messages =
        (q.receiveMessages now counter 1 none).2.1.messages := by
      by_cases some : 0 < inSight now q.messages
      · exact (form.unique json count).2 (timeoutSame some)
      · have zero : inSight now q.messages = 0 := by omega
        rw [(form.nothing (by omega)).2, (json.nothing (by omega)).2]
    have state : (q.receiveMessages now counter maxNumber timeout).2.1 =
        (q.receiveMessages now counter 1 none).2.1 := by
      rw [formQueue, jsonQueue, messages]
    have unspent : NoneSpent (q.receiveMessages now counter 1 none).2.1 := by
      intro rp policy m member
      rw [jsonQueue] at policy
      refine redrive rp policy m.receiveCount ?_
      rw [← json.counts]
      exact List.mem_map_of_mem member
    refine ⟨by rw [state, redriveStep_of_noneSpent unspent], ?_⟩
    rw [shown, shown, positions, state]

end Receiving

/-! ## The two modes side by side -/

/-- Two requests of one caller, at one moment, to one endpoint. -/
structure Alike (form json : WireRequest) : Prop where
  accountId : json.accountId = form.accountId
  region : json.region = form.region
  now : json.now = form.now
  host : json.headers["host"]? = form.headers["host"]?
  forwardedProto : json.headers["x-forwarded-proto"]? = form.headers["x-forwarded-proto"]?
  amzRegion : json.headers["x-amz-region"]? = form.headers["x-amz-region"]?

/-- A number that a form can carry. -/
def fitting (bits : Nat) (n : Option Nat) : Option Nat := n.filter (· < 2 ^ bits)

/-- The queue in the world that a URL of the request names. -/
def Named (w : World) (req : WireRequest) (url : String) (q : SqsQueue) : Prop :=
  ∃ store, w.stores[accountRegionKey req.accountId req.region]? = some store ∧
    store.queues[queueNameFromUrl (compatUrl req.headers url)]? = some q

/-- The parameters that the JSON mode does not read would change nothing. -/
def Harmless (env : Env) (w : World) (req : WireRequest) : QueueCall → Prop
  | .createQueue name attributes =>
    (∃ q, (w.stores[accountRegionKey req.accountId req.region]?.getD {}).queues[name]? = some q) ∨
      Idle env (attributes.getD ∅)
  | .sendMessage url body delaySeconds group dedup attributes =>
    ∀ q, Named w req url q → q.isDuplicate ⟨body, none, ∅, group, dedup⟩ = true ∨
      (fitting 32 delaySeconds).getD q.delaySeconds = q.delaySeconds ∧ attributes.getD ∅ = ∅
  | .receiveMessage url maxNumber visibilityTimeout =>
    ∀ q, Named w req url q → ReceivesAlike req.now q (min ((fitting 64 maxNumber).getD 1) 10)
      (fitting 32 visibilityTimeout)
  | .deleteQueue _ => True

/-- The same stores afterwards, and the same messages in the answer. -/
def SameOutcome (env : Env) (w : World) (call : QueueCall) (form json : WireRequest) : Prop :=
  (dispatch env w (form.toRequest env call.operation)).2.stores =
      (dispatchJson env w (json.toRequest env call.operation)).2.stores ∧
    delivered w (form.toRequest env call.operation) = delivered w (json.toRequest env call.operation)

section Modes

variable {env : Env} {w : World} {call : QueueCall} {form json : WireRequest}

@[simp] theorem toRequest_params (req : WireRequest) (action : String) :
    (req.toRequest env action).params = req.params env := rfl

@[simp] theorem toRequest_now (req : WireRequest) (action : String) :
    (req.toRequest env action).now = req.now := rfl

theorem queueName_eq {req : WireRequest} {action url : String}
    (named : (req.params env)["QueueUrl"]? = some url) :
    (req.toRequest env action).queueName? = some (queueNameFromUrl url) := by
  rw [Request.queueName?, toRequest_params, named, Option.map_some]

theorem Alike.compatUrl_eq (alike : Alike form json) (url : String) :
    compatUrl json.headers url = compatUrl form.headers url := by
  unfold compatUrl endpointUrl
  rw [alike.host, alike.forwardedProto]

theorem Alike.baseQueueUrl_eq (alike : Alike form json) (action : String) :
    baseQueueUrl (json.toRequest env action) = baseQueueUrl (form.toRequest env action) := by
  have hosts : json.headers.contains "host" = form.headers.contains "host" := by
    rw [Std.ExtTreeMap.contains_eq_isSome_getElem?, Std.ExtTreeMap.contains_eq_isSome_getElem?,
      alike.host]
  unfold baseQueueUrl WireRequest.toRequest
  rw [hosts, alike.amzRegion, alike.region]

theorem Alike.storeKey_eq (alike : Alike form json) (action : String) :
    (json.toRequest env action).storeKey = (form.toRequest env action).storeKey := by
  simp only [Request.storeKey, WireRequest.toRequest, alike.accountId, alike.region]

theorem parse_fitting (bits : Nat) (n : Option Nat) :
    ((n.map toString).bind (RustFmt.parseUnsigned bits)) = fitting bits n := by
  cases n with
  | none => rfl
  | some n =>
    rw [Option.map_some, Option.bind_some, RustFmt.parseUnsigned_toString, fitting, Option.filter]
    simp only [decide_eq_true_eq]

/-- What comes through of a parameter is the string field of its name. -/
theorem JsonModeRequest.param_eq (request : JsonModeRequest env call json) (silent : Silent json)
     (value : Option String) (field : ∀ v, StringField call.jsonFields k v ↔ value = some v)
    (listed : k ∈ readNames) (notAction : k ≠ "Action") (notUrl : k ≠ "QueueUrl") :
    (json.params env)[k]? = value := by
  rw [WireRequest.params, applyTransportCompat_of_ne _ _ notUrl]
  cases value with
  | some v => exact (request.faithful silent).2 k v ((field v).mpr rfl)
  | none => exact request.param_none silent listed notAction fun v member =>
      Option.some_ne_none v ((field v).mp member).symm

theorem JsonModeRequest.url (request : JsonModeRequest env call json) (silent : Silent json)
    {url : String} (member : StringField call.jsonFields "QueueUrl" url) :
    (json.params env)["QueueUrl"]? = some (compatUrl json.headers url) := by
  rw [WireRequest.params, applyTransportCompat_url, (request.faithful silent).2 _ _ member]
  rfl

theorem mapValues_eq_empty {V W : Type} {f : V → W} {m : StrMap V} :
    StrMap.mapValues f m = ∅ ↔ m = ∅ := by
  constructor
  · intro empty
    apply Std.ExtTreeMap.ext_getElem?
    intro k
    have here := congrArg (fun m : StrMap W => m[k]?) empty
    simpa using here
  · rintro rfl
    apply Std.ExtTreeMap.ext_getElem?
    intro k
    simp

theorem sameOutcome_iff_stores (other : call.operation ≠ "ReceiveMessage") :
    SameOutcome env w call form json ↔
      (dispatch env w (form.toRequest env call.operation)).2.stores =
        (dispatchJson env w (json.toRequest env call.operation)).2.stores := by
  have nothing : ∀ req : WireRequest, delivered w (req.toRequest env call.operation) = [] := by
    intro req
    unfold delivered
    split
    · rfl
    · exact if_neg other
  rw [SameOutcome, nothing, nothing, and_iff_left rfl]

theorem create_outcome {attributes : Option (StrMap String)}
    (asForm : FormRequest env (.createQueue name attributes) form)
    (asJson : JsonModeRequest env (.createQueue name attributes) json) (alike : Alike form json)
    (silent : Silent json) : SameOutcome env w (.createQueue name attributes) form json ↔
      Harmless env w form (.createQueue name attributes) := by
  have named : (json.params env)["QueueName"]? = some name :=
    asJson.param_eq silent (some name)
      (by simp [StringField, QueueCall.jsonFields, mem_optional, eq_comm])
      (by decide) (by decide) (by decide)
  have lost : extractIndexedKv (json.params env) "Attribute" = ∅ :=
    extractIndexedKv_eq_empty (asJson.param_eq silent none
      (by simp [StringField, QueueCall.jsonFields, mem_optional]) (by decide) (by decide) (by decide))
  rw [sameOutcome_iff_stores (by simp [QueueCall.operation]), dispatch_create rfl asForm.carried.1,
    dispatchJson_create rfl named, alike.storeKey_eq, insert_inj, alike.baseQueueUrl_eq]
  simp only [WireRequest.toRequest, asForm.carried.2, lost, alike.now, alike.accountId, alike.region]
  exact createQueue_eq_iff

theorem send_outcome {url body : String} {delaySeconds : Option Nat} {group dedup : Option String}
    {attributes : Option (StrMap (String × Option String))}
    (asForm : FormRequest env (.sendMessage url body delaySeconds group dedup attributes) form)
    (asJson : JsonModeRequest env (.sendMessage url body delaySeconds group dedup attributes) json)
    (alike : Alike form json) (silent : Silent json) :
    SameOutcome env w (.sendMessage url body delaySeconds group dedup attributes) form json ↔
      Harmless env w form (.sendMessage url body delaySeconds group dedup attributes) := by
  obtain ⟨formUrl, formBody, formDelay, formGroup, formDedup, formAttributes⟩ := asForm.carried
  have jsonUrl : (json.params env)["QueueUrl"]? = some (compatUrl json.headers url) :=
    asJson.url silent (by simp [StringField, QueueCall.jsonFields])
  have jsonBody : (json.params env)["MessageBody"]? = some body :=
    asJson.param_eq silent (some body)
      (by simp [StringField, QueueCall.jsonFields, mem_optional, eq_comm])
      (by decide) (by decide) (by decide)
  have jsonDelay : (json.params env)["DelaySeconds"]? = none :=
    asJson.param_eq silent none (by simp [StringField, QueueCall.jsonFields, mem_optional])
      (by decide) (by decide) (by decide)
  have jsonAttributes : extractMessageAttributes (json.params env) = ∅ :=
    extractMessageAttributes_eq_empty (asJson.param_eq silent none
      (by simp [StringField, QueueCall.jsonFields, mem_optional]) (by decide) (by decide) (by decide))
  have jsonGroup : (json.params env)["MessageGroupId"]? = group :=
    asJson.param_eq silent group (by simp [StringField, QueueCall.jsonFields, mem_optional])
      (by decide) (by decide) (by decide)
  have jsonDedup : (json.params env)["MessageDeduplicationId"]? = dedup :=
    asJson.param_eq silent dedup (by simp [StringField, QueueCall.jsonFields, mem_optional])
      (by decide) (by decide) (by decide)
  have formArgs : sendArgs (form.params env) body = ⟨body, fitting 32 delaySeconds,
      StrMap.mapValues QueueCall.attributeValue (attributes.getD ∅), group, dedup⟩ := by
    rw [sendArgs, formDelay, parse_fitting, formAttributes, formGroup, formDedup]
  have jsonArgs : sendArgs (json.params env) body = ⟨body, none, ∅, group, dedup⟩ := by
    rw [sendArgs, jsonDelay, jsonAttributes, jsonGroup, jsonDedup]
    rfl
  have formQueue : (form.toRequest env "SendMessage").queueName? =
      some (queueNameFromUrl (compatUrl form.headers url)) := queueName_eq formUrl
  have jsonQueue : (json.toRequest env "SendMessage").queueName? =
      some (queueNameFromUrl (compatUrl form.headers url)) := queueName_eq (alike.compatUrl_eq url ▸ jsonUrl)
  rw [sameOutcome_iff_stores (by simp [QueueCall.operation]), QueueCall.operation,
    dispatch_send rfl formQueue formBody, dispatchJson_send rfl jsonQueue jsonBody, alike.storeKey_eq,
    updateStores_eq_iff]
  simp only [WireRequest.toRequest, formArgs, jsonArgs, alike.now, Harmless, Named]
  constructor
  · rintro same q ⟨store, found, stored⟩
    have cases := (sendMessage_eq_iff (by rfl) (by rfl) (by rfl)).mp (same store q found stored)
    rwa [Option.getD_none, mapValues_eq_empty] at cases
  · intro harmless store q found stored
    refine (sendMessage_eq_iff (by rfl) (by rfl) (by rfl)).mpr ?_
    rw [Option.getD_none, mapValues_eq_empty]
    exact harmless q ⟨store, found, stored⟩

theorem delivered_receive {req : Request} {store : SqsStore}
    (action : req.action = "ReceiveMessage") (queue : req.queueName? = some name)
    (found : w.stores[req.storeKey]? = some store) (stored : store.queues[name]? = some q) :
    delivered w req = shown (q.receiveMessages req.now w.messageIds (maxNumberOfMessages req.params)
      (req.params["VisibilityTimeout"]?.bind (RustFmt.parseUnsigned 32))) := by
  simp [delivered, found, queue, stored, action, shown]

/-- Without the queue there is nothing to deliver. -/
theorem delivered_nothing {req : Request} (queue : req.queueName? = some name)
    (absent : ∀ store q, w.stores[req.storeKey]? = some store → store.queues[name]? ≠ some q) :
    delivered w req = [] := by
  unfold delivered
  split
  · rfl
  · next q found =>
    obtain ⟨store, here, rest⟩ := Option.bind_eq_some_iff.mp found
    rw [queue, Option.bind_some] at rest
    exact absurd rest (absent store q here)

theorem receive_outcome {url : String} {maxNumber visibilityTimeout : Option Nat}
    (asForm : FormRequest env (.receiveMessage url maxNumber visibilityTimeout) form)
    (asJson : JsonModeRequest env (.receiveMessage url maxNumber visibilityTimeout) json)
    (alike : Alike form json) (silent : Silent json) :
    SameOutcome env w (.receiveMessage url maxNumber visibilityTimeout) form json ↔
      Harmless env w form (.receiveMessage url maxNumber visibilityTimeout) := by
  obtain ⟨formUrl, formMax, formTimeout⟩ := asForm.carried
  have jsonUrl : (json.params env)["QueueUrl"]? = some (compatUrl json.headers url) :=
    asJson.url silent (by simp [StringField, QueueCall.jsonFields, mem_optional])
  have jsonMax : (json.params env)["MaxNumberOfMessages"]? = none :=
    asJson.param_eq silent none (by simp [StringField, QueueCall.jsonFields, mem_optional])
      (by decide) (by decide) (by decide)
  have jsonTimeout : (json.params env)["VisibilityTimeout"]? = none :=
    asJson.param_eq silent none (by simp [StringField, QueueCall.jsonFields, mem_optional])
      (by decide) (by decide) (by decide)
  have formQueue : (form.toRequest env "ReceiveMessage").queueName? =
      some (queueNameFromUrl (compatUrl form.headers url)) := queueName_eq formUrl
  have jsonQueue : (json.toRequest env "ReceiveMessage").queueName? =
      some (queueNameFromUrl (compatUrl form.headers url)) := queueName_eq (alike.compatUrl_eq url ▸ jsonUrl)
  have formLimit : maxNumberOfMessages (form.params env) = min ((fitting 64 maxNumber).getD 1) 10 := by
    rw [maxNumberOfMessages, formMax, parse_fitting]
  have jsonLimit : maxNumberOfMessages (json.params env) = 1 := by
    rw [maxNumberOfMessages, jsonMax]
    rfl
  have key : (json.toRequest env "ReceiveMessage").storeKey =
      (form.toRequest env "ReceiveMessage").storeKey := alike.storeKey_eq _
  -- per queue, the stores and the answers agree as one receive agrees with another
  have perQueue : SameOutcome env w (.receiveMessage url maxNumber visibilityTimeout) form json ↔
      ∀ q, Named w form url q →
        redriveStep (q.receiveMessages form.now w.messageIds (min ((fitting 64 maxNumber).getD 1) 10)
            (fitting 32 visibilityTimeout)).2.1 = (q.receiveMessages form.now w.messageIds 1 none).2.1 ∧
          shown (q.receiveMessages form.now w.messageIds (min ((fitting 64 maxNumber).getD 1) 10)
            (fitting 32 visibilityTimeout)) = shown (q.receiveMessages form.now w.messageIds 1 none) := by
    rw [SameOutcome, QueueCall.operation, dispatch_receive rfl formQueue,
      dispatchJson_receive rfl jsonQueue, key, updateStores_eq_iff]
    simp only [toRequest_params, toRequest_now, formLimit, jsonLimit, formTimeout, jsonTimeout, parse_fitting,
      Option.bind_none, alike.now]
    constructor
    · rintro ⟨stores, answer⟩ q ⟨store, found, stored⟩
      refine ⟨stores store q found stored, ?_⟩
      rw [delivered_receive rfl formQueue found stored,
        delivered_receive rfl jsonQueue (key ▸ found) stored] at answer
      simpa only [toRequest_params, toRequest_now, formLimit, jsonLimit, formTimeout, jsonTimeout, parse_fitting,
        Option.bind_none, alike.now] using answer
    · intro each
      refine ⟨fun store q found stored => (each q ⟨store, found, stored⟩).1, ?_⟩
      by_cases there : ∃ q, Named w form url q
      · obtain ⟨q, store, found, stored⟩ := there
        rw [delivered_receive rfl formQueue found stored,
          delivered_receive rfl jsonQueue (key ▸ found) stored]
        simpa only [toRequest_params, toRequest_now, formLimit, jsonLimit, formTimeout, jsonTimeout, parse_fitting,
          Option.bind_none, alike.now] using (each q ⟨store, found, stored⟩).2
      · have absent : ∀ store q, w.stores[(form.toRequest env "ReceiveMessage").storeKey]? = some store →
            store.queues[queueNameFromUrl (compatUrl form.headers url)]? ≠ some q :=
          fun store q found stored => there ⟨q, store, found, stored⟩
        rw [delivered_nothing formQueue absent, delivered_nothing jsonQueue (key ▸ absent)]
  rw [perQueue, Harmless]
  exact forall_congr' fun q => imp_congr_right fun _ => receive_alike_iff

theorem delete_outcome {url : String} (asForm : FormRequest env (.deleteQueue url) form)
    (asJson : JsonModeRequest env (.deleteQueue url) json) (alike : Alike form json)
    (silent : Silent json) : SameOutcome env w (.deleteQueue url) form json := by
  have formUrl : (form.params env)["QueueUrl"]? = some (compatUrl form.headers url) := asForm.carried
  have jsonUrl : (json.params env)["QueueUrl"]? = some (compatUrl json.headers url) :=
    asJson.url silent (by simp [StringField, QueueCall.jsonFields])
  rw [sameOutcome_iff_stores (by simp [QueueCall.operation]), QueueCall.operation]
  exact dispatch_delete rfl rfl (queueName_eq formUrl) (queueName_eq (alike.compatUrl_eq url ▸ jsonUrl))
    (alike.storeKey_eq _)

end Modes

def jobsUrl : String := "http://localhost:4566/000000000000/jobs"

def helloCall (delaySeconds : Option Nat) : QueueCall :=
  .sendMessage jobsUrl "hello" delaySeconds none none none

def helloForm (delaySeconds : Option Nat) : WireRequest where
  accountId := "000000000000"
  region := "us-east-1"
  headers := ∅
  queryParams := ∅
  body := "Action=SendMessage&QueueUrl=" ++ jobsUrl ++ "&MessageBody=hello" ++
    (delaySeconds.map fun n => "&DelaySeconds=" ++ toString n).getD ""
  now := 0

def jsonHeaders : StrMap String :=
  ((∅ : StrMap String).insert "x-amz-target" "AmazonSQS.SendMessage").insert "x-amzn-query-mode" "true"

def helloJson (delaySeconds : Option Nat) : WireRequest where
  accountId := "000000000000"
  region := "us-east-1"
  headers := jsonHeaders
  queryParams := ∅
  body := "\x7b" ++ (delaySeconds.map fun n => "\"DelaySeconds\":" ++ toString n ++ ",").getD "" ++
    "\"MessageBody\":\"hello\",\"QueueUrl\":\"" ++ jobsUrl ++ "\"\x7d"
  now := 0

/-- The JSON parser on the text of the call. -/
def helloEnv (delaySeconds : Option Nat) : Env where
  md5Hex := fun _ => ""
  parseJson := fun text =>
    if text = (helloJson delaySeconds).body then some (.obj (helloCall delaySeconds).jsonFields)
    else none

/-- A new queue `jobs`. -/
def jobsQueue : SqsQueue := .new 0 "jobs" "http://localhost:4566" "000000000000" "us-east-1"

def jobsWorld : World where
  stores := (∅ : StrMap SqsStore).insert (accountRegionKey "000000000000" "us-east-1")
    { queues := (∅ : StrMap SqsQueue).insert "jobs" jobsQueue }
  messageIds := 1
  requestIds := 1

theorem jsonModeRequest_hello (delaySeconds : Option Nat) :
    JsonModeRequest (helloEnv delaySeconds) (helloCall delaySeconds) (helloJson delaySeconds) where
  mode := by
    have header : jsonHeaders["x-amzn-query-mode"]? = some "true" := by decide +kernel
    exact decide_eq_true header
  json := {
    target := by
      have header : jsonHeaders["x-amz-target"]? = some "AmazonSQS.SendMessage" := by decide +kernel
      exact header
    body := if_pos rfl
    ordered := inKeyOrder_jsonFields _
    query := rfl }

theorem alike_hello (delaySeconds : Option Nat) :
    Alike (helloForm delaySeconds) (helloJson delaySeconds) where
  accountId := rfl
  region := rfl
  now := rfl
  host := rfl
  forwardedProto := rfl
  amzRegion := rfl

theorem formParams_hello (delaySeconds : Option Nat)
    (few : delaySeconds = none ∨ delaySeconds = some 5) :
    (formParams (helloForm delaySeconds).body).toList =
      ("Action", "SendMessage") :: (delaySeconds.map fun n => ("DelaySeconds", toString n)).toList ++
        [("MessageBody", "hello"), ("QueueUrl", jobsUrl)] := by
  rcases few with rfl | rfl
  all_goals decide +kernel

theorem formRequest_hello (delaySeconds : Option Nat)
    (few : delaySeconds = none ∨ delaySeconds = some 5) :
    FormRequest (helloEnv delaySeconds) (helloCall delaySeconds) (helloForm delaySeconds) := by
  have entries : ∀ k v, (formParams (helloForm delaySeconds).body)[k]? = some v ↔
      (k, v) = ("Action", "SendMessage") ∨ k = "DelaySeconds" ∧ delaySeconds.map toString = some v ∨
        (k, v) = ("MessageBody", "hello") ∨ (k, v) = ("QueueUrl", jobsUrl) := by
    intro k v
    rw [← Std.ExtTreeMap.mem_toList_iff_getElem?_eq_some, formParams_hello delaySeconds few]
    cases delaySeconds <;> simp [eq_comm]
  have action : (formParams (helloForm delaySeconds).body)["Action"]? = some "SendMessage" :=
    (entries _ _).mpr (.inl rfl)
  have named : (formParams (helloForm delaySeconds).body).contains "Action" = true := by
    rw [Std.ExtTreeMap.contains_eq_isSome_getElem?, action]
    rfl
  have params : (helloForm delaySeconds).params (helloEnv delaySeconds) =
      formParams (helloForm delaySeconds).body := by
    have query : (helloForm delaySeconds).queryParams = ∅ := rfl
    have headers : (helloForm delaySeconds).headers = ∅ := rfl
    simp [WireRequest.params, applyTransportCompat, parseParams, named, query, headers, toList_empty]
  have read : ∀ {k : String} {value : Option String},
      (∀ v, value = some v ↔ (k, v) = ("Action", "SendMessage") ∨
        k = "DelaySeconds" ∧ delaySeconds.map toString = some v ∨
        (k, v) = ("MessageBody", "hello") ∨ (k, v) = ("QueueUrl", jobsUrl)) →
      ((helloForm delaySeconds).params (helloEnv delaySeconds))[k]? = value := by
    intro k value same
    rw [params]
    exact Option.ext fun v => (entries k v).trans (same v).symm
  refine ⟨rfl, rfl, ?_, read (by simp [compatUrl, helloForm, eq_comm]), read (by simp [eq_comm]),
    read (by simp), read (by simp), read (by simp), ?_⟩
  · rw [WireRequest.action, params, action]
    rfl
  · rw [extractMessageAttributes_eq_empty (read (by simp))]
    exact (mapValues_eq_empty.mpr rfl).symm

example : jobsQueue.messages.isEmpty := by decide +kernel

end Openstack.Sqs

import Openstack.Sqs.Provider

/-!
# SQS requests on the wire

`crates/services/sqs/src/provider.rs`, lines 159-283 and 858-1091: how a request becomes an action
with parameters, and the dispatch of the JSON mode. Header names are in lower case, and a header
without visible text is left out. A body that is not UTF-8 reads as the empty text. The text that
`serde_json` prints for an answer is left out; an answer carries its JSON value.
-/
namespace Openstack.Sqs

structure WireRequest where
  accountId : String
  region : String
  headers : StrMap String
  queryParams : StrMap String
  body : String
  now : Instant

def hexDigit (b : UInt8) : Option Nat :=
  if 48 ≤ b ∧ b ≤ 57 then some (b.toNat - 48)
  else if 65 ≤ b ∧ b ≤ 70 then some (b.toNat - 55)
  else if 97 ≤ b ∧ b ≤ 102 then some (b.toNat - 87)
  else none

/-- `u8::from_str_radix(.., 16)` on two bytes, which also accepts a leading `+`. -/
def hexByte (hi lo : UInt8) : Option Nat :=
  match hexDigit hi, hexDigit lo with
  | some h, some l => some (16 * h + l)
  | none, some l => if hi = 43 then some l else none
  | _, none => none

/-- The loop of `url_decode`: every byte becomes the character with its number. -/
def urlDecodeBytes : List UInt8 → List Char
  | [] => []
  | [b] => [if b = 43 then ' ' else Char.ofNat b.toNat]
  | [b, c] => (if b = 43 then ' ' else Char.ofNat b.toNat) :: urlDecodeBytes [c]
  | b :: hi :: lo :: rest =>
    match if b = 37 then hexByte hi lo else none with
    | some n => Char.ofNat n :: urlDecodeBytes rest
    | none => (if b = 43 then ' ' else Char.ofNat b.toNat) :: urlDecodeBytes (hi :: lo :: rest)

def urlDecode (s : String) : String :=
  let bytes := s.toUTF8.data.toList
  if bytes.any (fun b => b = 37 ∨ b = 43) then String.ofList (urlDecodeBytes bytes) else s

/-- `splitn(2, '=')` of one piece, decoded; a piece without a key counts for nothing. -/
def formEntry (piece : List Char) : Option (String × String) :=
  let key := piece.takeWhile (· ≠ '=')
  let value := (piece.dropWhile (· ≠ '=')).tail
  if key = [] then none else some (urlDecode (String.ofList key), urlDecode (String.ofList value))

/-- The body read as a form. -/
def formParams (body : String) : Params :=
  ((body.toList.splitOn '&').filterMap formEntry).foldl (fun acc kv => acc.insert kv.1 kv.2) ∅

/-- The operation in `x-amz-target: AmazonSQS.Operation`. -/
def targetOperation (headers : StrMap String) : Option String :=
  headers["x-amz-target"]?.bind fun target =>
    if RustStr.startsWith target "AmazonSQS." then
      (target.toList.splitOn '.')[1]?.map String.ofList
    else none

/-- A string field as it is, and the string entries of an object under `field.entry`. -/
def insertField (params : Params) (field : String × Json) : Params :=
  match field.2 with
  | .str s => params.insert field.1 s
  | .obj entries =>
    entries.foldl (fun acc entry =>
      match entry.2 with
      | .str s => acc.insert (field.1 ++ "." ++ entry.1) s
      | _ => acc) params
  | _ => params

def insertTarget (headers : StrMap String) (params : Params) : Params :=
  match targetOperation headers with
  | some op => params.insert "Action" op
  | none => params

def insertBody (env : Env) (body : String) (params : Params) : Params :=
  match env.parseJson body with
  | some (.obj fields) => fields.foldl insertField params
  | _ => params

/-- `parse_params`; only a body that has no `Action` as a form is read as JSON. -/
def parseParams (env : Env) (req : WireRequest) : Params :=
  let form := formParams req.body
  let params :=
    if form.contains "Action" then form
    else insertBody env req.body (insertTarget req.headers form)
  req.queryParams.toList.foldl (fun acc kv =>
    if acc.contains kv.1 then acc else acc.insert kv.1 kv.2) params

def trimEndSlashes (s : String) : String := String.ofList (s.toList.rdropWhile (· = '/'))

/-- The text from the first occurrence of `pat` on. -/
def fromFirst (pat s : String) : Option String :=
  (RustStr.before pat.toList s.toList).map fun front => String.ofList (s.toList.drop front.length)

def normalizeQueueUrlForEndpoint (url endpoint : String) : String :=
  match fromFirst "/000000000000/" url with
  | some path => trimEndSlashes endpoint ++ path
  | none =>
    match (RustStr.after "://".toList url.toList).bind fun rest => fromFirst "/" (String.ofList rest) with
    | some path => trimEndSlashes endpoint ++ path
    | none => url

def endpointUrl (headers : StrMap String) (endpoint : String) : String :=
  (if headers["x-forwarded-proto"]? = some "https" then "https" else "http") ++ "://" ++ endpoint

def applyTransportCompat (headers : StrMap String) (params : Params) : Params :=
  match headers["host"]? with
  | none => params
  | some endpoint =>
    match params["QueueUrl"]? with
    | none => params
    | some url =>
      params.insert "QueueUrl" (normalizeQueueUrlForEndpoint url (endpointUrl headers endpoint))

def WireRequest.queryModeJson (req : WireRequest) : Bool :=
  req.headers["x-amzn-query-mode"]? = some "true"

def WireRequest.params (env : Env) (req : WireRequest) : Params :=
  applyTransportCompat req.headers (parseParams env req)

def WireRequest.action (env : Env) (req : WireRequest) : Option String :=
  (req.params env)["Action"]?.or req.queryParams["Action"]?

/-- The request that the dispatch works on. -/
def WireRequest.toRequest (env : Env) (req : WireRequest) (action : String) : Request :=
  { accountId := req.accountId
    region := req.region
    headers := req.headers
    action := action
    params := req.params env
    now := req.now }

structure JsonResponse where
  statusCode : Nat
  body : Json

def sqsJsonError (code message : String) : JsonResponse :=
  ⟨400, .obj [("__type", .str code), ("message", .str message)]⟩

def jsonMissingParameter (name : String) : JsonResponse :=
  sqsJsonError "MissingParameter" (name ++ " is required")

def jsonNonExistentQueue : JsonResponse :=
  sqsJsonError "AWS.SimpleQueueService.NonExistentQueue" "The specified queue does not exist."

def jsonGetQueueUrl (req : Request) (store : SqsStore) : JsonResponse :=
  match req.params["QueueName"]? with
  | none => jsonMissingParameter "QueueName"
  | some name =>
    match store.queues[name]? with
    | some q => ⟨200, .obj [("QueueUrl", .str q.url)]⟩
    | none => jsonNonExistentQueue

def jsonCreateQueue (env : Env) (req : Request) (s : Session) : JsonResponse × Session :=
  match req.params["QueueName"]? with
  | none => (jsonMissingParameter "QueueName", s)
  | some name =>
    let created := s.store.createQueue env req.now name (baseQueueUrl req) req.accountId req.region
      (extractIndexedKv req.params "Attribute")
    (⟨200, .obj [("QueueUrl", .str created.1.url)]⟩, { s with store := created.2 })

def jsonSendMessage (env : Env) (req : Request) (s : Session) : JsonResponse × Session :=
  match req.queueName? with
  | none => (jsonMissingParameter "QueueUrl", s)
  | some name =>
    match req.params["MessageBody"]? with
    | none => (jsonMissingParameter "MessageBody", s)
    | some body =>
      match s.store.queues[name]? with
      | none => (jsonNonExistentQueue, s)
      | some q =>
        let sent := q.sendMessage env req.now s.messageIds (sendArgs req.params body)
        let answer := match sent.1 with
          | some msg => [("MD5OfMessageBody", .str msg.md5OfBody), ("MessageId", .str msg.messageId)]
          | none => [("MD5OfMessageBody", .str ""), ("MessageId", .str "duplicate")]
        (⟨200, .obj answer⟩, { s with messageIds := sent.2.2 }.setQueue name sent.2.1)

def messageJson (msg : SqsMessage) : Json :=
  .obj [("Body", .str msg.body), ("MD5OfBody", .str msg.md5OfBody), ("MessageId", .str msg.messageId),
    ("ReceiptHandle", .str msg.receiptHandle)]

/-- There is no redrive step here. -/
def jsonReceiveMessage (req : Request) (s : Session) : JsonResponse × Session :=
  match req.queueName? with
  | none => (jsonMissingParameter "QueueUrl", s)
  | some name =>
    match s.store.queues[name]? with
    | none => (jsonNonExistentQueue, s)
    | some q =>
      let received := q.receiveMessages req.now s.messageIds (maxNumberOfMessages req.params)
        (req.params["VisibilityTimeout"]?.bind (RustFmt.parseUnsigned 32))
      let delivered := received.1.filterMap fun idx => received.2.1.messages[idx]?
      (⟨200, .obj [("Messages", .arr (delivered.map messageJson))]⟩,
        { s with messageIds := received.2.2 }.setQueue name received.2.1)

def jsonDeleteQueue (req : Request) (s : Session) : JsonResponse × Session :=
  match req.queueName? with
  | none => (jsonMissingParameter "QueueUrl", s)
  | some name =>
    let deleted := s.store.deleteQueue name
    if deleted.1 then (⟨200, .obj []⟩, { s with store := deleted.2 }) else (jsonNonExistentQueue, s)

/-- The actions of the JSON mode. -/
@[grind] def jsonHandle (env : Env) (req : Request) (s : Session) : Action → Option (JsonResponse × Session)
  | .createQueue => some (jsonCreateQueue env req s)
  | .sendMessage => some (jsonSendMessage env req s)
  | .receiveMessage => some (jsonReceiveMessage req s)
  | .deleteQueue => some (jsonDeleteQueue req s)
  | _ => none

/-- What the JSON mode answers while the account has no store in the region. -/
def jsonWithoutStore (req : Request) : Action → Option JsonResponse
  | .getQueueUrl =>
    some (if req.params.contains "QueueName" then jsonNonExistentQueue
      else jsonMissingParameter "QueueName")
  | .sendMessage | .receiveMessage | .deleteQueue => some jsonNonExistentQueue
  | _ => none

/-- `dispatch` for a request in JSON mode. -/
@[grind] def dispatchJson (env : Env) (w : World) (req : Request) :
    Except DispatchError JsonResponse × World :=
  match Action.parse req.action with
  | none => (.error (.notImplemented req.action), w)
  | some action =>
    match w.stores[req.storeKey]?, action with
    | some store, .getQueueUrl => (.ok (jsonGetQueueUrl req store), w)
    | some store, _ =>
      match jsonHandle env req (w.session store) action with
      | some answer => (.ok answer.1, w.put req.storeKey answer.2)
      | none => (.error (.notImplemented req.action), w)
    | none, .createQueue =>
      let answer := jsonCreateQueue env req (w.session {})
      (.ok answer.1, w.put req.storeKey answer.2)
    | none, _ =>
      match jsonWithoutStore req action with
      | some answer => (.ok answer, w)
      | none => (.error (.notImplemented req.action), w)

theorem applyTransportCompat_of_ne (headers : StrMap String) (params : Params) {k : String}
    (other : k ≠ "QueueUrl") : (applyTransportCompat headers params)[k]? = params[k]? := by
  unfold applyTransportCompat
  split
  · rfl
  · split
    · rfl
    · rw [StrMap.getElem?_insert, if_neg (Ne.symm other)]

/-- What becomes of a queue URL. -/
def compatUrl (headers : StrMap String) (url : String) : String :=
  match headers["host"]? with
  | none => url
  | some endpoint => normalizeQueueUrlForEndpoint url (endpointUrl headers endpoint)

theorem applyTransportCompat_url (headers : StrMap String) (params : Params) :
    (applyTransportCompat headers params)["QueueUrl"]? =
      params["QueueUrl"]?.map (compatUrl headers) := by
  unfold applyTransportCompat
  cases host : headers["host"]? with
  | none => cases params["QueueUrl"]? <;> simp [compatUrl, host]
  | some endpoint => cases found : params["QueueUrl"]? <;> simp [compatUrl, host, found]

end Openstack.Sqs

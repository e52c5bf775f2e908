import Openstack.Sqs.Wire

/-!
# JSON requests and what else their text may mean

`parse_params` reads the text of a JSON body as a form first. Whatever stands between two ampersands
of a message body is then a parameter like any other, and an `Action` among them hides the JSON.
-/
namespace Openstack.Sqs

/-- `serde_json::Map` keeps its entries in the order of their keys. -/
def InKeyOrder (fields : List (String × Json)) : Prop := fields.Pairwise fun a b => a.1 < b.1

/-- The body has the string field `k` with this value. -/
def StringField (fields : List (String × Json)) (k v : String) : Prop := (k, .str v) ∈ fields

/-- The entries of an object go under names with a dot. -/
theorem insertEntries_of_ne {k name : String} (entry : ∀ e, name ++ "." ++ e ≠ k)
    (entries : List (String × Json)) (params : Params) :
    (entries.foldl (fun acc e =>
      match e.2 with
      | .str s => acc.insert (name ++ "." ++ e.1) s
      | _ => acc) params)[k]? = params[k]? := by
  induction entries generalizing params with
  | nil => rfl
  | cons e rest ih =>
    rw [List.foldl_cons, ih]
    split
    · rw [StrMap.getElem?_insert, if_neg (entry e.1)]
    · rfl

theorem insertField_of_ne {params : Params} {field : String × Json} {k : String}
    (name : ∀ v, field ≠ (k, .str v)) (entry : ∀ e, field.1 ++ "." ++ e ≠ k) :
    (insertField params field)[k]? = params[k]? := by
  unfold insertField
  split
  · next s value =>
    have other : field.1 ≠ k := fun same => name s (Prod.ext same value)
    rw [StrMap.getElem?_insert, if_neg other]
  · next entries value => exact insertEntries_of_ne entry entries params
  · rfl

theorem foldl_insertField_of_ne {fields : List (String × Json)} {k : String}
    (name : ∀ v, ¬ StringField fields k v) (entry : ∀ f ∈ fields, ∀ e, f.1 ++ "." ++ e ≠ k)
    (params : Params) : (fields.foldl insertField params)[k]? = params[k]? := by
  induction fields generalizing params with
  | nil => rfl
  | cons f rest ih =>
    rw [List.foldl_cons, ih (fun v member => name v (List.mem_cons_of_mem _ member))
      (fun g member => entry g (List.mem_cons_of_mem _ member)), insertField_of_ne]
    · intro v same
      exact name v (List.mem_cons.mpr (.inl same.symm))
    · exact entry f List.mem_cons_self

/-- A name with a dot behind `b` is not in front of `b`. -/
theorem append_ne_of_lt {a b : String} (less : a < b) (rest : String) : b ++ rest ≠ a := by
  rintro rfl
  rw [String.lt_iff, String.toList_append] at less
  exact List.not_lt.mpr List.le_append_left less

/-- The fields come in order, so no later field writes over a string field. -/
theorem foldl_insertField_string {fields : List (String × Json)} (ordered : InKeyOrder fields)
    {k v : String} (member : StringField fields k v) (params : Params) :
    (fields.foldl insertField params)[k]? = some v := by
  induction fields generalizing params with
  | nil => cases member
  | cons f rest ih =>
    have parts := List.pairwise_cons.mp ordered
    rw [List.foldl_cons]
    rcases List.mem_cons.mp member with here | there
    · subst here
      rw [foldl_insertField_of_ne]
      · simp [insertField]
      · intro w again
        exact String.lt_irrefl k (parts.1 (k, .str w) again)
      · intro g later e
        rw [String.append_assoc]
        exact append_ne_of_lt (parts.1 g later) _
    · exact ih parts.2 there _

theorem entry_ne_of_no_dot {k : String} (plain : '.' ∉ k.toList) (name e : String) :
    name ++ "." ++ e ≠ k := by
  rintro rfl
  exact plain (by simp)

theorem splitOn_head (a : Char) (l : List Char) :
    (l.splitOn a)[0]? = some (l.takeWhile (· ≠ a)) := by
  induction l with
  | nil => rfl
  | cons c rest ih =>
    rw [List.splitOn_cons_eq_if_modifyHead]
    by_cases same : c = a
    · simp [same]
    · cases pieces : rest.splitOn a with
      | nil => exact absurd pieces (List.splitOn_ne_nil a rest)
      | cons first more => simpa [same, pieces] using ih

theorem targetOperation_eq {headers : StrMap String} {op : String}
    (target : headers["x-amz-target"]? = some ("AmazonSQS." ++ op)) :
    targetOperation headers = some (String.ofList (op.toList.takeWhile (· ≠ '.'))) := by
  have pieces : ("AmazonSQS." ++ op).toList.splitOn '.' =
      "AmazonSQS".toList :: op.toList.splitOn '.' := by
    rw [String.toList_append, show "AmazonSQS.".toList = "AmazonSQS".toList ++ ['.'] by decide,
      List.append_assoc, List.singleton_append,
      List.splitOn_append_cons_self_of_not_mem (by decide)]
  have starts : RustStr.startsWith ("AmazonSQS." ++ op) "AmazonSQS." = true := by
    rw [RustStr.startsWith, String.toList_append, List.isPrefixOf_iff_prefix]
    exact List.prefix_append _ _
  rw [targetOperation, target, Option.bind_some, if_pos starts, pieces, List.getElem?_cons_succ,
    splitOn_head]
  rfl

/-- An operation with a dot is cut off there. -/
theorem targetOperation_eq_iff {headers : StrMap String} {op : String}
    (target : headers["x-amz-target"]? = some ("AmazonSQS." ++ op)) :
    targetOperation headers = some op ↔ '.' ∉ op.toList := by
  rw [targetOperation_eq target, Option.some.injEq, ← String.toList_inj, String.toList_ofList,
    List.takeWhile_eq_self_iff]
  constructor
  · intro plain dotted
    simpa using plain '.' dotted
  · intro plain c member
    have other : c ≠ '.' := by
      rintro rfl
      exact plain member
    simpa using other

/-- A request with the header `x-amz-target: AmazonSQS.op`, a JSON object as body and no query. -/
structure JsonRequest (env : Env) (req : WireRequest) (op : String) (fields : List (String × Json)) :
    Prop where
  target : req.headers["x-amz-target"]? = some ("AmazonSQS." ++ op)
  body : env.parseJson req.body = some (.obj fields)
  ordered : InKeyOrder fields
  query : req.queryParams = ∅

/-- The action is the operation, and every string field keeps its value. -/
def Faithful (env : Env) (req : WireRequest) (op : String) (fields : List (String × Json)) : Prop :=
  req.action env = some op ∧ ∀ k v, StringField fields k v → (parseParams env req)[k]? = some v

/-- What the text of the body says when it is read as a form. Either it says nothing of an action,
and neither does the JSON but for the operation itself; or it says the operation, and the same of
every string field as the JSON. -/
def PlainText (req : WireRequest) (op : String) (fields : List (String × Json)) : Prop :=
  (formParams req.body)["Action"]? = none ∧
    ((∀ v, ¬ StringField fields "Action" v) ∧ '.' ∉ op.toList ∨ StringField fields "Action" op) ∨
  (formParams req.body)["Action"]? = some op ∧
    ∀ k v, StringField fields k v → (formParams req.body)[k]? = some v

theorem toList_empty : (∅ : StrMap String).toList = [] := rfl

section Requests

variable {env : Env} {req req' : WireRequest} {op : String} {fields fields' : List (String × Json)}

theorem JsonRequest.params_of_form (json : JsonRequest env req op fields) {act : String}
    (form : (formParams req.body)["Action"]? = some act) : parseParams env req = formParams req.body := by
  have named : (formParams req.body).contains "Action" = true := by
    rw [Std.ExtTreeMap.contains_eq_isSome_getElem?, form]
    rfl
  simp [parseParams, named, json.query, toList_empty]

theorem JsonRequest.params_of_json (json : JsonRequest env req op fields)
    (form : (formParams req.body)["Action"]? = none) : parseParams env req =
      fields.foldl insertField (insertTarget req.headers (formParams req.body)) := by
  have unnamed : (formParams req.body).contains "Action" = false := by
    rw [Std.ExtTreeMap.contains_eq_isSome_getElem?, form]
    rfl
  simp [parseParams, unnamed, json.query, toList_empty, insertBody, json.body]

theorem JsonRequest.action_eq (json : JsonRequest env req op fields) :
    req.action env = (parseParams env req)["Action"]? := by
  rw [WireRequest.action, WireRequest.params, applyTransportCompat_of_ne _ _ (by decide), json.query]
  simp

theorem JsonRequest.action_of_json (json : JsonRequest env req op fields)
    (form : (formParams req.body)["Action"]? = none) (none : ∀ v, ¬ StringField fields "Action" v) :
    req.action env = targetOperation req.headers := by
  rw [json.action_eq, json.params_of_json form,
    foldl_insertField_of_ne none fun f _ e => entry_ne_of_no_dot (by decide) f.1 e, insertTarget,
    targetOperation_eq json.target]
  simp

/-- For one request. -/
theorem JsonRequest.faithful_iff (json : JsonRequest env req op fields) :
    Faithful env req op fields ↔ PlainText req op fields := by
  unfold Faithful PlainText
  cases form : (formParams req.body)["Action"]? with
  | some act =>
    rw [json.action_eq, json.params_of_form form, form]
    simp
  | none =>
    have fieldsKept : ∀ k v, StringField fields k v → (parseParams env req)[k]? = some v := by
      intro k v member
      rw [json.params_of_json form]
      exact foldl_insertField_string json.ordered member _
    simp only [true_and, reduceCtorEq, false_and, or_false]
    constructor
    · intro faithful
      by_cases own : ∃ v, StringField fields "Action" v
      · obtain ⟨v, member⟩ := own
        have same : v = op := by
          have action := fieldsKept "Action" v member
          rw [← json.action_eq, faithful.1] at action
          exact (Option.some.inj action).symm
        rw [same] at member
        exact .inr member
      · have none : ∀ v, ¬ StringField fields "Action" v := fun v member => own ⟨v, member⟩
        have action := faithful.1
        rw [json.action_of_json form none] at action
        exact .inl ⟨none, (targetOperation_eq_iff json.target).mp action⟩
    · rintro (⟨none, plain⟩ | own)
      · refine ⟨?_, fieldsKept⟩
        rw [json.action_of_json form none]
        exact (targetOperation_eq_iff json.target).mpr plain
      · refine ⟨?_, fieldsKept⟩
        rw [json.action_eq]
        exact fieldsKept "Action" op own

/-- A parameter that is no string field comes from the text read as a form. -/
theorem JsonRequest.params_other (json : JsonRequest env req op fields) {k : String}
    (notAction : k ≠ "Action") (none : ∀ v, ¬ StringField fields k v)
    (entry : ∀ f ∈ fields, ∀ e, f.1 ++ "." ++ e ≠ k) :
    (parseParams env req)[k]? = (formParams req.body)[k]? := by
  cases form : (formParams req.body)["Action"]? with
  | some act => rw [json.params_of_form form]
  | none =>
    rw [json.params_of_json form, foldl_insertField_of_ne none entry, insertTarget,
      targetOperation_eq json.target]
    simp only
    rw [StrMap.getElem?_insert, if_neg (Ne.symm notAction)]

/-- The queue a request names, by its URL and by its name. -/
def WireRequest.queue (env : Env) (req : WireRequest) : Option String × Option String :=
  ((req.params env)["QueueUrl"]?.map queueNameFromUrl, (req.params env)["QueueName"]?)

/-- The fields are the same but for the value of `MessageBody`. -/
def DifferInBody (fields fields' : List (String × Json)) : Prop :=
  ∃ front back m m', fields = front ++ ("MessageBody", .str m) :: back ∧
    fields' = front ++ ("MessageBody", .str m') :: back

/-- The queue that the text names when it is read as a form. -/
def formQueue (req : WireRequest) : Option String :=
  (formParams req.body)["QueueUrl"]?.map fun url => queueNameFromUrl (compatUrl req.headers url)

/-- A queue that the JSON does not name is the same in both texts read as forms. -/
def SameQueueText (req req' : WireRequest) (fields : List (String × Json)) : Prop :=
  ((∃ v, StringField fields "QueueUrl" v) ∨ formQueue req = formQueue req') ∧
  ((∃ v, StringField fields "QueueName" v) ∨
    (formParams req.body)["QueueName"]? = (formParams req'.body)["QueueName"]?)

theorem DifferInBody.stringField_iff (differ : DifferInBody fields fields') {k v : String}
    (other : k ≠ "MessageBody") : StringField fields k v ↔ StringField fields' k v := by
  obtain ⟨front, back, m, m', rfl, rfl⟩ := differ
  simp [StringField, other]

/-- Two faithful requests have one parameter alike: by the JSON, or by both texts. -/
theorem JsonRequest.param_iff (json : JsonRequest env req op fields)
    (json' : JsonRequest env req' op fields') (differ : DifferInBody fields fields')
    (faithful : Faithful env req op fields) (faithful' : Faithful env req' op fields') {k : String}
    (notAction : k ≠ "Action") (notBody : k ≠ "MessageBody") (plain : '.' ∉ k.toList)
    (f : String → String) :
    (parseParams env req)[k]?.map f = (parseParams env req')[k]?.map f ↔
      (∃ v, StringField fields k v) ∨
        (formParams req.body)[k]?.map f = (formParams req'.body)[k]?.map f := by
  by_cases own : ∃ v, StringField fields k v
  · obtain ⟨v, member⟩ := own
    have member' := (differ.stringField_iff notBody).mp member
    rw [faithful.2 _ v member, faithful'.2 _ v member']
    exact ⟨fun _ => .inl ⟨v, member⟩, fun _ => rfl⟩
  · have none : ∀ v, ¬ StringField fields k v := fun v member => own ⟨v, member⟩
    have none' : ∀ v, ¬ StringField fields' k v := fun v member =>
      none v ((differ.stringField_iff notBody).mpr member)
    rw [json.params_other notAction none fun f _ e => entry_ne_of_no_dot plain f.1 e,
      json'.params_other notAction none' fun f _ e => entry_ne_of_no_dot plain f.1 e]
    simp only [own, false_or]

theorem JsonRequest.queueUrl_iff (json : JsonRequest env req op fields)
    (json' : JsonRequest env req' op fields') (headers : req'.headers = req.headers)
    (differ : DifferInBody fields fields') (faithful : Faithful env req op fields)
    (faithful' : Faithful env req' op fields') :
    (req.params env)["QueueUrl"]?.map queueNameFromUrl =
      (req'.params env)["QueueUrl"]?.map queueNameFromUrl ↔
    (∃ v, StringField fields "QueueUrl" v) ∨ formQueue req = formQueue req' := by
  rw [WireRequest.params, WireRequest.params, applyTransportCompat_url, applyTransportCompat_url,
    formQueue, formQueue, headers, Option.map_map, Option.map_map]
  exact json.param_iff json' differ faithful faithful' (by decide) (by decide) (by decide) _

theorem JsonRequest.queueName_iff (json : JsonRequest env req op fields)
    (json' : JsonRequest env req' op fields') (differ : DifferInBody fields fields')
    (faithful : Faithful env req op fields) (faithful' : Faithful env req' op fields') :
    (req.params env)["QueueName"]? = (req'.params env)["QueueName"]? ↔
    (∃ v, StringField fields "QueueName" v) ∨
      (formParams req.body)["QueueName"]? = (formParams req'.body)["QueueName"]? := by
  rw [WireRequest.params, WireRequest.params, applyTransportCompat_of_ne _ _ (by decide),
    applyTransportCompat_of_ne _ _ (by decide)]
  simpa using
    json.param_iff json' differ faithful faithful' (by decide) (by decide) (by decide) id

end Requests

/-- A JSON request is taken for what it is exactly if its text, read as a form, says nothing else;
and two of them that differ in the message body then go to the same queue exactly if the queue is
named by the JSON, or alike by both texts. -/
theorem json_request_faithful_iff (env : Env) :
    (∀ req op fields, JsonRequest env req op fields →
      (Faithful env req op fields ↔ PlainText req op fields)) ∧
    ∀ req req' op fields fields', JsonRequest env req op fields → JsonRequest env req' op fields' →
      req'.headers = req.headers → DifferInBody fields fields' →
      (Faithful env req op fields ∧ Faithful env req' op fields' ∧ req.queue env = req'.queue env ↔
        PlainText req op fields ∧ PlainText req' op fields' ∧ SameQueueText req req' fields) := by
  refine ⟨fun req op fields json => json.faithful_iff, ?_⟩
  intro req req' op fields fields' json json' headers differ
  rw [← json.faithful_iff, ← json'.faithful_iff]
  refine and_congr_right fun faithful => and_congr_right fun faithful' => ?_
  rw [WireRequest.queue, WireRequest.queue, Prod.mk.injEq,
    json.queueUrl_iff json' headers differ faithful faithful',
    json.queueName_iff json' differ faithful faithful']
  rfl

/-- A SendMessage to the queue `jobs`. -/
def sendTo (messageBody : String) : WireRequest where
  accountId := "000000000000"
  region := "us-east-1"
  headers := (∅ : StrMap String).insert "x-amz-target" "AmazonSQS.SendMessage"
  queryParams := ∅
  body := "\x7b\"MessageBody\":\"" ++ messageBody ++
    "\",\"QueueUrl\":\"http://localhost:4566/000000000000/jobs\"\x7d"
  now := 0

def sendFields (messageBody : String) : List (String × Json) :=
  [("MessageBody", .str messageBody), ("QueueUrl", .str "http://localhost:4566/000000000000/jobs")]

/-- The JSON parser on the two texts used here. -/
def sendEnv (messageBody : String) : Env where
  md5Hex := fun _ => ""
  parseJson := fun text =>
    if text = (sendTo messageBody).body then some (.obj (sendFields messageBody)) else none

theorem jsonRequest_sendTo (messageBody : String) :
    JsonRequest (sendEnv messageBody) (sendTo messageBody) "SendMessage" (sendFields messageBody) where
  target := by
    rw [sendTo, StrMap.getElem?_insert, if_pos rfl]
    decide
  body := if_pos rfl
  ordered := by
    have less : "MessageBody" < "QueueUrl" := by decide
    exact .cons (by simpa using less) (.cons (by simp) .nil)
  query := rfl

theorem json_request_faithful_hello :
    Faithful (sendEnv "hello") (sendTo "hello") "SendMessage" (sendFields "hello") := by
  refine ((json_request_faithful_iff (sendEnv "hello")).1 _ _ _ (jsonRequest_sendTo "hello")).mpr ?_
  refine .inl ⟨by decide +kernel, .inl ⟨?_, by decide⟩⟩
  intro v member
  simp [StringField, sendFields] at member

/-- A message that deletes the queue it is sent to. -/
theorem message_deletes_queue : ¬ ∀ messageBody, Faithful (sendEnv messageBody) (sendTo messageBody)
    "SendMessage" (sendFields messageBody) := by
  intro claim
  have action := (claim
    "&Action=DeleteQueue&QueueUrl=http://localhost:4566/000000000000/jobs&").1
  revert action
  decide +kernel

end Openstack.Sqs

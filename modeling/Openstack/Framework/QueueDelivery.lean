import Openstack.Sqs.JsonMode
import Openstack.Sns.Publish
import Openstack.S3.Notifications
import Openstack.EventBridge.Routing

/-!
# Delivery from other services to a queue

The three publishers send the same form. SNS takes the account from the queue's ARN and the region
from the caller; S3 and EventBridge take both from the caller. The account and the queue name stand
in the form as they are, so they have to survive its decoding.
-/
namespace Openstack

open Sqs (Env World WireRequest SqsQueue SqsStore)

/-! ## The form that is sent -/

section Form

theorem formEntry_eq {key : List Char} (some_key : key ≠ []) (plain : '=' ∉ key) (value : List Char) :
    Sqs.formEntry (key ++ '=' :: value) =
      some (Sqs.urlDecode (String.ofList key), Sqs.urlDecode (String.ofList value)) := by
  have all : ∀ c ∈ key, decide (c ≠ '=') = true := by
    intro c member
    rw [decide_eq_true_iff]
    rintro rfl
    exact plain member
  have front : (key ++ '=' :: value).takeWhile (· ≠ '=') = key := by
    rw [List.takeWhile_append_of_pos all]
    simp
  have back : (key ++ '=' :: value).dropWhile (· ≠ '=') = '=' :: value := by
    rw [List.dropWhile_append_of_pos all]
    simp
  simp only [Sqs.formEntry, front, back, some_key, if_false, List.tail_cons]

theorem ampersand_not_mem_urlEncodeByte (b : UInt8) : '&' ∉ urlEncodeByte b := by
  have byte := UInt8.toNat_lt b
  unfold urlEncodeByte
  split
  · next free =>
    rw [List.mem_singleton]
    intro same
    have valid : b.toNat.isValidChar := Or.inl (by omega)
    have code : (Char.ofNat b.toNat).toNat = b.toNat := by rw [Char.toNat_ofNat, if_pos valid]
    rw [← same] at code
    have here : b = 38 := UInt8.toNat_inj.mp code.symm
    rw [here] at free
    exact absurd free (by decide)
  · have digits : ∀ n < 16, upperHexDigit n ≠ '&' := by decide
    have high := digits (b.toNat / 16) (by omega)
    have low := digits (b.toNat % 16) (by omega)
    simp [high.symm, low.symm]

theorem ampersand_not_mem_urlEncode (s : String) : '&' ∉ (urlEncode s).toList := by
  simp only [urlEncode, String.toList_ofList, List.mem_flatMap, not_exists, not_and]
  exact fun b _ => ampersand_not_mem_urlEncodeByte b

theorem urlDecodeBytes_cons (b hi : UInt8) (rest : List UInt8) (plain : b = 37 → ∀ lo more,
    rest = lo :: more → Sqs.hexByte hi lo = none) : ∃ c,
    Sqs.urlDecodeBytes (b :: hi :: rest) = c :: Sqs.urlDecodeBytes (hi :: rest) := by
  cases rest with
  | nil => exact ⟨_, rfl⟩
  | cons lo more =>
    have none : (if b = 37 then Sqs.hexByte hi lo else none) = none := by
      split
      · next escape => exact plain escape lo more rfl
      · rfl
    rw [Sqs.urlDecodeBytes, none]
    exact ⟨_, rfl⟩

/-- `%2F` decodes to a slash, whatever stands before it: a percent sign is no digit of an escape. -/
theorem urlDecodeBytes_slash : ∀ front rest : List UInt8, ∃ decoded,
    Sqs.urlDecodeBytes (front ++ 37 :: 50 :: 70 :: rest) = decoded ++ '/' :: Sqs.urlDecodeBytes rest
  | [], rest => ⟨[], rfl⟩
  | [b], rest => by
    obtain ⟨c, first⟩ := urlDecodeBytes_cons b 37 (50 :: 70 :: rest)
      (fun _ lo more same => by cases same; decide)
    exact ⟨[c], by rw [List.singleton_append, first]; rfl⟩
  | [b, hi], rest => by
    obtain ⟨decoded, later⟩ := urlDecodeBytes_slash [hi] rest
    have none : Sqs.hexByte hi 37 = none := by
      have digit : Sqs.hexDigit 37 = none := by decide
      simp [Sqs.hexByte, digit]
    obtain ⟨c, first⟩ := urlDecodeBytes_cons b hi (37 :: 50 :: 70 :: rest)
      (fun _ lo more same => by cases same; exact none)
    refine ⟨c :: decoded, ?_⟩
    rw [List.cons_append, List.cons_append, List.nil_append, first]
    exact congrArg (c :: ·) later
  | b :: hi :: lo :: more, rest => by
    rw [List.cons_append, List.cons_append, List.cons_append, Sqs.urlDecodeBytes]
    cases (if b = 37 then Sqs.hexByte hi lo else none) with
    | some n =>
      obtain ⟨decoded, later⟩ := urlDecodeBytes_slash more rest
      exact ⟨Char.ofNat n :: decoded, by rw [List.cons_append, ← later]⟩
    | none =>
      obtain ⟨decoded, later⟩ := urlDecodeBytes_slash (hi :: lo :: more) rest
      exact ⟨_ :: decoded, by rw [List.cons_append, ← later]; rfl⟩

/-- The bytes of a text. -/
def utf8Bytes (s : String) : List UInt8 := s.toUTF8.data.toList

theorem utf8Bytes_append (s t : String) : utf8Bytes (s ++ t) = utf8Bytes s ++ utf8Bytes t := by
  simp [utf8Bytes, String.toUTF8]

/-- The queue name that is left of `name` at the end of the URL. -/
def sentName (name : String) : String :=
  Sqs.queueNameFromUrl (String.ofList (Sqs.urlDecodeBytes (utf8Bytes name)))

def sentUrl (accountId queueName : String) : String :=
  Sqs.urlDecode ("http%3A%2F%2Flocalhost%3A4566%2F" ++ accountId ++ "%2F" ++ queueName)

theorem queueNameFromUrl_sentUrl (accountId queueName : String) :
    Sqs.queueNameFromUrl (sentUrl accountId queueName) = sentName queueName := by
  have bytes : utf8Bytes ("http%3A%2F%2Flocalhost%3A4566%2F" ++ accountId ++ "%2F" ++ queueName) =
      utf8Bytes ("http%3A%2F%2Flocalhost%3A4566%2F" ++ accountId) ++
        37 :: 50 :: 70 :: utf8Bytes queueName := by
    rw [utf8Bytes_append, utf8Bytes_append _ "%2F", List.append_assoc]
    rfl
  obtain ⟨decoded, same⟩ := urlDecodeBytes_slash
    (utf8Bytes ("http%3A%2F%2Flocalhost%3A4566%2F" ++ accountId)) (utf8Bytes queueName)
  have escaped : (utf8Bytes ("http%3A%2F%2Flocalhost%3A4566%2F" ++ accountId ++ "%2F" ++
      queueName)).any (fun b => b = 37 ∨ b = 43) = true := by
    rw [bytes, List.any_append]
    simp
  have url : sentUrl accountId queueName =
      String.ofList (decoded ++ '/' :: Sqs.urlDecodeBytes (utf8Bytes queueName)) := by
    rw [← same, ← bytes, sentUrl, Sqs.urlDecode]
    simp only [utf8Bytes] at escaped ⊢
    rw [if_pos escaped]
  rw [url, sentName, Sqs.queueNameFromUrl, Sqs.queueNameFromUrl, RustStr.rsplitFirst,
    RustStr.rsplitFirst, String.toList_ofList, String.toList_ofList, RustStr.rtakeWhile_append_cons]

/-- The separators of a form come from its fixed parts. -/
theorem toList_of_parts {start first field base middle last account slash name text : String}
    (front : start.toList = first.toList ++ '&' :: (field.toList ++ '=' :: base.toList))
    (between : middle.toList = '&' :: (last.toList ++ ['='])) :
    (start ++ account ++ slash ++ name ++ middle ++ text).toList =
      first.toList ++ '&' :: ((field.toList ++ '=' :: (base ++ account ++ slash ++ name).toList) ++
        '&' :: (last.toList ++ '=' :: text.toList)) := by
  simp [String.toList_append, front, between]

/-- The parameters of the form, when neither the account nor the queue name breaks it up. -/
theorem formParams_sendMessageForm {accountId queueName : String} (payload : String)
    (account : '&' ∉ accountId.toList) (name : '&' ∉ queueName.toList) :
    Sqs.formParams (sendMessageForm accountId queueName payload) =
      (((∅ : Sqs.Params).insert "Action" "SendMessage").insert "QueueUrl"
        (sentUrl accountId queueName)).insert "MessageBody" (Sqs.urlDecode (urlEncode payload)) := by
  have front : "Action=SendMessage&QueueUrl=http%3A%2F%2Flocalhost%3A4566%2F".toList =
      "Action=SendMessage".toList ++ '&' ::
        ("QueueUrl".toList ++ '=' :: "http%3A%2F%2Flocalhost%3A4566%2F".toList) := by decide
  have middle : "&MessageBody=".toList = '&' :: ("MessageBody".toList ++ ['=']) := by decide
  have text : (sendMessageForm accountId queueName payload).toList =
      "Action=SendMessage".toList ++ '&' :: (("QueueUrl".toList ++ '=' ::
        ("http%3A%2F%2Flocalhost%3A4566%2F" ++ accountId ++ "%2F" ++ queueName).toList) ++ '&' ::
        ("MessageBody".toList ++ '=' :: (urlEncode payload).toList)) :=
    toList_of_parts front middle
  have url : '&' ∉ "QueueUrl".toList ++ '=' ::
      ("http%3A%2F%2Flocalhost%3A4566%2F" ++ accountId ++ "%2F" ++ queueName).toList := by
    have plain : '&' ∉ "QueueUrl".toList ∧ '&' ∉ "http%3A%2F%2Flocalhost%3A4566%2F".toList ∧
        '&' ∉ "%2F".toList ∧ '&' ≠ '=' := by decide
    simp only [String.toList_append, List.mem_append, List.mem_cons, plain, account, name, or_self,
      not_false_eq_true]
  have body : '&' ∉ "MessageBody".toList ++ '=' :: (urlEncode payload).toList := by
    have plain : '&' ∉ "MessageBody".toList ∧ '&' ≠ '=' := by decide
    simp only [List.mem_append, List.mem_cons, plain, ampersand_not_mem_urlEncode, or_self,
      not_false_eq_true]
  have pieces : (sendMessageForm accountId queueName payload).toList.splitOn '&' =
      ["Action=SendMessage".toList, "QueueUrl".toList ++ '=' ::
        ("http%3A%2F%2Flocalhost%3A4566%2F" ++ accountId ++ "%2F" ++ queueName).toList,
        "MessageBody".toList ++ '=' :: (urlEncode payload).toList] := by
    rw [text, List.splitOn_append_cons_self_of_not_mem (by decide),
      List.splitOn_append_cons_self_of_not_mem url, List.splitOn_eq_singleton body]
  have action : Sqs.formEntry "Action=SendMessage".toList = some ("Action", "SendMessage") := by decide
  have names : Sqs.urlDecode "QueueUrl" = "QueueUrl" ∧ Sqs.urlDecode "MessageBody" = "MessageBody" := by
    decide
  rw [Sqs.formParams, pieces, List.filterMap_cons, action, List.filterMap_cons,
    formEntry_eq (by decide) (by decide), List.filterMap_cons, formEntry_eq (by decide) (by decide),
    List.filterMap_nil]
  simp only [String.ofList_toList, names.1, names.2, List.foldl_cons, List.foldl_nil]
  rfl

theorem getElem?_sendMessageForm {accountId queueName : String} (payload : String)
    (account : '&' ∉ accountId.toList) (name : '&' ∉ queueName.toList) (k : String) :
    (Sqs.formParams (sendMessageForm accountId queueName payload))[k]? =
      if "MessageBody" = k then some (Sqs.urlDecode (urlEncode payload))
      else if "QueueUrl" = k then some (sentUrl accountId queueName)
      else if "Action" = k then some "SendMessage" else none := by
  rw [formParams_sendMessageForm payload account name, StrMap.getElem?_insert, StrMap.getElem?_insert,
    StrMap.getElem?_insert, Std.ExtTreeMap.getElem?_empty]

end Form

/-! ## Where a message arrives -/

/-- A queue by the key of its account and region and by its name. -/
def queueAt (stores : StrMap SqsStore) (key name : String) : Option SqsQueue :=
  stores[key]?.bind fun store => store.queues[name]?

theorem queueAt_updateStores {w : World} {key name : String} {f : SqsQueue → SqsQueue} (k n : String) :
    queueAt (Sqs.updateStores w key name f) k n =
      if k = key ∧ n = name then (queueAt w.stores k n).map f else queueAt w.stores k n := by
  unfold Sqs.updateStores queueAt
  cases found : w.stores[key]? with
  | none =>
    by_cases same : k = key
    · subst same
      simp [found]
    · simp [same]
  | some store =>
    by_cases same : k = key
    · subst same
      simp only [StrMap.getElem?_insert, if_true, Option.bind_some, found, true_and]
      cases stored : store.queues[name]? with
      | none =>
        by_cases here : n = name
        · simp [here, stored]
        · simp [here]
      | some q =>
        by_cases here : n = name
        · subst here
          simp [stored]
        · simp [here, StrMap.getElem?_insert, Ne.symm here]
    · simp [same, StrMap.getElem?_insert, Ne.symm same]

/-- The ARN of a queue, with the three parts that name it. -/
structure QueueArn where
  region : String
  account : String
  name : String
  region_colon : ':' ∉ region.toList
  account_colon : ':' ∉ account.toList
  name_colon : ':' ∉ name.toList

namespace QueueArn

def text (arn : QueueArn) : String :=
  "arn:aws:sqs:" ++ arn.region ++ ":" ++ arn.account ++ ":" ++ arn.name

def key (arn : QueueArn) : String := Sqs.accountRegionKey arn.account arn.region

/-- An ARN of six parts, whatever the first three are. -/
theorem splitOn_of_arn {start region account name : String} {a b c : List Char}
    (fixed : start.toList = a ++ ':' :: (b ++ ':' :: (c ++ [':'])))
    (plain : ':' ∉ a ∧ ':' ∉ b ∧ ':' ∉ c) (region_colon : ':' ∉ region.toList)
    (account_colon : ':' ∉ account.toList) (name_colon : ':' ∉ name.toList) :
    (start ++ region ++ ":" ++ account ++ ":" ++ name).toList.splitOn ':' =
      [a, b, c, region.toList, account.toList, name.toList] := by
  have text : (start ++ region ++ ":" ++ account ++ ":" ++ name).toList = a ++ ':' :: (b ++ ':' ::
      (c ++ ':' :: (region.toList ++ ':' :: (account.toList ++ ':' :: name.toList)))) := by
    simp [String.toList_append, fixed]
  rw [text, List.splitOn_append_cons_self_of_not_mem plain.1,
    List.splitOn_append_cons_self_of_not_mem plain.2.1,
    List.splitOn_append_cons_self_of_not_mem plain.2.2,
    List.splitOn_append_cons_self_of_not_mem region_colon,
    List.splitOn_append_cons_self_of_not_mem account_colon, List.splitOn_eq_singleton name_colon]

theorem arnParts_text (arn : QueueArn) :
    arnParts arn.text = ["arn", "aws", "sqs", arn.region, arn.account, arn.name] := by
  have fixed : "arn:aws:sqs:".toList =
      "arn".toList ++ ':' :: ("aws".toList ++ ':' :: ("sqs".toList ++ [':'])) := by decide
  have pieces : arn.text.toList.splitOn ':' = ["arn".toList, "aws".toList, "sqs".toList,
      arn.region.toList, arn.account.toList, arn.name.toList] :=
    splitOn_of_arn fixed (by decide) arn.region_colon arn.account_colon arn.name_colon
  simp only [arnParts, pieces, List.map_cons, List.map_nil, String.ofList_toList]

end QueueArn

/-- The queue after a message with this text, and nothing else, was sent to it. -/
def enqueued (env : Env) (now : Sqs.Instant) (counter : Nat) (text : String) (q : SqsQueue) : SqsQueue :=
  (q.sendMessage env now counter ⟨text, none, ∅, none, none⟩).2.1

/-- Whenever the request is served, the queue of the ARN gets one message with the text if it is
there, and no other queue of any account or region changes. -/
def Enqueues (env : Env) (ctx : SyntheticContext) (arn : QueueArn) (text : String) : Prop :=
  ∀ (w : World) (now : Sqs.Instant) (key name : String),
    queueAt (Sqs.serve env w (Sqs.contextRequest ctx now)).stores key name =
      if key = arn.key ∧ name = arn.name then
        (queueAt w.stores key name).map (enqueued env now w.messageIds text)
      else queueAt w.stores key name

section Effect

variable {env : Env} {region accountId queueName : String}

theorem serve_sendMessageContext (payload : String) (account : '&' ∉ accountId.toList)
    (name : '&' ∉ queueName.toList) (w : World) (now : Sqs.Instant) :
    (Sqs.serve env w (Sqs.contextRequest (sendMessageContext region accountId queueName payload)
      now)).stores = Sqs.updateStores w (Sqs.accountRegionKey accountId region) (sentName queueName)
        (enqueued env now w.messageIds (Sqs.urlDecode (urlEncode payload))) := by
  have form := getElem?_sendMessageForm payload account name
  have query : (Sqs.contextRequest (sendMessageContext region accountId queueName payload)
      now).queryParams = ∅ := rfl
  have headers : (Sqs.contextRequest (sendMessageContext region accountId queueName payload)
      now).headers = ∅ := rfl
  have body : (Sqs.contextRequest (sendMessageContext region accountId queueName payload) now).body =
      sendMessageForm accountId queueName payload := rfl
  have key : ∀ action, ((Sqs.contextRequest (sendMessageContext region accountId queueName payload)
      now).toRequest env action).storeKey = Sqs.accountRegionKey accountId region := fun _ => rfl
  have time : (Sqs.contextRequest (sendMessageContext region accountId queueName payload) now).now =
      now := rfl
  generalize Sqs.contextRequest (sendMessageContext region accountId queueName payload) now = req at *
  have named : (Sqs.formParams req.body).contains "Action" = true := by
    rw [body, Std.ExtTreeMap.contains_eq_isSome_getElem?, form]
    rfl
  have params : req.params env = Sqs.formParams (sendMessageForm accountId queueName payload) := by
    have compat : ∀ p, Sqs.applyTransportCompat ∅ p = p := by simp [Sqs.applyTransportCompat]
    rw [WireRequest.params, headers, compat, ← body]
    simp only [Sqs.parseParams, named, if_true, query, Sqs.toList_empty, List.foldl_nil]
  have action : req.action env = some "SendMessage" := by
    rw [WireRequest.action, params, form]
    rfl
  have form_mode : req.queryModeJson = false := by
    simp [WireRequest.queryModeJson, headers]
  have queue : (req.toRequest env "SendMessage").queueName? = some (sentName queueName) := by
    rw [← queueNameFromUrl_sentUrl accountId]
    apply Sqs.queueName_eq
    rw [params, form]
    rfl
  have text : (req.toRequest env "SendMessage").params["MessageBody"]? =
      some (Sqs.urlDecode (urlEncode payload)) := by
    rw [Sqs.toRequest_params, params, form]
    rfl
  have args : Sqs.sendArgs (req.params env) (Sqs.urlDecode (urlEncode payload)) =
      ⟨Sqs.urlDecode (urlEncode payload), none, ∅, none, none⟩ := by
    have attributes : (req.params env)["MessageAttribute.1.Name"]? = none := by
      rw [params, form]
      rfl
    rw [Sqs.sendArgs, Sqs.extractMessageAttributes_eq_empty attributes, params, form, form, form]
    rfl
  rw [Sqs.serve, action]
  simp only [form_mode, Bool.false_eq_true, if_false]
  rw [Sqs.dispatch_send rfl queue text, key]
  simp only [Sqs.toRequest_params, Sqs.toRequest_now, args, time]
  rfl

/-- One new queue at the ARN and nothing else. -/
def onlyQueue (arn : QueueArn) : World where
  stores := (∅ : StrMap SqsStore).insert arn.key
    { queues := (∅ : StrMap SqsQueue).insert arn.name
        (.new 0 arn.name "http://localhost:4566" arn.account arn.region) }

theorem queueAt_onlyQueue (arn : QueueArn) (key name : String) : queueAt (onlyQueue arn).stores key name =
    if key = arn.key ∧ name = arn.name then
      some (.new 0 arn.name "http://localhost:4566" arn.account arn.region) else none := by
  unfold queueAt onlyQueue
  by_cases here : key = arn.key
  · by_cases there : name = arn.name
    · simp [here, there]
    · simp [here, there, Ne.symm there]
  · simp [here, Ne.symm here]

theorem enqueued_ne (env : Env) (now : Sqs.Instant) (counter : Nat) (text : String) (q : SqsQueue) :
    enqueued env now counter text q ≠ q := by
  intro same
  have lengths := congrArg (fun q : SqsQueue => q.messages.length) same
  simp [enqueued, SqsQueue.sendMessage, SqsQueue.isDuplicate] at lengths

/-- The message arrives where the ARN says exactly if the request is made in its account and region
and its queue name survives the form. -/
theorem enqueues_iff (arn : QueueArn) (payload : String) (account : '&' ∉ accountId.toList)
    (name : '&' ∉ arn.name.toList) :
    Enqueues env (sendMessageContext region accountId arn.name payload) arn
        (Sqs.urlDecode (urlEncode payload)) ↔
      Sqs.accountRegionKey accountId region = arn.key ∧ sentName arn.name = arn.name := by
  unfold Enqueues
  simp only [serve_sendMessageContext payload account name, queueAt_updateStores]
  constructor
  · intro arrives
    have here := arrives (onlyQueue arn) 0 arn.key arn.name
    simp only [queueAt_onlyQueue, and_self, if_true, Option.map_some] at here
    split at here
    · next same => exact ⟨same.1.symm, same.2.symm⟩
    · exact absurd (Option.some.inj here).symm (enqueued_ne _ _ _ _ _)
  · rintro ⟨key, survives⟩ w now k n
    rw [key, survives]

end Effect

/-! ## Publishers and their targets -/

/-- One request for each target in turn, and each of them delivers its text to the queue that the
target's ARN names. -/
def Delivered (env : Env) (targets : List (String × String)) (contexts : List SyntheticContext) : Prop :=
  List.Forall₂ (fun target ctx => ∀ arn : QueueArn, target.1 = arn.text →
    Enqueues env ctx arn (Sqs.urlDecode (urlEncode target.2))) targets contexts

/-- The SQS subscriptions that get the message, with its text. -/
def Sns.queueTargets (print : Json → String) (p : Sns.PublishPayload) : List (String × String) :=
  (p.deliveryTasks.filter fun s => s.passes p.messageAttributes && s.protocol == .sqs).map fun s =>
    (s.endpoint, p.textFor print s)

/-- The queues of the configurations that accept the event, with its text. -/
def S3.queueTargets (print : Json → String) (configs : List S3.NotificationConfig) (e : S3.ObjectEvent) :
    List (String × String) :=
  (configs.filter fun nc => nc.accepts e && nc.destinationType == "sqs").map fun nc =>
    (nc.destinationArn, S3.eventPayload print e)

/-- The targets of the events that are queues, with their input. -/
def EventBridge.queueTargets (codec : EventBridge.Codec) (store : EventBridge.EventBridgeStore)
    (req : EventBridge.PutEventsRequest) (eventIds : List String) : List (String × String) :=
  ((EventBridge.dispatchTargets codec store req eventIds).filter fun t =>
    6 ≤ (arnParts t.1).length && (arnParts t.1)[2]? == some "sqs").map fun t =>
      (t.1, codec.print t.2)

/-- The requests that go to SQS. -/
def toQueues (contexts : List SyntheticContext) : List SyntheticContext :=
  contexts.filter (·.service == "sqs")

section Publishers

variable {env : Env}

/-- A publisher's requests to queues, when they come from the elements that pass `p`. -/
theorem toQueues_filterMap {α : Type} {f : α → Option SyntheticContext} {p : α → Bool}
    {g : α → SyntheticContext} (hit : ∀ a, p a = true → f a = some (g a) ∧ (g a).service = "sqs")
    (miss : ∀ a c, p a = false → f a = some c → c.service ≠ "sqs") (l : List α) :
    toQueues (l.filterMap f) = (l.filter p).map g := by
  induction l with
  | nil => rfl
  | cons a rest ih =>
    unfold toQueues at ih ⊢
    cases passes : p a with
    | true =>
      obtain ⟨made, service⟩ := hit a passes
      simp [made, service, passes, ih]
    | false =>
      cases made : f a with
      | none => simp [made, passes, ih]
      | some c => simp [made, passes, ih, miss a c passes made]

theorem Sns.toQueues_dispatch (print : Json → String) (p : Sns.PublishPayload) :
    toQueues (Sns.dispatchPublishDeliveries print p) = (Sns.queueTargets print p).map fun t =>
      sendMessageContext p.region ((arnParts t.1)[4]?.getD p.accountId)
        ((arnParts t.1).getLast?.getD "unknown") t.2 := by
  rw [Sns.queueTargets, List.map_map]
  refine toQueues_filterMap ?_ ?_ _
  · intro s passes
    simp only [Bool.and_eq_true, beq_iff_eq] at passes
    simp only [passes.1, passes.2, if_true]
    exact ⟨rfl, rfl⟩
  · intro s c fails made
    split at made
    · next passes =>
      split at made
      · next protocol => simp [passes, protocol] at fails
      · cases made
    · cases made

theorem S3.toQueues_emit (print : Json → String) (configs : List S3.NotificationConfig)
    (e : S3.ObjectEvent) : toQueues (S3.emitS3Notification print configs e) =
      (S3.queueTargets print configs e).map fun t =>
        sendMessageContext e.region e.accountId (S3.lastArnPart t.1) t.2 := by
  have both : (configs.filter fun nc => nc.accepts e && nc.destinationType == "sqs") =
      (configs.filter (·.accepts e)).filter (·.destinationType == "sqs") := by
    rw [List.filter_filter]
    exact List.filter_congr fun nc _ => Bool.and_comm _ _
  rw [S3.emitS3Notification, S3.queueTargets, both, List.map_map, ← List.filterMap_eq_map]
  refine toQueues_filterMap ?_ ?_ _
  · intro nc queue
    have type : nc.destinationType = "sqs" := by simpa using queue
    simp only [Function.comp_apply, type]
    exact ⟨rfl, rfl⟩
  · intro nc c other made
    have type : nc.destinationType ≠ "sqs" := by simpa using other
    obtain rfl := Option.some.inj made
    simp only [S3.buildNotificationDispatchCtxOwned]
    split
    · next same => exact absurd same type
    · simp
    · simp
    · exact type

theorem EventBridge.toQueues_putEvents (codec : EventBridge.Codec)
    (store : EventBridge.EventBridgeStore) (req : EventBridge.PutEventsRequest)
    (eventIds : List String) : toQueues (EventBridge.putEvents codec store req eventIds) =
      (EventBridge.queueTargets codec store req eventIds).map fun t =>
        sendMessageContext req.region req.accountId ((arnParts t.1).getLast?.getD "") t.2 := by
  rw [EventBridge.queueTargets, List.map_map]
  refine toQueues_filterMap ?_ ?_ _
  · intro t queue
    simp only [Bool.and_eq_true, decide_eq_true_eq, beq_iff_eq] at queue
    have long : ¬ (arnParts t.1).length < 6 := by omega
    simp only [EventBridge.dispatchToTarget, long, if_false, queue.2, Option.getD_some]
    exact ⟨rfl, rfl⟩
  · intro t c other made
    simp only [EventBridge.dispatchToTarget] at made
    split at made
    · cases made
    · next long =>
      split at made
      · next service =>
        have third : (arnParts t.1)[2]? = some "sqs" := by
          cases part : (arnParts t.1)[2]? with
          | none => simp [part] at service
          | some text => rw [part] at service; exact congrArg some service
        simp [third, Nat.le_of_not_lt long] at other
      · obtain rfl := Option.some.inj made
        simp
      · obtain rfl := Option.some.inj made
        simp
      · cases made

/-- Neither text breaks up the form. -/
def FormSafe (accountId queueName : String) : Prop :=
  '&' ∉ accountId.toList ∧ '&' ∉ queueName.toList

/-- Requests made in the region, for each target in an account that depends on its ARN. -/
theorem delivered_iff {targets : List (String × String)} {f : String × String → SyntheticContext}
    (region : String) (accountOf : QueueArn → String)
    (sends : ∀ t ∈ targets, ∀ arn : QueueArn, t.1 = arn.text →
      f t = sendMessageContext region (accountOf arn) arn.name t.2)
    (safe : ∀ t ∈ targets, ∀ arn : QueueArn, t.1 = arn.text → FormSafe (accountOf arn) arn.name) :
    Delivered env targets (targets.map f) ↔ ∀ t ∈ targets, ∀ arn : QueueArn, t.1 = arn.text →
      Sqs.accountRegionKey (accountOf arn) region = arn.key ∧ sentName arn.name = arn.name := by
  rw [Delivered, List.forall₂_map_right_iff, List.forall₂_same]
  refine forall₂_congr fun t member => forall₂_congr fun arn named => ?_
  rw [sends t member arn named]
  exact enqueues_iff arn t.2 (safe t member arn named).1 (safe t member arn named).2

theorem accountRegionKey_right_inj {account region region' : String} :
    Sqs.accountRegionKey account region = Sqs.accountRegionKey account region' ↔ region = region' := by
  constructor
  · intro same
    have text := congrArg String.toList same
    simp only [Sqs.accountRegionKey, String.toList_append, List.append_cancel_left_eq] at text
    exact String.toList_inj.mp text
  · rintro rfl
    rfl

theorem Sns.publishPayload_region {store : Sns.SnsStore} {req : Sns.PublishRequest}
    {p : Sns.PublishPayload} (collected : Sns.publishPayload store req = .ok p) :
    p.region = req.region := by
  obtain ⟨_, _, _, _, _, rfl⟩ := Sns.publishPayload_eq_ok_iff.mp collected
  rfl

theorem Sns.delivered_iff {print : Json → String} {p : Sns.PublishPayload}
    (safe : ∀ t ∈ Sns.queueTargets print p, ∀ arn : QueueArn, t.1 = arn.text →
      FormSafe arn.account arn.name) :
    Delivered env (Sns.queueTargets print p) (toQueues (Sns.dispatchPublishDeliveries print p)) ↔
      ∀ t ∈ Sns.queueTargets print p, ∀ arn : QueueArn, t.1 = arn.text →
        p.region = arn.region ∧ sentName arn.name = arn.name := by
  rw [Sns.toQueues_dispatch, Openstack.delivered_iff p.region QueueArn.account ?_ safe]
  · refine forall₂_congr fun t _ => forall₂_congr fun arn _ => and_congr_left fun _ => ?_
    exact accountRegionKey_right_inj
  · intro t _ arn named
    rw [named, arn.arnParts_text]
    rfl

theorem S3.delivered_iff {print : Json → String} {configs : List S3.NotificationConfig}
    {e : S3.ObjectEvent}
    (safe : ∀ t ∈ S3.queueTargets print configs e, ∀ arn : QueueArn, t.1 = arn.text →
      FormSafe e.accountId arn.name) :
    Delivered env (S3.queueTargets print configs e)
        (toQueues (S3.emitS3Notification print configs e)) ↔
      ∀ t ∈ S3.queueTargets print configs e, ∀ arn : QueueArn, t.1 = arn.text →
        Sqs.accountRegionKey e.accountId e.region = arn.key ∧ sentName arn.name = arn.name := by
  rw [S3.toQueues_emit]
  refine Openstack.delivered_iff e.region (fun _ => e.accountId) ?_ safe
  intro t _ arn named
  rw [named, S3.lastArnPart, arn.arnParts_text]
  rfl

theorem EventBridge.delivered_iff {codec : EventBridge.Codec} {store : EventBridge.EventBridgeStore}
    {req : EventBridge.PutEventsRequest} {eventIds : List String}
    (safe : ∀ t ∈ EventBridge.queueTargets codec store req eventIds, ∀ arn : QueueArn,
      t.1 = arn.text → FormSafe req.accountId arn.name) :
    Delivered env (EventBridge.queueTargets codec store req eventIds)
        (toQueues (EventBridge.putEvents codec store req eventIds)) ↔
      ∀ t ∈ EventBridge.queueTargets codec store req eventIds, ∀ arn : QueueArn, t.1 = arn.text →
        Sqs.accountRegionKey req.accountId req.region = arn.key ∧ sentName arn.name = arn.name := by
  rw [EventBridge.toQueues_putEvents]
  refine Openstack.delivered_iff req.region (fun _ => req.accountId) ?_ safe
  intro t _ arn named
  rw [named, arn.arnParts_text]
  rfl

end Publishers

/-- Every publisher makes one request for each matching queue, and it reaches the queue exactly if
the caller is in the region of the ARN, for S3 and EventBridge also in its account, and the queue name
survives the form. -/
theorem cross_service_delivery_iff (env : Env) (print : Json → String) (codec : EventBridge.Codec) :
    (∀ store req p, Sns.publishPayload store req = .ok p →
      (∀ t ∈ Sns.queueTargets print p, ∀ arn : QueueArn, t.1 = arn.text →
        FormSafe arn.account arn.name) →
      ∃ contexts, Sns.handlePublish print store req = .ok (p.messageId, contexts) ∧
        (Delivered env (Sns.queueTargets print p) (toQueues contexts) ↔
          ∀ t ∈ Sns.queueTargets print p, ∀ arn : QueueArn, t.1 = arn.text →
            req.region = arn.region ∧ sentName arn.name = arn.name)) ∧
    (∀ configs e, (∀ t ∈ S3.queueTargets print configs e, ∀ arn : QueueArn, t.1 = arn.text →
        FormSafe e.accountId arn.name) →
      (Delivered env (S3.queueTargets print configs e)
          (toQueues (S3.emitS3Notification print configs e)) ↔
        ∀ t ∈ S3.queueTargets print configs e, ∀ arn : QueueArn, t.1 = arn.text →
          Sqs.accountRegionKey e.accountId e.region = arn.key ∧ sentName arn.name = arn.name)) ∧
    (∀ store req eventIds, (∀ t ∈ EventBridge.queueTargets codec store req eventIds,
        ∀ arn : QueueArn, t.1 = arn.text → FormSafe req.accountId arn.name) →
      (Delivered env (EventBridge.queueTargets codec store req eventIds)
          (toQueues (EventBridge.putEvents codec store req eventIds)) ↔
        ∀ t ∈ EventBridge.queueTargets codec store req eventIds, ∀ arn : QueueArn, t.1 = arn.text →
          Sqs.accountRegionKey req.accountId req.region = arn.key ∧ sentName arn.name = arn.name)) := by
  refine ⟨?_, fun configs e safe => S3.delivered_iff safe,
    fun store req eventIds safe => EventBridge.delivered_iff safe⟩
  intro store req p collected safe
  refine ⟨Sns.dispatchPublishDeliveries print p, ?_, ?_⟩
  · rw [Sns.handlePublish, collected]
    rfl
  · rw [← Sns.publishPayload_region collected]
    exact Sns.delivered_iff safe

def jobsArn : String := "arn:aws:sqs:us-east-1:000000000000:jobs"

example : jobsArn.length = 39 := by decide +kernel

theorem jobsArn_parts {arn : QueueArn} (named : jobsArn = arn.text) :
    arn.region = "us-east-1" ∧ arn.account = "000000000000" ∧ arn.name = "jobs" := by
  have parts : arnParts jobsArn = ["arn", "aws", "sqs", "us-east-1", "000000000000", "jobs"] := by
    decide +kernel
  rw [named, arn.arnParts_text] at parts
  simpa using parts

def newsArn : String := "arn:aws:sns:us-east-1:000000000000:news"

/-- A topic with a subscription of the queue `jobs`. -/
def newsStore : Sns.SnsStore where
  topics := (∅ : StrMap Sns.Topic).insert newsArn ⟨newsArn, "news"⟩
  subscriptions := (∅ : StrMap Sns.Subscription).insert "s" ⟨"s", newsArn, .sqs, jobsArn, true, none⟩

def newsRequest (region : String) : Sns.PublishRequest where
  accountId := "000000000000"
  region := region
  params := ((∅ : StrMap String).insert "TopicArn" newsArn).insert "Message" "hello"
  messageId := "m"
  timestamp := ""

def newsPayload (region : String) : Sns.PublishPayload where
  deliveryTasks := newsStore.listSubscriptionsByTopic newsArn
  message := "hello"
  subject := ""
  topicArn := newsArn
  messageId := "m"
  messageAttributes := Sns.extractMessageAttributes (newsRequest region).params
  region := region
  accountId := "000000000000"
  timestamp := ""

theorem publishPayload_news (region : String) :
    Sns.publishPayload newsStore (newsRequest region) = .ok (newsPayload region) := by
  have topic : (newsRequest region).params["TopicArn"]? = some newsArn := by
    rw [newsRequest, StrMap.getElem?_insert, if_neg (by decide), StrMap.getElem?_insert, if_pos rfl]
  have message : (newsRequest region).params["Message"]? = some "hello" := by
    rw [newsRequest, StrMap.getElem?_insert, if_pos rfl]
  have subject : (newsRequest region).params["Subject"]? = none := by
    rw [newsRequest, StrMap.getElem?_insert, if_neg (by decide), StrMap.getElem?_insert,
      if_neg (by decide), Std.ExtTreeMap.getElem?_empty]
  have known : newsStore.topics.contains newsArn = true := by simp [newsStore]
  simp only [Sns.publishPayload, topic, message, subject, known, if_true]
  rfl

theorem newsTargets (print : Json → String) (region : String) :
    Sns.queueTargets print (newsPayload region) = [(jobsArn, "hello")] := by
  have tasks : (newsPayload region).deliveryTasks = [⟨"s", newsArn, .sqs, jobsArn, true, none⟩] := rfl
  rw [Sns.queueTargets, tasks]
  rfl

/-- A bucket's configuration that sends every event to the queue `jobs`. -/
def jobsConfig : S3.NotificationConfig := ⟨"c", jobsArn, "sqs", ["s3:*"], none, none⟩

def putEvent : S3.ObjectEvent where
  accountId := "000000000000"
  region := "us-east-1"
  bucket := "photos"
  key := "cat.jpg"
  eventName := "s3:ObjectCreated:Put"
  eventTime := ""

/-- A rule for every event that sends to the queue `jobs`. -/
def jobsRules : EventBridge.EventBridgeStore where
  rules := (∅ : StrMap EventBridge.EventRule).insert "all" ⟨"all", "default", some (.obj []), "ENABLED",
    (∅ : StrMap EventBridge.RuleTarget).insert "t" ⟨"t", jobsArn, none⟩⟩

def oneEvent : EventBridge.PutEventsRequest := ⟨"000000000000", "us-east-1", [.obj []], ""⟩

/-- A codec that reads nothing and prints every value alike. -/
def noText : EventBridge.Codec := ⟨fun _ => none, fun _ => "\x7b\x7d"⟩

theorem jobsArn_safe {arn : QueueArn} (named : jobsArn = arn.text) :
    FormSafe "000000000000" arn.name ∧ FormSafe arn.account arn.name := by
  obtain ⟨_, account, name⟩ := jobsArn_parts named
  rw [account, name]
  exact ⟨⟨by decide, by decide⟩, by decide, by decide⟩

theorem jobsArn_reached {arn : QueueArn} (named : jobsArn = arn.text) :
    "us-east-1" = arn.region ∧ Sqs.accountRegionKey "000000000000" "us-east-1" = arn.key ∧
      sentName arn.name = arn.name := by
  obtain ⟨region, account, name⟩ := jobsArn_parts named
  have survives : sentName "jobs" = "jobs" := by decide +kernel
  rw [QueueArn.key, region, account, name]
  exact ⟨rfl, rfl, survives⟩

theorem cross_service_delivery_jobs :
    (∃ contexts, Sns.handlePublish noText.print newsStore (newsRequest "us-east-1") =
      .ok ("m", contexts) ∧ Delivered (Sqs.helloEnv none) [(jobsArn, "hello")] (toQueues contexts)) ∧
    Delivered (Sqs.helloEnv none) [(jobsArn, "\x7b\x7d")]
      (toQueues (S3.emitS3Notification noText.print [jobsConfig] putEvent)) ∧
    Delivered (Sqs.helloEnv none) [(jobsArn, "\x7b\x7d")]
      (toQueues (EventBridge.putEvents noText jobsRules oneEvent ["e"])) := by
  obtain ⟨sns, s3, eventBridge⟩ := cross_service_delivery_iff (Sqs.helloEnv none) noText.print noText
  have s3Targets : S3.queueTargets noText.print [jobsConfig] putEvent = [(jobsArn, "\x7b\x7d")] := by
    decide +kernel
  have ruleTargets : EventBridge.queueTargets noText jobsRules oneEvent ["e"] =
      [(jobsArn, "\x7b\x7d")] := by decide +kernel
  refine ⟨?_, ?_, ?_⟩
  · obtain ⟨contexts, answer, delivered⟩ := sns newsStore (newsRequest "us-east-1") _
      (publishPayload_news "us-east-1") (by simpa [newsTargets] using fun _ named => (jobsArn_safe named).2)
    rw [newsTargets] at delivered
    refine ⟨contexts, answer, delivered.mpr ?_⟩
    simpa using fun _ named => ⟨(jobsArn_reached named).1, (jobsArn_reached named).2.2⟩
  · rw [← s3Targets]
    refine (s3 [jobsConfig] putEvent ?_).mpr ?_
    · rw [s3Targets]
      exact List.forall_mem_singleton.mpr fun _ named => (jobsArn_safe named).1
    · rw [s3Targets]
      exact List.forall_mem_singleton.mpr fun _ named => (jobsArn_reached named).2
  · rw [← ruleTargets]
    refine (eventBridge jobsRules oneEvent ["e"] ?_).mpr ?_
    · rw [ruleTargets]
      exact List.forall_mem_singleton.mpr fun _ named => (jobsArn_safe named).1
    · rw [ruleTargets]
      exact List.forall_mem_singleton.mpr fun _ named => (jobsArn_reached named).2

/-- A topic in another region delivers to the queue of its own region. -/
theorem publish_misses_region : ¬ ∀ env print store req p contexts,
    Sns.publishPayload store req = .ok p → Sns.handlePublish print store req = .ok (p.messageId, contexts) →
      Delivered env (Sns.queueTargets print p) (toQueues contexts) := by
  intro claim
  have published : Sns.handlePublish noText.print newsStore (newsRequest "eu-west-1") = .ok ("m",
      Sns.dispatchPublishDeliveries noText.print (newsPayload "eu-west-1")) := by
    rw [Sns.handlePublish, publishPayload_news]
    rfl
  have delivered := claim (Sqs.helloEnv none) noText.print newsStore (newsRequest "eu-west-1") _ _
    (publishPayload_news "eu-west-1") published
  rw [Sns.delivered_iff (by simpa [newsTargets] using fun _ named => (jobsArn_safe named).2),
    newsTargets] at delivered
  have named : jobsArn = (⟨"us-east-1", "000000000000", "jobs", by decide, by decide, by decide⟩ :
      QueueArn).text := by decide +kernel
  have region := (delivered _ List.mem_cons_self _ named).1
  exact absurd region (by decide)

example : newsArn.length = 39 := by decide +kernel

end Openstack

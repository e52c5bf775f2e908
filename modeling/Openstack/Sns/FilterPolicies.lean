import Openstack.Lib.Run
import Openstack.Sns.Publish

/-!
# SNS filter policies

`provider.rs:465-490` and `store.rs:14-42`. A value of `FilterPolicy` that is no policy is accepted too. It
leaves the subscription without one, and a subscription without a policy gets every message. What
`serde_json` reads in a text is a parameter.
-/
namespace Openstack.Sns

section Handler

variable (fromStr : String → Option (StrMap (List Json)))

def FilterPolicy.fromJson (json : String) : Option FilterPolicy := (fromStr json).map FilterPolicy.mk

@[grind] def Subscription.setAttribute (attrName attrValue : String) (s : Subscription) : Subscription :=
  if attrName = "RawMessageDelivery" then { s with rawMessageDelivery := attrValue == "true" }
  else if attrName = "FilterPolicy" then { s with filterPolicy := FilterPolicy.fromJson fromStr attrValue }
  else s

def attributeValue (params : Sqs.Params) : String := params["AttributeValue"]?.getD ""

def handleSetSubscriptionAttributes (store : SnsStore) (params : Sqs.Params) : Except SnsError SnsStore :=
  match params["SubscriptionArn"]? with
  | none => .error ⟨"InvalidParameter", "SubscriptionArn is required", 400⟩
  | some arn =>
    match params["AttributeName"]? with
    | none => .error ⟨"InvalidParameter", "AttributeName is required", 400⟩
    | some attrName =>
      match store.subscriptions[arn]? with
      | none => .error ⟨"NotFound", "Subscription not found", 404⟩
      | some s => .ok { store with
          subscriptions := store.subscriptions.insert arn
            (s.setAttribute fromStr attrName (attributeValue params)) }

end Handler

/-- The subscription that a request gives a new policy, and the text of the policy. -/
def policyChange (params : Sqs.Params) : Option (String × String) :=
  if params["AttributeName"]? = some "FilterPolicy" then
    params["SubscriptionArn"]?.map fun arn => (arn, attributeValue params)
  else none

/-- Every name in the policy is an attribute of the message, with one of the strings listed for it. -/
def FilterPolicy.Satisfied (fp : FilterPolicy) (attributes : StrMap MessageAttribute) : Prop :=
  ∀ (name : String) (values : List Json), fp.policy[name]? = some values → ∃ attr : MessageAttribute,
    attributes[name]? = some attr ∧ Json.str (attr.stringValue.getD "") ∈ values

theorem passes_iff_satisfied (fp : FilterPolicy) (attributes : StrMap MessageAttribute) :
    fp.passes attributes = true ↔ fp.Satisfied attributes := by
  rw [FilterPolicy.passes, List.all_eq_true]
  constructor
  · intro passes name values there
    have here := passes (name, values) (Std.ExtTreeMap.mem_toList_iff_getElem?_eq_some.mpr there)
    cases found : attributes[name]? with
    | none => simp [found] at here
    | some attr =>
      simp only [found, List.any_eq_true] at here
      obtain ⟨v, listed, same⟩ := here
      cases v with
      | str s =>
        have value : s = attr.stringValue.getD "" := by simpa [Json.asStr?] using same
        exact ⟨attr, rfl, value ▸ listed⟩
      | _ => simp [Json.asStr?] at same
  · rintro satisfied ⟨name, values⟩ there
    obtain ⟨attr, found, listed⟩ :=
      satisfied name values (Std.ExtTreeMap.mem_toList_iff_getElem?_eq_some.mp there)
    simp only [found, List.any_eq_true]
    exact ⟨_, listed, by simp [Json.asStr?]⟩

/-- The subscription is among those that a Publish is for, and its policy lets the message through. -/
def SnsStore.Receives (store : SnsStore) (arn : String) (req : PublishRequest) : Prop :=
  ∃ p s, publishPayload store req = .ok p ∧ store.subscriptions[arn]? = some s ∧ s ∈ p.deliveryTasks ∧
    s.passes p.messageAttributes = true

section Receives

variable {store : SnsStore} {arn : String} {req : PublishRequest}

theorem receives_iff : store.Receives arn req ↔ ∃ s, store.subscriptions[arn]? = some s ∧
    req.params["TopicArn"]? = some s.topicArn ∧ store.topics.contains s.topicArn = true ∧
    req.params["Message"]?.isSome = true ∧ s.passes req.attributes = true := by
  constructor
  · rintro ⟨p, s, payload, there, task, passes⟩
    obtain ⟨topicArn, message, named, known, given, rfl⟩ := publishPayload_eq_ok_iff.mp payload
    have topic : s.topicArn = topicArn := by simpa using List.of_mem_filter task
    subst topic
    exact ⟨s, there, named, known, by rw [given]; rfl, passes⟩
  · rintro ⟨s, there, named, known, given, passes⟩
    obtain ⟨message, given⟩ := Option.isSome_iff_exists.mp given
    refine ⟨_, s, publishPayload_eq_ok_iff.mpr ⟨_, message, named, known, given, rfl⟩, there,
      ?_, passes⟩
    exact List.mem_filter.mpr ⟨StrMap.mem_values.mpr ⟨arn, there⟩, beq_self_eq_true _⟩

/-- A Publish makes a request for each queue that receives the message, and no other. -/
theorem mem_dispatch_iff {print : Json → String} {p : PublishPayload}
    (payload : publishPayload store req = .ok p) (ctx : SyntheticContext) :
    ctx ∈ dispatchPublishDeliveries print p ↔ ∃ arn s, store.Receives arn req ∧
      store.subscriptions[arn]? = some s ∧ s.protocol = .sqs ∧ ctx = queueContext print p s := by
  rw [dispatchPublishDeliveries, List.mem_filterMap]
  constructor
  · rintro ⟨s, task, made⟩
    split at made
    · next passes =>
      split at made
      · next queue =>
        cases made
        obtain ⟨topicArn, message, named, known, given, rfl⟩ := publishPayload_eq_ok_iff.mp payload
        obtain ⟨arn, there⟩ := StrMap.mem_values.mp (List.mem_of_mem_filter task)
        exact ⟨arn, s, ⟨_, s, payload, there, task, passes⟩, there, queue, rfl⟩
      · cases made
    · cases made
  · rintro ⟨arn, s, ⟨p', s', payload', there', task, passes⟩, there, queue, rfl⟩
    rw [payload] at payload'
    cases payload'
    rw [there] at there'
    cases there'
    exact ⟨s, task, by simp only [passes, queue, if_true]⟩

end Receives

/-- A store with the text of the policy that each subscription last accepted. -/
structure Ledger where
  store : SnsStore
  accepted : StrMap String

section Runs

variable (fromStr : String → Option (StrMap (List Json)))

def Ledger.step (l : Ledger) (params : Sqs.Params) : Ledger :=
  match handleSetSubscriptionAttributes fromStr l.store params with
  | .error _ => l
  | .ok store =>
    { store := store
      accepted := match policyChange params with
        | some (arn, text) => l.accepted.insert arn text
        | none => l.accepted }

/-- A subscription whose last accepted text is a policy receives only the messages that satisfy it. -/
def Ledger.Restricted (l : Ledger) : Prop :=
  ∀ arn text fp, l.accepted[arn]? = some text → FilterPolicy.fromJson fromStr text = some fp →
    ∀ req, l.store.Receives arn req → fp.Satisfied req.attributes

/-- A text that is no policy lets through no message that was excluded before. -/
def Ledger.NotWidened (l : Ledger) (params : Sqs.Params) : Prop :=
  ∀ arn text, policyChange params = some (arn, text) → FilterPolicy.fromJson fromStr text = none →
    ∀ req, (l.step fromStr params).store.Receives arn req → l.store.Receives arn req

/-- A text that is no policy only goes to a subscription without a policy, to one whose policy has no
entries, or to one whose topic is gone. -/
def Ledger.Harmless (l : Ledger) (params : Sqs.Params) : Prop :=
  ∀ arn text s fp, policyChange params = some (arn, text) → FilterPolicy.fromJson fromStr text = none →
    l.store.subscriptions[arn]? = some s → l.store.topics.contains s.topicArn = true →
    s.filterPolicy = some fp → fp.policy.toList = []

variable {fromStr}

theorem handleSet_eq_ok_iff {store store' : SnsStore} {params : Sqs.Params} :
    handleSetSubscriptionAttributes fromStr store params = .ok store' ↔ ∃ arn attrName s,
      params["SubscriptionArn"]? = some arn ∧ params["AttributeName"]? = some attrName ∧
        store.subscriptions[arn]? = some s ∧ store' = { store with
          subscriptions := store.subscriptions.insert arn
            (s.setAttribute fromStr attrName (attributeValue params)) } := by
  unfold handleSetSubscriptionAttributes
  constructor
  · intro answered
    split at answered
    · cases answered
    · next arn named =>
      split at answered
      · cases answered
      · next attrName kind =>
        split at answered
        · cases answered
        · next s there =>
          cases answered
          exact ⟨arn, attrName, s, named, kind, there, rfl⟩
  · rintro ⟨arn, attrName, s, named, kind, there, rfl⟩
    simp only [named, kind, there]

/-- A step changes nothing, or one attribute of one subscription. -/
theorem Ledger.step_cases (fromStr : String → Option (StrMap (List Json))) (l : Ledger)
    (params : Sqs.Params) :
    (l.step fromStr params = l ∧
      ∀ arn text, policyChange params = some (arn, text) → l.store.subscriptions[arn]? = none) ∨
    ∃ arn s, l.store.subscriptions[arn]? = some s ∧ params["SubscriptionArn"]? = some arn ∧
      ∃ attrName, params["AttributeName"]? = some attrName ∧
        (l.step fromStr params).store = { l.store with
          subscriptions := l.store.subscriptions.insert arn
            (s.setAttribute fromStr attrName (attributeValue params)) } ∧
        (l.step fromStr params).accepted = (if attrName = "FilterPolicy" then
          l.accepted.insert arn (attributeValue params) else l.accepted) := by
  cases answer : handleSetSubscriptionAttributes fromStr l.store params with
  | error e =>
    refine .inl ⟨by rw [step, answer], fun arn text change => ?_⟩
    unfold policyChange at change
    split at change
    · next kind =>
      obtain ⟨arn, named, same⟩ := Option.map_eq_some_iff.mp change
      cases same
      cases there : l.store.subscriptions[arn]? with
      | none => rfl
      | some s =>
        rw [handleSet_eq_ok_iff.mpr ⟨arn, _, s, named, kind, there, rfl⟩] at answer
        cases answer
    · cases change
  | ok store' =>
    obtain ⟨arn, attrName, s, named, kind, there, rfl⟩ := handleSet_eq_ok_iff.mp answer
    refine .inr ⟨arn, s, there, named, attrName, kind, by rw [step, answer], ?_⟩
    rw [step, answer]
    by_cases policy : attrName = "FilterPolicy"
    · simp [policyChange, kind, named, policy]
    · simp [policyChange, kind, policy]

section Insert

variable {store : SnsStore} {arn : String} {s s' : Subscription} {req : PublishRequest}

theorem receives_insert_other {arn' : String} (other : arn' ≠ arn) :
    ({ store with subscriptions := store.subscriptions.insert arn s } : SnsStore).Receives arn' req ↔
      store.Receives arn' req := by
  rw [receives_iff, receives_iff]
  simp only [StrMap.getElem?_insert, if_neg (Ne.symm other)]

theorem receives_insert_self :
    ({ store with subscriptions := store.subscriptions.insert arn s } : SnsStore).Receives arn req ↔
      req.params["TopicArn"]? = some s.topicArn ∧ store.topics.contains s.topicArn = true ∧
        req.params["Message"]?.isSome = true ∧ s.passes req.attributes = true := by
  rw [receives_iff]
  simp

end Insert

theorem setAttribute_topicArn (attrName attrValue : String) (s : Subscription) :
    (s.setAttribute fromStr attrName attrValue).topicArn = s.topicArn := by
  unfold Subscription.setAttribute
  split
  · rfl
  · split <;> rfl

theorem setAttribute_other {attrName : String} (other : attrName ≠ "FilterPolicy") (attrValue : String)
    (s : Subscription) : (s.setAttribute fromStr attrName attrValue).filterPolicy = s.filterPolicy := by
  simp only [Subscription.setAttribute, if_neg other]
  split <;> rfl

theorem setAttribute_policy (attrValue : String) (s : Subscription) :
    (s.setAttribute fromStr "FilterPolicy" attrValue).filterPolicy =
      FilterPolicy.fromJson fromStr attrValue := by
  rw [Subscription.setAttribute, if_neg (by decide), if_pos rfl]

/-- A subscription keeps to the policy it last accepted. -/
theorem Ledger.Restricted.step {l : Ledger} (restricted : l.Restricted fromStr) (params : Sqs.Params) :
    (l.step fromStr params).Restricted fromStr := by
  rcases l.step_cases fromStr params with
    ⟨same, -⟩ | ⟨arn, s, there, named, attrName, -, store, accepted⟩
  · rw [same]
    exact restricted
  · intro arn' text fp last reads req receives
    rw [store] at receives
    rw [accepted] at last
    by_cases here : arn' = arn
    · subst here
      rw [receives_insert_self, setAttribute_topicArn] at receives
      obtain ⟨topic, known, given, passes⟩ := receives
      rw [Subscription.passes] at passes
      by_cases policy : attrName = "FilterPolicy"
      · subst policy
        rw [if_pos rfl, StrMap.getElem?_insert, if_pos rfl] at last
        cases last
        rw [setAttribute_policy, reads] at passes
        exact (passes_iff_satisfied fp _).mp passes
      · rw [if_neg policy] at last
        rw [setAttribute_other policy] at passes
        refine restricted arn' text fp last reads req ?_
        exact receives_iff.mpr ⟨s, there, topic, known, given, passes⟩
    · rw [receives_insert_other here] at receives
      refine restricted arn' text fp ?_ reads req receives
      split at last
      · rwa [StrMap.getElem?_insert, if_neg (Ne.symm here)] at last
      · exact last

/-- A message without attributes. -/
def bareMessage (topicArn : String) : PublishRequest where
  accountId := ""
  region := ""
  params := ((∅ : StrMap String).insert "TopicArn" topicArn).insert "Message" ""
  messageId := ""
  timestamp := ""

theorem bareMessage_topicArn (topicArn : String) :
    (bareMessage topicArn).params["TopicArn"]? = some topicArn := by
  rw [bareMessage, StrMap.getElem?_insert, if_neg (by decide), StrMap.getElem?_insert, if_pos rfl]

theorem bareMessage_message (topicArn : String) :
    (bareMessage topicArn).params["Message"]?.isSome = true := by
  rw [bareMessage, StrMap.getElem?_insert, if_pos rfl]
  rfl

theorem bareMessage_attributes (topicArn : String) : (bareMessage topicArn).attributes = ∅ := by
  have first : Sqs.indexedParam (bareMessage topicArn).params "MessageAttributes.entry" 1 "Name" = none := by
    rw [Sqs.indexedParam, bareMessage, StrMap.getElem?_insert, if_neg (by decide), StrMap.getElem?_insert,
      if_neg (by decide), Std.ExtTreeMap.getElem?_empty]
  rw [PublishRequest.attributes, extractMessageAttributes, Sqs.indexed]
  cases (bareMessage topicArn).params.size with
  | zero => rfl
  | succ fuel => simp [Sqs.indexedFrom, first]

/-- A policy lets a message without attributes through exactly when it has no entries. -/
theorem passes_empty_iff (fp : FilterPolicy) : fp.passes ∅ = true ↔ fp.policy.toList = [] := by
  rw [FilterPolicy.passes]
  cases fp.policy.toList with
  | nil => simp
  | cons entry rest => simp

theorem passes_of_no_entries {fp : FilterPolicy} (empty : fp.policy.toList = [])
    (attributes : StrMap MessageAttribute) : fp.passes attributes = true := by
  rw [FilterPolicy.passes, empty]
  rfl

/-- A text that is no policy widens a subscription exactly when its policy excluded something. -/
theorem Ledger.notWidened_iff (l : Ledger) (params : Sqs.Params) :
    l.NotWidened fromStr params ↔ l.Harmless fromStr params := by
  rcases l.step_cases fromStr params with
    ⟨same, absent⟩ | ⟨arn, s, there, named, attrName, kind, store, -⟩
  · refine iff_of_true ?_ ?_
    · intro arn text _ _ req receives
      rwa [same] at receives
    · intro arn text s fp change _ there
      rw [absent arn text change] at there
      cases there
  by_cases policy : attrName = "FilterPolicy"
  · subst policy
    have change : policyChange params = some (arn, attributeValue params) := by
      rw [policyChange, kind, named]
      rfl
    simp only [NotWidened, Harmless, change, Option.some.injEq, Prod.mk.injEq, and_imp]
    cases reads : FilterPolicy.fromJson fromStr (attributeValue params) with
    | some fp =>
      refine iff_of_true ?_ ?_
      · rintro _ _ rfl rfl fails
        rw [reads] at fails
        cases fails
      · rintro _ _ _ _ rfl rfl fails
        rw [reads] at fails
        cases fails
    | none =>
      have open' : (s.setAttribute fromStr "FilterPolicy" (attributeValue params)).filterPolicy = none := by
        rw [setAttribute_policy, reads]
      have after : ∀ req, (l.step fromStr params).store.Receives arn req ↔
          req.params["TopicArn"]? = some s.topicArn ∧ l.store.topics.contains s.topicArn = true ∧
            req.params["Message"]?.isSome = true := by
        intro req
        rw [store, receives_insert_self, setAttribute_topicArn]
        simp [Subscription.passes, open']
      constructor
      · rintro narrow _ _ s' fp rfl rfl _ there' known some_policy
        rw [there] at there'
        cases there'
        have receives := narrow arn _ rfl rfl reads (bareMessage s.topicArn)
          ((after _).mpr ⟨bareMessage_topicArn _, known, bareMessage_message _⟩)
        obtain ⟨s', there', -, -, -, passes⟩ := receives_iff.mp receives
        rw [there] at there'
        cases there'
        rwa [Subscription.passes, some_policy, bareMessage_attributes, passes_empty_iff] at passes
      · rintro harmless _ _ rfl rfl _ req receives
        obtain ⟨topic, known, given⟩ := (after req).mp receives
        refine receives_iff.mpr ⟨s, there, topic, known, given, ?_⟩
        rw [Subscription.passes]
        cases some_policy : s.filterPolicy with
        | none => rfl
        | some fp => exact passes_of_no_entries (harmless arn _ s fp rfl rfl reads there known some_policy) _
  · have unchanged : policyChange params = none := by
      rw [policyChange, if_neg]
      rw [kind]
      simpa using policy
    refine iff_of_true ?_ ?_
    · intro arn text change
      rw [unchanged] at change
      cases change
    · intro arn text s fp change
      rw [unchanged] at change
      cases change

end Runs

/-- Along a run every subscription keeps to its last policy, and no text widens it, exactly when every text
that is no policy goes where there is nothing to widen. -/
theorem filter_policies_restrict_iff (fromStr : String → Option (StrMap (List Json))) (store : SnsStore)
    (requests : List Sqs.Params) :
    Run.AllStates (Ledger.step fromStr) (Ledger.Restricted fromStr) ⟨store, ∅⟩ requests ∧
        Run.AllSteps (Ledger.step fromStr) (Ledger.NotWidened fromStr) ⟨store, ∅⟩ requests ↔
      Run.AllSteps (Ledger.step fromStr) (Ledger.Harmless fromStr) ⟨store, ∅⟩ requests := by
  refine Run.allStates_and_allSteps_iff (F := fun _ _ => True) (fun l params restricted _ => ?_) _ requests ?_
    (Run.allSteps_of_forall (fun _ _ => trivial) _ requests)
  · rw [and_iff_right (restricted.step params)]
    exact l.notWidened_iff params
  · intro arn text fp last
    rw [Std.ExtTreeMap.getElem?_empty] at last
    cases last

/-- Reads one text as a policy. -/
def redOnly (text : String) : Option (StrMap (List Json)) :=
  if text = "\x7b\"color\":[\"red\"]\x7d" then some ((∅ : StrMap (List Json)).insert "color" [.str "red"])
  else none

def lampStore : SnsStore where
  topics := (∅ : StrMap Topic).insert "t" ⟨"t", "lamps"⟩
  subscriptions := (∅ : StrMap Subscription).insert "s" ⟨"s", "t", .sqs, "q", true, none⟩

def setPolicy (text : String) : Sqs.Params :=
  (((∅ : StrMap String).insert "SubscriptionArn" "s").insert "AttributeName" "FilterPolicy").insert
    "AttributeValue" text

/-- After a policy for red a text that is no policy lets a message without a colour through. -/
theorem broken_policy_widens : ¬ (
    Run.AllStates (Ledger.step redOnly) (Ledger.Restricted redOnly) ⟨lampStore, ∅⟩
      [setPolicy "\x7b\"color\":[\"red\"]\x7d", setPolicy "red"] ∧
    Run.AllSteps (Ledger.step redOnly) (Ledger.NotWidened redOnly) ⟨lampStore, ∅⟩
      [setPolicy "\x7b\"color\":[\"red\"]\x7d", setPolicy "red"]) := by
  rintro ⟨-, -, narrow, -⟩
  rw [Ledger.notWidened_iff] at narrow
  have entries := narrow "s" "red" _ _ rfl rfl rfl rfl rfl
  exact absurd entries (by decide +kernel)

end Openstack.Sns

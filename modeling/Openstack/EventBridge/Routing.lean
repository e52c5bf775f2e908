import Openstack.Framework.Dispatch

/-!
# EventBridge routing

`crates/services/eventbridge/src/provider.rs`, lines 78-222 and 543-650: event patterns, the targets
that an event goes to and the requests these lead to. The fresh event ids, the time, and the parser
and printer of `serde_json` are arguments. The requests are sent from tasks of their own, so their
order says nothing.
-/
namespace Openstack.EventBridge

/-- Zero prints with its sign, but the two zeros are equal. -/
def sameFloat (a b : String) : Bool := a == b || ["0.0", "-0.0"].contains a && ["0.0", "-0.0"].contains b

mutual

/-- `==` of `serde_json::Value`. -/
def sameValue : Json → Json → Bool
  | .null, .null => true
  | .bool a, .bool b => a == b
  | .posInt a, .posInt b => a == b
  | .negInt a, .negInt b => a == b
  | .float a, .float b => sameFloat a b
  | .str a, .str b => a == b
  | .arr a, .arr b => sameValues a b
  | .obj a, .obj b => sameFields a b
  | _, _ => false

def sameValues : List Json → List Json → Bool
  | [], [] => true
  | a :: as, b :: bs => sameValue a b && sameValues as bs
  | _, _ => false

def sameFields : List (String × Json) → List (String × Json) → Bool
  | [], [] => true
  | (k, a) :: as, (l, b) :: bs => k == l && sameValue a b && sameFields as bs
  | _, _ => false

end

/-- One alternative of a pattern array. A condition other than `prefix` and `exists` never holds. -/
def matchesAlternative (event alternative : Json) : Bool :=
  match alternative with
  | .obj condition =>
    match (condition.lookup "prefix").bind Json.asStr? with
    | some start => (event.asStr?.map fun s => RustStr.startsWith s start).getD false
    | none =>
      match (condition.lookup "exists").bind Json.asBool? with
      | some present => present != sameValue event .null
      | none => false
  | _ =>
    match event with
    | .arr elements => elements.any fun e => sameValue e alternative
    | _ => sameValue event alternative

mutual

def matchesValue (event : Json) : Json → Bool
  | .obj pattern =>
    match event with
    | .obj fields => matchesFields fields pattern
    | _ => false
  | .arr alternatives => alternatives.any (matchesAlternative event)
  | .null => sameValue event .null
  | .bool v => sameValue event (.bool v)
  | .posInt v => sameValue event (.posInt v)
  | .negInt v => sameValue event (.negInt v)
  | .float v => sameValue event (.float v)
  | .str v => sameValue event (.str v)

/-- Every field of the pattern; one that the event lacks is compared with `null`. -/
def matchesFields (fields : List (String × Json)) : List (String × Json) → Bool
  | [] => true
  | (key, pattern) :: rest =>
    matchesValue ((fields.lookup key).getD .null) pattern && matchesFields fields rest

end

/-- A rule without a pattern is a schedule, which no event matches. -/
def eventMatchesPattern (event : Json) : Option Json → Bool
  | none => false
  | some pattern => matchesValue event pattern

structure RuleTarget where
  id : String
  arn : String
  input : Option String

structure EventRule where
  name : String
  eventBusName : String
  eventPattern : Option Json
  state : String
  targets : StrMap RuleTarget

structure EventBridgeStore where
  rules : StrMap EventRule := ∅

/-- A PutEvents with the account and region it is made in. -/
structure PutEventsRequest where
  accountId : String
  region : String
  entries : List Json
  time : String

structure Codec where
  parse : String → Option Json
  print : Json → String

def busName (entry : Json) : String := ((entry.get? "EventBusName").bind Json.asStr?).getD "default"

def eventEnvelope (codec : Codec) (req : PutEventsRequest) (eventId : String) (entry : Json) : Json :=
  .obj [("account", .str req.accountId),
    ("detail", (((entry.get? "Detail").bind Json.asStr?).bind codec.parse).getD (.obj [])),
    ("detail-type", .str (((entry.get? "DetailType").bind Json.asStr?).getD "")),
    ("id", .str eventId), ("region", .str req.region),
    ("source", .str (((entry.get? "Source").bind Json.asStr?).getD "")), ("time", .str req.time),
    ("version", .str "0")]

/-- An enabled rule of the event's bus whose pattern matches. -/
def EventRule.fires (rule : EventRule) (bus : String) (envelope : Json) : Bool :=
  rule.state == "ENABLED" && rule.eventBusName == bus && eventMatchesPattern envelope rule.eventPattern

def RuleTarget.inputFor (codec : Codec) (target : RuleTarget) (envelope : Json) : Json :=
  match target.input with
  | some literal => (codec.parse literal).getD (.str literal)
  | none => envelope

/-- The targets of one entry, with what they are sent. -/
def entryTargets (codec : Codec) (store : EventBridgeStore) (req : PutEventsRequest) (eventId : String)
    (entry : Json) : List (String × Json) :=
  let envelope := eventEnvelope codec req eventId entry
  ((StrMap.values store.rules).filter (·.fires (busName entry) envelope)).flatMap fun rule =>
    (StrMap.values rule.targets).map fun target => (target.arn, target.inputFor codec envelope)

/-- `dispatch_targets`, over all entries and their event ids. -/
def dispatchTargets (codec : Codec) (store : EventBridgeStore) (req : PutEventsRequest)
    (eventIds : List String) : List (String × Json) :=
  (eventIds.zip req.entries).flatMap fun e => entryTargets codec store req e.1 e.2

/-- `dispatch_to_target`: the caller's account and region, whatever the ARN says. -/
def dispatchToTarget (codec : Codec) (targetArn accountId region : String) (input : Json) :
    Option SyntheticContext :=
  let parts := arnParts targetArn
  if parts.length < 6 then none
  else
    match parts[2]?.getD "" with
    | "sqs" =>
      some (sendMessageContext region accountId (parts.getLast?.getD "") (codec.print input))
    | "sns" => some
      { service := "sns", operation := "Publish", region := region, accountId := accountId
        method := "POST", path := "/"
        rawBody := "Action=Publish&TopicArn=" ++ urlEncode targetArn ++ "&Message=" ++
          urlEncode (codec.print input) }
    | "lambda" => some
      { service := "lambda", operation := "Invoke", region := region, accountId := accountId
        method := "POST", path := "/2015-03-31/functions/" ++ parts.getLast?.getD "" ++ "/invocations"
        rawBody := codec.print input }
    | _ => none

/-- The requests of a PutEvents. -/
def putEvents (codec : Codec) (store : EventBridgeStore) (req : PutEventsRequest)
    (eventIds : List String) : List SyntheticContext :=
  (dispatchTargets codec store req eventIds).filterMap fun target =>
    dispatchToTarget codec target.1 req.accountId req.region target.2

end Openstack.EventBridge

import Openstack.Framework.JsonService
import Openstack.Lib.PairMap
import Openstack.Lib.RustStr
import Openstack.Lib.StrMap

/-!
# CloudWatch Logs

`crates/services/cloudwatch/src/store.rs` and the log operations of `provider.rs`, lines 798-1180, for one
account and region. Groups, streams and events stand in three maps. The time of a request is an argument;
the tokens and the event ids, which are random, are left out of the answers.
-/
namespace Openstack.CloudWatch

open JsonService (strParam asI64?)

structure LogGroup where
  logGroupName : String
  retentionInDays : Option Nat
  createdAt : Int
  deriving DecidableEq, Repr

structure LogStream where
  logStreamName : String
  logGroupName : String
  createdAt : Int
  firstEventTimestamp : Option Int
  lastEventTimestamp : Option Int
  uploadSequenceToken : Nat
  deriving DecidableEq, Repr

structure LogEvent where
  timestamp : Int
  message : String
  ingestionTime : Int
  deriving DecidableEq, Repr

structure CloudWatchStore where
  logGroups : StrMap LogGroup := ∅
  logStreams : PairMap LogStream := ∅
  logEvents : PairMap (List LogEvent) := ∅

/-- What `FilterLogEvents` says of an event. -/
structure FilteredEvent where
  logStreamName : String
  event : LogEvent
  deriving DecidableEq, Repr

inductive Answer where
  | done
  | groups (gs : List LogGroup)
  | streams (ss : List LogStream)
  | events (es : List LogEvent)
  | filtered (es : List FilteredEvent)
  | error (code message : String) (status : Nat)
  | notImplemented (operation : String)
  deriving DecidableEq, Repr

/-- The request is answered with status 200. -/
def Answer.succeeds : Answer → Bool
  | .error _ _ _ | .notImplemented _ => false
  | _ => true

structure Act where
  operation : String
  body : Json
  now : Int

def required (key : String) : Answer := .error "ValidationError" (key ++ " is required") 400

def groupNotFound (name : String) : Answer :=
  .error "ResourceNotFoundException" ("Log group " ++ name ++ " not found") 404

def streamNotFound (name : String) : Answer :=
  .error "ResourceNotFoundException" ("Log stream " ++ name ++ " not found") 404

def alreadyExists (kind name : String) : Answer :=
  .error "ResourceAlreadyExistsException" (kind ++ " " ++ name ++ " already exists") 400

section Parameters

variable (act : Act)

def Act.group? : Option String := strParam act.body "logGroupName"

def Act.stream? : Option String := strParam act.body "logStreamName"

/-- `as_u64` and the cast to `u32`. -/
def Act.retention : Option Nat :=
  ((act.body.get? "retentionInDays").bind Json.asU64?).map (· % 4294967296)

/-- `filterPattern`; the empty one takes every message. -/
def Act.filterPattern : String := (strParam act.body "filterPattern").getD ""

/-- A missing time is the time of the request, a missing message the empty one. -/
def Act.logEvent (e : Json) : LogEvent where
  timestamp := ((e.get? "timestamp").bind asI64?).getD act.now
  message := ((e.get? "message").bind Json.asStr?).getD ""
  ingestionTime := act.now

/-- `logEvents`, where it is an array. -/
def Act.logEvents? : Option (List LogEvent) :=
  ((act.body.get? "logEvents").bind Json.asArray?).map fun es => es.map act.logEvent

end Parameters

section Operations

variable (act : Act) (store : CloudWatchStore)

def newGroup (name : String) : LogGroup where
  logGroupName := name
  retentionInDays := act.retention
  createdAt := act.now

def createLogGroup : Answer × CloudWatchStore :=
  match act.group? with
  | none => (required "logGroupName", store)
  | some name =>
    if store.logGroups.contains name then (alreadyExists "Log group" name, store)
    else (.done, { store with logGroups := store.logGroups.insert name (newGroup act name) })

/-- The group with its streams and their events. -/
def CloudWatchStore.removeGroup (name : String) : CloudWatchStore where
  logGroups := store.logGroups.erase name
  logStreams := store.logStreams.retain fun k => k.1 ≠ name
  logEvents := store.logEvents.retain fun k => k.1 ≠ name

def deleteLogGroup : Answer × CloudWatchStore :=
  match act.group? with
  | none => (required "logGroupName", store)
  | some name =>
    if store.logGroups.contains name then (.done, store.removeGroup name)
    else (groupNotFound name, store)

def describeLogGroups : Answer :=
  .groups ((StrMap.values store.logGroups).filter fun g =>
    match strParam act.body "logGroupNamePrefix" with
    | none => true
    | some start => RustStr.startsWith g.logGroupName start)

def newStream (group stream : String) : LogStream where
  logStreamName := stream
  logGroupName := group
  createdAt := act.now
  firstEventTimestamp := none
  lastEventTimestamp := none
  uploadSequenceToken := 0

def createLogStream : Answer × CloudWatchStore :=
  match act.group?, act.stream? with
  | none, _ => (required "logGroupName", store)
  | some _, none => (required "logStreamName", store)
  | some group, some stream =>
    if store.logGroups.contains group then
      if store.logStreams.contains (group, stream) then (alreadyExists "Log stream" stream, store)
      else
        (.done,
          { store with
            logStreams := store.logStreams.insert (group, stream) (newStream act group stream) })
    else (groupNotFound group, store)

/-- The bookkeeping of a stream, after events were added. -/
def LogStream.received (s : LogStream) (es : List LogEvent) : LogStream :=
  { s with
    uploadSequenceToken := s.uploadSequenceToken + 1
    firstEventTimestamp := s.firstEventTimestamp.or (es.head?.map (·.timestamp))
    lastEventTimestamp := es.getLast?.map (·.timestamp) }

/-- `entry(key).or_default().extend(events)`. -/
def CloudWatchStore.append (k : String × String) (s : LogStream) (es : List LogEvent) :
    CloudWatchStore :=
  { store with
    logEvents := store.logEvents.insert k ((store.logEvents[k]?.getD []) ++ es)
    logStreams := store.logStreams.insert k (s.received es) }

def putLogEvents : Answer × CloudWatchStore :=
  match act.group?, act.stream? with
  | none, _ => (required "logGroupName", store)
  | some _, none => (required "logStreamName", store)
  | some group, some stream =>
    match store.logStreams[(group, stream)]? with
    | none => (streamNotFound stream, store)
    | some s =>
      match act.logEvents? with
      | none => (.done, store)
      | some es => (.done, store.append (group, stream) s es)

def getLogEvents : Answer :=
  match act.group?, act.stream? with
  | none, _ => required "logGroupName"
  | some _, none => required "logStreamName"
  | some group, some stream => .events (store.logEvents[(group, stream)]?.getD [])

/-- The events of one entry of the map that the filter lets through. -/
def filterEntry (pattern : String) (entry : (String × String) × List LogEvent) : List FilteredEvent :=
  (entry.2.filter fun e => pattern.isEmpty || RustStr.contains e.message.toList pattern.toList).map
    fun e => ⟨entry.1.2, e⟩

def filterLogEvents : Answer :=
  match act.group? with
  | none => required "logGroupName"
  | some group =>
    .filtered ((store.logEvents.toList.filter (·.1.1 = group)).flatMap (filterEntry act.filterPattern))

def describeLogStreams : Answer :=
  match act.group? with
  | none => required "logGroupName"
  | some group =>
    .streams ((store.logStreams.toList.map Prod.snd).filter fun s => s.logGroupName = group &&
      match strParam act.body "logStreamNamePrefix" with
      | none => true
      | some start => RustStr.startsWith s.logStreamName start)

def putRetentionPolicy : Answer × CloudWatchStore :=
  match act.group? with
  | none => (required "logGroupName", store)
  | some name =>
    match store.logGroups[name]? with
    | none => (groupNotFound name, store)
    | some g =>
      (.done,
        { store with logGroups := store.logGroups.insert name { g with retentionInDays := act.retention } })

def dispatch : Answer × CloudWatchStore :=
  match act.operation with
  | "CreateLogGroup" => createLogGroup act store
  | "DeleteLogGroup" => deleteLogGroup act store
  | "DescribeLogGroups" => (describeLogGroups act store, store)
  | "CreateLogStream" => createLogStream act store
  | "DescribeLogStreams" => (describeLogStreams act store, store)
  | "PutLogEvents" => putLogEvents act store
  | "GetLogEvents" => (getLogEvents act store, store)
  | "FilterLogEvents" => (filterLogEvents act store, store)
  | "PutRetentionPolicy" => putRetentionPolicy act store
  | operation => (.notImplemented operation, store)

end Operations

end Openstack.CloudWatch

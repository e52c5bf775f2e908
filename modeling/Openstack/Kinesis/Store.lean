import Openstack.Lib.Json
import Openstack.Lib.RustFmt
import Openstack.Lib.StrMap

/-!
# Streams and shards

`crates/services/kinesis/src/store.rs` and the operations of `provider.rs` that create streams, put
records and reshard (lines 119-152, 391-506 and 680-788), for one account and region. An operation
holds the lock of the store from its first look to its end. The store of an account that has none
behaves like an empty one. Counters are `Nat`, and answers are values, not JSON text.
-/
namespace Openstack.Kinesis

abbrev Instant := Int

structure KinesisRecord where
  sequenceNumber : String
  partitionKey : String
  data : String
  approximateArrivalTimestamp : Instant
  deriving DecidableEq, Repr

structure Shard where
  shardId : String
  records : List KinesisRecord := []
  sequenceCounter : Nat := 0
  isOpen : Bool := true
  parentShardId : Option String := none
  adjacentParentShardId : Option String := none
  deriving DecidableEq, Repr

structure KinesisStream where
  streamName : String
  shardCount : Nat
  shards : List Shard
  shardIdCounter : Nat
  deriving DecidableEq, Repr

structure KinesisStore where
  streams : StrMap KinesisStream := ∅

def shardId (n : Nat) : String := "shardId-" ++ RustFmt.dec 12 n

/-- `KinesisStream::new`. -/
def KinesisStream.new (streamName : String) (shardCount : Nat) : KinesisStream where
  streamName := streamName
  shardCount := shardCount
  shards := (List.range shardCount).map fun i => { shardId := shardId i }
  shardIdCounter := shardCount

inductive Answer where
  | done
  | put (shardId sequenceNumber : String)
  | puts (results : List (String × String))
  | iterator (token : String)
  | records (records : List KinesisRecord) (nextShardIterator : String)
  | error (code message : String)
  /-- The remainder by zero in `PutRecords`. -/
  | panicked
  deriving DecidableEq, Repr

def validation (message : String) : Answer := .error "ValidationException" message

def notFound (message : String) : Answer := .error "ResourceNotFoundException" message

/-- `str_param`. -/
def strParam (body : Json) (key : String) : Option String := (body.get? key).bind Json.asStr?

structure Env where
  accountId : String
  region : String
  /-- `hash_string`. -/
  hashString : String → Nat

section Operations

variable (env : Env) (store : KinesisStore)

def createStream (body : Json) : Answer × KinesisStore :=
  match strParam body "StreamName" with
  | none => (validation "StreamName is required", store)
  | some streamName =>
    let shardCount := ((body.get? "ShardCount").bind Json.asU64?).getD 1
    if store.streams.contains streamName then
      (.error "ResourceInUseException" ("Stream " ++ streamName ++ " already exists"), store)
    else
      (.done, { streams := store.streams.insert streamName (KinesisStream.new streamName shardCount) })

/-- `next_sequence_number` and the record under it. -/
def Shard.push (shard : Shard) (partitionKey data : String) (now : Instant) : Shard :=
  let counter := shard.sequenceCounter + 1
  { shard with
    sequenceCounter := counter
    records := shard.records ++ [⟨RustFmt.dec 49 counter, partitionKey, data, now⟩] }

/-- `hash_string(partition_key) % shard_count`, over all shards of the stream. -/
def KinesisStream.shardIndex (stream : KinesisStream) (partitionKey : String) : Nat :=
  env.hashString partitionKey % stream.shards.length

/-- Shard id and sequence number of the next record with this key, and the stream with it. -/
def KinesisStream.push (stream : KinesisStream) (partitionKey data : String) (now : Instant) :
    (String × String) × KinesisStream :=
  let index := stream.shardIndex env partitionKey
  let shard := stream.shards.getD index { shardId := "" }
  ((shard.shardId, RustFmt.dec 49 (shard.sequenceCounter + 1)),
    { stream with shards := stream.shards.modify index fun s => s.push partitionKey data now })

/-- Partition key and data in `PutRecord` and in one entry of `PutRecords`. -/
def recordEntry (record : Json) : String × String :=
  ((strParam record "PartitionKey").getD "", (strParam record "Data").getD "")

def putRecord (body : Json) (now : Instant) : Answer × KinesisStore :=
  match strParam body "StreamName" with
  | none => (validation "StreamName is required", store)
  | some streamName =>
    let (partitionKey, data) := recordEntry body
    match store.streams[streamName]? with
    | none =>
      (notFound ("Stream arn arn:aws:kinesis:" ++ env.region ++ ":" ++ env.accountId ++ ":stream/" ++
        streamName ++ " not found"), store)
    | some stream =>
      if stream.shards.length = 0 then (notFound "No shards available", store)
      else
        let (result, stream) := stream.push env partitionKey data now
        (.put result.1 result.2, { streams := store.streams.insert streamName stream })

/-- The loop of `PutRecords`. -/
def pushAll (now : Instant) : List (String × String) → KinesisStream → List (String × String) × KinesisStream
  | [], stream => ([], stream)
  | entry :: rest, stream =>
    let (result, stream) := stream.push env entry.1 entry.2 now
    let (results, stream) := pushAll now rest stream
    (result :: results, stream)

def putRecords (body : Json) (now : Instant) : Answer × KinesisStore :=
  match strParam body "StreamName" with
  | none => (validation "StreamName is required", store)
  | some streamName =>
    match (body.get? "Records").bind Json.asArray? with
    | none => (validation "Records is required", store)
    | some records =>
      match store.streams[streamName]? with
      | none => (notFound ("Stream " ++ streamName ++ " not found"), store)
      | some stream =>
        if stream.shards.length = 0 ∧ records ≠ [] then (.panicked, store)
        else
          let (results, stream) := pushAll env now (records.map recordEntry) stream
          (.puts results, { streams := store.streams.insert streamName stream })

def openShardCount (shards : List Shard) : Nat := (shards.filter (·.isOpen)).length

/-- New shards at the end of the stream. -/
def KinesisStream.addShards (stream : KinesisStream) (shards : List Shard) (children : List Shard) :
    KinesisStream :=
  { stream with
    shards := shards ++ children
    shardIdCounter := stream.shardIdCounter + children.length
    shardCount := openShardCount (shards ++ children) }

def Shard.close (shard : Shard) : Shard := { shard with isOpen := false }

def KinesisStream.split (stream : KinesisStream) (index : Nat) (parent : String) : KinesisStream :=
  let counter := stream.shardIdCounter
  stream.addShards (stream.shards.modify index Shard.close)
    [{ shardId := shardId counter, parentShardId := some parent },
      { shardId := shardId (counter + 1), parentShardId := some parent }]

def splitShard (body : Json) : Answer × KinesisStore :=
  match strParam body "StreamName" with
  | none => (validation "StreamName is required", store)
  | some streamName =>
    match strParam body "ShardToSplit" with
    | none => (validation "ShardToSplit is required", store)
    | some parent =>
      match store.streams[streamName]? with
      | none => (notFound ("Stream " ++ streamName ++ " not found"), store)
      | some stream =>
        match stream.shards.findIdx? (·.shardId = parent) with
        | none => (notFound ("Shard " ++ parent ++ " not found"), store)
        | some index =>
          (.done, { streams := store.streams.insert streamName (stream.split index parent) })

def KinesisStream.merge (stream : KinesisStream) (shardToMerge adjacentShard : String) : KinesisStream :=
  stream.addShards
    (stream.shards.map fun shard =>
      if shard.shardId = shardToMerge ∨ shard.shardId = adjacentShard then shard.close else shard)
    [{ shardId := shardId stream.shardIdCounter
       parentShardId := some shardToMerge
       adjacentParentShardId := some adjacentShard }]

def mergeShards (body : Json) : Answer × KinesisStore :=
  match strParam body "StreamName" with
  | none => (validation "StreamName is required", store)
  | some streamName =>
    let shardToMerge := (strParam body "ShardToMerge").getD ""
    let adjacentShard := (strParam body "AdjacentShardToMerge").getD ""
    match store.streams[streamName]? with
    | none => (notFound ("Stream " ++ streamName ++ " not found"), store)
    | some stream =>
      (.done, { streams := store.streams.insert streamName (stream.merge shardToMerge adjacentShard) })

end Operations

inductive Operation where
  | createStream
  | putRecord
  | putRecords
  | splitShard
  | mergeShards
  deriving DecidableEq, Repr

structure Act where
  operation : Operation
  body : Json
  now : Instant := 0

def Act.streamName (act : Act) : Option String := strParam act.body "StreamName"

/-- Partition keys and data of the records that the act puts. -/
def Act.entries (act : Act) : List (String × String) :=
  match act.operation with
  | .putRecord => [recordEntry act.body]
  | .putRecords => (((act.body.get? "Records").bind Json.asArray?).getD []).map recordEntry
  | .createStream | .splitShard | .mergeShards => []

def Act.reshards (act : Act) : Bool :=
  match act.operation with
  | .splitShard | .mergeShards => true
  | .createStream | .putRecord | .putRecords => false

def dispatch (env : Env) (store : KinesisStore) (act : Act) : Answer × KinesisStore :=
  match act.operation with
  | .createStream => createStream store act.body
  | .putRecord => putRecord env store act.body act.now
  | .putRecords => putRecords env store act.body act.now
  | .splitShard => splitShard store act.body
  | .mergeShards => mergeShards store act.body

def step (env : Env) (store : KinesisStore) (act : Act) : KinesisStore := (dispatch env store act).2

end Openstack.Kinesis

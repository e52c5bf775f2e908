import Openstack.Kinesis.ShardRuns
import Openstack.Lib.SipHash
import Openstack.Lib.Base64
import Openstack.Lib.JsonText
import Openstack.Lib.Utf8

/-!
# Reading a shard

`GetShardIterator` and `GetRecords` of `crates/services/kinesis/src/provider.rs`, lines 68-75 and
508-675, and a reader that follows the iterators. An iterator is the JSON text of a position in base64.
How `serde_json` reads a text that the provider has not printed is a parameter.
-/
namespace Openstack.Kinesis

variable {sys : KinesisStore × Reader} {shard : Shard}

structure ShardIteratorState where
  streamName : String
  shardId : String
  nextIndex : Nat
  deriving DecidableEq, Repr

open JsonText (printString readString)

def printField (name : String) (value rest : List Char) : List Char :=
  printString name.toList ++ ':' :: (value ++ rest)

/-- `serde_json::to_string`. -/
def ShardIteratorState.text (state : ShardIteratorState) : List Char :=
  Char.ofNat 123 :: printField "stream_name" (printString state.streamName.toList)
    (',' :: printField "shard_id" (printString state.shardId.toList)
      (',' :: printField "next_index" (Nat.toDigits 10 state.nextIndex) [Char.ofNat 125]))

def encodeIterator (state : ShardIteratorState) : String :=
  String.ofList (Base64.encode (String.ofList state.text).toUTF8.data.toList)

def expect (c : Char) (s : List Char) : Option (List Char) :=
  if s.head? = some c then some (s.drop 1) else none

/-- The name of a field and the colon. -/
def expectField (name : String) (s : List Char) : Option (List Char) := do
  let (key, rest) ← readString s
  if key = name.toList then expect ':' rest else none

/-- A number in the digits that it is printed with. -/
def readNumber (s : List Char) : Option (Nat × List Char) :=
  let digits := s.takeWhile Char.isDigit
  let n := RustFmt.digitsValue digits
  if digits = Nat.toDigits 10 n then some (n, s.dropWhile Char.isDigit) else none

/-- A text in the form that `text` prints. -/
def readState (s : List Char) : Option ShardIteratorState := do
  let s ← expect (Char.ofNat 123) s
  let s ← expectField "stream_name" s
  let (streamName, s) ← readString s
  let s ← expect ',' s
  let s ← expectField "shard_id" s
  let (shardId, s) ← readString s
  let s ← expect ',' s
  let s ← expectField "next_index" s
  let (nextIndex, s) ← readNumber s
  let s ← expect (Char.ofNat 125) s
  if s = [] then some ⟨String.ofList streamName, String.ofList shardId, nextIndex⟩ else none

/-- `foreign` is what `serde_json::from_slice` reads where no printed state stands. -/
def decodeIterator (foreign : List UInt8 → Option ShardIteratorState) (token : String) :
    Option ShardIteratorState :=
  (Base64.decode token.toList).bind fun bytes =>
    (((String.fromUTF8? ⟨bytes.toArray⟩).bind fun text => readState text.toList)).or (foreign bytes)

inductive ShardIteratorType where
  | trimHorizon
  | latest
  | atSequenceNumber
  | afterSequenceNumber
  | atTimestamp
  deriving DecidableEq, Repr

def ShardIteratorType.parse (s : String) : ShardIteratorType :=
  if s = "LATEST" then .latest
  else if s = "AT_SEQUENCE_NUMBER" then .atSequenceNumber
  else if s = "AFTER_SEQUENCE_NUMBER" then .afterSequenceNumber
  else if s = "AT_TIMESTAMP" then .atTimestamp
  else .trimHorizon

def Shard.startIndex (shard : Shard) (startingSequence : String) : ShardIteratorType → Nat
  | .trimHorizon | .atTimestamp => 0
  | .latest => shard.records.length
  | .atSequenceNumber =>
    (shard.records.findIdx? (·.sequenceNumber = startingSequence)).getD shard.records.length
  | .afterSequenceNumber =>
    ((shard.records.findIdx? (·.sequenceNumber = startingSequence)).map (· + 1)).getD
      shard.records.length

/-- The shard with this id. -/
def KinesisStream.shard? (stream : KinesisStream) (id : String) : Option Shard :=
  stream.shards.find? (·.shardId = id)

def getShardIterator (store : KinesisStore) (body : Json) : Answer :=
  match strParam body "StreamName" with
  | none => validation "StreamName is required"
  | some streamName =>
    match strParam body "ShardId" with
    | none => validation "ShardId is required"
    | some id =>
      let iteratorType :=
        ShardIteratorType.parse ((strParam body "ShardIteratorType").getD "TRIM_HORIZON")
      let startingSequence := (strParam body "StartingSequenceNumber").getD ""
      match store.streams[streamName]? with
      | none => notFound ("Stream " ++ streamName ++ " not found")
      | some stream =>
        match stream.shard? id with
        | none => notFound ("Shard " ++ id ++ " not found")
        | some shard =>
          .iterator (encodeIterator ⟨streamName, id, shard.startIndex startingSequence iteratorType⟩)

def getRecords (foreign : List UInt8 → Option ShardIteratorState) (store : KinesisStore) (body : Json) :
    Answer :=
  match strParam body "ShardIterator" with
  | none => validation "ShardIterator is required"
  | some token =>
    let limit := ((body.get? "Limit").bind Json.asU64?).getD 10000
    match decodeIterator foreign token with
    | none => .error "InvalidArgumentException" "Invalid ShardIterator"
    | some state =>
      match store.streams[state.streamName]? with
      | none => notFound ("Stream " ++ state.streamName ++ " not found")
      | some stream =>
        match stream.shard? state.shardId with
        | none => notFound ("Shard " ++ state.shardId ++ " not found")
        | some shard =>
          let records := (shard.records.drop state.nextIndex).take limit
          .records records (encodeIterator { state with nextIndex := state.nextIndex + records.length })

/-- The iterator that comes next, and the records so far. -/
structure Reader where
  token : String
  got : List KinesisRecord := []

inductive Event where
  | act (act : Act)
  | read (limit : Nat)

def trimHorizonBody (streamName id : String) : Json :=
  .obj [("ShardId", .str id), ("ShardIteratorType", .str "TRIM_HORIZON"), ("StreamName", .str streamName)]

def readBody (token : String) (limit : Nat) : Json :=
  .obj [("Limit", .posInt limit), ("ShardIterator", .str token)]

section Reading

variable (env : Env) (foreign : List UInt8 → Option ShardIteratorState)

def readerStep (sys : KinesisStore × Reader) : Event → KinesisStore × Reader
  | .act act => (step env sys.1 act, sys.2)
  | .read limit =>
    match getRecords foreign sys.1 (readBody sys.2.token limit) with
    | .records records next => (sys.1, ⟨next, sys.2.got ++ records⟩)
    | _ => sys

/-- The reader has the first records of the shard, and any read gives the ones that follow. -/
def ReadsOn (streamName id : String) (sys : KinesisStore × Reader) : Prop :=
  ∃ stream shard, sys.1.streams[streamName]? = some stream ∧ stream.shard? id = some shard ∧
    sys.2.got <+: shard.records ∧
    ∀ limit, ∃ next, getRecords foreign sys.1 (readBody sys.2.token limit) =
      .records ((shard.records.drop sys.2.got.length).take limit) next

end Reading

theorem expect_cons (c : Char) (s : List Char) : expect c (c :: s) = some s := by
  simp [expect]

theorem expectField_print (name : String) (rest : List Char) :
    expectField name (printString name.toList ++ ':' :: rest) = some rest := by
  rw [expectField, JsonText.readString_printString, Option.bind_eq_bind, Option.bind_some]
  dsimp only
  rw [if_pos rfl, expect_cons]

theorem readNumber_toDigits (n : Nat) {c : Char} (rest : List Char) (stops : c.isDigit = false) :
    readNumber (Nat.toDigits 10 n ++ c :: rest) = some (n, c :: rest) := by
  have digits : ∀ d ∈ Nat.toDigits 10 n, d.isDigit = true := fun d member =>
    Nat.isDigit_of_mem_toDigits (by decide) (by decide) member
  have front : (Nat.toDigits 10 n ++ c :: rest).takeWhile Char.isDigit = Nat.toDigits 10 n := by
    rw [List.takeWhile_append_of_pos digits, List.takeWhile_cons_of_neg (by simp [stops]),
      List.append_nil]
  have back : (Nat.toDigits 10 n ++ c :: rest).dropWhile Char.isDigit = c :: rest := by
    rw [List.dropWhile_append_of_pos digits, List.dropWhile_cons_of_neg (by simp [stops])]
  rw [readNumber, front, back, RustFmt.digitsValue_toDigits, if_pos rfl]

theorem readState_text (state : ShardIteratorState) : readState state.text = some state := by
  have stops : (Char.ofNat 125).isDigit = false := by decide
  simp only [readState, ShardIteratorState.text, printField, expect_cons, expectField_print,
    JsonText.readString_printString, readNumber_toDigits state.nextIndex [] stops,
    Option.bind_eq_bind, Option.bind_some, if_true, String.ofList_toList]

theorem decodeIterator_encodeIterator (foreign : List UInt8 → Option ShardIteratorState)
    (state : ShardIteratorState) : decodeIterator foreign (encodeIterator state) = some state := by
  rw [decodeIterator, encodeIterator, String.toList_ofList, Base64.decode_encode, Option.bind_some,
    Utf8.fromUTF8?_toUTF8, Option.bind_some, String.toList_ofList, readState_text, Option.some_or]

theorem find?_of_grows {id : String} {l front : List Shard}
    (grows : List.Forall₂ Shard.Grows l front) (children : List Shard)
    (found : l.find? (·.shardId = id) = some shard) :
    ∃ shard', (front ++ children).find? (·.shardId = id) = some shard' ∧ shard.Grows shard' := by
  induction grows with
  | nil => cases found
  | @cons a b rest front here _ ih =>
    rw [List.find?_cons] at found
    rw [List.cons_append, List.find?_cons, here.shardId]
    by_cases named : a.shardId = id
    · rw [decide_eq_true named] at found ⊢
      cases found
      exact ⟨b, rfl, here⟩
    · rw [decide_eq_false named] at found ⊢
      exact ih found

theorem KinesisStream.Grows.shard? {old new : KinesisStream} (grows : old.Grows new) {id : String}
     (found : old.shard? id = some shard) :
    ∃ shard', new.shard? id = some shard' ∧ shard.Grows shard' := by
  obtain ⟨front, children, shards, kept⟩ := grows
  rw [KinesisStream.shard?, shards]
  exact find?_of_grows kept children found

section Following

variable {env : Env} {foreign : List UInt8 → Option ShardIteratorState} {streamName id : String}

/-- The iterator stands behind the records that the reader has. -/
def Follows (streamName id : String) (sys : KinesisStore × Reader) : Prop :=
  ∃ stream shard, sys.1.streams[streamName]? = some stream ∧ stream.shard? id = some shard ∧
    sys.2.got <+: shard.records ∧ sys.2.token = encodeIterator ⟨streamName, id, sys.2.got.length⟩

/-- What a read gives at an iterator of the provider. -/
theorem getRecords_eq {store : KinesisStore} {stream : KinesisStream}
    (stored : store.streams[streamName]? = some stream) (found : stream.shard? id = some shard) (index limit : Nat) :
    getRecords foreign store (readBody (encodeIterator ⟨streamName, id, index⟩) limit) =
      .records ((shard.records.drop index).take limit)
        (encodeIterator ⟨streamName, id, index + ((shard.records.drop index).take limit).length⟩) := by
  have token (t : String) : strParam (readBody t limit) "ShardIterator" = some t := rfl
  have bound (t : String) : (((readBody t limit).get? "Limit").bind Json.asU64?).getD 10000 = limit := rfl
  simp only [getRecords, token, bound, decodeIterator_encodeIterator, stored, found]

theorem Follows.readsOn (follows : Follows streamName id sys) :
    ReadsOn foreign streamName id sys := by
  obtain ⟨stream, shard, stored, found, got, token⟩ := follows
  refine ⟨stream, shard, stored, found, got, fun limit => ?_⟩
  rw [token]
  exact ⟨_, getRecords_eq stored found _ limit⟩

theorem Follows.act (follows : Follows streamName id sys) (act : Act) :
    Follows streamName id (readerStep env foreign sys (.act act)) := by
  obtain ⟨stream, shard, stored, found, got, token⟩ := follows
  obtain ⟨stream', stored', grows⟩ := grows_step env sys.1 act streamName stream stored
  obtain ⟨shard', found', further⟩ := grows.shard? found
  exact ⟨stream', shard', stored', found', got.trans further.records, token⟩

theorem Follows.read (follows : Follows streamName id sys) (limit : Nat) :
    Follows streamName id (readerStep env foreign sys (.read limit)) := by
  obtain ⟨stream, shard, stored, found, ⟨rest, records⟩, token⟩ := follows
  have here : shard.records.drop sys.2.got.length = rest := by rw [← records, List.drop_left]
  rw [readerStep, token, getRecords_eq stored found]
  refine ⟨stream, shard, stored, found, ?_, ?_⟩
  · rw [here, ← records]
    exact List.prefix_append_right_inj _ |>.mpr (List.take_prefix limit rest)
  · rw [List.length_append]

theorem follows_run (follows : Follows streamName id sys)
    (events : List Event) : Run.AllStates (readerStep env foreign) (Follows streamName id) sys events := by
  refine Run.allStates_of_preserved (fun sys event follows => ?_) sys events follows
  cases event with
  | act act => exact follows.act act
  | read limit => exact follows.read limit

/-- An iterator from the start of a shard. -/
theorem follows_trimHorizon {store : KinesisStore} {token : String}
    (given : getShardIterator store (trimHorizonBody streamName id) = .iterator token) :
    Follows streamName id (store, ⟨token, []⟩) := by
  have name : strParam (trimHorizonBody streamName id) "StreamName" = some streamName := rfl
  have shardId : strParam (trimHorizonBody streamName id) "ShardId" = some id := rfl
  have type : strParam (trimHorizonBody streamName id) "ShardIteratorType" = some "TRIM_HORIZON" := rfl
  have start : ShardIteratorType.parse "TRIM_HORIZON" = .trimHorizon := by decide
  simp only [getShardIterator, name, shardId, type, Option.getD_some, start] at given
  split at given
  · cases given
  · next stream stored =>
    split at given
    · cases given
    · next shard found =>
      rw [Answer.iterator.injEq] at given
      subst given
      exact ⟨stream, shard, stored, found, List.nil_prefix, rfl⟩

end Following

/-- Shard ids are distinct and sequence numbers increase, a reader that starts at the horizon always has
a prefix of the shard's records and reads on from there, and iterators are read back. -/
theorem shards_read_exactly_once (env : Env) (foreign : List UInt8 → Option ShardIteratorState) :
    (∀ acts, Run.AllStates (step env) (fun store => ∀ (name : String) stream,
      store.streams[name]? = some stream → (stream.shards.map (·.shardId)).Nodup ∧
        ∀ shard ∈ stream.shards, (shard.records.map (·.number)).Pairwise (· < ·)) {} acts) ∧
    (∀ (acts : List Act) streamName id token, getShardIterator (acts.foldl (step env) {})
      (trimHorizonBody streamName id) = .iterator token → ∀ events, Run.AllStates (readerStep env foreign)
        (ReadsOn foreign streamName id) (acts.foldl (step env) {}, ⟨token, []⟩) events) ∧
    (∀ state, decodeIterator foreign (encodeIterator state) = some state) := by
  refine ⟨fun acts => ?_, fun acts streamName id token given events => ?_,
    decodeIterator_encodeIterator foreign⟩
  · refine (wellFormed_run env acts).imp (fun store wf name stream stored => ?_) _ acts
    exact ⟨(wf name stream stored).nodup,
      fun shard member => ((wf name stream stored).numbered shard member).increasing⟩
  · exact (follows_run (follows_trimHorizon given) events).imp (fun _ follows => follows.readsOn) _ events

def localEnv : Env := ⟨"000000000000", "us-east-1", SipHash.hashString⟩

def createOrders : Act := ⟨.createStream, .obj [("StreamName", .str "orders")], 0⟩

def putOrder (data : String) : Act :=
  ⟨.putRecord, .obj [("Data", .str data), ("PartitionKey", .str "a"), ("StreamName", .str "orders")], 0⟩

theorem orders_read_on : ∃ token,
    getShardIterator ([createOrders, putOrder "MQ=="].foldl (step localEnv) {})
      (trimHorizonBody "orders" "shardId-000000000000") = .iterator token ∧
    Run.AllStates (readerStep localEnv fun _ => none)
      (ReadsOn (fun _ => none) "orders" "shardId-000000000000")
      ([createOrders, putOrder "MQ=="].foldl (step localEnv) {}, ⟨token, []⟩)
      [.read 1, .act (putOrder "Mg=="), .read 10] := by
  have given : getShardIterator ([createOrders, putOrder "MQ=="].foldl (step localEnv) {})
      (trimHorizonBody "orders" "shardId-000000000000") =
        .iterator (encodeIterator ⟨"orders", "shardId-000000000000", 0⟩) := by decide +kernel
  exact ⟨_, given, (shards_read_exactly_once localEnv fun _ => none).2.1 _ _ _ _ given _⟩

end Openstack.Kinesis

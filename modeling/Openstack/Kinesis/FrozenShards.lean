import Openstack.Kinesis.ShardRuns
import Openstack.Lib.SipHash

/-!
# Closed shards

Where records go along a run: `PutRecord` and `PutRecords` take the shard at the hash of the partition
key modulo the number of all shards, `SplitShard` and `MergeShards` close shards and leave them in the
list.
-/
namespace Openstack.Kinesis

/-- The ids of the shards that an answer names for accepted records. -/
def acceptedShards : Answer → List String
  | .put shardId _ => [shardId]
  | .puts results => results.map Prod.fst
  | _ => []

section Statement

variable (env : Env) (acts : List Act)

/-- The store after a part of the run. -/
def after : KinesisStore := acts.foldl (step env) {}

/-- The shard in this place of the stream is closed and holds these records. -/
def ClosedWith (name : String) (index : Nat) (records : List KinesisRecord) (store : KinesisStore) : Prop :=
  ∃ stream shard, store.streams[name]? = some stream ∧ stream.shards[index]? = some shard ∧
    shard.isOpen = false ∧ shard.records = records

/-- The shard with this id is open. -/
def OpenShard (store : KinesisStore) (name id : String) : Prop :=
  ∃ stream shard, store.streams[name]? = some stream ∧ shard ∈ stream.shards ∧ shard.shardId = id ∧
    shard.isOpen = true

/-- Keys and shard ids of the records that the act puts. -/
def placements (store : KinesisStore) (act : Act) : List (String × String) :=
  (act.entries.map Prod.fst).zip (acceptedShards (dispatch env store act).1)

structure FrozenRun : Prop where
  frozen : ∀ before rest, acts = before ++ rest → ∀ name index records,
    ClosedWith name index records (after env before) → ClosedWith name index records (after env acts)
  acceptedOpen : ∀ before act rest, acts = before ++ act :: rest →
    ∀ id ∈ acceptedShards (dispatch env (after env before) act).1,
      ∃ name, act.streamName = some name ∧ OpenShard (after env before) name id
  /-- Two records with one key, in one request or in two with no resharding of the stream between. -/
  keysTogether : ∀ before act rest, acts = before ++ act :: rest → ∀ key id,
    (key, id) ∈ placements env (after env before) act →
    (∀ id', (key, id') ∈ placements env (after env before) act → id' = id) ∧
    ∀ during act' rest', rest = during ++ act' :: rest' → act'.streamName = act.streamName →
      (∀ other ∈ during, other.streamName = act.streamName → other.reshards = false) →
      ∀ id', (key, id') ∈ placements env (after env (before ++ act :: during)) act' → id' = id

/-- Every record hits an open shard. -/
def HitsOpen (store : KinesisStore) (act : Act) : Prop :=
  ∀ name stream, act.streamName = some name → store.streams[name]? = some stream →
    ∀ entry ∈ act.entries, ∀ shard, stream.shards[stream.shardIndex env entry.1]? = some shard →
      shard.isOpen = true

end Statement

/-- The id of the shard for a key. -/
def KinesisStream.target (env : Env) (stream : KinesisStream) (key : String) : String :=
  (stream.shards.map (·.shardId)).getD (stream.shardIndex env key) ""

section Targets

variable {env : Env}

theorem target_congr {old new : KinesisStream}
    (ids : new.shards.map (·.shardId) = old.shards.map (·.shardId)) (key : String) :
    new.target env key = old.target env key := by
  have same : new.shards.length = old.shards.length := by simpa using congrArg List.length ids
  rw [KinesisStream.target, KinesisStream.target, ids, KinesisStream.shardIndex, same]
  rfl

theorem ids_push (stream : KinesisStream) (key data : String) (now : Instant) :
    (stream.push env key data now).2.shards.map (·.shardId) = stream.shards.map (·.shardId) :=
  map_modify_of_eq (f := fun s : Shard => s.push key data now) (fun _ => rfl) _ _

theorem ids_pushAll (now : Instant) (entries : List (String × String)) (stream : KinesisStream) :
    (pushAll env now entries stream).2.shards.map (·.shardId) = stream.shards.map (·.shardId) := by
  induction entries generalizing stream with
  | nil => rfl
  | cons entry rest ih => exact (ih _).trans (ids_push stream entry.1 entry.2 now)

theorem push_target (stream : KinesisStream) (key data : String) (now : Instant) :
    (stream.push env key data now).1.1 = stream.target env key := by
  rw [KinesisStream.target, List.getD_eq_getElem?_getD, List.getElem?_map, KinesisStream.push,
    List.getD_eq_getElem?_getD]
  cases stream.shards[stream.shardIndex env key]? <;> rfl

theorem pushAll_targets (now : Instant) (entries : List (String × String)) (stream : KinesisStream) :
    (pushAll env now entries stream).1.map Prod.fst =
      entries.map fun entry => stream.target env entry.1 := by
  induction entries generalizing stream with
  | nil => rfl
  | cons entry rest ih =>
    have later := ih (stream.push env entry.1 entry.2 now).2
    simp only [target_congr (ids_push stream entry.1 entry.2 now)] at later
    rw [pushAll, List.map_cons, List.map_cons, ← later, push_target]

end Targets

section Answers

variable {env : Env} {store : KinesisStore} {act : Act} {name : String} {stream : KinesisStream}

theorem acceptedShards_of_stored (named : act.streamName = some name)
    (stored : store.streams[name]? = some stream) (shards : stream.shards.length ≠ 0) :
    acceptedShards (dispatch env store act).1 =
      act.entries.map fun entry => stream.target env entry.1 := by
  obtain ⟨operation, body, now⟩ := act
  have param : strParam body "StreamName" = some name := named
  cases operation with
  | createStream =>
    have present : store.streams.contains name = true := by
      rw [Std.ExtTreeMap.contains_eq_isSome_getElem?, stored]
      rfl
    simp [dispatch, createStream, param, present, acceptedShards, Act.entries]
  | putRecord =>
    simp only [dispatch, putRecord, param, stored, if_neg shards, acceptedShards, Act.entries,
      List.map_cons, List.map_nil, push_target]
  | putRecords =>
    cases listed : (body.get? "Records").bind Json.asArray? with
    | none => simp [dispatch, putRecords, param, listed, validation, acceptedShards, Act.entries]
    | some records =>
      simp [dispatch, putRecords, param, listed, stored, shards, acceptedShards, Act.entries,
        pushAll_targets]
  | splitShard =>
    simp only [dispatch, splitShard, param, stored, Act.entries, List.map_nil]
    split
    · rfl
    · split <;> rfl
  | mergeShards => simp [dispatch, mergeShards, param, stored, acceptedShards, Act.entries]

theorem stored_of_accepted {id : String} (accepted : id ∈ acceptedShards (dispatch env store act).1) :
    ∃ name stream, act.streamName = some name ∧ store.streams[name]? = some stream ∧
      stream.shards.length ≠ 0 := by
  obtain ⟨operation, body, now⟩ := act
  cases operation with
  | createStream =>
    simp only [dispatch, createStream] at accepted
    split at accepted
    · cases accepted
    · split at accepted <;> cases accepted
  | putRecord =>
    simp only [dispatch, putRecord] at accepted
    split at accepted
    · cases accepted
    · next name named =>
      split at accepted
      · cases accepted
      · next stream stored =>
        split at accepted
        · cases accepted
        · next shards => exact ⟨name, stream, named, stored, shards⟩
  | putRecords =>
    simp only [dispatch, putRecords] at accepted
    split at accepted
    · cases accepted
    · next name named =>
      split at accepted
      · cases accepted
      · next records _ =>
        split at accepted
        · cases accepted
        · next stream stored =>
          split at accepted
          · cases accepted
          · next shards =>
            refine ⟨name, stream, named, stored, fun none => shards ⟨none, ?_⟩⟩
            rintro rfl
            cases accepted
  | splitShard =>
    simp only [dispatch, splitShard] at accepted
    split at accepted
    · cases accepted
    · split at accepted
      · cases accepted
      · split at accepted
        · cases accepted
        · split at accepted <;> cases accepted
  | mergeShards =>
    simp only [dispatch, mergeShards] at accepted
    split at accepted
    · cases accepted
    · split at accepted <;> cases accepted

theorem placements_of_stored (named : act.streamName = some name)
    (stored : store.streams[name]? = some stream) (shards : stream.shards.length ≠ 0) :
    placements env store act = act.entries.map fun entry => (entry.1, stream.target env entry.1) := by
  rw [placements, acceptedShards_of_stored named stored shards, List.zip_map']

/-- A record goes to the shard that its key has in the stream at that moment. -/
theorem target_of_placement {key id : String} (placed : (key, id) ∈ placements env store act) :
    ∃ name stream, act.streamName = some name ∧ store.streams[name]? = some stream ∧
      id = stream.target env key ∧ act.entries ≠ [] := by
  have accepted : id ∈ acceptedShards (dispatch env store act).1 := (List.of_mem_zip placed).2
  obtain ⟨name, stream, named, stored, shards⟩ := stored_of_accepted accepted
  rw [placements_of_stored named stored shards] at placed
  obtain ⟨entry, listed, same⟩ := List.mem_map.mp placed
  obtain ⟨rfl, rfl⟩ := Prod.mk.inj same
  exact ⟨name, stream, named, stored, rfl, List.ne_nil_of_mem listed⟩

end Answers

section Keys

variable (env : Env) {name : String}

/-- A put is no resharding. -/
theorem plain_of_entries {act : Act} (puts : act.entries ≠ []) : act.reshards = false := by
  obtain ⟨operation, body, now⟩ := act
  cases operation with
  | createStream | putRecord | putRecords => rfl
  | splitShard | mergeShards => exact absurd rfl puts

theorem ids_step {store : KinesisStore} {act : Act} {stream : KinesisStream}
    (stored : store.streams[name]? = some stream)
    (plain : act.streamName = some name → act.reshards = false) :
    ∃ stream', (step env store act).streams[name]? = some stream' ∧
      stream'.shards.map (·.shardId) = stream.shards.map (·.shardId) := by
  rcases step_cases env store act with same | ⟨other, changed, named, change, next⟩
  · exact ⟨stream, by rwa [same], rfl⟩
  · rw [next]
    by_cases here : other = name
    · subst here
      have reshards := plain named
      rw [stored] at change
      refine ⟨changed, by simp, ?_⟩
      cases change with
      | put _ => exact ids_pushAll _ _ _
      | split _ _ resharded => simp [reshards] at resharded
      | merge _ _ resharded => simp [reshards] at resharded
    · exact ⟨stream, by rw [StrMap.getElem?_insert, if_neg here, stored], rfl⟩

theorem ids_run {store : KinesisStore} {stream : KinesisStream} (acts : List Act)
    (stored : store.streams[name]? = some stream)
    (plain : ∀ act ∈ acts, act.streamName = some name → act.reshards = false) :
    ∃ stream', (acts.foldl (step env) store).streams[name]? = some stream' ∧
      stream'.shards.map (·.shardId) = stream.shards.map (·.shardId) := by
  induction acts generalizing store stream with
  | nil => exact ⟨stream, stored, rfl⟩
  | cons act rest ih =>
    obtain ⟨next, here, ids⟩ := ids_step env stored (plain act List.mem_cons_self)
    obtain ⟨last, there, kept⟩ := ih here fun a member => plain a (List.mem_cons_of_mem act member)
    exact ⟨last, there, kept.trans ids⟩

end Keys

/-- Whatever the hits, equal keys stay together until the stream is resharded. -/
theorem keys_together (env : Env) (acts : List Act) : ∀ before act rest, acts = before ++ act :: rest →
    ∀ key id, (key, id) ∈ placements env (after env before) act →
    (∀ id', (key, id') ∈ placements env (after env before) act → id' = id) ∧
    ∀ during act' rest', rest = during ++ act' :: rest' → act'.streamName = act.streamName →
      (∀ other ∈ during, other.streamName = act.streamName → other.reshards = false) →
      ∀ id', (key, id') ∈ placements env (after env (before ++ act :: during)) act' → id' = id := by
  rintro before act rest - key id placed
  obtain ⟨name, stream, named, stored, rfl, puts⟩ := target_of_placement placed
  refine ⟨fun id' placed' => ?_, fun during act' rest' _ same quiet id' placed' => ?_⟩
  · obtain ⟨name', stream', named', stored', rfl, -⟩ := target_of_placement placed'
    obtain rfl : name = name' := Option.some.inj (named.symm.trans named')
    obtain rfl : stream = stream' := Option.some.inj (stored.symm.trans stored')
    rfl
  · obtain ⟨name', stream', named', stored', rfl, -⟩ := target_of_placement placed'
    obtain rfl : name = name' := Option.some.inj (named.symm.trans (same.symm.trans named'))
    have plain : ∀ other ∈ act :: during, other.streamName = some name → other.reshards = false := by
      intro other member here
      rcases List.mem_cons.mp member with rfl | later
      · exact plain_of_entries puts
      · exact quiet other later (here.trans named.symm)
    obtain ⟨last, there, ids⟩ := ids_run env (act :: during) stored plain
    rw [after, List.foldl_append] at stored'
    obtain rfl : last = stream' := Option.some.inj (there.symm.trans stored')
    exact target_congr ids key

section Frozen

variable {env : Env} {store : KinesisStore} {act : Act} {name : String} {index : Nat}

/-- Pushes leave a shard alone that none of the keys hits. -/
theorem pushAll_elsewhere (now : Instant) (entries : List (String × String)) (stream : KinesisStream)
    (elsewhere : ∀ entry ∈ entries, stream.shardIndex env entry.1 ≠ index) :
    (pushAll env now entries stream).2.shards[index]? = stream.shards[index]? := by
  induction entries generalizing stream with
  | nil => rfl
  | cons entry rest ih =>
    have here := elsewhere entry List.mem_cons_self
    have later : ∀ other ∈ rest, (stream.push env entry.1 entry.2 now).2.shardIndex env other.1 ≠ index := by
      intro other member
      have same : (stream.push env entry.1 entry.2 now).2.shardIndex env other.1 =
          stream.shardIndex env other.1 := by
        simp [KinesisStream.shardIndex, KinesisStream.push]
      rw [same]
      exact elsewhere other (List.mem_cons_of_mem entry member)
    refine (ih _ later).trans ?_
    simp only [KinesisStream.push, List.getElem?_modify, if_neg here]
    cases stream.shards[index]? <;> rfl

/-- The shard under a changed stream, when the act hits open shards only. -/
theorem Change.closed {old new : KinesisStream} {shard : Shard} (change : Change env act (some old) new)
    (hits : ∀ entry ∈ act.entries, ∀ s, old.shards[old.shardIndex env entry.1]? = some s → s.isOpen = true)
    (placed : old.shards[index]? = some shard) (closed : shard.isOpen = false) :
    ∃ shard', new.shards[index]? = some shard' ∧ shard'.isOpen = false ∧
      shard'.records = shard.records := by
  have inside : index < old.shards.length := (List.getElem?_eq_some_iff.mp placed).1
  cases change with
  | put _ =>
    refine ⟨shard, ?_, closed, rfl⟩
    rw [pushAll_elsewhere, placed]
    rintro entry listed rfl
    have opened := hits entry listed shard placed
    rw [closed] at opened
    cases opened
  | split at' parent _ =>
    have front : (old.split at' parent).shards[index]? = (old.shards.modify at' Shard.close)[index]? :=
      List.getElem?_append_left (by rwa [List.length_modify])
    rw [front, List.getElem?_modify, placed]
    by_cases here : at' = index
    · exact ⟨shard.close, by simp [here], rfl, rfl⟩
    · exact ⟨shard, by simp [here], closed, rfl⟩
  | merge shardToMerge adjacentShard _ =>
    have front : (old.merge shardToMerge adjacentShard).shards[index]? = (old.shards.map fun shard =>
        if shard.shardId = shardToMerge ∨ shard.shardId = adjacentShard then shard.close
        else shard)[index]? :=
      List.getElem?_append_left (by rwa [List.length_map])
    rw [front, List.getElem?_map, placed, Option.map_some]
    by_cases here : shard.shardId = shardToMerge ∨ shard.shardId = adjacentShard
    · exact ⟨shard.close, by rw [if_pos here], rfl, rfl⟩
    · exact ⟨shard, by rw [if_neg here], closed, rfl⟩

theorem closedWith_step {records : List KinesisRecord} (hits : HitsOpen env store act)
    (closed : ClosedWith name index records store) : ClosedWith name index records (step env store act) := by
  obtain ⟨stream, shard, stored, placed, shut, rfl⟩ := closed
  rcases step_cases env store act with same | ⟨other, changed, named, change, next⟩
  · exact ⟨stream, shard, by rwa [same], placed, shut, rfl⟩
  · rw [next]
    by_cases here : other = name
    · subst here
      rw [stored] at change
      obtain ⟨shard', there, closed', kept⟩ := change.closed (hits other stream named stored) placed shut
      exact ⟨changed, shard', by simp, there, closed', kept⟩
    · exact ⟨stream, shard, by rw [StrMap.getElem?_insert, if_neg here, stored], placed, shut, rfl⟩

theorem target_of_placed {stream : KinesisStream} {key : String} {shard : Shard}
    (placed : stream.shards[stream.shardIndex env key]? = some shard) :
    stream.target env key = shard.shardId := by
  rw [KinesisStream.target, List.getD_eq_getElem?_getD, List.getElem?_map, placed]
  rfl

theorem open_of_hits (hits : HitsOpen env store act) {id : String}
    (accepted : id ∈ acceptedShards (dispatch env store act).1) :
    ∃ name, act.streamName = some name ∧ OpenShard store name id := by
  obtain ⟨name, stream, named, stored, shards⟩ := stored_of_accepted accepted
  rw [acceptedShards_of_stored named stored shards] at accepted
  obtain ⟨entry, listed, rfl⟩ := List.mem_map.mp accepted
  have inside : stream.shardIndex env entry.1 < stream.shards.length :=
    Nat.mod_lt _ (Nat.pos_of_ne_zero shards)
  have placed := List.getElem?_eq_getElem inside
  have opened := hits name stream named stored entry listed _ placed
  exact ⟨name, named, stream, _, stored, List.getElem_mem inside, (target_of_placed placed).symm, opened⟩

/-- With distinct ids the open shard of that id is the one that the record goes to. -/
theorem hits_of_open (wf : store.WellFormed)
    (opened : ∀ id ∈ acceptedShards (dispatch env store act).1,
      ∃ name, act.streamName = some name ∧ OpenShard store name id) : HitsOpen env store act := by
  intro name stream named stored entry listed shard placed
  have shards : stream.shards.length ≠ 0 := by
    have inside := (List.getElem?_eq_some_iff.mp placed).1
    omega
  have accepted : shard.shardId ∈ acceptedShards (dispatch env store act).1 := by
    rw [acceptedShards_of_stored named stored shards, ← target_of_placed placed]
    exact List.mem_map_of_mem listed
  obtain ⟨name', named', stream', shard', stored', member, same, shardOpen⟩ := opened _ accepted
  obtain rfl : name = name' := Option.some.inj (named.symm.trans named')
  obtain rfl : stream = stream' := Option.some.inj (stored.symm.trans stored')
  have one : shard' = shard :=
    List.inj_on_of_nodup_map (wf name stream stored).nodup member (List.mem_of_getElem? placed) same
  rwa [← one]

end Frozen

/-- Closed shards stay frozen in the runs whose records all hash to an open shard, and in no others. -/
theorem frozen_iff_hits_open (env : Env) (acts : List Act) :
    FrozenRun env acts ↔ Run.AllSteps (step env) (HitsOpen env) {} acts := by
  constructor
  · intro run
    refine (Run.allSteps_iff ({} : KinesisStore) acts).mpr fun before act rest split => ?_
    have wf : (after env before).WellFormed := (wellFormed_run env before).last
    exact hits_of_open wf (run.acceptedOpen before act rest split)
  · intro hits
    refine ⟨?_, ?_, keys_together env acts⟩
    · rintro before rest rfl name index records closed
      have later := Run.allSteps_drop ({} : KinesisStore) before rest hits
      rw [after, List.foldl_append]
      exact Run.foldl_of_allSteps (fun _ _ kept cond => closedWith_step cond kept) _ rest closed later
    · intro before act rest split id accepted
      exact open_of_hits ((Run.allSteps_iff ({} : KinesisStore) acts).mp hits before act rest split) accepted

section Split

def splitEnv : Env := ⟨"000000000000", "us-east-1", SipHash.hashString⟩

def createEvents : Act := ⟨.createStream, .obj [("ShardCount", .posInt 1), ("StreamName", .str "events")], 0⟩

def splitEvents : Act :=
  ⟨.splitShard, .obj [("NewStartingHashKey", .str "1"), ("ShardToSplit", .str "shardId-000000000000"),
    ("StreamName", .str "events")], 0⟩

def putEvent : Act :=
  ⟨.putRecord, .obj [("Data", .str "MQ=="), ("PartitionKey", .str "a"), ("StreamName", .str "events")], 0⟩

/-- A record that arrives after a split goes to the closed parent when its key hashes there. -/
theorem record_on_closed_shard : ¬ FrozenRun splitEnv [createEvents, splitEvents, putEvent] := by
  intro run
  have accepted := run.acceptedOpen [createEvents, splitEvents] putEvent [] rfl "shardId-000000000000"
    (by decide +kernel)
  obtain ⟨name, named, stream, shard, stored, member, same, opened⟩ := accepted
  obtain rfl : "events" = name := Option.some.inj (Eq.trans (by decide +kernel) named)
  have closed : ∀ s ∈ ((after splitEnv [createEvents, splitEvents]).streams["events"]?.elim []
      KinesisStream.shards), s.shardId = "shardId-000000000000" → s.isOpen = false := by
    decide +kernel
  rw [stored, Option.elim_some] at closed
  rw [closed shard member same] at opened
  cases opened

end Split

end Openstack.Kinesis

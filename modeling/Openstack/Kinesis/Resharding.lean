import Openstack.Kinesis.FrozenShards

/-!
# Open shards under resharding, and batches

SplitShard, MergeShards and PutRecords (`crates/services/kinesis/src/provider.rs`, lines 391-506 and 680-788)
on the streams of a run. A split closes the shard of its name and a merge the shards of its two names,
without a look at how many these are and whether they are open.
-/
namespace Openstack.Kinesis

/-- An error, and nothing has changed. -/
def Refused (store : KinesisStore) (outcome : Answer × KinesisStore) : Prop :=
  (∃ code message, outcome.1 = .error code message) ∧ outcome.2 = store

/-- The stream of the request is now `new`, and no other has changed. -/
def Reshards (store : KinesisStore) (body : Json) (outcome : Answer × KinesisStore)
    (old new : KinesisStream) : Prop :=
  outcome.1 = .done ∧ ∃ name, strParam body "StreamName" = some name ∧ store.streams[name]? = some old ∧
    outcome.2 = { streams := store.streams.insert name new }

def SplitRight (store : KinesisStore) (body : Json) : Prop :=
  Refused store (splitShard store body) ∨ ∃ old new, Reshards store body (splitShard store body) old new ∧
    openShardCount new.shards = openShardCount old.shards + 1

/-- Two open shards of different ids are closed, and an open child comes behind. -/
def MergesTwo (old new : KinesisStream) : Prop :=
  ∃ a ∈ old.shards, ∃ b ∈ old.shards, a.isOpen = true ∧ b.isOpen = true ∧ a.shardId ≠ b.shardId ∧
    ∃ child : Shard, child.isOpen = true ∧
      new.shards = old.shards.map (fun s => if s = a ∨ s = b then s.close else s) ++ [child]

def MergeRight (store : KinesisStore) (body : Json) : Prop :=
  Refused store (mergeShards store body) ∨ ∃ old new, Reshards store body (mergeShards store body) old new ∧
    openShardCount new.shards + 1 = openShardCount old.shards ∧ MergesTwo old new

/-- The requests one after the other. -/
def putEach (env : Env) (now : Instant) : List Json → KinesisStore → List Answer × KinesisStore
  | [], store => ([], store)
  | body :: rest, store =>
    let (answer, store) := putRecord env store body now
    let (answers, store) := putEach env now rest store
    (answer :: answers, store)

def batchRecords (body : Json) : List Json := ((body.get? "Records").bind Json.asArray?).getD []

/-- `PutRecord` bodies with the records of a batch, for its stream. -/
def SingleBodies (body : Json) (bodies : List Json) : Prop :=
  bodies.map recordEntry = (batchRecords body).map recordEntry ∧
    ∀ single ∈ bodies, strParam single "StreamName" = strParam body "StreamName"

/-- The answers to the records of a batch: what it lists for them, or an error to each. -/
def AnswersAgree : Answer → List Answer → Prop
  | .puts results, answers => answers = results.map fun result => .put result.1 result.2
  | .error _ _, answers => ∀ answer ∈ answers, ∃ code message, answer = .error code message
  | _, _ => False

/-- No panic, and the effect and the results of the single requests. -/
def BatchRight (env : Env) (store : KinesisStore) (body : Json) (now : Instant) : Prop :=
  (putRecords env store body now).1 ≠ .panicked ∧
    ∀ bodies, SingleBodies body bodies →
      (putEach env now bodies store).2 = (putRecords env store body now).2 ∧
      AnswersAgree (putRecords env store body now).1 (putEach env now bodies store).1

def StepRight (env : Env) (store : KinesisStore) (act : Act) : Prop :=
  match act.operation with
  | .splitShard => SplitRight store act.body
  | .mergeShards => MergeRight store act.body
  | .putRecords => BatchRight env store act.body act.now
  | .createStream | .putRecord => True

def KinesisStream.openIds (stream : KinesisStream) : List String :=
  (stream.shards.filter (·.isOpen)).map (·.shardId)

/-- The stream that a request finds. -/
def namedStream (store : KinesisStore) (body : Json) : Option KinesisStream :=
  (strParam body "StreamName").bind fun name => store.streams[name]?

/-- A shard that is to be split is open, if there is one; shards that are to be merged are open and two; a
batch with records finds a stream with shards, or none. -/
def StepFits (store : KinesisStore) (act : Act) : Prop :=
  ∀ stream, namedStream store act.body = some stream →
    match act.operation with
    | .splitShard => ∀ shard ∈ stream.shards, strParam act.body "ShardToSplit" = some shard.shardId →
        shard.isOpen = true
    | .mergeShards => ∃ a b, strParam act.body "ShardToMerge" = some a ∧
        strParam act.body "AdjacentShardToMerge" = some b ∧ a ≠ b ∧ a ∈ stream.openIds ∧ b ∈ stream.openIds
    | .putRecords => batchRecords act.body ≠ [] → stream.shards ≠ []
    | .createStream | .putRecord => True

theorem openShardCount_append (shards children : List Shard) :
    openShardCount (shards ++ children) = openShardCount shards + openShardCount children := by
  rw [openShardCount, List.filter_append, List.length_append]
  rfl

/-- Closing takes the open shards among those that are closed. -/
theorem openShardCount_close (named : Shard → Prop) [DecidablePred named] (shards : List Shard) :
    openShardCount (shards.map fun s => if named s then s.close else s) +
      (shards.filter fun s => decide (named s) && s.isOpen).length = openShardCount shards := by
  induction shards with
  | nil => rfl
  | cons shard rest ih =>
    simp only [openShardCount, Shard.close] at ih ⊢
    by_cases here : named shard <;> by_cases opened : shard.isOpen = true <;>
      simp [here, opened] <;> omega

/-- With distinct ids the shard at an index is the one with its id. -/
theorem modify_close_eq {shards : List Shard} (nodup : (shards.map (·.shardId)).Nodup) {index : Nat}
    {id : String} (found : shards.findIdx? (·.shardId = id) = some index) :
    shards.modify index Shard.close = shards.map fun s => if s.shardId = id then s.close else s := by
  induction shards generalizing index with
  | nil => simp at found
  | cons shard rest ih =>
    rw [List.map_cons, List.nodup_cons] at nodup
    rw [List.findIdx?_cons] at found
    by_cases here : shard.shardId = id
    · simp only [here, decide_true, if_true] at found
      obtain rfl := Option.some.inj found
      have others : rest.map (fun s => if s.shardId = id then s.close else s) = rest := by
        refine (List.map_congr_left fun s member => ?_).trans (List.map_id rest)
        rw [if_neg]
        · rfl
        · intro same
          exact nodup.1 (here.trans same.symm ▸ List.mem_map_of_mem member)
      simp [here, others]
    · simp only [here, decide_false, Bool.false_eq_true, if_false, Option.map_eq_some_iff] at found
      obtain ⟨before, found, rfl⟩ := found
      simp [here, ih nodup.2 found]

theorem KinesisStream.WellFormed.nodup_openIds {stream : KinesisStream} (wf : stream.WellFormed) :
    stream.openIds.Nodup :=
  wf.nodup.sublist (List.filter_sublist.map _)

theorem mem_openIds {stream : KinesisStream} {id : String} :
    id ∈ stream.openIds ↔ ∃ shard ∈ stream.shards, shard.isOpen = true ∧ shard.shardId = id := by
  simp [KinesisStream.openIds, and_assoc]

theorem length_filter_named (stream : KinesisStream) (named : String → Prop) [DecidablePred named] :
    (stream.shards.filter fun s => decide (named s.shardId) && s.isOpen).length =
      stream.openIds.countP (named ·) := by
  rw [KinesisStream.openIds, List.countP_map, List.countP_filter, List.countP_eq_length_filter]
  rfl

/-- Two names hit two of distinct ids exactly when they differ and are among them. -/
theorem countP_pair_eq_two {ids : List String} (nodup : ids.Nodup) (a b : String) :
    ids.countP (fun id => id = a ∨ id = b) = 2 ↔ a ≠ b ∧ a ∈ ids ∧ b ∈ ids := by
  have hit : (ids.filter fun id => id = a ∨ id = b).toFinset = ids.toFinset ∩ {a, b} := by
    ext id
    simp
  have count : ids.countP (fun id => id = a ∨ id = b) = (ids.toFinset ∩ {a, b}).card := by
    rw [List.countP_eq_length_filter, ← hit, List.toFinset_card_of_nodup (nodup.filter _)]
  rw [count]
  constructor
  · intro two
    have pair : ({a, b} : Finset String).card ≤ 2 := Finset.card_le_two
    have all : ids.toFinset ∩ {a, b} = {a, b} :=
      Finset.eq_of_subset_of_card_le Finset.inter_subset_right (pair.trans two.ge)
    have listed : ∀ id ∈ ({a, b} : Finset String), id ∈ ids := by
      intro id member
      rw [← all] at member
      exact List.mem_toFinset.mp (Finset.mem_inter.mp member).1
    refine ⟨?_, listed a (by simp), listed b (by simp)⟩
    rintro rfl
    rw [all] at two
    simp at two
  · rintro ⟨apart, first, second⟩
    have inside : ({a, b} : Finset String) ⊆ ids.toFinset := by
      intro id member
      rcases Finset.mem_insert.mp member with rfl | member
      · exact List.mem_toFinset.mpr first
      · rw [Finset.mem_singleton.mp member]
        exact List.mem_toFinset.mpr second
    rw [Finset.inter_eq_right.mpr inside, Finset.card_pair apart]

section Reshard

variable {store : KinesisStore} {body : Json} {name : String} {stream : KinesisStream}

theorem Reshards.stored {outcome : Answer × KinesisStore} {old new : KinesisStream}
    (reshards : Reshards store body outcome old new) (named : strParam body "StreamName" = some name)
    (found : store.streams[name]? = some stream) {result : KinesisStream}
    (next : outcome.2 = { streams := store.streams.insert name result }) : old = stream ∧ new = result := by
  obtain ⟨-, name', named', found', next'⟩ := reshards
  obtain rfl : name = name' := Option.some.inj (named.symm.trans named')
  refine ⟨Option.some.inj (found'.symm.trans found), ?_⟩
  have lookups := congrArg (fun s : KinesisStore => s.streams[name]?) (next'.symm.trans next)
  simpa using lookups

theorem namedStream_eq (named : strParam body "StreamName" = some name) :
    namedStream store body = store.streams[name]? := by
  rw [namedStream, named, Option.bind_some]

theorem openShardCount_split (wf : stream.WellFormed) {index : Nat} {parent : String}
    (found : stream.shards.findIdx? (·.shardId = parent) = some index) :
    openShardCount (stream.split index parent).shards + stream.openIds.count parent =
      openShardCount stream.shards + 2 := by
  have closed := openShardCount_close (·.shardId = parent) stream.shards
  rw [length_filter_named stream (· = parent)] at closed
  have count : stream.openIds.countP (· = parent) = stream.openIds.count parent := rfl
  rw [KinesisStream.split, KinesisStream.addShards, openShardCount_append, modify_close_eq wf.nodup found]
  have children : ∀ a b : Shard, a.isOpen = true → b.isOpen = true → openShardCount [a, b] = 2 := by
    intro a b opened opened'
    simp [openShardCount, opened, opened']
  rw [children _ _ rfl rfl]
  omega

theorem openShardCount_merge (shardToMerge adjacentShard : String) :
    openShardCount (stream.merge shardToMerge adjacentShard).shards +
        stream.openIds.countP (fun id => id = shardToMerge ∨ id = adjacentShard) =
      openShardCount stream.shards + 1 := by
  have closed := openShardCount_close (fun s => s.shardId = shardToMerge ∨ s.shardId = adjacentShard)
    stream.shards
  rw [length_filter_named stream fun id => id = shardToMerge ∨ id = adjacentShard] at closed
  rw [KinesisStream.merge, KinesisStream.addShards, openShardCount_append]
  have child : ∀ s : Shard, s.isOpen = true → openShardCount [s] = 1 := by
    intro s opened
    simp [openShardCount, opened]
  rw [child _ rfl]
  omega

/-- One more open shard means that the parent was open. -/
theorem openShardCount_split_iff (wf : stream.WellFormed) {index : Nat} {parent : String}
    (found : stream.shards.findIdx? (·.shardId = parent) = some index) :
    openShardCount (stream.split index parent).shards = openShardCount stream.shards + 1 ↔
      ∀ shard ∈ stream.shards, shard.shardId = parent → shard.isOpen = true := by
  have counted := openShardCount_split wf found
  have listed : parent ∈ stream.openIds ↔
      ∀ shard ∈ stream.shards, shard.shardId = parent → shard.isOpen = true := by
    rw [mem_openIds]
    constructor
    · rintro ⟨shard, member, opened, named⟩ other member' same
      have one : other = shard := List.inj_on_of_nodup_map wf.nodup member' member (same.trans named.symm)
      rwa [one]
    · intro opened
      obtain ⟨inside, here, -⟩ := List.findIdx?_eq_some_iff_getElem.mp found
      rw [decide_eq_true_eq] at here
      exact ⟨_, List.getElem_mem inside, opened _ (List.getElem_mem inside) here, here⟩
  rw [← listed]
  constructor
  · intro more
    rw [← List.count_pos_iff]
    omega
  · intro member
    rw [List.count_eq_one_of_mem wf.nodup_openIds member] at counted
    omega

theorem splitRight_iff (wf : store.WellFormed) (now : Instant) :
    SplitRight store body ↔ StepFits store ⟨.splitShard, body, now⟩ := by
  rw [SplitRight, StepFits]
  cases named : strParam body "StreamName" with
  | none =>
    refine iff_of_true (.inl ?_) fun stream found => ?_
    · rw [splitShard, named]
      exact ⟨⟨_, _, rfl⟩, rfl⟩
    · rw [namedStream, named] at found
      cases found
  | some name =>
    rw [namedStream_eq named]
    cases split : strParam body "ShardToSplit" with
    | none =>
      refine iff_of_true (.inl ?_) fun stream found shard member same => ?_
      · rw [splitShard, named, split]
        exact ⟨⟨_, _, rfl⟩, rfl⟩
      · cases same
    | some parent =>
      cases found : store.streams[name]? with
      | none =>
        refine iff_of_true (.inl ?_) fun stream stored => ?_
        · simp only [splitShard, named, split, found]
          exact ⟨⟨_, _, rfl⟩, rfl⟩
        · cases stored
      | some stream =>
        cases at' : stream.shards.findIdx? (·.shardId = parent) with
        | none =>
          refine iff_of_true (.inl ?_) fun stream' stored shard member same => ?_
          · simp only [splitShard, named, split, found, at']
            exact ⟨⟨_, _, rfl⟩, rfl⟩
          · obtain rfl := Option.some.inj stored
            have other := List.findIdx?_eq_none_iff.mp at' shard member
            simp [Option.some.inj same] at other
        | some index =>
          have outcome : splitShard store body =
              (.done, { streams := store.streams.insert name (stream.split index parent) }) := by
            simp only [splitShard, named, split, found, at']
          have exactly := openShardCount_split_iff (wf name stream found) at'
          rw [outcome]
          constructor
          · rintro (⟨⟨code, message, error⟩, -⟩ | ⟨old, new, reshards, more⟩) stream' stored shard member same
            · cases error
            · obtain ⟨rfl, rfl⟩ := reshards.stored named found rfl
              obtain rfl := Option.some.inj stored
              exact exactly.mp more shard member (Option.some.inj same).symm
          · intro fits
            refine .inr ⟨stream, _, ⟨rfl, name, named, found, rfl⟩, exactly.mpr fun shard member same => ?_⟩
            exact fits stream rfl shard member (congrArg some same.symm)

/-- A merge that closes two shards has named two open ones. -/
theorem merge_right_iff (wf : stream.WellFormed) (a b : String) :
    openShardCount (stream.merge a b).shards + 1 = openShardCount stream.shards ∧
      MergesTwo stream (stream.merge a b) ↔ a ≠ b ∧ a ∈ stream.openIds ∧ b ∈ stream.openIds := by
  have counted : openShardCount (stream.merge a b).shards + stream.openIds.countP (fun id => id = a ∨ id = b) =
      openShardCount stream.shards + 1 := openShardCount_merge a b
  rw [← countP_pair_eq_two wf.nodup_openIds]
  constructor
  · rintro ⟨fewer, -⟩
    omega
  · intro two
    refine ⟨by omega, ?_⟩
    obtain ⟨apart, first, second⟩ := (countP_pair_eq_two wf.nodup_openIds a b).mp two
    obtain ⟨shard, member, opened, rfl⟩ := mem_openIds.mp first
    obtain ⟨other, member', opened', rfl⟩ := mem_openIds.mp second
    refine ⟨shard, member, other, member', opened, opened', apart,
      { shardId := shardId stream.shardIdCounter
        parentShardId := some shard.shardId
        adjacentParentShardId := some other.shardId }, rfl, ?_⟩
    rw [KinesisStream.merge, KinesisStream.addShards]
    refine congrArg (· ++ [_]) (List.map_congr_left fun s listed => ?_)
    have same : ∀ t ∈ stream.shards, s.shardId = t.shardId ↔ s = t := fun t listed' =>
      ⟨List.inj_on_of_nodup_map wf.nodup listed listed', congrArg _⟩
    exact if_congr (or_congr (same shard member) (same other member')) rfl rfl

theorem openIds_ne_empty (wf : stream.WellFormed) : "" ∉ stream.openIds := by
  intro listed
  obtain ⟨shard, member, -, empty⟩ := mem_openIds.mp listed
  have named : shard.shardId ∈ (List.range stream.shards.length).map shardId := by
    rw [← wf.ids]
    exact List.mem_map_of_mem member
  obtain ⟨n, -, same⟩ := List.mem_map.mp named
  have lengths := congrArg (fun s => s.toList.length) (same.trans empty)
  simp [shardId] at lengths

/-- No parameter counts as the empty name, which no shard has. -/
theorem named_openIds (wf : stream.WellFormed) (param : Option String) :
    param.getD "" ∈ stream.openIds ↔ ∃ id, param = some id ∧ id ∈ stream.openIds := by
  cases param with
  | none => simpa using openIds_ne_empty wf
  | some id => simp

theorem mergeRight_iff (wf : store.WellFormed) (now : Instant) :
    MergeRight store body ↔ StepFits store ⟨.mergeShards, body, now⟩ := by
  rw [MergeRight, StepFits]
  cases named : strParam body "StreamName" with
  | none =>
    refine iff_of_true (.inl ?_) fun stream found => ?_
    · rw [mergeShards, named]
      exact ⟨⟨_, _, rfl⟩, rfl⟩
    · rw [namedStream, named] at found
      cases found
  | some name =>
    rw [namedStream_eq named]
    cases found : store.streams[name]? with
    | none =>
      refine iff_of_true (.inl ?_) fun stream stored => ?_
      · simp only [mergeShards, named, found]
        exact ⟨⟨_, _, rfl⟩, rfl⟩
      · cases stored
    | some stream =>
      have outcome : mergeShards store body = (.done, ⟨store.streams.insert name
          (stream.merge ((strParam body "ShardToMerge").getD "")
            ((strParam body "AdjacentShardToMerge").getD ""))⟩) := by
        simp only [mergeShards, named, found]
      have exactly := merge_right_iff (wf name stream found) ((strParam body "ShardToMerge").getD "")
        ((strParam body "AdjacentShardToMerge").getD "")
      rw [named_openIds (wf name stream found), named_openIds (wf name stream found)] at exactly
      rw [outcome]
      constructor
      · rintro (⟨⟨code, message, error⟩, -⟩ | ⟨old, new, reshards, right⟩) stream' stored
        · cases error
        · obtain ⟨rfl, rfl⟩ := reshards.stored named found rfl
          obtain rfl := Option.some.inj stored
          obtain ⟨apart, ⟨a, first, listed⟩, b, second, listed'⟩ := exactly.mp right
          rw [first, second] at apart
          exact ⟨a, b, first, second, apart, listed, listed'⟩
      · intro fits
        obtain ⟨a, b, first, second, apart, listed, listed'⟩ := fits stream rfl
        have named_apart : (strParam body "ShardToMerge").getD "" ≠
            (strParam body "AdjacentShardToMerge").getD "" := by
          rw [first, second]
          exact apart
        exact .inr ⟨stream, _, ⟨rfl, name, named, found, rfl⟩,
          exactly.mpr ⟨named_apart, ⟨a, first, listed⟩, b, second, listed'⟩⟩

end Reshard

section Batch

variable (env : Env) (now : Instant) {store : KinesisStore} {body : Json} {name : String}
  {stream : KinesisStream}

theorem insert_self (found : store.streams[name]? = some stream) :
    store.streams.insert name stream = store.streams := by
  refine Std.ExtTreeMap.ext_getElem? fun k => ?_
  rw [StrMap.getElem?_insert]
  split
  · next same => rw [← same, found]
  · rfl

theorem insert_insert (streams : StrMap KinesisStream) (first second : KinesisStream) :
    (streams.insert name first).insert name second = streams.insert name second := by
  refine Std.ExtTreeMap.ext_getElem? fun k => ?_
  simp only [StrMap.getElem?_insert]
  split <;> rfl

/-- The requests for a stream with shards do what the loop of a batch does. -/
theorem putEach_stored (bodies : List Json) (found : store.streams[name]? = some stream)
    (shards : stream.shards.length ≠ 0) (named : ∀ single ∈ bodies, strParam single "StreamName" = some name) :
    putEach env now bodies store =
      ((pushAll env now (bodies.map recordEntry) stream).1.map (fun result => .put result.1 result.2),
        { streams := store.streams.insert name (pushAll env now (bodies.map recordEntry) stream).2 }) := by
  induction bodies generalizing store stream with
  | nil =>
    rw [putEach, List.map_nil, pushAll, insert_self found]
    rfl
  | cons single rest ih =>
    have here : putRecord env store single now =
        (.put (stream.push env (recordEntry single).1 (recordEntry single).2 now).1.1
            (stream.push env (recordEntry single).1 (recordEntry single).2 now).1.2,
          ⟨store.streams.insert name
            (stream.push env (recordEntry single).1 (recordEntry single).2 now).2⟩) := by
      rw [putRecord, named single List.mem_cons_self]
      simp only [found, if_neg shards]
    have length : (stream.push env (recordEntry single).1 (recordEntry single).2 now).2.shards.length ≠ 0 := by
      rwa [KinesisStream.push, List.length_modify]
    have later := @ih ⟨store.streams.insert name
        (stream.push env (recordEntry single).1 (recordEntry single).2 now).2⟩ _ (by simp) length fun other member => named other (List.mem_cons_of_mem single member)
    rw [putEach, here]
    dsimp only
    rw [later, insert_insert]
    rfl

/-- Requests that are refused one by one leave the store alone. -/
theorem putEach_refused (bodies : List Json)
    (refused : ∀ single ∈ bodies, Refused store (putRecord env store single now)) :
    (putEach env now bodies store).2 = store ∧
      ∀ answer ∈ (putEach env now bodies store).1, ∃ code message, answer = .error code message := by
  induction bodies with
  | nil => exact ⟨rfl, by simp [putEach]⟩
  | cons single rest ih =>
    obtain ⟨error, same⟩ := refused single List.mem_cons_self
    obtain ⟨kept, errors⟩ := ih fun other member => refused other (List.mem_cons_of_mem single member)
    rw [putEach]
    dsimp only
    rw [same]
    refine ⟨kept, fun answer member => ?_⟩
    rcases List.mem_cons.mp member with rfl | later
    · exact error
    · exact errors answer later

theorem batchRight_iff : BatchRight env store body now ↔ StepFits store ⟨.putRecords, body, now⟩ := by
  rw [BatchRight, StepFits]
  cases named : strParam body "StreamName" with
  | none =>
    have outcome : putRecords env store body now = (validation "StreamName is required", store) := by
      rw [putRecords, named]
    rw [outcome]
    refine iff_of_true ⟨by rintro ⟨⟩, fun bodies singles => ?_⟩ fun stream found => ?_
    · refine putEach_refused env now bodies fun single listed => ?_
      rw [putRecord, (singles.2 single listed).trans named]
      exact ⟨⟨_, _, rfl⟩, rfl⟩
    · rw [namedStream, named] at found
      cases found
  | some name =>
    rw [namedStream_eq named]
    cases listed : (body.get? "Records").bind Json.asArray? with
    | none =>
      have outcome : putRecords env store body now = (validation "Records is required", store) := by
        rw [putRecords, named]
        simp only [listed]
      have empty : batchRecords body = [] := by rw [batchRecords, listed, Option.getD_none]
      rw [outcome]
      refine iff_of_true ⟨by rintro ⟨⟩, fun bodies singles => ?_⟩ fun stream found some_record => absurd empty some_record
      have none : bodies = [] := by simpa [empty] using singles.1
      rw [none]
      exact putEach_refused env now [] (by simp)
    | some records =>
      have batch : batchRecords body = records := by rw [batchRecords, listed, Option.getD_some]
      cases found : store.streams[name]? with
      | none =>
        have outcome : putRecords env store body now =
            (notFound ("Stream " ++ name ++ " not found"), store) := by
          simp only [putRecords, named, listed, found]
        rw [outcome]
        refine iff_of_true ⟨by rintro ⟨⟩, fun bodies singles => ?_⟩ fun stream stored => by cases stored
        refine putEach_refused env now bodies fun single member => ?_
        rw [putRecord, (singles.2 single member).trans named]
        simp only [found]
        exact ⟨⟨_, _, rfl⟩, rfl⟩
      | some stream =>
        by_cases shards : stream.shards.length = 0
        · by_cases empty : records = []
          · have outcome : putRecords env store body now = (.puts [], store) := by
              simp [putRecords, named, listed, found, empty, not_true_eq_false, pushAll,
                insert_self found]
            rw [outcome]
            refine iff_of_true ⟨by rintro ⟨⟩, fun bodies singles => ?_⟩ fun stream stored some_record =>
              absurd (batch.trans empty) some_record
            have none : bodies = [] := by simpa [batch, empty] using singles.1
            rw [none]
            exact ⟨rfl, rfl⟩
          · have outcome : putRecords env store body now = (.panicked, store) := by
              simp [putRecords, named, listed, found, shards, empty]
            rw [outcome]
            refine iff_of_false (fun right => right.1 rfl) fun fits => ?_
            exact fits stream rfl (batch ▸ empty) (List.length_eq_zero_iff.mp shards)
        · have outcome : putRecords env store body now =
              (.puts (pushAll env now (records.map recordEntry) stream).1,
                ⟨store.streams.insert name (pushAll env now (records.map recordEntry) stream).2⟩) := by
            simp [putRecords, named, listed, found, shards]
          rw [outcome]
          refine iff_of_true ⟨by rintro ⟨⟩, fun bodies singles => ?_⟩ fun stream' stored _ none => ?_
          · have same : bodies.map recordEntry = records.map recordEntry := batch ▸ singles.1
            rw [putEach_stored env now bodies found shards
              (fun single member => (singles.2 single member).trans named), same]
            exact ⟨rfl, rfl⟩
          · obtain rfl := Option.some.inj stored
            exact shards (List.length_eq_zero_iff.mpr none)

end Batch

theorem stepRight_iff (env : Env) {store : KinesisStore} (wf : store.WellFormed) (act : Act) :
    StepRight env store act ↔ StepFits store act := by
  obtain ⟨operation, body, now⟩ := act
  cases operation with
  | splitShard => exact splitRight_iff wf now
  | mergeShards => exact mergeRight_iff wf now
  | putRecords => exact batchRight_iff env now
  | createStream | putRecord => exact iff_of_true trivial fun _ _ => trivial

/-- In every run, every request does what it should exactly when it fits the streams that it finds. -/
theorem resharding_and_batches_iff (env : Env) (acts : List Act) :
    Run.AllSteps (step env) (fun store act => StepRight env store act ↔ StepFits store act) {} acts := by
  refine (Run.allSteps_iff ({} : KinesisStore) acts).mpr fun before act rest _ => ?_
  exact stepRight_iff env (wellFormed_run env before).last act

section Unchecked

def splitAgain : Act :=
  ⟨.splitShard, .obj [("ShardToSplit", .str "shardId-000000000000"), ("StreamName", .str "events")], 0⟩

def mergeUnknown : Act :=
  ⟨.mergeShards, .obj [("AdjacentShardToMerge", .str "b"), ("ShardToMerge", .str "a"),
    ("StreamName", .str "events")], 0⟩

def createEmpty : Act := ⟨.createStream, .obj [("ShardCount", .posInt 0), ("StreamName", .str "events")], 0⟩

def putBatch : Act :=
  ⟨.putRecords, .obj [("Records", .arr [.obj [("Data", .str "MQ=="), ("PartitionKey", .str "a")]]),
    ("StreamName", .str "events")], 0⟩

/-- The split of a closed shard opens two, a merge of unknown shards opens one, and a batch for a stream
without shards panics. -/
theorem unchecked_requests_wrong :
    ¬ StepRight splitEnv (after splitEnv [createEvents, splitEvents]) splitAgain ∧
    ¬ StepRight splitEnv (after splitEnv [createEvents]) mergeUnknown ∧
    ¬ StepRight splitEnv (after splitEnv [createEmpty]) putBatch := by
  refine ⟨fun right => ?_, fun right => ?_, fun right => ?_⟩
  · have fits := (stepRight_iff splitEnv (wellFormed_run splitEnv _).last splitAgain).mp right
    have closed : ((after splitEnv [createEvents, splitEvents]).streams["events"]?.map fun stream =>
        stream.shards.any fun s => s.shardId = "shardId-000000000000" && !s.isOpen) = some true := by
      decide +kernel
    obtain ⟨stream, stored, some_closed⟩ := Option.map_eq_some_iff.mp closed
    obtain ⟨shard, member, here⟩ := List.any_eq_true.mp some_closed
    simp only [Bool.and_eq_true, decide_eq_true_eq, Bool.not_eq_true'] at here
    have opened := fits stream stored shard member (congrArg some here.1.symm)
    rw [here.2] at opened
    cases opened
  · have fits := (stepRight_iff splitEnv (wellFormed_run splitEnv _).last mergeUnknown).mp right
    have ids : ((after splitEnv [createEvents]).streams["events"]?.map KinesisStream.openIds) =
        some ["shardId-000000000000"] := by decide +kernel
    obtain ⟨stream, stored, one⟩ := Option.map_eq_some_iff.mp ids
    obtain ⟨a, b, first, -, -, listed, -⟩ := fits stream stored
    cases first
    rw [one] at listed
    exact absurd listed (by decide)
  · have fits := (stepRight_iff splitEnv (wellFormed_run splitEnv _).last putBatch).mp right
    have empty : ((after splitEnv [createEmpty]).streams["events"]?.map (·.shards)) = some [] := by
      decide +kernel
    obtain ⟨stream, stored, none⟩ := Option.map_eq_some_iff.mp empty
    exact fits stream stored (by simp [batchRecords, putBatch, Json.get?, Json.asArray?]) none

end Unchecked

end Openstack.Kinesis

import Openstack.Kinesis.Store
import Openstack.Lib.Run

/-!
# Shards along a run

What an operation makes of a stream: its shards stay where they are, keep their ids and their records,
and new ones come behind them. Shard ids and sequence numbers count up.
-/
namespace Openstack.Kinesis

/-- What an act makes of the stream that it finds under the name. -/
inductive Change (env : Env) (act : Act) : Option KinesisStream → KinesisStream → Prop where
  | create (streamName : String) (shardCount : Nat) (operation : act.operation = .createStream) :
    Change env act none (KinesisStream.new streamName shardCount)
  | put {stream : KinesisStream} (plain : act.reshards = false) :
    Change env act (some stream) (pushAll env act.now act.entries stream).2
  | split {stream : KinesisStream} (index : Nat) (parent : String) (reshards : act.reshards = true) :
    Change env act (some stream) (stream.split index parent)
  | merge {stream : KinesisStream} (shardToMerge adjacentShard : String)
      (reshards : act.reshards = true) :
    Change env act (some stream) (stream.merge shardToMerge adjacentShard)

/-- Nothing changes, or the named stream does. -/
def Changes (env : Env) (store : KinesisStore) (act : Act) (result : KinesisStore) : Prop :=
  result = store ∨ ∃ name stream, act.streamName = some name ∧
    Change env act store.streams[name]? stream ∧
    result = { streams := store.streams.insert name stream }

section Cases

variable (env : Env) (store : KinesisStore) (body : Json) (now : Instant)

theorem createStream_cases :
    Changes env store ⟨.createStream, body, now⟩ (createStream store body).2 := by
  rw [createStream]
  split
  · exact Or.inl rfl
  · next name named =>
    dsimp only
    split
    · exact Or.inl rfl
    · next absent =>
      refine Or.inr ⟨name, _, named, ?_, rfl⟩
      rw [Std.ExtTreeMap.getElem?_eq_none (by simpa using absent)]
      exact .create name _ rfl

theorem putRecord_cases : Changes env store ⟨.putRecord, body, now⟩ (putRecord env store body now).2 := by
  rw [putRecord]
  split
  · exact Or.inl rfl
  · next name named =>
    dsimp only
    split
    · exact Or.inl rfl
    · next stream found =>
      split
      · exact Or.inl rfl
      · refine Or.inr ⟨name, _, named, ?_, rfl⟩
        rw [found]
        exact .put rfl

theorem putRecords_cases :
    Changes env store ⟨.putRecords, body, now⟩ (putRecords env store body now).2 := by
  rw [putRecords]
  split
  · exact Or.inl rfl
  · next name named =>
    split
    · exact Or.inl rfl
    · next records listed =>
      split
      · exact Or.inl rfl
      · next stream found =>
        split
        · exact Or.inl rfl
        · refine Or.inr ⟨name, _, named, ?_, rfl⟩
          have entries : records.map recordEntry = Act.entries ⟨.putRecords, body, now⟩ := by
            rw [Act.entries, listed, Option.getD_some]
          rw [found, entries]
          exact .put rfl

theorem splitShard_cases : Changes env store ⟨.splitShard, body, now⟩ (splitShard store body).2 := by
  rw [splitShard]
  split
  · exact Or.inl rfl
  · next name named =>
    split
    · exact Or.inl rfl
    · next parent _ =>
      split
      · exact Or.inl rfl
      · next stream found =>
        split
        · exact Or.inl rfl
        · next index _ =>
          refine Or.inr ⟨name, _, named, ?_, rfl⟩
          rw [found]
          exact .split index parent rfl

theorem mergeShards_cases : Changes env store ⟨.mergeShards, body, now⟩ (mergeShards store body).2 := by
  rw [mergeShards]
  split
  · exact Or.inl rfl
  · next name named =>
    dsimp only
    split
    · exact Or.inl rfl
    · next stream found =>
      refine Or.inr ⟨name, _, named, ?_, rfl⟩
      rw [found]
      exact .merge _ _ rfl

theorem step_cases (act : Act) : Changes env store act (step env store act) := by
  obtain ⟨operation, body, now⟩ := act
  cases operation with
  | createStream => exact createStream_cases env store body now
  | putRecord => exact putRecord_cases env store body now
  | putRecords => exact putRecords_cases env store body now
  | splitShard => exact splitShard_cases env store body now
  | mergeShards => exact mergeShards_cases env store body now

end Cases

/-- The records are numbered from one. -/
structure Shard.Numbered (shard : Shard) : Prop where
  counter : shard.sequenceCounter = shard.records.length
  numbers : shard.records.map (·.sequenceNumber) =
    (List.range shard.records.length).map fun i => RustFmt.dec 49 (i + 1)

/-- The shards have the ids from zero. -/
structure KinesisStream.WellFormed (stream : KinesisStream) : Prop where
  ids : stream.shards.map (·.shardId) = (List.range stream.shards.length).map shardId
  counter : stream.shardIdCounter = stream.shards.length
  numbered : ∀ shard ∈ stream.shards, shard.Numbered

def KinesisStore.WellFormed (store : KinesisStore) : Prop :=
  ∀ (name : String) stream, store.streams[name]? = some stream → stream.WellFormed

theorem Shard.Numbered.push {shard : Shard} (numbered : shard.Numbered) (partitionKey data : String)
    (now : Instant) : (shard.push partitionKey data now).Numbered := by
  refine ⟨by simp [Shard.push, numbered.counter], ?_⟩
  simp [Shard.push, numbered.numbers, numbered.counter, List.range_succ]

theorem Shard.Numbered.close {shard : Shard} (numbered : shard.Numbered) : shard.close.Numbered :=
  ⟨numbered.counter, numbered.numbers⟩

theorem numbered_of_empty {shard : Shard} (counter : shard.sequenceCounter = 0)
    (records : shard.records = []) : shard.Numbered :=
  ⟨by rw [counter, records, List.length_nil], by rw [records]; rfl⟩

theorem map_modify_of_eq {α β : Type} {f : α → α} {g : α → β} (kept : ∀ a, g (f a) = g a) (l : List α)
    (i : Nat) : (l.modify i f).map g = l.map g := by
  induction l generalizing i with
  | nil => simp
  | cons a rest ih =>
    cases i with
    | zero => simp [kept]
    | succ i => simp [ih i]

theorem forall_mem_modify {α : Type} {P : α → Prop} {f : α → α} (kept : ∀ a, P a → P (f a)) {l : List α}
    (all : ∀ a ∈ l, P a) (i : Nat) : ∀ a ∈ l.modify i f, P a := by
  induction l generalizing i with
  | nil => simp
  | cons a rest ih =>
    have here := all a List.mem_cons_self
    have later := fun b member => all b (List.mem_cons_of_mem a member)
    cases i with
    | zero => simpa [kept a here] using later
    | succ i => simpa [here] using ih later i

namespace KinesisStream

theorem WellFormed.of_new (streamName : String) (shardCount : Nat) :
    (KinesisStream.new streamName shardCount).WellFormed := by
  refine ⟨by simp [KinesisStream.new], by simp [KinesisStream.new], ?_⟩
  intro shard member
  obtain ⟨i, -, rfl⟩ := List.mem_map.mp member
  exact numbered_of_empty rfl rfl

variable {stream : KinesisStream}

theorem WellFormed.push (env : Env) (wf : stream.WellFormed) (partitionKey data : String) (now : Instant) :
    (stream.push env partitionKey data now).2.WellFormed := by
  refine ⟨?_, ?_, ?_⟩
  · simp only [KinesisStream.push, List.length_modify]
    rw [map_modify_of_eq (f := fun s : Shard => s.push partitionKey data now) (fun _ => rfl), wf.ids]
  · simpa only [KinesisStream.push, List.length_modify] using wf.counter
  · exact forall_mem_modify (fun _ numbered => numbered.push partitionKey data now) wf.numbered _

theorem WellFormed.pushAll (env : Env) (now : Instant) (entries : List (String × String))
    (wf : stream.WellFormed) : (pushAll env now entries stream).2.WellFormed := by
  induction entries generalizing stream with
  | nil => exact wf
  | cons entry rest ih => exact ih (wf.push env entry.1 entry.2 now)

/-- New shards continue the ids where the counter stands. -/
theorem WellFormed.addShards (wf : stream.WellFormed) {shards children : List Shard}
    (ids : shards.map (·.shardId) = stream.shards.map (·.shardId))
    (numbered : ∀ shard ∈ shards, shard.Numbered)
    (childIds : children.map (·.shardId) =
      (List.range children.length).map fun i => shardId (stream.shardIdCounter + i))
    (empty : ∀ child ∈ children, child.Numbered) : (stream.addShards shards children).WellFormed := by
  have same : shards.length = stream.shards.length := by simpa using congrArg List.length ids
  refine ⟨?_, ?_, ?_⟩
  · simp only [KinesisStream.addShards, List.map_append, List.length_append]
    rw [ids, wf.ids, childIds, wf.counter, same, List.range_add, List.map_append, List.map_map]
    rfl
  · simp [KinesisStream.addShards, wf.counter, same]
  · intro shard member
    rcases List.mem_append.mp member with old | new
    · exact numbered shard old
    · exact empty shard new

theorem WellFormed.split (wf : stream.WellFormed) (index : Nat) (parent : String) :
    (stream.split index parent).WellFormed := by
  refine wf.addShards (map_modify_of_eq (f := Shard.close) (fun _ => rfl) _ _)
    (forall_mem_modify (fun _ numbered => numbered.close) wf.numbered _) (by simp [List.range_succ]) ?_
  intro child member
  rcases List.mem_pair.mp member with rfl | rfl <;> exact numbered_of_empty rfl rfl

theorem WellFormed.merge (wf : stream.WellFormed) (shardToMerge adjacentShard : String) :
    (stream.merge shardToMerge adjacentShard).WellFormed := by
  refine wf.addShards ?_ ?_ (by simp) ?_
  · rw [List.map_map]
    refine List.map_congr_left fun shard _ => ?_
    dsimp only [Function.comp]
    split <;> rfl
  · intro shard member
    obtain ⟨old, listed, rfl⟩ := List.mem_map.mp member
    split
    · exact (wf.numbered old listed).close
    · exact wf.numbered old listed
  · intro child member
    rw [List.mem_singleton] at member
    exact numbered_of_empty (by rw [member]) (by rw [member])

end KinesisStream

theorem Change.wellFormed {env : Env} {act : Act} {old : Option KinesisStream} {stream : KinesisStream}
    (change : Change env act old stream) (wf : ∀ s ∈ old, s.WellFormed) : stream.WellFormed := by
  cases change with
  | create streamName shardCount _ => exact .of_new streamName shardCount
  | put _ => exact (wf _ rfl).pushAll env act.now act.entries
  | split index parent _ => exact (wf _ rfl).split index parent
  | merge shardToMerge adjacentShard _ => exact (wf _ rfl).merge shardToMerge adjacentShard

theorem wellFormed_step {env : Env} {store : KinesisStore} (act : Act) (wf : store.WellFormed) :
    (step env store act).WellFormed := by
  rcases step_cases env store act with same | ⟨name, stream, _, change, next⟩
  · rwa [same]
  · intro other found stored
    rw [next, StrMap.getElem?_insert] at stored
    split at stored
    · cases stored
      exact change.wellFormed fun s listed => wf name s listed
    · exact wf other found stored

theorem wellFormed_empty : ({} : KinesisStore).WellFormed := by
  intro name stream stored
  simp at stored

/-- The ids and numbers along every run. -/
theorem wellFormed_run (env : Env) (acts : List Act) :
    Run.AllStates (step env) KinesisStore.WellFormed {} acts :=
  Run.allStates_of_preserved (fun _ act wf => wellFormed_step act wf) _ acts wellFormed_empty

theorem shardId_inj {n m : Nat} (same : shardId n = shardId m) : n = m := by
  have digits : RustFmt.dec 12 n = RustFmt.dec 12 m := by
    have lists := congrArg String.toList same
    rw [shardId, shardId, String.toList_append, String.toList_append] at lists
    exact String.toList_inj.mp (List.append_cancel_left lists)
  rw [← RustFmt.digitsValue_dec 12 n, digits, RustFmt.digitsValue_dec]

/-- The value of a sequence number. -/
def KinesisRecord.number (record : KinesisRecord) : Nat :=
  RustFmt.digitsValue record.sequenceNumber.toList

theorem KinesisStream.WellFormed.nodup {stream : KinesisStream} (wf : stream.WellFormed) :
    (stream.shards.map (·.shardId)).Nodup := by
  rw [wf.ids]
  exact List.nodup_range.map fun _ _ same => shardId_inj same

theorem Shard.Numbered.increasing {shard : Shard} (numbered : shard.Numbered) :
    (shard.records.map (·.number)).Pairwise (· < ·) := by
  have numbers : shard.records.map (·.number) = (List.range shard.records.length).map (· + 1) := by
    have values := congrArg (List.map fun s : String => RustFmt.digitsValue s.toList) numbered.numbers
    simpa [Function.comp_def, KinesisRecord.number, RustFmt.digitsValue_dec] using values
  rw [numbers, List.pairwise_map]
  exact List.pairwise_lt_range.imp fun less => Nat.succ_lt_succ less

/-- The same shard, with further records at the end. -/
structure Shard.Grows (old new : Shard) : Prop where
  shardId : new.shardId = old.shardId
  records : old.records <+: new.records

theorem Shard.Grows.refl (shard : Shard) : shard.Grows shard := ⟨rfl, List.prefix_rfl⟩

theorem Shard.Grows.trans {a b c : Shard} (first : a.Grows b) (second : b.Grows c) : a.Grows c :=
  ⟨second.shardId.trans first.shardId, first.records.trans second.records⟩

theorem Shard.grows_push (shard : Shard) (partitionKey data : String) (now : Instant) :
    shard.Grows (shard.push partitionKey data now) :=
  ⟨rfl, List.prefix_append _ _⟩

theorem Shard.grows_close (shard : Shard) : shard.Grows shard.close := ⟨rfl, List.prefix_rfl⟩

/-- The shards stay in their places, and new ones come behind. -/
def KinesisStream.Grows (old new : KinesisStream) : Prop :=
  ∃ front children, new.shards = front ++ children ∧ List.Forall₂ Shard.Grows old.shards front

def KinesisStore.Grows (old new : KinesisStore) : Prop :=
  ∀ (name : String) stream, old.streams[name]? = some stream →
    ∃ stream', new.streams[name]? = some stream' ∧ stream.Grows stream'

theorem forall₂_modify {R : Shard → Shard → Prop} {f : Shard → Shard} (same : ∀ s, R s s)
    (changed : ∀ s, R s (f s)) (l : List Shard) (i : Nat) : List.Forall₂ R l (l.modify i f) := by
  induction l generalizing i with
  | nil => simp
  | cons a rest ih =>
    cases i with
    | zero => exact .cons (changed a) (List.forall₂_same.mpr fun s _ => same s)
    | succ i => exact .cons (same a) (ih i)

theorem forall₂_grows_trans {a b c : List Shard} (first : List.Forall₂ Shard.Grows a b)
    (second : List.Forall₂ Shard.Grows b c) : List.Forall₂ Shard.Grows a c := by
  induction first generalizing c with
  | nil => exact second
  | cons here _ ih =>
    cases second with
    | cons next later => exact .cons (here.trans next) (ih later)

theorem forall₂_pushAll (env : Env) (now : Instant) (entries : List (String × String))
    (stream : KinesisStream) :
    List.Forall₂ Shard.Grows stream.shards (pushAll env now entries stream).2.shards := by
  induction entries generalizing stream with
  | nil => exact List.forall₂_same.mpr fun s _ => .refl s
  | cons entry rest ih =>
    have first : List.Forall₂ Shard.Grows stream.shards
        (stream.push env entry.1 entry.2 now).2.shards :=
      forall₂_modify Shard.Grows.refl (fun s => s.grows_push entry.1 entry.2 now) _ _
    exact forall₂_grows_trans first (ih (stream.push env entry.1 entry.2 now).2)

theorem Change.grows {env : Env} {act : Act} {old stream : KinesisStream}
    (change : Change env act (some old) stream) : old.Grows stream := by
  cases change with
  | put _ => exact ⟨_, [], (List.append_nil _).symm, forall₂_pushAll env act.now act.entries old⟩
  | split index parent _ => exact ⟨_, _, rfl, forall₂_modify Shard.Grows.refl Shard.grows_close _ index⟩
  | merge shardToMerge adjacentShard _ =>
    refine ⟨_, _, rfl, List.forall₂_map_right_iff.mpr (List.forall₂_same.mpr fun shard _ => ?_)⟩
    split
    · exact shard.grows_close
    · exact .refl shard

theorem grows_step (env : Env) (store : KinesisStore) (act : Act) : store.Grows (step env store act) := by
  intro name stream stored
  have same : stream.Grows stream :=
    ⟨_, [], (List.append_nil _).symm, List.forall₂_same.mpr fun s _ => .refl s⟩
  rcases step_cases env store act with unchanged | ⟨other, changed, _, change, next⟩
  · exact ⟨stream, by rwa [unchanged], same⟩
  · rw [next]
    by_cases here : other = name
    · rw [here, stored] at change
      exact ⟨changed, by simp [here], change.grows⟩
    · exact ⟨stream, by rw [StrMap.getElem?_insert, if_neg here, stored], same⟩

end Openstack.Kinesis

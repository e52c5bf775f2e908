import Openstack.CloudWatch.Logs
import Openstack.Lib.Run

/-!
# Reads against the history

What `GetLogEvents` and `FilterLogEvents` return (`provider.rs`, lines 800-861, 898-947 and 992-1150)
said by the requests that were answered with success before them, stream by stream.
-/
namespace Openstack.CloudWatch

variable {act : Act} {group : String} {k : String × String} {answer : Answer}

/-- What a request leaves of the store. -/
def step (store : CloudWatchStore) (act : Act) : CloudWatchStore := (dispatch act store).2

/-- The requests of a run with their answers. -/
@[grind] def trace : CloudWatchStore → List Act → List (Act × Answer)
  | _, [] => []
  | store, act :: rest => (act, (dispatch act store).1) :: trace (step store act) rest

def Act.names (act : Act) (k : String × String) : Prop :=
  act.group? = some k.1 ∧ act.stream? = some k.2

instance (act : Act) (k : String × String) : Decidable (act.names k) :=
  inferInstanceAs (Decidable (_ ∧ _))

/-- What an answered request makes of the events of a stream; `none` is a stream that does not exist. -/
@[grind] def record (k : String × String) (held : Option (List LogEvent)) (entry : Act × Answer) :
    Option (List LogEvent) :=
  if entry.2.succeeds then
    match entry.1.operation with
    | "CreateLogStream" => if entry.1.names k then some [] else held
    | "PutLogEvents" =>
      if entry.1.names k then held.map (· ++ entry.1.logEvents?.getD []) else held
    | "DeleteLogGroup" => if entry.1.group? = some k.1 then none else held
    | _ => held
  else held

/-- The events of a stream after a run: those of the successful `PutLogEvents` since its creation. -/
def acknowledged (acts : List Act) (k : String × String) : Option (List LogEvent) :=
  (trace {} acts).foldl (record k) none

def matchesPattern (pattern : String) (e : LogEvent) : Bool :=
  RustStr.contains e.message.toList pattern.toList

/-- The streams of the store, and what the two reads say of them; what is not there has no events. -/
structure ReadsRight (held : String × String → Option (List LogEvent)) (store : CloudWatchStore) :
    Prop where
  streams : ∀ k, store.logStreams.contains k = (held k).isSome
  get : ∀ act group stream, act.operation = "GetLogEvents" → act.group? = some group →
    act.stream? = some stream → (dispatch act store).1 = .events ((held (group, stream)).getD [])
  filter : ∀ act group, act.operation = "FilterLogEvents" → act.group? = some group →
    ∃ found, (dispatch act store).1 = .filtered found ∧ ∀ stream,
      (found.filter (·.logStreamName = stream)).map (·.event) =
        ((held (group, stream)).getD []).filter (matchesPattern act.filterPattern)
  absent : ∀ act group, act.operation = "FilterLogEvents" → act.group? = some group →
    store.logGroups.contains group = false → (dispatch act store).1 = .filtered []

structure Agrees (held : String × String → Option (List LogEvent)) (store : CloudWatchStore) : Prop where
  streams : ∀ k, store.logStreams.contains k = (held k).isSome
  events : ∀ k : String × String, store.logEvents[k]?.getD [] = (held k).getD []
  groups : ∀ k, (held k).isSome = true → store.logGroups.contains k.1 = true

section Reading

variable {held : String × String → Option (List LogEvent)} {store : CloudWatchStore}

theorem filterEntry_of (pattern : String) (entry : (String × String) × List LogEvent) (stream : String) :
    ((filterEntry pattern entry).filter (·.logStreamName = stream)).map (·.event) =
      if entry.1.2 = stream then entry.2.filter (matchesPattern pattern) else [] := by
  have test (e : LogEvent) : (pattern.isEmpty || RustStr.contains e.message.toList pattern.toList) =
      matchesPattern pattern e := by
    cases empty : pattern.isEmpty with
    | false => rw [Bool.false_or, matchesPattern]
    | true =>
      have none : pattern.toList = [] := by simpa using empty
      rw [Bool.true_or, matchesPattern, none]
      cases e.message.toList <;> rfl
  rw [filterEntry, List.filter_map]
  by_cases same : entry.1.2 = stream
  · simp [same, Function.comp_def, test]
  · simp [same, Function.comp_def]

theorem flatMap_ite {A B : Type} (l : List A) (p : A → Bool) (f : A → List B) :
    l.flatMap (fun x => if p x then f x else []) = (l.filter p).flatMap f := by
  induction l with
  | nil => rfl
  | cons x rest ih =>
    rw [List.flatMap_cons, ih, List.filter_cons]
    split <;> simp

/-- A filter of a group sees each of its streams once. -/
theorem filterLogEvents_of (store : CloudWatchStore) (named : act.group? = some group) :
    ∃ found, filterLogEvents act store = .filtered found ∧
      ∀ stream, (found.filter (·.logStreamName = stream)).map (·.event) =
        (store.logEvents[(group, stream)]?.getD []).filter (matchesPattern act.filterPattern) := by
  refine ⟨_, by rw [filterLogEvents, named], fun stream => ?_⟩
  rw [List.filter_flatMap, List.map_flatMap]
  have same (entry : (String × String) × List LogEvent) :
      (decide (entry.1.2 = stream) && decide (entry.1.1 = group)) = decide (entry.1 = (group, stream)) := by
    simp [Prod.ext_iff, Bool.and_comm]
  have onlyStream := flatMap_ite (store.logEvents.toList.filter (·.1.1 = group)) (·.1.2 = stream)
    fun entry => entry.2.filter (matchesPattern act.filterPattern)
  simp only [decide_eq_true_iff] at onlyStream
  simp only [filterEntry_of, onlyStream, List.filter_filter, same, PairMap.filter_toList]
  cases store.logEvents[(group, stream)]? <;> simp

theorem Agrees.filter (agrees : Agrees held store)
    (named : act.group? = some group) : ∃ found, filterLogEvents act store = .filtered found ∧
      ∀ stream, (found.filter (·.logStreamName = stream)).map (·.event) =
        ((held (group, stream)).getD []).filter (matchesPattern act.filterPattern) := by
  obtain ⟨found, answer, each⟩ := filterLogEvents_of store named
  refine ⟨found, answer, fun stream => ?_⟩
  rw [each, agrees.events]

/-- A group that does not exist has no streams, and so no events to show. -/
theorem Agrees.filter_of_absent (agrees : Agrees held store)
    (named : act.group? = some group) (absent : store.logGroups.contains group = false) :
    filterLogEvents act store = .filtered [] := by
  obtain ⟨found, answer, each⟩ := agrees.filter named
  rw [answer]
  congr 1
  apply List.eq_nil_iff_forall_not_mem.mpr
  intro e member
  have none : held (group, e.logStreamName) = none := by
    cases there : held (group, e.logStreamName) with
    | none => rfl
    | some es =>
      have present := agrees.groups (group, e.logStreamName) (by rw [there]; rfl)
      rw [absent] at present
      cases present
  have empty := each e.logStreamName
  rw [none, Option.getD_none, List.filter_nil, List.map_eq_nil_iff] at empty
  have there : e ∈ found.filter (·.logStreamName = e.logStreamName) := by simpa using member
  rw [empty] at there
  cases there

theorem Agrees.readsRight (agrees : Agrees held store) : ReadsRight held store where
  streams := agrees.streams
  get act group stream operation named of := by
    simp only [dispatch, operation, getLogEvents, named, of]
    exact congrArg Answer.events (agrees.events (group, stream))
  filter act group operation named := by
    simp only [dispatch, operation]
    exact agrees.filter named
  absent act group operation named absent := by
    simp only [dispatch, operation]
    exact agrees.filter_of_absent named absent

end Reading

section Steps

variable {held : String × String → Option (List LogEvent)} {store : CloudWatchStore} {act : Act}

theorem record_of_error {events : Option (List LogEvent)}
    (failed : answer.succeeds = false) : record k events (act, answer) = events := by
  rw [record, failed]
  rfl

theorem record_of_other {events : Option (List LogEvent)}
    (createStream : act.operation ≠ "CreateLogStream") (put : act.operation ≠ "PutLogEvents")
    (delete : act.operation ≠ "DeleteLogGroup") : record k events (act, answer) = events := by
  unfold record
  split
  · simp only
  · rfl

/-- What is left to show of a request that is refused. -/
theorem agrees_of_error (agrees : Agrees held store) (failed : answer.succeeds = false) :
    Agrees (fun k => record k (held k) (act, answer)) store := by
  simpa only [record_of_error failed] using agrees

/-- More groups, and nothing else. -/
theorem agrees_insertGroup (agrees : Agrees held store) (name : String) (g : LogGroup) :
    Agrees held { store with logGroups := store.logGroups.insert name g } where
  streams := agrees.streams
  events := agrees.events
  groups k present := by
    rw [Std.ExtTreeMap.contains_insert, agrees.groups k present, Bool.or_true]

theorem createLogGroup_agrees (agrees : Agrees held store) (operation : act.operation = "CreateLogGroup") :
    Agrees (fun k => record k (held k) (act, (createLogGroup act store).1)) (createLogGroup act store).2 := by
  have kept : ∀ k events answer, record k events (act, answer) = events := fun _ _ _ =>
    record_of_other (by simp [operation]) (by simp [operation]) (by simp [operation])
  simp only [kept]
  unfold createLogGroup
  cases act.group? with
  | none => exact agrees
  | some name =>
    simp only
    split
    · exact agrees
    · exact agrees_insertGroup agrees name _

theorem putRetentionPolicy_agrees (agrees : Agrees held store)
    (operation : act.operation = "PutRetentionPolicy") :
    Agrees (fun k => record k (held k) (act, (putRetentionPolicy act store).1))
      (putRetentionPolicy act store).2 := by
  have kept : ∀ k events answer, record k events (act, answer) = events := fun _ _ _ =>
    record_of_other (by simp [operation]) (by simp [operation]) (by simp [operation])
  simp only [kept]
  unfold putRetentionPolicy
  cases act.group? with
  | none => exact agrees
  | some name =>
    cases stored : store.logGroups[name]? with
    | none => simpa only [stored] using agrees
    | some g => simpa only [stored] using agrees_insertGroup agrees name _

theorem deleteLogGroup_agrees (agrees : Agrees held store) (operation : act.operation = "DeleteLogGroup") :
    Agrees (fun k => record k (held k) (act, (deleteLogGroup act store).1)) (deleteLogGroup act store).2 := by
  unfold deleteLogGroup
  cases named : act.group? with
  | none => exact agrees_of_error agrees rfl
  | some name =>
    simp only
    split
    · have after (k : String × String) :
          record k (held k) (act, .done) = if k.1 ≠ name then held k else none := by
        simp [record, operation, Answer.succeeds, named, ite_not, eq_comm]
      simp only [after]
      refine ⟨fun k => ?_, fun k => ?_, fun k present => ?_⟩
      · have streams := agrees.streams k
        rw [Std.ExtTreeMap.contains_eq_isSome_getElem?] at streams ⊢
        simp only [CloudWatchStore.removeGroup, PairMap.getElem?_retain, decide_eq_true_iff]
        split <;> simp [streams]
      · simp only [CloudWatchStore.removeGroup, PairMap.getElem?_retain, decide_eq_true_iff]
        split
        · exact agrees.events k
        · rfl
      · split at present
        · next other =>
          simp only [CloudWatchStore.removeGroup, Std.ExtTreeMap.contains_erase, agrees.groups k present,
            Bool.and_true]
          simpa using Ne.symm other
        · cases present
    · exact agrees_of_error agrees rfl

theorem createLogStream_agrees (agrees : Agrees held store)
    (operation : act.operation = "CreateLogStream") :
    Agrees (fun k => record k (held k) (act, (createLogStream act store).1))
      (createLogStream act store).2 := by
  unfold createLogStream
  cases group : act.group? with
  | none => exact agrees_of_error agrees rfl
  | some name =>
    cases stream : act.stream? with
    | none => exact agrees_of_error agrees rfl
    | some streamName =>
      simp only
      split
      · next known =>
        split
        · exact agrees_of_error agrees rfl
        · next absent =>
          have unheld : held (name, streamName) = none := by
            simpa using (agrees.streams (name, streamName)).symm.trans ((Bool.not_eq_true _).mp absent)
          have after (k : String × String) :
              record k (held k) (act, .done) = if (name, streamName) = k then some [] else held k := by
            simp only [record, operation, Answer.succeeds, if_true, Act.names, group, stream,
              Option.some.injEq, Prod.ext_iff]
          simp only [after]
          refine ⟨fun k => ?_, fun k => ?_, fun k present => ?_⟩
          · have streams := agrees.streams k
            rw [Std.ExtTreeMap.contains_eq_isSome_getElem?] at streams ⊢
            rw [PairMap.getElem?_insert]
            split
            · rfl
            · exact streams
          · split
            · next same =>
              subst same
              rw [agrees.events, unheld]
              rfl
            · exact agrees.events k
          · split at present
            · next same =>
              subst same
              exact known
            · exact agrees.groups k present
      · exact agrees_of_error agrees rfl

theorem agrees_append (agrees : Agrees held store) (there : (held k).isSome = true)
    (s : LogStream) (es : List LogEvent) :
    Agrees (fun k' => if k = k' then (held k').map (· ++ es) else held k') (store.append k s es) where
  streams k' := by
    have streams := agrees.streams k'
    rw [Std.ExtTreeMap.contains_eq_isSome_getElem?] at streams ⊢
    rw [CloudWatchStore.append, PairMap.getElem?_insert]
    split
    · next same =>
      subst same
      simpa using there.symm
    · exact streams
  events k' := by
    rw [CloudWatchStore.append, PairMap.getElem?_insert]
    split
    · next same =>
      subst same
      obtain ⟨before, held⟩ := Option.isSome_iff_exists.mp there
      rw [Option.getD_some, agrees.events, held]
      rfl
    · exact agrees.events k'
  groups k' present := by
    split at present
    · exact agrees.groups k' (by simpa using present)
    · exact agrees.groups k' present

theorem putLogEvents_agrees (agrees : Agrees held store) (operation : act.operation = "PutLogEvents") :
    Agrees (fun k => record k (held k) (act, (putLogEvents act store).1)) (putLogEvents act store).2 := by
  unfold putLogEvents
  cases group : act.group? with
  | none => exact agrees_of_error agrees rfl
  | some name =>
    cases stream : act.stream? with
    | none => exact agrees_of_error agrees rfl
    | some streamName =>
      cases stored : store.logStreams[(name, streamName)]? with
      | none => simpa only [stored] using agrees_of_error agrees rfl
      | some s =>
        have there : (held (name, streamName)).isSome = true := by
          rw [← agrees.streams, Std.ExtTreeMap.contains_eq_isSome_getElem?, stored]
          rfl
        have after (k : String × String) : record k (held k) (act, .done) =
            if (name, streamName) = k then (held k).map (· ++ act.logEvents?.getD []) else held k := by
          simp only [record, operation, Answer.succeeds, if_true, Act.names, group, stream,
            Option.some.injEq, Prod.ext_iff]
        cases sent : act.logEvents? with
        | none =>
          have nothing :
              (fun k => if (name, streamName) = k then (held k).map (· ++ []) else held k) = held := by
            funext k
            simp
          simpa only [stored, after, sent, Option.getD_none, nothing] using agrees
        | some es =>
          simpa only [stored, after, sent, Option.getD_some] using agrees_append agrees there s es

theorem step_agrees (agrees : Agrees held store) :
    Agrees (fun k => record k (held k) (act, (dispatch act store).1)) (step store act) := by
  have reading (op : String) (operation : act.operation = op)
      (other : op ≠ "CreateLogStream" ∧ op ≠ "PutLogEvents" ∧ op ≠ "DeleteLogGroup")
      (answer : Answer) :
      Agrees (fun k => record k (held k) (act, answer)) store := by
    subst operation
    simpa only [record_of_other other.1 other.2.1 other.2.2] using agrees
  unfold step dispatch
  split
  · next operation => exact createLogGroup_agrees agrees operation
  · next operation => exact deleteLogGroup_agrees agrees operation
  · next operation => exact reading _ operation (by decide) _
  · next operation => exact createLogStream_agrees agrees operation
  · next operation => exact reading _ operation (by decide) _
  · next operation => exact putLogEvents_agrees agrees operation
  · next operation => exact reading _ operation (by decide) _
  · next operation => exact reading _ operation (by decide) _
  · next operation => exact putRetentionPolicy_agrees agrees operation
  · exact agrees_of_error agrees rfl

end Steps

theorem run_agrees (acts : List Act) {held : String × String → Option (List LogEvent)}
    {store : CloudWatchStore} (agrees : Agrees held store) :
    Agrees (fun k => (trace store acts).foldl (record k) (held k)) (acts.foldl step store) := by
  induction acts generalizing held store with
  | nil => exact agrees
  | cons act rest ih => exact ih (step_agrees agrees)

theorem agrees_empty : Agrees (fun _ => none) {} where
  streams k := by simp
  events k := by simp
  groups k present := by cases present

/-- Every acknowledged event is read back from its stream, once and in order, and nothing else is. -/
theorem reads_give_acknowledged (acts : List Act) : ReadsRight (acknowledged acts) (acts.foldl step {}) :=
  (run_agrees acts agrees_empty).readsRight

end Openstack.CloudWatch

import Openstack.Lambda.WarmPool
import Openstack.Lib.Custody

/-!
# Leaked containers

Every started container is in the custody of an entry of the warm pool or of a task, unless an entry is
taken out of the pool and its container left behind (`docker.rs`, lines 300-342, 478-503 and 505-537):
`evict_expired` removes the container of an entry that it takes out, `invoke` does not, nor does
`cold_start` that of an entry which it replaces.
-/
namespace Openstack.Lambda

def Task.isDone : Task → Bool
  | .done => true
  | _ => false

/-- No invocation and no eviction is in progress. -/
def World.AtRest (w : World) : Prop := ∀ task ∈ w.tasks, task.isDone = true

instance (w : World) : Decidable w.AtRest := inferInstanceAs (Decidable (∀ task ∈ w.tasks, _))

/-- The containers that are started and not removed are those that the warm pool refers to. -/
def World.PoolExact (w : World) : Prop :=
  ∀ id, id ∈ w.containers.running ↔ ∃ (arn : String) (entry : WarmContainer),
    w.containers.warmPool[arn]? = some entry ∧ entry.containerId = id

/-- The entry of the warm pool that a step takes out without its container. -/
def World.displaced (config : Config) (w : World) (act : Act) : Option WarmContainer :=
  match act with
  | .advance i o =>
    match w.tasks[i]? with
    | some (.removeEntry f) => w.containers.warmPool[f.functionArn]?
    | some (.awaitCold f _) =>
      if 0 < config.keepaliveMs ∧ o.result.isAnswer = true then w.containers.warmPool[f.functionArn]? else none
    | _ => none
  | _ => none

/-- The container that a task will remove or put into the pool. -/
def Task.holds : Task → Option Nat
  | .awaitCold _ id | .cleanup id | .evictCleanup id _ => some id
  | _ => none

/-- The holders are the keys of the pool and the tasks. -/
def holderOf (pool : StrMap WarmContainer) (tasks : List Task) : String ⊕ Nat → Option Nat
  | .inl arn => pool[arn]?.map (·.containerId)
  | .inr i => tasks[i]?.bind Task.holds

def World.custody (w : World) : Custody (String ⊕ Nat) Nat where
  live := {id | id ∈ w.containers.running}
  holds := holderOf w.containers.warmPool w.tasks

structure World.Sound (w : World) : Prop where
  exclusive : w.custody.Exclusive
  known : ∀ id ∈ w.containers.running, id < w.containers.specs.length

section Holders

variable {pool : StrMap WarmContainer} {tasks : List Task} {i : Nat} {task next : Task} {arn : String}

theorem holderOf_append (idle : task.holds = none) :
    holderOf pool (tasks ++ [task]) = holderOf pool tasks := by
  funext holder
  cases holder with
  | inl arn => rfl
  | inr j =>
    change (tasks ++ [task])[j]?.bind Task.holds = tasks[j]?.bind Task.holds
    rcases Nat.lt_trichotomy j tasks.length with below | here | above
    · rw [List.getElem?_append_left below]
    · subst here
      simp [idle]
    · rw [List.getElem?_eq_none (by simp; omega), List.getElem?_eq_none (by omega)]

theorem holderOf_set (there : tasks[i]? = some task) :
    holderOf pool (tasks.set i next) = Function.update (holderOf pool tasks) (.inr i) next.holds := by
  obtain ⟨below, -⟩ := List.getElem?_eq_some_iff.mp there
  funext holder
  cases holder with
  | inl arn => rfl
  | inr j =>
    change (tasks.set i next)[j]?.bind Task.holds = _
    rw [List.getElem?_set]
    by_cases same : i = j
    · subst same
      rw [if_pos rfl, if_pos below, Function.update_self]
      rfl
    · rw [if_neg same, Function.update_of_ne (by simp [Ne.symm same])]
      rfl

theorem holderOf_task (there : tasks[i]? = some task) : holderOf pool tasks (.inr i) = task.holds := by
  change tasks[i]?.bind Task.holds = _
  rw [there, Option.bind_some]

theorem holderOf_insert (entry : WarmContainer) : holderOf (pool.insert arn entry) tasks =
    Function.update (holderOf pool tasks) (.inl arn) (some entry.containerId) := by
  funext holder
  cases holder with
  | inl key =>
    change (pool.insert arn entry)[key]?.map _ = _
    rw [StrMap.getElem?_insert]
    by_cases same : arn = key
    · subst same
      rw [if_pos rfl, Function.update_self, Option.map_some]
    · rw [if_neg same, Function.update_of_ne (by simp [Ne.symm same])]
      rfl
  | inr j => rw [Function.update_of_ne (by simp)]; rfl

theorem holderOf_erase : holderOf (pool.erase arn) tasks =
    Function.update (holderOf pool tasks) (.inl arn) none := by
  funext holder
  cases holder with
  | inl key =>
    change (pool.erase arn)[key]?.map _ = _
    rw [StrMap.getElem?_erase]
    by_cases same : arn = key
    · subst same
      rw [if_pos rfl, Function.update_self, Option.map_none]
    · rw [if_neg same, Function.update_of_ne (by simp [Ne.symm same])]
      rfl
  | inr j => rw [Function.update_of_ne (by simp)]; rfl

theorem holderOf_set_same (there : tasks[i]? = some task) (next : Task) (same : next.holds = task.holds) :
    holderOf pool (tasks.set i next) = holderOf pool tasks := by
  rw [holderOf_set there, same, ← holderOf_task there, Function.update_eq_self]

end Holders

/-- The invariant holds after the step, and what is lost after it was lost before or is dropped in it. -/
structure Keeps (w w' : World) (dropped : Option Nat) : Prop where
  sound : w'.Sound
  lost : ∀ id, w'.custody.Lost id ↔ w.custody.Lost id ∨ dropped = some id

section Steps

variable {config : Config} {w w' : World} {i : Nat} {o : Outcome} {task : Task}

theorem keeps_same (sound : w.Sound) (custody : w'.custody = w.custody)
    (specs : w'.containers.specs = w.containers.specs) : Keeps w w' none := by
  refine ⟨⟨custody ▸ sound.exclusive, fun id member => ?_⟩, fun id => by simp [custody]⟩
  have live : id ∈ w'.custody.live := member
  rw [custody] at live
  rw [specs]
  exact sound.known id live

/-- A step that leaves the pool and the containers alone. -/
theorem keeps_task (sound : w.Sound) (there : w.tasks[i]? = some task) (next : Task)
    (made : task.step config.keepaliveMs o w.containers = (next, w.containers))
    (same : next.holds = task.holds) : Keeps w (w.step config (.advance i o)) none := by
  have stepped : w.step config (.advance i o) = { w with tasks := w.tasks.set i next } := by
    simp only [World.step, there, made]
  rw [stepped]
  refine keeps_same sound ?_ rfl
  rw [World.custody, World.custody, holderOf_set_same there next same]

theorem holds_task (there : w.tasks[i]? = some task) : w.custody.holds (.inr i) = task.holds := by
  change w.tasks[i]?.bind Task.holds = _
  rw [there, Option.bind_some]

theorem holds_pool {arn : String} {entry : WarmContainer}
    (found : w.containers.warmPool[arn]? = some entry) :
    w.custody.holds (.inl arn) = some entry.containerId := by
  change w.containers.warmPool[arn]?.map _ = _
  rw [found, Option.map_some]

theorem step_advance (there : w.tasks[i]? = some task) (next : Task) (c : Containers)
    (made : task.step config.keepaliveMs o w.containers = (next, c)) :
    w.step config (.advance i o) = { w with containers := c, tasks := w.tasks.set i next } := by
  simp only [World.step, there, made]

theorem keeps_checkPool (sound : w.Sound) {f : FuncData} (there : w.tasks[i]? = some (.checkPool f)) :
    Keeps w (w.step config (.advance i o)) none := by
  cases found : if config.keepaliveMs = 0 then none else w.containers.warmPool[f.functionArn]? with
  | none => exact keeps_task sound there (.coldStart f) (by rw [Task.step, found]) rfl
  | some entry =>
    by_cases usable : o.now - entry.lastUsed < config.keepaliveMs ∧ o.isOpen = true
    · have pooled : w.containers.warmPool[f.functionArn]? = some entry := by
        split at found
        · cases found
        · exact found
      rw [step_advance there (.awaitWarm f entry.containerId) _
        (by rw [Task.step, found]; dsimp only; rw [if_pos usable])]
      refine keeps_same sound ?_ rfl
      rw [World.custody, World.custody]
      congr 1
      refine (holderOf_set_same there (.awaitWarm f entry.containerId) rfl).trans ?_
      refine (holderOf_insert _).trans (Function.update_eq_self_iff.mpr ?_)
      change some entry.containerId = w.containers.warmPool[f.functionArn]?.map _
      rw [pooled, Option.map_some]
    · exact keeps_task sound there (.removeEntry f)
        (by rw [Task.step, found]; dsimp only; rw [if_neg usable]) rfl

theorem keeps_removeEntry (sound : w.Sound) {f : FuncData} (there : w.tasks[i]? = some (.removeEntry f)) :
    Keeps w (w.step config (.advance i o)) (w.custody.holds (.inl f.functionArn)) := by
  rw [step_advance there (.coldStart f) (w.containers.erase f.functionArn) rfl]
  have custody : ({ w with
      containers := w.containers.erase f.functionArn
      tasks := w.tasks.set i (.coldStart f) } : World).custody = w.custody.drop (.inl f.functionArn) := by
    rw [World.custody, World.custody, Custody.drop]
    congr 1
    exact (holderOf_set_same there (.coldStart f) rfl).trans holderOf_erase
  refine ⟨⟨custody ▸ sound.exclusive.drop _, sound.known⟩, fun id => ?_⟩
  rw [custody, Custody.lost_drop sound.exclusive]

theorem keeps_coldStart (sound : w.Sound) {f : FuncData} (there : w.tasks[i]? = some (.coldStart f)) :
    Keeps w (w.step config (.advance i o)) none := by
  by_cases prepared : o.prepared = true
  · let next : Task :=
      if o.queued = true then .awaitCold f w.containers.specs.length else .cleanup w.containers.specs.length
    have holds : next.holds = some w.containers.specs.length := by
      unfold next
      split
      · rfl
      · rfl
    rw [step_advance there next (w.containers.start f.spec) (by rw [Task.step, if_pos prepared])]
    have custody : ({ w with
        containers := w.containers.start f.spec
        tasks := w.tasks.set i next } : World).custody =
          w.custody.gain (.inr i) w.containers.specs.length := by
      rw [World.custody, World.custody, Custody.gain]
      congr 1
      · ext id
        simp [Containers.start, or_comm]
      · exact (holderOf_set there).trans (by rw [holds]; rfl)
    have fresh : w.containers.specs.length ∉ w.custody.live := fun old =>
      absurd (sound.known _ old) (Nat.lt_irrefl _)
    have free : w.custody.holds (.inr i) = none := holds_task there
    refine ⟨⟨custody ▸ sound.exclusive.gain fresh, fun id member => ?_⟩, fun id => ?_⟩
    · simp only [Containers.start, List.mem_append, List.mem_singleton, List.length_append,
        List.length_singleton] at member ⊢
      rcases member with old | new
      · have below := sound.known id old
        omega
      · omega
    · rw [custody, Custody.lost_gain fresh free]
      simp
  · exact keeps_task sound there .done (by rw [Task.step, if_neg prepared]) rfl

theorem keeps_awaitCold (sound : w.Sound) {f : FuncData} {id : Nat}
    (there : w.tasks[i]? = some (.awaitCold f id)) :
    Keeps w (w.step config (.advance i o))
      (if 0 < config.keepaliveMs ∧ o.result.isAnswer = true then w.custody.holds (.inl f.functionArn)
        else none) := by
  by_cases kept : 0 < config.keepaliveMs ∧ o.result.isAnswer = true
  · rw [if_pos kept, step_advance there .done (w.containers.insert f.functionArn ⟨id, o.now⟩)
      (by rw [Task.step, if_pos kept])]
    have here : holderOf w.containers.warmPool w.tasks (.inr i) = some id := holderOf_task there
    have custody : ({ w with
        containers := w.containers.insert f.functionArn ⟨id, o.now⟩
        tasks := w.tasks.set i .done } : World).custody =
          (w.custody.drop (.inl f.functionArn)).give (.inr i) (.inl f.functionArn) := by
      rw [Custody.give_drop (by simp), World.custody, World.custody]
      congr 1
      refine (holderOf_set there).trans ?_
      refine (congrArg (Function.update · (Sum.inr i) none) (holderOf_insert ⟨id, o.now⟩)).trans ?_
      dsimp only
      rw [here]
    have dropped := sound.exclusive.drop (.inl f.functionArn)
    refine ⟨⟨custody ▸ dropped.give _ _, sound.known⟩, fun x => ?_⟩
    rw [custody, Custody.lost_give (by simp) (by simp [Custody.drop]), Custody.lost_drop sound.exclusive]
  · rw [if_neg kept]
    exact keeps_task sound there (.cleanup id) (by rw [Task.step, if_neg kept]) rfl

/-- `cleanup_container`, by the task that has the container. -/
theorem keeps_remove (sound : w.Sound) (there : w.tasks[i]? = some task) {id : Nat}
    (holds : task.holds = some id) {next : Task} (idle : next.holds = none)
    (made : task.step config.keepaliveMs o w.containers = (next, w.containers.remove id)) :
    Keeps w (w.step config (.advance i o)) none := by
  rw [step_advance there next _ made]
  have here : holderOf w.containers.warmPool w.tasks (.inr i) = some id := (holderOf_task there).trans holds
  have custody : ({ w with
      containers := w.containers.remove id
      tasks := w.tasks.set i next } : World).custody = w.custody.release (.inr i) := by
    rw [World.custody, World.custody, Custody.release]
    congr 1
    · ext x
      simp [Containers.remove, here, @eq_comm _ id]
    · exact (holderOf_set there).trans (by rw [idle]; rfl)
  refine ⟨⟨custody ▸ sound.exclusive.release _, fun x member => ?_⟩, fun x => ?_⟩
  · exact sound.known x (List.mem_of_mem_filter member)
  · rw [custody, Custody.lost_release]
    simp

theorem keeps_evict (sound : w.Sound) {expired : List String} (there : w.tasks[i]? = some (.evict expired)) :
    Keeps w (w.step config (.advance i o)) none := by
  cases expired with
  | nil => exact keeps_task sound there .done rfl rfl
  | cons key rest =>
    cases found : w.containers.warmPool[key]? with
    | none => exact keeps_task sound there (.evict rest) (by rw [Task.step, found]) rfl
    | some entry =>
      rw [step_advance there (.evictCleanup entry.containerId rest) (w.containers.erase key)
        (by rw [Task.step, found])]
      have free : w.custody.holds (.inr i) = none := holds_task there
      have custody : ({ w with
          containers := w.containers.erase key
          tasks := w.tasks.set i (.evictCleanup entry.containerId rest) } : World).custody =
            w.custody.give (.inl key) (.inr i) := by
        rw [World.custody, World.custody, Custody.give]
        congr 1
        refine (holderOf_set there).trans ?_
        refine (congrArg (Function.update · (Sum.inr i) _) holderOf_erase).trans ?_
        exact congrArg (Function.update _ (Sum.inr i)) (holds_pool found).symm
      refine ⟨⟨custody ▸ sound.exclusive.give _ _, sound.known⟩, fun x => ?_⟩
      rw [custody, Custody.lost_give (by simp) free]
      simp

theorem keeps_idle (sound : w.Sound) (c : w'.containers = w.containers)
    (tasks : holderOf w.containers.warmPool w'.tasks = holderOf w.containers.warmPool w.tasks) :
    Keeps w w' none := by
  refine keeps_same sound ?_ (by rw [c])
  rw [World.custody, World.custody, c, tasks]

/-- What a step loses is what it displaces. -/
theorem keeps_step (sound : w.Sound) (act : Act) :
    Keeps w (w.step config act) ((w.displaced config act).map (·.containerId)) := by
  cases act with
  | request operation call => exact keeps_idle sound rfl rfl
  | invoke call invocationType =>
    refine keeps_idle sound rfl ?_
    change holderOf _ (w.tasks ++ ((w.lookup call invocationType).map Task.checkPool).toList) = _
    cases w.lookup call invocationType with
    | none => rw [Option.map_none, Option.toList_none, List.append_nil]
    | some f => exact holderOf_append rfl
  | evict expired => exact keeps_idle sound rfl (holderOf_append rfl)
  | advance i o =>
    cases there : w.tasks[i]? with
    | none =>
      have still : w.step config (.advance i o) = w := by simp only [World.step, there]
      rw [still, World.displaced, there]
      exact keeps_same sound rfl rfl
    | some task =>
      rw [World.displaced, there]
      cases task with
      | checkPool f => exact keeps_checkPool sound there
      | removeEntry f => exact keeps_removeEntry sound there
      | coldStart f => exact keeps_coldStart sound there
      | awaitWarm f id => exact keeps_task sound there .done rfl rfl
      | awaitCold f id =>
        have kept := @keeps_awaitCold config w i o sound f id there
        dsimp only
        split at kept
        · next answered => rwa [if_pos answered]
        · next unanswered => rwa [if_neg unanswered]
      | cleanup id => exact keeps_remove sound there rfl rfl rfl
      | evict expired => exact keeps_evict sound there
      | evictCleanup id rest => exact keeps_remove sound there rfl rfl rfl
      | done => exact keeps_task sound there .done rfl rfl

end Steps

def World.NothingLost (w : World) : Prop := ∀ id, ¬ w.custody.Lost id

def World.DisplacesNothing (config : Config) (w : World) (act : Act) : Prop := w.displaced config act = none

theorem nothingLost_step_iff {config : Config} {w : World} (sound : w.Sound) (act : Act) :
    (w.step config act).NothingLost ↔ w.NothingLost ∧ w.DisplacesNothing config act := by
  have kept := @keeps_step config w sound act
  constructor
  · intro next
    refine ⟨fun id lost => next id ((kept.lost id).mpr (Or.inl lost)), ?_⟩
    cases displaced : w.displaced config act with
    | none => exact displaced
    | some entry => exact absurd ((kept.lost _).mpr (Or.inr (by rw [displaced]; rfl))) (next entry.containerId)
  · rintro ⟨before, nothing⟩ id lost
    rcases (kept.lost id).mp lost with old | new
    · exact before id old
    · rw [nothing] at new
      cases new

theorem nothingLost_run_iff (config : Config) {w : World} (sound : w.Sound) (acts : List Act) :
    (acts.foldl (World.step config) w).Sound ∧ ((acts.foldl (World.step config) w).NothingLost ↔
      w.NothingLost ∧ Run.AllSteps (World.step config) (World.DisplacesNothing config) w acts) := by
  induction acts generalizing w with
  | nil => exact ⟨sound, (and_iff_left trivial).symm⟩
  | cons act rest ih =>
    obtain ⟨later, run⟩ := ih (@keeps_step config w sound act).sound
    refine ⟨later, run.trans ?_⟩
    rw [nothingLost_step_iff sound, and_assoc]
    rfl

/-- At rest only the pool has containers. -/
theorem poolExact_iff {w : World} (sound : w.Sound) (rest : w.AtRest) : w.PoolExact ↔ w.NothingLost := by
  have idle (i : Nat) : w.custody.holds (.inr i) = none := by
    cases there : w.tasks[i]? with
    | none =>
      change w.tasks[i]?.bind Task.holds = none
      rw [there, Option.bind_none]
    | some task =>
      have done := rest task (List.mem_of_getElem? there)
      rw [holds_task there]
      cases task with
      | done => rfl
      | checkPool _ | removeEntry _ | coldStart _ | awaitWarm _ _ | awaitCold _ _ | cleanup _ | evict _
      | evictCleanup _ _ => cases done
  have pooled (id : Nat) : (∃ holder, w.custody.holds holder = some id) ↔
      ∃ (arn : String) (entry : WarmContainer),
        w.containers.warmPool[arn]? = some entry ∧ entry.containerId = id := by
    constructor
    · rintro ⟨arn | i, held⟩
      · obtain ⟨entry, found, same⟩ := Option.map_eq_some_iff.mp held
        exact ⟨arn, entry, found, same⟩
      · rw [idle] at held
        cases held
    · rintro ⟨arn, entry, found, rfl⟩
      exact ⟨.inl arn, holds_pool found⟩
  constructor
  · rintro same id ⟨running, unheld⟩
    obtain ⟨holder, held⟩ := (pooled id).mpr ((same id).mp running)
    exact unheld holder held
  · intro nothing id
    rw [← pooled]
    constructor
    · intro running
      by_contra unheld
      exact nothing id ⟨running, fun holder held => unheld ⟨holder, held⟩⟩
    · rintro ⟨holder, held⟩
      exact sound.exclusive.live holder id held

/-- At the end of a run with nothing in progress, the started containers are those of the pool exactly
when no step has displaced an entry of the pool. -/
theorem containers_pooled_iff (config : Config) (acts : List Act)
    (rest : (acts.foldl (World.step config) {}).AtRest) :
    (acts.foldl (World.step config) {}).PoolExact ↔
      Run.AllSteps (World.step config) (World.DisplacesNothing config) {} acts := by
  have unheld (holder : String ⊕ Nat) : (World.custody {}).holds holder = none := by
    cases holder with
    | inl arn => simp [World.custody, holderOf]
    | inr i => simp [World.custody, holderOf]
  have start : World.Sound {} := by
    refine ⟨⟨fun holder id held => ?_, fun p q id held => ?_⟩, by simp⟩
    · rw [unheld] at held
      cases held
    · rw [unheld] at held
      cases held
  have clean : World.NothingLost {} := by
    rintro id ⟨live, -⟩
    cases live
  obtain ⟨sound, run⟩ := nothingLost_run_iff config start acts
  rw [poolExact_iff sound rest, run, and_iff_right clean]

section Example

/-- A cold start, a warm one and the eviction of the container. -/
def evictedActs : List Act := [createOrders "UEsB", invokeOrders, proceed 0 1, proceed 0 2, proceed 0 3,
  invokeOrders, proceed 1 4, proceed 1 5, .evict [ordersArn], proceed 2 600006, proceed 2 600007,
  proceed 2 600008]

theorem containers_pooled_evicted : (evictedActs.foldl (World.step localConfig) {}).PoolExact ↔
    Run.AllSteps (World.step localConfig) (World.DisplacesNothing localConfig) {} evictedActs :=
  containers_pooled_iff localConfig evictedActs (by decide +kernel)

/-- Two cold starts of one function that overlap. -/
def overlappingActs : List Act := [createOrders "UEsB", invokeOrders, invokeOrders, proceed 0 1,
  proceed 1 2, proceed 0 3, proceed 1 4, proceed 0 5, proceed 1 6]

/-- The second cold start replaces the entry of the first, whose container runs on. -/
theorem overlapping_cold_starts_leak : ¬ ((overlappingActs.foldl (World.step localConfig) {}).AtRest →
    (overlappingActs.foldl (World.step localConfig) {}).PoolExact) := by
  intro exact_
  have same := exact_ (by decide +kernel)
  generalize made : overlappingActs.foldl (World.step localConfig) {} = w at same
  have running : 0 ∈ w.containers.running := by
    subst made
    decide +kernel
  have pooled : (StrMap.values w.containers.warmPool).map (·.containerId) = [1] := by
    subst made
    decide +kernel
  obtain ⟨arn, entry, found, zero⟩ := (same 0).mp running
  have member := List.mem_map_of_mem (StrMap.mem_values.mpr ⟨arn, found⟩) (f := (·.containerId))
  rw [pooled, zero] at member
  revert member
  decide

end Example

end Openstack.Lambda

import Openstack.Lambda.WarmPool

/-!
# Stale containers

`DockerExecutor::invoke` asks the warm pool before it looks at the function that `Invoke` passes to it
(`docker.rs`, lines 300-342), and no request on the functions touches the pool (`provider.rs`, lines
416-495): a container answers for the code, handler, runtime and environment that it was started with.
-/
namespace Openstack.Lambda

/-- The function and the container of an invocation that waits for its answer. -/
def Task.awaits : Task → Option (FuncData × Nat)
  | .awaitWarm f id | .awaitCold f id => some (f, id)
  | _ => none

/-- An invocation that a container answers in this step is answered by one that was started with what
the invocation found when it looked the function up. -/
def World.AnsweredRight (w : World) : Act → Prop
  | .advance i o => o.result.isAnswer = true → ∀ f id,
      w.tasks[i]?.bind Task.awaits = some (f, id) → w.containers.specs[id]? = some f.spec
  | _ => True

/-- Whichever invocation is answered next. -/
def World.AnswersRight (w : World) : Prop := ∀ act, w.AnsweredRight act

/-- The container of the pool that a task takes, for its function. -/
def Task.reuses (keepaliveMs : Nat) (o : Outcome) (c : Containers) : Task → Option (FuncData × Nat)
  | .checkPool f =>
    match if keepaliveMs = 0 then none else c.warmPool[f.functionArn]? with
    | none => none
    | some entry =>
      if o.now - entry.lastUsed < keepaliveMs ∧ o.isOpen = true then some (f, entry.containerId) else none
  | _ => none

/-- An invocation that takes a container of the pool looked up what the container was started with. -/
def World.ReusesSame (config : Config) (w : World) : Act → Prop
  | .advance i o => ∀ f id, w.tasks[i]?.bind (Task.reuses config.keepaliveMs o w.containers) = some (f, id) →
      w.containers.specs[id]? = some f.spec
  | _ => True

section Tasks

variable {keepaliveMs : Nat} {o : Outcome} {task : Task} {c : Containers} {f : FuncData} {id : Nat}

/-- The containers that are there stay what they were started with. -/
theorem Task.specs_step (spec : ContainerSpec) (known : c.specs[id]? = some spec) :
    (task.step keepaliveMs o c).2.specs[id]? = some spec := by
  have appended : ∃ started, (task.step keepaliveMs o c).2.specs = c.specs ++ started := by
    cases task with
    | checkPool g =>
      simp only [Task.step]
      split
      · exact ⟨[], (List.append_nil _).symm⟩
      · split
        · exact ⟨[], (List.append_nil _).symm⟩
        · exact ⟨[], (List.append_nil _).symm⟩
    | coldStart g =>
      simp only [Task.step]
      split
      · exact ⟨[g.spec], rfl⟩
      · exact ⟨[], (List.append_nil _).symm⟩
    | awaitCold g new =>
      simp only [Task.step]
      split
      · exact ⟨[], (List.append_nil _).symm⟩
      · exact ⟨[], (List.append_nil _).symm⟩
    | evict expired =>
      cases expired with
      | nil => exact ⟨[], (List.append_nil _).symm⟩
      | cons key rest =>
        simp only [Task.step]
        split
        · exact ⟨[], (List.append_nil _).symm⟩
        · exact ⟨[], (List.append_nil _).symm⟩
    | removeEntry _ | awaitWarm _ _ | cleanup _ | evictCleanup _ _ | done =>
      exact ⟨[], (List.append_nil _).symm⟩
  obtain ⟨started, specs⟩ := appended
  obtain ⟨below, -⟩ := List.getElem?_eq_some_iff.mp known
  rw [specs, List.getElem?_append_left below, known]

/-- A task comes to wait for a container that it takes from the pool, or for one that it has started. -/
theorem Task.awaits_step (awaits : (task.step keepaliveMs o c).1.awaits = some (f, id)) :
    task.reuses keepaliveMs o c = some (f, id) ∨
      (task.step keepaliveMs o c).2.specs[id]? = some f.spec := by
  cases task with
  | checkPool g =>
    rw [Task.step] at awaits
    cases found : if keepaliveMs = 0 then none else c.warmPool[g.functionArn]? with
    | none =>
      rw [found] at awaits
      cases awaits
    | some entry =>
      rw [found] at awaits
      dsimp only at awaits
      by_cases usable : o.now - entry.lastUsed < keepaliveMs ∧ o.isOpen = true
      · rw [if_pos usable] at awaits
        rw [Task.reuses, found]
        exact Or.inl ((if_pos usable).trans awaits)
      · rw [if_neg usable] at awaits
        cases awaits
  | coldStart g =>
    simp only [Task.step] at awaits ⊢
    split at awaits
    · next prepared =>
      split at awaits
      · cases awaits
        rw [if_pos prepared]
        exact Or.inr List.getElem?_concat_length
      · cases awaits
    · cases awaits
  | awaitCold g new =>
    simp only [Task.step] at awaits
    split at awaits
    · cases awaits
    · cases awaits
  | evict expired =>
    cases expired with
    | nil => cases awaits
    | cons key rest =>
      simp only [Task.step] at awaits
      split at awaits
      · cases awaits
      · cases awaits
  | removeEntry _ | awaitWarm _ _ | cleanup _ | evictCleanup _ _ | done => cases awaits

/-- A task that takes a container of the pool waits for it. -/
theorem Task.awaits_of_reuses (reuses : task.reuses keepaliveMs o c = some (f, id)) :
    (task.step keepaliveMs o c).1.awaits = some (f, id) ∧ (task.step keepaliveMs o c).2.specs = c.specs := by
  cases task with
  | checkPool g =>
    rw [Task.reuses] at reuses
    cases found : if keepaliveMs = 0 then none else c.warmPool[g.functionArn]? with
    | none =>
      rw [found] at reuses
      cases reuses
    | some entry =>
      rw [found] at reuses
      dsimp only at reuses
      by_cases usable : o.now - entry.lastUsed < keepaliveMs ∧ o.isOpen = true
      · rw [if_pos usable] at reuses
        rw [Task.step, found]
        dsimp only
        rw [if_pos usable]
        exact ⟨reuses, rfl⟩
      · rw [if_neg usable] at reuses
        cases reuses
  | removeEntry _ | coldStart _ | awaitWarm _ _ | awaitCold _ _ | cleanup _ | evict _ | evictCleanup _ _
  | done => cases reuses

end Tasks

section Steps

variable {config : Config} {w : World} {act : Act}

/-- Every invocation that waits for an answer waits for a container that was started with what it looked
up. -/
theorem answersRight_iff : w.AnswersRight ↔ ∀ (i : Nat) (f : FuncData) (id : Nat),
    w.tasks[i]?.bind Task.awaits = some (f, id) → w.containers.specs[id]? = some f.spec := by
  constructor
  · intro right i f id
    exact right (.advance i ⟨0, true, true, true, .success ""⟩) rfl f id
  · intro right act
    cases act with
    | advance i o => exact fun _ => right i
    | request _ _ | invoke _ _ | evict _ => trivial

theorem awaits_append {tasks new : List Task} (idle : ∀ task ∈ new, task.awaits = none) {i : Nat}
    {f : FuncData} {id : Nat} (awaits : (tasks ++ new)[i]?.bind Task.awaits = some (f, id)) :
    tasks[i]?.bind Task.awaits = some (f, id) := by
  by_cases below : i < tasks.length
  · rwa [List.getElem?_append_left below] at awaits
  · rw [List.getElem?_append_right (Nat.le_of_not_lt below)] at awaits
    obtain ⟨task, there, given⟩ := Option.bind_eq_some_iff.mp awaits
    rw [idle task (List.mem_of_getElem? there)] at given
    cases given

theorem answersRight_advance (right : w.AnswersRight) (i : Nat) (o : Outcome) :
    (w.step config (.advance i o)).AnswersRight ↔ w.ReusesSame config (.advance i o) := by
  rw [answersRight_iff] at right ⊢
  simp only [World.ReusesSame]
  cases there : w.tasks[i]? with
  | none =>
    simp only [World.step, there]
    refine ⟨fun _ f id reuses => ?_, fun _ => right⟩
    cases reuses
  | some task =>
    obtain ⟨below, -⟩ := List.getElem?_eq_some_iff.mp there
    simp only [World.step, there, Option.bind_some]
    constructor
    · intro next f id reuses
      obtain ⟨awaits, specs⟩ := Task.awaits_of_reuses reuses
      rw [← specs]
      refine next i f id ?_
      rw [List.getElem?_set, if_pos rfl, if_pos below, Option.bind_some, awaits]
    · intro same j f id awaits
      rw [List.getElem?_set] at awaits
      split at awaits
      · rw [Option.bind_some] at awaits
        rcases Task.awaits_step awaits with reuses | started
        · exact Task.specs_step _ (same f id reuses)
        · exact started
      · exact Task.specs_step _ (right j f id awaits)

theorem answersRight_step (right : w.AnswersRight) (act : Act) :
    (w.step config act).AnswersRight ↔ w.ReusesSame config act := by
  cases act with
  | advance i o => exact answersRight_advance right i o
  | request operation call => exact ⟨fun _ => trivial, fun _ => answersRight_iff.mpr (answersRight_iff.mp right)⟩
  | invoke call invocationType =>
    refine ⟨fun _ => trivial, fun _ => answersRight_iff.mpr fun i f id awaits => ?_⟩
    refine answersRight_iff.mp right i f id (awaits_append (fun task member => ?_) awaits)
    obtain ⟨g, -, rfl⟩ := Option.map_eq_some_iff.mp (Option.mem_toList.mp member)
    rfl
  | evict expired =>
    refine ⟨fun _ => trivial, fun _ => answersRight_iff.mpr fun i f id awaits => ?_⟩
    refine answersRight_iff.mp right i f id (awaits_append (fun task member => ?_) awaits)
    rw [List.mem_singleton.mp member]
    rfl

end Steps

/-- In every state of a run whichever container answers next was started with the function as its
invocation looked it up, exactly when every container that was taken from the pool was. -/
theorem invocations_current_iff (config : Config) (acts : List Act) :
    Run.AllStates (World.step config) World.AnswersRight {} acts ↔
      Run.AllSteps (World.step config) (World.ReusesSame config) {} acts := by
  have start : World.AnswersRight {} := by
    refine answersRight_iff.mpr fun i f id awaits => ?_
    rw [List.getElem?_nil] at awaits
    cases awaits
  refine Run.allStates_iff_allSteps ?_ _ acts start
  intro w act right
  exact answersRight_step right act

section Example

/-- An invocation before the code is updated and one after it. -/
def updatedActs : List Act := [createOrders "UEsB", invokeOrders, proceed 0 1, proceed 0 2, proceed 0 3,
  updateOrders "UEsC", invokeOrders, proceed 1 4]

/-- The container with the old code answers the second. -/
theorem updated_code_unused : ¬ Run.AllStates (World.step localConfig) World.AnswersRight {} updatedActs := by
  intro right
  obtain ⟨f, awaits, code⟩ : ∃ f : FuncData,
      ((updatedActs.foldl (World.step localConfig) {}).tasks[1]?.bind Task.awaits) = some (f, 0) ∧
        f.codeZip = "UEsC" := ⟨_, rfl, by decide +kernel⟩
  have spec := answersRight_iff.mp right.last 1 f 0 awaits
  have old : ((updatedActs.foldl (World.step localConfig) {}).containers.specs[0]?).map (·.codeZip) =
      some "UEsB" := by decide +kernel
  rw [spec, Option.map_some] at old
  injection old with same
  change f.codeZip = _ at same
  rw [code] at same
  revert same
  decide

end Example

end Openstack.Lambda

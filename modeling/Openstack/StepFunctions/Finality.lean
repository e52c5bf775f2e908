import Openstack.Lib.Run
import Openstack.StepFunctions.Provider

/-!
# Finished executions

What happens later to an execution that has succeeded or failed (`provider.rs`, lines 523-605 and
698-721). `StartExecution` puts its record over one that is there, and `StopExecution` aborts an execution
without a look at its status.
-/
namespace Openstack.StepFunctions

open JsonService (strParam)

def Execution.Finished (e : Execution) : Prop := e.status = .succeeded ∨ e.status = .failed

instance (e : Execution) : Decidable e.Finished := inferInstanceAs (Decidable (_ ∨ _))

/-- The fields of the answer to `DescribeExecution` that are final. -/
def finalFields (e : Execution) : List (Option Json) :=
  ["status", "input", "output", "error", "cause"].map fun key => e.description.get? key

/-- What is reported of an execution that is finished at some point of the run is reported later. -/
def FinishedForGood (env : Env) (store : StepFunctionsStore) (acts : List Act) : Prop :=
  ∀ before between after, acts = before ++ between ++ after → ∀ (arn : String) (e : Execution),
    (before.foldl (step env) store).executions[arn]? = some e → e.Finished →
      ((before ++ between).foldl (step env) store).executions[arn]?.map finalFields = some (finalFields e)

/-- `StartExecution` keeps an execution of its state machine that has its name. -/
def KeepsNamesake (env : Env) (store : StepFunctionsStore) (act : Act) : Prop :=
  act.operation = .startExecution → ∀ (stateMachineArn arn : String) (e : Execution),
    strParam act.body "stateMachineArn" = some stateMachineArn → store.executions[arn]? = some e →
      e.stateMachineArn = stateMachineArn → e.name = executionName act →
        (step env store act).executions[arn]? = some e

/-- `StopExecution` names no finished execution. Where `StartExecution` names a state machine, no finished
execution and none of the same state machine and name stands under its ARN. -/
structure LeavesExecutions (env : Env) (store : StepFunctionsStore) (act : Act) : Prop where
  stop : act.operation = .stopExecution → ∀ (arn : String) (e : Execution),
    strParam act.body "executionArn" = some arn → store.executions[arn]? = some e → ¬ e.Finished
  start : act.operation = .startExecution → ∀ (arn : String) (e : Execution),
    strParam act.body "stateMachineArn" = some arn → store.stateMachines[arn]?.isSome = true →
      store.executions[executionArn env arn (executionName act)]? = some e →
        ¬ e.Finished ∧ ¬ (e.stateMachineArn = arn ∧ e.name = executionName act)

instance (env : Env) (store : StepFunctionsStore) (act : Act) : Decidable (LeavesExecutions env store act) :=
  decidable_of_iff
    ((act.operation = .stopExecution → ∀ arn ∈ strParam act.body "executionArn",
        ∀ e ∈ store.executions[arn]?, ¬ e.Finished) ∧
      (act.operation = .startExecution → ∀ arn ∈ strParam act.body "stateMachineArn",
        store.stateMachines[arn]?.isSome = true →
          ∀ e ∈ store.executions[executionArn env arn (executionName act)]?,
            ¬ e.Finished ∧ ¬ (e.stateMachineArn = arn ∧ e.name = executionName act)))
    ⟨fun both => ⟨fun operation arn e named there => both.1 operation arn named e there,
        fun operation arn e named machine there => both.2 operation arn named machine e there⟩,
      fun leaves => ⟨fun operation arn named e there => leaves.stop operation arn e named there,
        fun operation arn named machine e there => leaves.start operation arn e named machine there⟩⟩

section Steps

variable {env : Env} {store : StepFunctionsStore} {act : Act}

theorem finished_kept (leaves : LeavesExecutions env store act) {arn : String} {e : Execution}
    (finished : e.Finished) (stored : store.executions[arn]? = some e) :
    (step env store act).executions[arn]? = some e := by
  have effect := step_effect env act store
  generalize (step env store act).executions = next at effect
  cases effect with
  | unchanged => exact stored
  | started operation named there result =>
    rw [StrMap.getElem?_insert, if_neg, stored]
    rintro rfl
    exact (leaves.start operation _ e named (by simp [there]) stored).1 finished
  | stopped operation named there =>
    rw [StrMap.getElem?_insert, if_neg, stored]
    rintro rfl
    exact leaves.stop operation _ e named stored finished

theorem keepsNamesake (leaves : LeavesExecutions env store act) : KeepsNamesake env store act := by
  intro operation stateMachineArn arn e given stored machine name
  have effect := step_effect env act store
  generalize (step env store act).executions = next at effect
  cases effect with
  | unchanged => exact stored
  | started _ named there result =>
    cases given.symm.trans named
    rw [StrMap.getElem?_insert, if_neg, stored]
    rintro rfl
    exact (leaves.start operation _ e named (by simp [there]) stored).2 ⟨machine, name⟩
  | stopped other named there =>
    rw [operation] at other
    cases other

end Steps

theorem finishedForGood_of_leaves {env : Env} {store : StepFunctionsStore} {acts : List Act}
    (leaves : Run.AllSteps (step env) (LeavesExecutions env) store acts) :
    FinishedForGood env store acts := by
  rintro before between after rfl arn e stored finished
  rw [List.append_assoc] at leaves
  have later := Run.allSteps_drop store before (between ++ after) leaves
  have kept := Run.foldl_of_allSteps (P := fun s => s.executions[arn]? = some e)
    (fun _ _ there leaves => finished_kept leaves finished there) (before.foldl (step env) store) between
    stored (Run.allSteps_take _ between after later)
  rw [List.foldl_append, kept, Option.map_some]

/-- In a run whose steps all leave the finished executions and the namesakes alone, finished executions
are final and `StartExecution` replaces no execution of its state machine and name. -/
theorem executions_final (env : Env) (store : StepFunctionsStore) (acts : List Act)
    (leaves : Run.AllSteps (step env) (LeavesExecutions env) store acts) :
    FinishedForGood env store acts ∧ Run.AllSteps (step env) (KeepsNamesake env) store acts :=
  ⟨finishedForGood_of_leaves leaves, leaves.imp fun _ _ => keepsNamesake⟩

section Example

def emptyText : String := "\x7b\x7d"

def localEnv : Env where
  region := "us-east-1"
  accountId := "000000000000"
  toStr
    | .obj [] => emptyText
    | .arr [] => "[]"
    | _ => "null"
  fromStr text :=
    if text = emptyText then some (.obj []) else if text = "[]" then some (.arr []) else none
  asF64 _ := none

def relayArn : String := "arn:aws:states:us-east-1:000000000000:stateMachine:relay"

def relayRunArn (name : String) : String := executionArn localEnv relayArn name

/-- A state machine that passes its input on. -/
def relayMachine : StateMachine where
  stateMachineArn := relayArn
  name := "relay"
  definition := .obj [("StartAt", .str "Relay"),
    ("States", .obj [("Relay", .obj [("End", .bool true), ("Type", .str "Pass")])])]
  roleArn := ""
  status := "ACTIVE"
  machineType := "STANDARD"
  created := 1700000000

def relayStore : StepFunctionsStore where
  stateMachines := (∅ : StrMap StateMachine).insert relayArn relayMachine

def startRelay (name input : String) : Act where
  operation := .startExecution
  body := .obj [("input", .str input), ("name", .str name), ("stateMachineArn", .str relayArn)]
  now := 1700000001
  uuid := JsonService.firstUuid

def stopRelay (name : String) : Act where
  operation := .stopExecution
  body := .obj [("executionArn", .str (relayRunArn name))]
  now := 1700000002
  uuid := JsonService.firstUuid

def separateActs : List Act := [startRelay "first" emptyText, startRelay "second" "[]", stopRelay "third"]

theorem executions_final_separate : FinishedForGood localEnv relayStore separateActs ∧
    Run.AllSteps (step localEnv) (KeepsNamesake localEnv) relayStore separateActs :=
  executions_final localEnv relayStore separateActs (by decide +kernel)

/-- A stopped execution is aborted after it succeeded, and one that is started again loses its record. -/
theorem finished_execution_changes :
    ¬ FinishedForGood localEnv relayStore [startRelay "first" emptyText, stopRelay "first"] ∧
      ¬ Run.AllSteps (step localEnv) (KeepsNamesake localEnv) relayStore
        [startRelay "first" emptyText, startRelay "first" "[]"] := by
  let e : Execution := newExecution localEnv (startRelay "first" emptyText) relayArn ⟨emptyText, none, none⟩
  have started : (step localEnv relayStore (startRelay "first" emptyText)).executions[relayRunArn "first"]? =
      some e := by
    decide +kernel
  constructor
  · intro final
    have reported := congrArg (Option.map (List.map (Option.bind · Json.asStr?)))
      (final [startRelay "first" emptyText] [stopRelay "first"] [] rfl _ e started (Or.inl rfl))
    revert reported
    decide +kernel
  · rintro ⟨-, keeps, -⟩
    have kept := keeps rfl relayArn _ e (by decide +kernel) started rfl (by decide +kernel)
    revert kept
    decide +kernel

end Example

end Openstack.StepFunctions

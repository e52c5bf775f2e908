import Openstack.Framework.JsonService
import Openstack.Lib.StrMap
import Openstack.StepFunctions.Interpreter

/-!
# Step Functions

`crates/services/stepfunctions/src/store.rs` and `provider.rs` without the requests that describe or list
state machines and list executions, for one account and region. The store of an account that has none
behaves like an empty one. The uuid and the time of a request are arguments; times are in seconds.
-/
namespace Openstack.StepFunctions

open JsonService (Answer Uuid strParam required int)

structure StateMachine where
  stateMachineArn : String
  name : String
  definition : Json
  roleArn : String
  status : String
  machineType : String
  created : Int

inductive ExecutionStatus where
  | running
  | succeeded
  | failed
  | timedOut
  | aborted
  deriving DecidableEq, Repr

/-- `as_str`. -/
def ExecutionStatus.text : ExecutionStatus → String
  | .running => "RUNNING"
  | .succeeded => "SUCCEEDED"
  | .failed => "FAILED"
  | .timedOut => "TIMED_OUT"
  | .aborted => "ABORTED"

structure Execution where
  executionArn : String
  stateMachineArn : String
  name : String
  status : ExecutionStatus
  input : String
  output : Option String
  error : Option String
  cause : Option String
  startedAt : Int
  stoppedAt : Option Int
  deriving DecidableEq, Repr

structure StepFunctionsStore where
  stateMachines : StrMap StateMachine := ∅
  executions : StrMap Execution := ∅

inductive Operation where
  | createStateMachine
  | deleteStateMachine
  | updateStateMachine
  | startExecution
  | describeExecution
  | stopExecution
  deriving DecidableEq, Repr

structure Act where
  operation : Operation
  body : Json
  now : Int
  uuid : Uuid

section Operations

variable (env : Env) (act : Act) (store : StepFunctionsStore)

def machineArn (name : String) : String :=
  "arn:aws:states:" ++ env.region ++ ":" ++ env.accountId ++ ":stateMachine:" ++ name

def newStateMachine (name : String) (definition : Json) : StateMachine where
  stateMachineArn := machineArn env name
  name
  definition
  roleArn := (strParam act.body "roleArn").getD ""
  status := "ACTIVE"
  machineType := (strParam act.body "type").getD "STANDARD"
  created := act.now

def createStateMachine : Answer × StepFunctionsStore :=
  match strParam act.body "name" with
  | none => (required "name", store)
  | some name =>
    match strParam act.body "definition" with
    | none => (required "definition", store)
    | some definitionStr =>
      match env.fromStr definitionStr with
      | none => (.error "InvalidDefinition" "Invalid JSON in definition" 400, store)
      | some definition =>
        (.ok (.obj [("creationDate", int act.now), ("stateMachineArn", .str (machineArn env name))]),
          { store with
            stateMachines := store.stateMachines.insert (machineArn env name)
              (newStateMachine env act name definition) })

def deleteStateMachine : Answer × StepFunctionsStore :=
  match strParam act.body "stateMachineArn" with
  | none => (required "stateMachineArn", store)
  | some arn => (.ok (.obj []), { store with stateMachines := store.stateMachines.erase arn })

def noStateMachine (arn : String) : Answer :=
  .error "StateMachineDoesNotExist" ("State Machine Does Not Exist: '" ++ arn ++ "'") 400

/-- A definition that is not JSON is passed over. -/
def updatedStateMachine (sm : StateMachine) : StateMachine :=
  { sm with
    definition := ((strParam act.body "definition").bind env.fromStr).getD sm.definition
    roleArn := (strParam act.body "roleArn").getD sm.roleArn }

def updateStateMachine : Answer × StepFunctionsStore :=
  match strParam act.body "stateMachineArn" with
  | none => (required "stateMachineArn", store)
  | some arn =>
    match store.stateMachines[arn]? with
    | none => (noStateMachine arn, store)
    | some sm =>
      (.ok (.obj [("updateDate", int act.now)]),
        { store with stateMachines := store.stateMachines.insert arn (updatedStateMachine env act sm) })

def executionName : String := (strParam act.body "name").getD act.uuid.text

/-- The ARN has the last part of the state machine's. -/
def executionArn (stateMachineArn name : String) : String :=
  "arn:aws:states:" ++ env.region ++ ":" ++ env.accountId ++ ":execution:" ++
    RustStr.rsplitFirst ':' stateMachineArn ++ ":" ++ name

def executionInput : String := (strParam act.body "input").getD "\x7b\x7d"

def newExecution (stateMachineArn : String) (result : AslResult) : Execution where
  executionArn := executionArn env stateMachineArn (executionName act)
  stateMachineArn
  name := executionName act
  status := if result.error.isSome then .failed else .succeeded
  input := executionInput act
  output := some result.output
  error := result.error
  cause := result.cause
  startedAt := act.now
  stoppedAt := some act.now

/-- `none` where the interpreter panics. -/
def startExecution : Option (Answer × StepFunctionsStore) :=
  match strParam act.body "stateMachineArn" with
  | none => some (required "stateMachineArn", store)
  | some arn =>
    match store.stateMachines[arn]? with
    | none => some (noStateMachine arn, store)
    | some sm =>
      (runAsl env sm.definition (executionInput act)).map fun result =>
        (.ok (.obj [("executionArn", .str (executionArn env arn (executionName act))),
            ("startDate", int act.now)]),
          { store with
            executions := store.executions.insert (executionArn env arn (executionName act))
              (newExecution env act arn result) })

def noExecution (arn : String) : Answer :=
  .error "ExecutionDoesNotExist" ("Execution " ++ arn ++ " not found") 404

def optionalField (key : String) (value : Option Json) : List (String × Json) :=
  (value.map fun v => (key, v)).toList

/-- What `DescribeExecution` reports. -/
def Execution.description (e : Execution) : Json :=
  .obj (optionalField "cause" (e.cause.map .str) ++ optionalField "error" (e.error.map .str) ++
    [("executionArn", .str e.executionArn), ("input", .str e.input), ("name", .str e.name)] ++
    optionalField "output" (e.output.map .str) ++
    [("startDate", int e.startedAt), ("stateMachineArn", .str e.stateMachineArn),
      ("status", .str e.status.text)] ++
    optionalField "stopDate" (e.stoppedAt.map int))

def describeExecution : Answer :=
  match strParam act.body "executionArn" with
  | none => required "executionArn"
  | some arn =>
    match store.executions[arn]? with
    | none => noExecution arn
    | some e => .ok e.description

/-- The execution is aborted in whatever state it is. -/
def stopExecution : Answer × StepFunctionsStore :=
  match strParam act.body "executionArn" with
  | none => (required "executionArn", store)
  | some arn =>
    match store.executions[arn]? with
    | none => (noExecution arn, store)
    | some e =>
      (.ok (.obj [("stopDate", int act.now)]),
        { store with
          executions := store.executions.insert arn
            { e with status := .aborted, stoppedAt := some act.now } })

/-- `dispatch`; `none` where it panics. -/
def dispatch : Option (Answer × StepFunctionsStore) :=
  match act.operation with
  | .createStateMachine => some (createStateMachine env act store)
  | .deleteStateMachine => some (deleteStateMachine act store)
  | .updateStateMachine => some (updateStateMachine env act store)
  | .startExecution => startExecution env act store
  | .describeExecution => some (describeExecution act store, store)
  | .stopExecution => some (stopExecution act store)

end Operations

/-- A panic leaves the store as it is. -/
def step (env : Env) (store : StepFunctionsStore) (act : Act) : StepFunctionsStore :=
  ((dispatch env act store).map Prod.snd).getD store

/-- What a request may do to the executions. -/
inductive Effect (env : Env) (act : Act) (store : StepFunctionsStore) : StrMap Execution → Prop
  | unchanged : Effect env act store store.executions
  | started (operation : act.operation = .startExecution) {arn : String} {sm : StateMachine}
      (named : strParam act.body "stateMachineArn" = some arn)
      (there : store.stateMachines[arn]? = some sm) (result : AslResult) :
      Effect env act store (store.executions.insert (executionArn env arn (executionName act))
        (newExecution env act arn result))
  | stopped (operation : act.operation = .stopExecution) {arn : String} {e : Execution}
      (named : strParam act.body "executionArn" = some arn) (there : store.executions[arn]? = some e) :
      Effect env act store (store.executions.insert arn
        { e with status := .aborted, stoppedAt := some act.now })

theorem step_effect (env : Env) (act : Act) (store : StepFunctionsStore) :
    Effect env act store (step env store act).executions := by
  cases operation : act.operation with
  | createStateMachine =>
    rw [step, dispatch, operation]
    dsimp only [Option.map_some, Option.getD_some]
    rw [createStateMachine]
    repeat' split
    · exact .unchanged
    · exact .unchanged
    · exact .unchanged
    · exact .unchanged
  | deleteStateMachine =>
    rw [step, dispatch, operation]
    dsimp only [Option.map_some, Option.getD_some]
    rw [deleteStateMachine]
    split
    · exact .unchanged
    · exact .unchanged
  | updateStateMachine =>
    rw [step, dispatch, operation]
    dsimp only [Option.map_some, Option.getD_some]
    rw [updateStateMachine]
    repeat' split
    · exact .unchanged
    · exact .unchanged
    · exact .unchanged
  | startExecution =>
    rw [step, dispatch, operation]
    dsimp only
    rw [startExecution]
    split
    · exact .unchanged
    · next arn named =>
      split
      · exact .unchanged
      · next sm there =>
        cases runAsl env sm.definition (executionInput act) with
        | none => exact .unchanged
        | some result => exact .started operation named there result
  | describeExecution =>
    rw [step, dispatch, operation]
    exact .unchanged
  | stopExecution =>
    rw [step, dispatch, operation]
    dsimp only [Option.map_some, Option.getD_some]
    rw [stopExecution]
    split
    · exact .unchanged
    · next arn named =>
      split
      · exact .unchanged
      · next e there => exact .stopped operation named there

end Openstack.StepFunctions

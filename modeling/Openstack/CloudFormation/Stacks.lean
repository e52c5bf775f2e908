import Openstack.CloudFormation.Parameters
import Openstack.CloudFormation.Template
import Openstack.Lib.Run

/-!
# Stacks

`CreateStack`, `UpdateStack` and `DeleteStack` (`crates/services/cloudformation/src/provider.rs`, lines
267-465), for one account and region, and what stacks keep of their templates. `UpdateStack` replaces the
template alone. The XML of the answers is left out; the uuids and the time of a request are arguments.
-/
namespace Openstack.CloudFormation

open Gateway (RequestContext)
open JsonService (Uuid)

/-- The states that the handlers give. -/
inductive StackStatus where
  | createComplete
  | updateComplete
  deriving DecidableEq, Repr

structure CfnStack where
  stackId : String
  stackName : String
  description : String
  status : StackStatus
  statusReason : String
  template : Json
  parameters : StrMap String
  outputs : StrMap String
  resources : StrMap StackResource
  created : Int
  updated : Int

structure CloudFormationStore where
  /-- `stacks`: by name. -/
  cfnStacks : StrMap CfnStack := ∅

inductive Answer where
  | stackId (action id : String)
  | deleted
  | error (code message : String) (status : Nat)
  deriving DecidableEq, Repr

def Answer.succeeds : Answer → Bool
  | .error _ _ _ => false
  | _ => true

inductive Operation where
  | createStack
  | updateStack
  | deleteStack
  deriving DecidableEq, Repr

structure Act where
  operation : Operation
  ctx : RequestContext
  now : Int
  stackUuid : Uuid
  /-- The uuid drawn for each logical id. -/
  resourceUuids : String → Uuid

section Operations

variable (env : Env) (act : Act) (store : CloudFormationStore)

@[grind] def withName (found : String → Answer × CloudFormationStore) : Answer × CloudFormationStore :=
  match act.ctx.strParam "StackName" with
  | none => (.error "ValidationError" "StackName is required" 400, store)
  | some stackName => found stackName

/-- The template of a request, or an empty one. -/
def requestTemplate : Option Json :=
  env.fromStr ((act.ctx.strParam "TemplateBody").getD "\x7b\x7d")

@[grind] def withTemplate (found : Json → Answer × CloudFormationStore) : Answer × CloudFormationStore :=
  match requestTemplate env act with
  | none => (.error "ValidationError" "Template body is not valid JSON" 400, store)
  | some template => found template

def newStackId (stackName : String) : String :=
  "arn:aws:cloudformation:" ++ env.region ++ ":" ++ env.accountId ++ ":stack/" ++ stackName ++ "/" ++
    act.stackUuid.text

def newStack (stackName : String) (template : Json) : CfnStack :=
  let parameters := stackParameters act.ctx
  let resources := templateResources env template act.resourceUuids
  { stackId := newStackId env act stackName
    stackName
    description := templateDescription template
    status := .createComplete
    statusReason := ""
    template
    parameters
    outputs := templateOutputs env template ⟨resources, parameters⟩
    resources
    created := act.now
    updated := act.now }

def createStack : Answer × CloudFormationStore :=
  withName act store fun stackName => withTemplate env act store fun template =>
    if !hasResources template then
      (.error "ValidationError"
        ("Unable to create stack \"" ++ stackName ++ "\": No updates are to be performed.") 400, store)
    else if store.cfnStacks.contains stackName then
      (.error "AlreadyExistsException" ("Stack [" ++ stackName ++ "] already exists") 400, store)
    else
      (.stackId "CreateStack" (newStackId env act stackName),
        { store with cfnStacks := store.cfnStacks.insert stackName (newStack env act stackName template) })

/-- The stack after an update. -/
def CfnStack.withTemplate (stack : CfnStack) (template : Json) (now : Int) : CfnStack :=
  { stack with template, status := .updateComplete, updated := now }

def updateStack : Answer × CloudFormationStore :=
  withName act store fun stackName => withTemplate env act store fun template =>
    match store.cfnStacks[stackName]? with
    | none => (.error "ValidationError" ("Stack [" ++ stackName ++ "] does not exist") 400, store)
    | some stack =>
      (.stackId "UpdateStack" stack.stackId,
        { store with cfnStacks := store.cfnStacks.insert stackName (stack.withTemplate template act.now) })

def deleteStack : Answer × CloudFormationStore :=
  withName act store fun stackName =>
    (.deleted, { store with cfnStacks := store.cfnStacks.erase stackName })

def dispatch : Answer × CloudFormationStore :=
  match act.operation with
  | .createStack => createStack env act store
  | .updateStack => updateStack env act store
  | .deleteStack => deleteStack act store

end Operations

def step (env : Env) (store : CloudFormationStore) (act : Act) : CloudFormationStore :=
  (dispatch env act store).2

structure MatchesTemplate (env : Env) (stack : CfnStack) : Prop where
  resources : stack.resources.mapValues (fun r => (r.logicalId, r.resourceType)) = declared stack.template
  outputs : stack.outputs = templateOutputs env stack.template ⟨stack.resources, stack.parameters⟩
  description : stack.description = templateDescription stack.template

def AllMatch (env : Env) (store : CloudFormationStore) : Prop :=
  ∀ (stackName : String) (stack : CfnStack), store.cfnStacks[stackName]? = some stack →
    MatchesTemplate env stack

def ErrorKeeps (env : Env) (store : CloudFormationStore) (act : Act) : Prop :=
  (dispatch env act store).1.succeeds = false → step env store act = store

/-- The template gives the stack what its present one gives it. -/
structure SaysTheSame (env : Env) (stack : CfnStack) (template : Json) : Prop where
  resources : declared template = declared stack.template
  outputs : templateOutputs env template ⟨stack.resources, stack.parameters⟩ =
    templateOutputs env stack.template ⟨stack.resources, stack.parameters⟩
  description : templateDescription template = templateDescription stack.template

/-- An `UpdateStack` that finds its stack brings a template that says the same. -/
def UpdatesToTheSame (env : Env) (store : CloudFormationStore) (act : Act) : Prop :=
  act.operation = .updateStack → ∀ (stackName : String) (template : Json) (stack : CfnStack),
    act.ctx.strParam "StackName" = some stackName → requestTemplate env act = some template →
      store.cfnStacks[stackName]? = some stack → SaysTheSame env stack template

section Steps

variable {env : Env} {store : CloudFormationStore} {act : Act}

theorem newStack_matches (env : Env) (act : Act) (stackName : String) (template : Json) :
    MatchesTemplate env (newStack env act stackName template) :=
  ⟨templateResources_declared env template act.resourceUuids, rfl, rfl⟩

theorem withTemplate_matches_iff {stack : CfnStack} (right : MatchesTemplate env stack) (template : Json)
    (now : Int) : MatchesTemplate env (stack.withTemplate template now) ↔ SaysTheSame env stack template := by
  constructor
  · rintro ⟨resources, outputs, description⟩
    exact ⟨resources.symm.trans right.resources, outputs.symm.trans right.outputs,
      description.symm.trans right.description⟩
  · rintro ⟨resources, outputs, description⟩
    exact ⟨right.resources.trans resources.symm, right.outputs.trans outputs.symm,
      right.description.trans description.symm⟩

theorem allMatch_insert_iff (right : AllMatch env store) (stackName : String) (stack : CfnStack) :
    AllMatch env { store with cfnStacks := store.cfnStacks.insert stackName stack } ↔ MatchesTemplate env stack := by
  constructor
  · intro next
    exact next stackName stack (by rw [StrMap.getElem?_insert, if_pos rfl])
  · intro new name other stored
    rw [StrMap.getElem?_insert] at stored
    split at stored
    · cases stored
      exact new
    · exact right name other stored

theorem errorKeeps (env : Env) (store : CloudFormationStore) (act : Act) : ErrorKeeps env store act := by
  rw [ErrorKeeps, step, dispatch]
  cases act.operation with
  | createStack =>
    dsimp only
    rw [createStack, withName]
    split
    · exact fun _ => rfl
    · rw [withTemplate]
      split
      · exact fun _ => rfl
      · split
        · exact fun _ => rfl
        · split
          · exact fun _ => rfl
          · intro failed
            cases failed
  | updateStack =>
    dsimp only
    rw [updateStack, withName]
    split
    · exact fun _ => rfl
    · rw [withTemplate]
      split
      · exact fun _ => rfl
      · split
        · exact fun _ => rfl
        · intro failed
          cases failed
  | deleteStack =>
    dsimp only
    rw [deleteStack, withName]
    split
    · exact fun _ => rfl
    · intro failed
      cases failed

theorem createStack_allMatch (right : AllMatch env store) : AllMatch env (createStack env act store).2 := by
  rw [createStack, withName]
  split
  · exact right
  · rw [withTemplate]
    split
    · exact right
    · split
      · exact right
      · split
        · exact right
        · exact (allMatch_insert_iff right _ _).mpr (newStack_matches env act _ _)

theorem deleteStack_allMatch (right : AllMatch env store) : AllMatch env (deleteStack act store).2 := by
  rw [deleteStack, withName]
  split
  · exact right
  · intro name stack stored
    rw [StrMap.getElem?_erase] at stored
    split at stored
    · cases stored
    · exact right name stack stored

theorem updateStack_allMatch_iff (right : AllMatch env store) (operation : act.operation = .updateStack) :
    AllMatch env (updateStack env act store).2 ↔ UpdatesToTheSame env store act := by
  rw [updateStack, withName]
  cases named : act.ctx.strParam "StackName" with
  | none => exact iff_of_true right (by simp [UpdatesToTheSame, named])
  | some stackName =>
    dsimp only
    rw [withTemplate]
    cases parsed : requestTemplate env act with
    | none => exact iff_of_true right (by simp [UpdatesToTheSame, parsed])
    | some template =>
      dsimp only
      cases found : store.cfnStacks[stackName]? with
      | none =>
        refine iff_of_true right fun _ name template' stack named' _ found' => ?_
        cases named.symm.trans named'
        cases found.symm.trans found'
      | some stack =>
        dsimp only
        rw [allMatch_insert_iff right, withTemplate_matches_iff (right stackName stack found)]
        constructor
        · intro same _ name template' stack' named' parsed' found'
          cases named.symm.trans named'
          cases parsed.symm.trans parsed'
          cases found.symm.trans found'
          exact same
        · exact fun updates => updates operation stackName template stack named parsed found

theorem allMatch_step_iff (right : AllMatch env store) :
    AllMatch env (step env store act) ↔ UpdatesToTheSame env store act := by
  rw [step, dispatch]
  cases operation : act.operation with
  | createStack =>
    exact iff_of_true (createStack_allMatch right) (by simp [UpdatesToTheSame, operation])
  | updateStack => exact updateStack_allMatch_iff right operation
  | deleteStack =>
    exact iff_of_true (deleteStack_allMatch right) (by simp [UpdatesToTheSame, operation])

end Steps

/-- Along a run all stacks match their templates, and errors change nothing, exactly when every
`UpdateStack` that finds its stack brings a template that says the same. -/
theorem stacks_match_iff (env : Env) (acts : List Act) :
    Run.AllStates (step env) (AllMatch env) {} acts ∧ Run.AllSteps (step env) (ErrorKeeps env) {} acts ↔
      Run.AllSteps (step env) (UpdatesToTheSame env) {} acts := by
  have start : AllMatch env {} := by
    intro name stack stored
    simp at stored
  rw [Run.allStates_iff_allSteps (fun _ _ right => allMatch_step_iff right) _ acts start]
  exact and_iff_left (Run.allSteps_of_forall (errorKeeps env) _ acts)

section Example

/-- A template with one queue. -/
def queueTemplate (logicalId : String) : Json :=
  .obj [("Resources", .obj [(logicalId, .obj [("Type", .str "AWS::SQS::Queue")])])]

def localEnv : Env where
  region := "us-east-1"
  accountId := "000000000000"
  fromStr text :=
    if text = "\x7b\"Resources\":\x7b\"Jobs\":\x7b\"Type\":\"AWS::SQS::Queue\"\x7d\x7d\x7d" then
      some (queueTemplate "Jobs")
    else if text = "\x7b\"Resources\":\x7b\"Mails\":\x7b\"Type\":\"AWS::SQS::Queue\"\x7d\x7d\x7d" then
      some (queueTemplate "Mails")
    else none
  toLowercase := RustStr.toAsciiLowercase
  paramOrder := Std.ExtTreeMap.toList
  resourceOrder := Std.ExtTreeMap.toList

def onApp (operation : Operation) (logicalId : String) : Act where
  operation
  ctx :=
    { service := "cloudformation"
      operation := ""
      region := "us-east-1"
      accountId := "000000000000"
      accessKey := "test"
      protocol := .query
      params := .null
      rawBody := none
      headers := []
      path := "/"
      method := "POST"
      queryParams := Std.ExtTreeMap.ofList [("StackName", "app"), ("TemplateBody",
        "\x7b\"Resources\":\x7b\"" ++ logicalId ++ "\":\x7b\"Type\":\"AWS::SQS::Queue\"\x7d\x7d\x7d")]
      bodyReader := none }
  now := 1700000000
  stackUuid := JsonService.firstUuid
  resourceUuids _ := JsonService.firstUuid

/-- The stack keeps the queue of its first template. -/
theorem updated_stack_keeps_resources : ¬ (Run.AllStates (step localEnv) (AllMatch localEnv) {}
      [onApp .createStack "Jobs", onApp .updateStack "Mails"] ∧
    Run.AllSteps (step localEnv) (ErrorKeeps localEnv) {}
      [onApp .createStack "Jobs", onApp .updateStack "Mails"]) := by
  rintro ⟨states, -⟩
  have right := states.last
  generalize made : [onApp .createStack "Jobs", onApp .updateStack "Mails"].foldl (step localEnv) {} =
    store at right
  have kept : (store.cfnStacks["app"]?.map fun stack =>
      ((stack.resources.mapValues fun r => (r.logicalId, r.resourceType)).keys,
        (declared stack.template).keys)) = some (["Jobs"], ["Mails"]) := by
    subst made
    decide +kernel
  obtain ⟨stack, stored, names⟩ := Option.map_eq_some_iff.mp kept
  rw [(right "app" stack stored).resources, Prod.mk.injEq] at names
  exact absurd (names.1.symm.trans names.2) (by decide)

end Example

end Openstack.CloudFormation

import Openstack.Lib.JsonRecursion
import Openstack.Lib.RustStr
import Mathlib.Data.Rat.Defs

/-!
# The interpreter of state machines

`run_asl`, `eval_choice_rule` and `get_json_path` of `crates/services/stepfunctions/src/provider.rs`
(lines 69-340). `none` stands for a panic. The functions of `serde_json` are parameters; the value of a
double is a rational number.
-/
namespace Openstack.StepFunctions

structure Env where
  region : String
  accountId : String
  /-- `serde_json::to_string`. -/
  toStr : Json → String
  /-- `serde_json::from_str`. -/
  fromStr : String → Option Json
  /-- `Value::as_f64`. -/
  asF64 : Json → Option Rat

/-- `str_param`, and the same on any value. -/
def strField (v : Json) (key : String) : Option String := (v.get? key).bind Json.asStr?

def arrField (v : Json) (key : String) : Option (List Json) := (v.get? key).bind Json.asArray?

/-- What follows `$.` in a path. -/
def underRoot (path : String) : Option String :=
  (RustStr.stripPrefix "$.".toList path.toList).map String.ofList

/-- `get_json_path`. -/
def getJsonPath (value : Json) (path : String) : Option Json :=
  if path = "$" then some value
  else
    (underRoot path).bind fun path =>
      (RustStr.split ['.'] path.toList).foldl
        (fun current part => current.bind fun v => v.get? (String.ofList part)) (some value)

/-- `StringMatches`; the slice between two stars is out of range when they are one. -/
def stringMatches (pattern s : String) : Option Bool :=
  let cs := pattern.toList
  if ['*'].isPrefixOf cs && ['*'].isSuffixOf cs then
    if cs.length = 1 then none else some (RustStr.contains s.toList ((cs.drop 1).dropLast))
  else if ['*'].isSuffixOf cs then some (cs.dropLast.isPrefixOf s.toList)
  else if ['*'].isPrefixOf cs then some ((cs.drop 1).isSuffixOf s.toList)
  else some (s = pattern)

section Rules

variable (env : Env)

/-- A comparison of numbers, unless one side is none. -/
def compareNumbers (compare : Rat → Rat → Bool) (field : Option Json) (bound : Option Json) :
    Option Bool :=
  match field.bind env.asF64, bound.bind env.asF64 with
  | some a, some b => some (compare a b)
  | _, _ => none

/-- The pattern of `StringMatches` and the text it is for. -/
def matchOperands (rule : Json) (field : Option Json) : Option (String × String) :=
  (strField rule "StringMatches").bind fun pattern =>
    (field.bind Json.asStr?).map fun s => (pattern, s)

/-- What the rule says of its variable: the first of the comparisons that applies. -/
@[grind] def compareVariable (rule : Json) (field : Option Json) : Option (Option Bool) :=
  match rule.get? "StringEquals" with
  | some eq => some (some (field.bind Json.asStr? = eq.asStr?))
  | none =>
    match rule.get? "NumericEquals" with
    | some eq => some (some (field.bind env.asF64 = env.asF64 eq))
    | none =>
      match compareNumbers env (fun a b => b < a) field (rule.get? "NumericGreaterThan") with
      | some result => some (some result)
      | none =>
        match compareNumbers env (fun a b => a < b) field (rule.get? "NumericLessThan") with
        | some result => some (some result)
        | none =>
          match rule.get? "BooleanEquals" with
          | some expected => some (some (field.bind Json.asBool? = expected.asBool?))
          | none => (matchOperands rule field).map fun (pattern, s) => stringMatches pattern s

/-- `all`, up to the first that is false. -/
def allRules (eval : Json → Option Bool) : List Json → Option Bool
  | [] => some true
  | r :: rest => (eval r).bind fun holds => if holds then allRules eval rest else some false

/-- `any`, up to the first that is true. -/
def anyRule (eval : Json → Option Bool) : List Json → Option Bool
  | [] => some false
  | r :: rest => (eval r).bind fun holds => if holds then some true else anyRule eval rest

/-- The body of `eval_choice_rule` after the comparisons. -/
def combineRules (eval : Json → Option Bool) (rule : Json) : Option Bool :=
  match arrField rule "And" with
  | some rules => allRules eval rules
  | none =>
    match arrField rule "Or" with
    | some rules => anyRule eval rules
    | none =>
      match rule.get? "Not" with
      | some notRule => (eval notRule).map (!·)
      | none => some false

def ruleBody (input : Json) (eval : Json → Option Bool) (rule : Json) : Option Bool :=
  ((strField rule "Variable").bind fun var => compareVariable env rule (getJsonPath input var)).getD
    (combineRules eval rule)

def evalChoiceRule (input : Json) : Json → Option Bool :=
  Json.recursion (ruleBody env input) fun _ => none

end Rules

structure AslResult where
  output : String
  error : Option String
  cause : Option String
  deriving DecidableEq, Repr

/-- How a state leaves the loop or goes on. -/
inductive Turn where
  | stop (result : AslResult)
  | goto (stateName : String)
  | output (value : Json)

/-- `Map::insert`: a field in its place in the key order. -/
def insertField (key : String) (value : Json) : List (String × Json) → List (String × Json)
  | [] => [(key, value)]
  | field :: rest =>
    if field.1 = key then (key, value) :: rest
    else if key < field.1 then (key, value) :: field :: rest
    else field :: insertField key value rest

/-- A `Pass` state; the result is put under its path into what is the result already. -/
@[grind] def passOutput (state input : Json) : Json :=
  let current := (state.get? "Result").getD input
  match (strField state "ResultPath").filter (· ≠ "$") with
  | none => current
  | some resultPath =>
    match underRoot resultPath, current, state.get? "Result" with
    | some key, .obj fields, some result => .obj (insertField key result fields)
    | _, _, _ => current

section States

variable (env : Env)

def failResult (state input : Json) : AslResult where
  output := env.toStr input
  error := some ((strField state "Error").getD "States.TaskFailed")
  cause := some ((strField state "Cause").getD "")

/-- The state after the first choice that holds and has one. -/
@[grind] def firstChoice (input : Json) : List Json → Option (Option String)
  | [] => some none
  | choice :: rest =>
    (evalChoiceRule env input choice).bind fun holds =>
      match if holds then strField choice "Next" else none with
      | some nextState => some (some nextState)
      | none => firstChoice input rest

def runChoice (state input : Json) : Option Turn :=
  (firstChoice env input ((arrField state "Choices").getD [])).map fun chosen =>
    match chosen.or (strField state "Default") with
    | some nextState => .goto nextState
    | none => .stop ⟨env.toStr input, some "NoChoiceMatched", none⟩

/-- The results of branches or items one after the other, or the first failure. -/
def runEach (run : Json → String → Option AslResult) : List (Json × String) → Option (AslResult ⊕ List Json)
  | [] => some (.inr [])
  | (definition, input) :: rest =>
    (run definition input).bind fun result =>
      if result.error.isSome then some (.inl result)
      else
        (runEach run rest).map fun results =>
          results.map id (((env.fromStr result.output).getD .null) :: ·)

/-- The turn of a `Parallel` or `Map` state. -/
def collect (results : AslResult ⊕ List Json) : Turn :=
  match results with
  | .inl failure => .stop failure
  | .inr values => .output (.arr values)

/-- The items of a `Map` state. -/
def mapItems (state input : Json) : List Json :=
  let itemsPath := (strField state "ItemsPath").getD "$"
  if itemsPath = "$" then (input.asArray?).getD []
  else
    match underRoot itemsPath with
    | some key => (arrField input key).getD []
    | none => []

/-- `Wait`, `Task` and unknown states pass their input on. -/
def runState (run : Json → String → Option AslResult) (state input : Json) : Option Turn :=
  match (strField state "Type").getD "Pass" with
  | "Pass" => some (.output (passOutput state input))
  | "Succeed" => some (.stop ⟨env.toStr input, none, none⟩)
  | "Fail" => some (.stop (failResult env state input))
  | "Choice" => runChoice env state input
  | "Parallel" =>
    (runEach env run (((arrField state "Branches").getD []).map fun branch =>
      (branch, env.toStr input))).map collect
  | "Map" =>
    (runEach env run ((mapItems state input).map fun item =>
      ((state.get? "Iterator").getD (.obj []), env.toStr item))).map collect
  | _ => some (.output input)

/-- The loop over states, with the iterations that are left. -/
def runLoop (run : Json → String → Option AslResult) (states : List (String × Json)) :
    (left : Nat) → (stateName : String) → (input : Json) → Option AslResult
  | 0, _, input => some ⟨env.toStr input, some "TooManyIterations", none⟩
  | left + 1, stateName, input =>
    match states.lookup stateName with
    | none =>
      some ⟨env.toStr input, some "StateNotFound", some ("State " ++ stateName ++ " not found")⟩
    | some state =>
      (runState env run state input).bind fun turn =>
        match turn with
        | .stop result => some result
        | .goto nextState => runLoop run states left nextState input
        | .output value =>
          if ((state.get? "End").bind Json.asBool?).getD false then some ⟨env.toStr value, none, none⟩
          else
            match strField state "Next" with
            | some nextState => runLoop run states left nextState value
            | none => some ⟨env.toStr value, none, none⟩

def aslBody (run : Json → String → Option AslResult) (definition : Json) (inputStr : String) :
    Option AslResult :=
  let input := (env.fromStr inputStr).getD (.obj [])
  match (definition.get? "States").bind Json.asObject? with
  | none => some ⟨inputStr, some "NoStates", none⟩
  | some states =>
    match strField definition "StartAt" with
    | none => some ⟨inputStr, some "NoStartAt", none⟩
    | some startAt => runLoop env run states 1000 startAt input

def runAsl : Json → String → Option AslResult := Json.recursion (aslBody env) fun _ _ => none

end States

section Below

variable (env : Env)

theorem depth_lt_of_arrField {v x : Json} {key : String} {items : List Json}
    (found : arrField v key = some items) (member : x ∈ items) : Json.depth x < Json.depth v := by
  obtain ⟨array, there, plain⟩ := Option.bind_eq_some_iff.mp found
  cases array with
  | arr found =>
    cases plain
    exact (Json.depth_lt_of_mem member).trans (Json.depth_lt_of_get? there)
  | null | bool _ | posInt _ | negInt _ | float _ | str _ | obj _ => cases plain

section Rules

variable {f g : Json → Option Bool} {rules : List Json}

theorem allRules_congr (same : ∀ r ∈ rules, f r = g r) : allRules f rules = allRules g rules := by
  induction rules with
  | nil => rfl
  | cons r rest ih =>
    rw [allRules, allRules, same r List.mem_cons_self,
      ih fun x member => same x (List.mem_cons_of_mem _ member)]

theorem anyRule_congr (same : ∀ r ∈ rules, f r = g r) : anyRule f rules = anyRule g rules := by
  induction rules with
  | nil => rfl
  | cons r rest ih =>
    rw [anyRule, anyRule, same r List.mem_cons_self,
      ih fun x member => same x (List.mem_cons_of_mem _ member)]

theorem combineRules_congr {rule : Json} (same : ∀ x, Json.depth x < Json.depth rule → f x = g x) :
    combineRules f rule = combineRules g rule := by
  unfold combineRules
  split
  · next rules found => exact allRules_congr fun r member => same r (depth_lt_of_arrField found member)
  · split
    · next rules found => exact anyRule_congr fun r member => same r (depth_lt_of_arrField found member)
    · split
      · next notRule found => rw [same notRule (Json.depth_lt_of_get? found)]
      · rfl

/-- `eval_choice_rule` calls itself on parts of the rule only. -/
theorem evalChoiceRule_eq (input rule : Json) :
    evalChoiceRule env input rule = ruleBody env input (evalChoiceRule env input) rule := by
  refine Json.recursion_eq (fun f g v same => ?_) _ rule
  rw [ruleBody, ruleBody, combineRules_congr same]

end Rules

variable {f g : Json → String → Option AslResult}

theorem runEach_congr {calls : List (Json × String)} (same : ∀ call ∈ calls, f call.1 = g call.1) :
    runEach env f calls = runEach env g calls := by
  induction calls with
  | nil => rfl
  | cons call rest ih =>
    rw [runEach, runEach, same call List.mem_cons_self,
      ih fun x member => same x (List.mem_cons_of_mem _ member)]

theorem runState_congr {state input : Json} (same : ∀ x, Json.depth x < Json.depth state → f x = g x)
    (empty : f (.obj []) = g (.obj [])) : runState env f state input = runState env g state input := by
  unfold runState
  split
  · rfl
  · rfl
  · rfl
  · rfl
  · rw [runEach_congr]
    intro call member
    obtain ⟨branch, there, rfl⟩ := List.mem_map.mp member
    cases found : arrField state "Branches" with
    | none =>
      rw [found] at there
      cases there
    | some branches =>
      rw [found] at there
      exact same branch (depth_lt_of_arrField found there)
  · rw [runEach_congr]
    intro call member
    obtain ⟨item, -, rfl⟩ := List.mem_map.mp member
    cases found : state.get? "Iterator" with
    | none => exact empty
    | some iterator => exact same iterator (Json.depth_lt_of_get? found)
  · rfl

theorem runLoop_congr {states : List (String × Json)}
    (same : ∀ x, Json.depth x < Json.depth (.obj states) → f x = g x) (empty : f (.obj []) = g (.obj []))
    (left : Nat) (stateName : String) (input : Json) :
    runLoop env f states left stateName input = runLoop env g states left stateName input := by
  induction left generalizing stateName input with
  | zero => rfl
  | succ left ih =>
    rw [runLoop, runLoop]
    cases found : states.lookup stateName with
    | none => rfl
    | some state =>
      have smaller := @Json.depth_lt_of_get? (.obj states) state stateName found
      dsimp only
      rw [runState_congr env (fun x below => same x (below.trans smaller)) empty]
      simp only [ih]

/-- `run_asl` calls itself on parts of the definition, or the empty one, only. -/
theorem runAsl_eq (definition : Json) (inputStr : String) :
    runAsl env definition inputStr = aslBody env (runAsl env) definition inputStr := by
  refine congrFun (Json.recursion_eq (fun f g v same => ?_) _ definition) inputStr
  funext inputStr
  unfold aslBody
  dsimp only
  split
  · rfl
  · next states found =>
    obtain ⟨object, there, plain⟩ := Option.bind_eq_some_iff.mp found
    have smaller := Json.depth_lt_of_get? there
    split
    · rfl
    · cases object with
      | obj fields =>
        cases plain
        refine runLoop_congr env (fun x below => same x (below.trans smaller)) (same _ ?_) 1000 _ _
        have positive : 1 ≤ Json.depth (.obj states) := by
          rw [Json.depth]
          omega
        have one : Json.depth (.obj []) = 1 := rfl
        omega
      | null | bool _ | posInt _ | negInt _ | float _ | str _ | arr _ => cases plain

end Below

end Openstack.StepFunctions

import Openstack.Lib.JsonValues
import Openstack.StepFunctions.ChoiceRules

/-!
# The runs that a run is made of

`provider.rs:73-269`. A run is a bounded loop over states, and a `Parallel` or `Map` state runs its branches or
its iterator. Every run comes to a result, made of the results of the runs below it, unless it evaluates a
choice rule that compares a text with the pattern "*": `eval_choice_rule` panics there.
-/
namespace Openstack.StepFunctions

variable {rule : Json} {state input : Json} {stateName : String} {runs : List (Json × String)}
  {run : Json → String → Option AslResult} {result : AslResult}

/-! ## Rules that panic -/

section Panics

variable (env : Env) (input : Json)

/-- No comparison decides the rule. -/
def Undecided (rule : Json) : Prop :=
  ((strField rule "Variable").bind fun var => compareVariable env rule (getJsonPath input var)) = none

/-- The evaluation of the rule comes to the pattern "*" with a text to compare. -/
inductive MeetsLoneStar : Json → Prop where
  | compare {rule : Json} {var s : String} (named : strField rule "Variable" = some var)
      (strings : rule.get? "StringEquals" = none) (numbers : rule.get? "NumericEquals" = none)
      (greater : compareNumbers env (fun a b => b < a) (getJsonPath input var)
        (rule.get? "NumericGreaterThan") = none)
      (less : compareNumbers env (fun a b => a < b) (getJsonPath input var)
        (rule.get? "NumericLessThan") = none)
      (booleans : rule.get? "BooleanEquals" = none)
      (star : matchOperands rule (getJsonPath input var) = some ("*", s)) : MeetsLoneStar rule
  | and {rule r : Json} {before after : List Json} (undecided : Undecided env input rule)
      (rules : arrField rule "And" = some (before ++ r :: after))
      (earlier : ∀ x ∈ before, evalChoiceRule env input x = some true) (meets : MeetsLoneStar r) :
      MeetsLoneStar rule
  | or {rule r : Json} {before after : List Json} (undecided : Undecided env input rule)
      (other : arrField rule "And" = none) (rules : arrField rule "Or" = some (before ++ r :: after))
      (earlier : ∀ x ∈ before, evalChoiceRule env input x = some false) (meets : MeetsLoneStar r) :
      MeetsLoneStar rule
  | not {rule r : Json} (undecided : Undecided env input rule) (and : arrField rule "And" = none)
      (or : arrField rule "Or" = none) (negated : rule.get? "Not" = some r) (meets : MeetsLoneStar r) :
      MeetsLoneStar rule

variable {env input}

theorem stringMatches_eq_none_iff {pattern s : String} : stringMatches pattern s = none ↔ pattern = "*" := by
  constructor
  · intro panics
    by_contra other
    have more : pattern.toList ≠ ['*'] := fun same => other (String.toList_inj.mp same)
    obtain ⟨result, found, -⟩ := stringMatches_placed more s
    rw [panics] at found
    cases found
  · rintro rfl
    exact stringMatches_lone s

theorem allRules_eq_none_iff {eval : Json → Option Bool} {rules : List Json} :
    allRules eval rules = none ↔ ∃ before r after, rules = before ++ r :: after ∧
      (∀ x ∈ before, eval x = some true) ∧ eval r = none := by
  induction rules with
  | nil => simp [allRules]
  | cons first rest ih =>
    rw [allRules]
    constructor
    · intro panics
      cases here : eval first with
      | none => exact ⟨[], first, rest, rfl, List.forall_mem_nil _, here⟩
      | some holds =>
        rw [here, Option.bind_some] at panics
        cases holds with
        | false => cases panics
        | true =>
          obtain ⟨before, r, after, rfl, earlier, fails⟩ := ih.mp panics
          exact ⟨first :: before, r, after, rfl, List.forall_mem_cons.mpr ⟨here, earlier⟩, fails⟩
    · rintro ⟨before, r, after, split, earlier, fails⟩
      cases before with
      | nil =>
        cases split
        rw [fails]
        rfl
      | cons x before =>
        cases split
        rw [earlier _ List.mem_cons_self, Option.bind_some]
        exact ih.mpr ⟨before, r, after, rfl, fun y there => earlier y (List.mem_cons_of_mem _ there), fails⟩

/-- `any` is `all` of the negations, negated. -/
theorem anyRule_eq_allRules (eval : Json → Option Bool) (rules : List Json) :
    anyRule eval rules = (allRules (fun r => (eval r).map (!·)) rules).map (!·) := by
  induction rules with
  | nil => rfl
  | cons first rest ih =>
    rw [anyRule, allRules, ih]
    cases eval first with
    | none => rfl
    | some holds => cases holds <;> rfl

theorem anyRule_eq_none_iff {eval : Json → Option Bool} {rules : List Json} :
    anyRule eval rules = none ↔ ∃ before r after, rules = before ++ r :: after ∧
      (∀ x ∈ before, eval x = some false) ∧ eval r = none := by
  rw [anyRule_eq_allRules, Option.map_eq_none_iff, allRules_eq_none_iff]
  simp

/-- A comparison panics at the pattern "*", when none of the others decides before it. -/
theorem compareVariable_panics_iff {field : Option Json} :
    compareVariable env rule field = some none ↔ rule.get? "StringEquals" = none ∧
      rule.get? "NumericEquals" = none ∧
      compareNumbers env (fun a b => b < a) field (rule.get? "NumericGreaterThan") = none ∧
      compareNumbers env (fun a b => a < b) field (rule.get? "NumericLessThan") = none ∧
      rule.get? "BooleanEquals" = none ∧ ∃ s, matchOperands rule field = some ("*", s) := by
  unfold compareVariable
  cases rule.get? "StringEquals" with
  | some eq => simp
  | none =>
    cases rule.get? "NumericEquals" with
    | some eq => simp
    | none =>
      cases compareNumbers env (fun a b => b < a) field (rule.get? "NumericGreaterThan") with
      | some result => simp
      | none =>
        cases compareNumbers env (fun a b => a < b) field (rule.get? "NumericLessThan") with
        | some result => simp
        | none =>
          cases rule.get? "BooleanEquals" with
          | some expected => simp
          | none =>
            cases matchOperands rule field with
            | none => simp
            | some operands =>
              obtain ⟨pattern, s⟩ := operands
              simp [stringMatches_eq_none_iff]

theorem ruleBody_undecided (undecided : Undecided env input rule)
    (eval : Json → Option Bool) : ruleBody env input eval rule = combineRules eval rule := by
  rw [ruleBody, undecided, Option.getD_none]

theorem panics_of_meets (meets : MeetsLoneStar env input rule) :
    evalChoiceRule env input rule = none := by
  induction meets with
  | compare named strings numbers greater less booleans star =>
    have panics := compareVariable_panics_iff.mpr ⟨strings, numbers, greater, less, booleans, _, star⟩
    rw [evalChoiceRule_eq, ruleBody, named, Option.bind_some, panics, Option.getD_some]
  | and undecided rules earlier _ ih =>
    rw [evalChoiceRule_eq, ruleBody_undecided undecided, combineRules, rules]
    exact allRules_eq_none_iff.mpr ⟨_, _, _, rfl, earlier, ih⟩
  | or undecided other rules earlier _ ih =>
    rw [evalChoiceRule_eq, ruleBody_undecided undecided, combineRules, other, rules]
    exact anyRule_eq_none_iff.mpr ⟨_, _, _, rfl, earlier, ih⟩
  | not undecided and or negated _ ih =>
    rw [evalChoiceRule_eq, ruleBody_undecided undecided, combineRules, and, or, negated]
    simp only [ih, Option.map_none]

theorem meets_of_panics {n : Nat} (small : Json.depth rule < n)
    (panics : evalChoiceRule env input rule = none) : MeetsLoneStar env input rule := by
  induction n generalizing rule with
  | zero => omega
  | succ n ih =>
    rw [evalChoiceRule_eq] at panics
    cases decided : (strField rule "Variable").bind fun var =>
        compareVariable env rule (getJsonPath input var) with
    | some result =>
      rw [ruleBody, decided, Option.getD_some] at panics
      subst panics
      obtain ⟨var, named, compared⟩ := Option.bind_eq_some_iff.mp decided
      obtain ⟨strings, numbers, greater, less, booleans, s, star⟩ := compareVariable_panics_iff.mp compared
      exact .compare named strings numbers greater less booleans star
    | none =>
      rw [ruleBody_undecided decided, combineRules] at panics
      split at panics
      · next rules found =>
        obtain ⟨before, r, after, rfl, earlier, fails⟩ := allRules_eq_none_iff.mp panics
        have below := depth_lt_of_arrField found (List.mem_append_right before List.mem_cons_self)
        exact .and decided found earlier (ih (by omega) fails)
      · next other =>
        split at panics
        · next rules found =>
          obtain ⟨before, r, after, rfl, earlier, fails⟩ := anyRule_eq_none_iff.mp panics
          have below := depth_lt_of_arrField found (List.mem_append_right before List.mem_cons_self)
          exact .or decided other found earlier (ih (by omega) fails)
        · next none_of =>
          split at panics
          · next negated found =>
            have below := Json.depth_lt_of_get? found
            exact .not decided other none_of found (ih (by omega) (Option.map_eq_none_iff.mp panics))
          · cases panics

/-- `eval_choice_rule` panics exactly when it comes to the pattern "*". -/
theorem evalChoiceRule_eq_none_iff :
    evalChoiceRule env input rule = none ↔ MeetsLoneStar env input rule :=
  ⟨meets_of_panics (Nat.lt_succ_self _), panics_of_meets⟩

end Panics

/-! ## What a run comes to -/

section Runs

variable (env : Env)

/-- The runs that a `Parallel` or `Map` state makes, each of a definition on an input text. -/
@[grind] def calls (state input : Json) : Option (List (Json × String)) :=
  match (strField state "Type").getD "Pass" with
  | "Parallel" =>
    some (((arrField state "Branches").getD []).map fun branch => (branch, env.toStr input))
  | "Map" =>
    some ((mapItems state input).map fun item =>
      ((state.get? "Iterator").getD (.obj []), env.toStr item))
  | _ => none

def statesOf (definition : Json) : Option (List (String × Json)) :=
  (definition.get? "States").bind Json.asObject?

def stateNamed (definition : Json) (stateName : String) : Option Json :=
  (statesOf definition).bind fun states => states.lookup stateName

def isEnd (state : Json) : Bool := ((state.get? "End").bind Json.asBool?).getD false

/-- The loop of a run comes to a state name with an input, and with this many iterations left. -/
inductive Reaches (definition : Json) (inputStr : String) : Nat → String → Json → Prop where
  | start {states : List (String × Json)} {startAt : String} (defined : statesOf definition = some states)
      (starts : strField definition "StartAt" = some startAt) :
      Reaches definition inputStr 1000 startAt ((env.fromStr inputStr).getD (.obj []))
  | goto {left : Nat} {stateName nextState : String} {input state : Json}
      (here : Reaches definition inputStr (left + 1) stateName input)
      (named : stateNamed definition stateName = some state)
      (turn : runState env (runAsl env) state input = some (.goto nextState)) :
      Reaches definition inputStr left nextState input
  | next {left : Nat} {stateName nextState : String} {input state value : Json}
      (here : Reaches definition inputStr (left + 1) stateName input)
      (named : stateNamed definition stateName = some state)
      (turn : runState env (runAsl env) state input = some (.output value)) (goesOn : isEnd state = false)
      (follows : strField state "Next" = some nextState) : Reaches definition inputStr left nextState value

/-- The run takes a turn of a state on an input. -/
def Visits (definition : Json) (inputStr : String) (state input : Json) : Prop :=
  ∃ left stateName, Reaches env definition inputStr (left + 1) stateName input ∧
    stateNamed definition stateName = some state

/-- The call returns a value. -/
def Succeeds (call : Json × String) (value : Json) : Prop :=
  runAsl env call.1 call.2 = some ⟨env.toStr value, none, none⟩

/-- The run, or a run below it, takes a turn of a state on an input. -/
inductive Within : Json → String → Json → Json → Prop where
  | here {definition state input : Json} {inputStr : String}
      (visits : Visits env definition inputStr state input) : Within definition inputStr state input
  | inner {definition state input state' input' : Json} {inputStr : String} {call : Json × String}
      {before after : List (Json × String)} (visits : Visits env definition inputStr state input)
      (made : calls env state input = some (before ++ call :: after))
      (earlier : ∀ c ∈ before, ∃ value, Succeeds env c value)
      (inside : Within call.1 call.2 state' input') : Within definition inputStr state' input'

/-- A choice that the loop over choices leaves behind. -/
def PassedOver (input choice : Json) : Prop :=
  evalChoiceRule env input choice = some false ∨
    evalChoiceRule env input choice = some true ∧ strField choice "Next" = none

/-- A `Choice` state comes to none of its choices whose rule meets the pattern "*". -/
def Clean (state input : Json) : Prop :=
  (strField state "Type").getD "Pass" = "Choice" →
    ∀ before choice after, (arrField state "Choices").getD [] = before ++ choice :: after →
      (∀ c ∈ before, PassedOver env input c) → ¬ MeetsLoneStar env input choice

/-- No choice rule of the run, or of a run below it, meets the pattern "*". -/
def AvoidsLoneStar (definition : Json) (inputStr : String) : Prop :=
  ∀ state input, Within env definition inputStr state input → Clean env state input

/-- The runs that a state makes all return values, and the state outputs the array of these, in order; or
one of them fails after others that did not, and the whole run ends with its result. -/
def Composed (definition : Json) (inputStr : String) (state input : Json)
    (runs : List (Json × String)) : Prop :=
  (∃ values, List.Forall₂ (Succeeds env) runs values ∧
    runState env (runAsl env) state input = some (.output (.arr values))) ∨
  ∃ before call after failure, runs = before ++ call :: after ∧
    (∀ c ∈ before, ∃ value, Succeeds env c value) ∧ runAsl env call.1 call.2 = some failure ∧
    failure.error.isSome = true ∧ runAsl env definition inputStr = some failure

variable {env}

/-! ### The turn of a state -/

/-- The loop goes past a choice. -/
theorem firstChoice_passedOver {input choice : Json} {rest : List Json}
    (passed : PassedOver env input choice) :
    firstChoice env input (choice :: rest) = firstChoice env input rest := by
  rw [firstChoice]
  rcases passed with fails | ⟨holds, without⟩
  · rw [fails]
    rfl
  · rw [holds, Option.bind_some, if_pos rfl, without]

theorem firstChoice_cons_eq_none_iff {input choice : Json} {rest : List Json} :
    firstChoice env input (choice :: rest) = none ↔ evalChoiceRule env input choice = none ∨
      PassedOver env input choice ∧ firstChoice env input rest = none := by
  cases here : evalChoiceRule env input choice with
  | none => simp [firstChoice, here]
  | some holds =>
    cases holds with
    | false =>
      have passed : PassedOver env input choice := .inl here
      rw [firstChoice_passedOver passed]
      simp [passed]
    | true =>
      cases next : strField choice "Next" with
      | none =>
        have passed : PassedOver env input choice := .inr ⟨here, next⟩
        rw [firstChoice_passedOver passed]
        simp [passed]
      | some nextState => simp [firstChoice, here, next, PassedOver]

theorem firstChoice_eq_none_iff {input : Json} {choices : List Json} :
    firstChoice env input choices = none ↔ ∃ before choice after, choices = before ++ choice :: after ∧
      (∀ c ∈ before, PassedOver env input c) ∧ MeetsLoneStar env input choice := by
  simp only [← evalChoiceRule_eq_none_iff]
  induction choices with
  | nil => simp [firstChoice]
  | cons first rest ih =>
    rw [firstChoice_cons_eq_none_iff, ih]
    constructor
    · rintro (panics | ⟨passed, before, choice, after, rfl, earlier, panics⟩)
      · exact ⟨[], first, rest, rfl, List.forall_mem_nil _, panics⟩
      · exact ⟨first :: before, choice, after, rfl, List.forall_mem_cons.mpr ⟨passed, earlier⟩, panics⟩
    · rintro ⟨before, choice, after, split, earlier, panics⟩
      cases before with
      | nil =>
        cases split
        exact .inl panics
      | cons c before =>
        cases split
        obtain ⟨passed, earlier⟩ := List.forall_mem_cons.mp earlier
        exact .inr ⟨passed, before, choice, after, rfl, earlier, panics⟩

/-- A state that makes runs collects their results. -/
theorem runState_of_calls (made : calls env state input = some runs) (run : Json → String → Option AslResult) :
    runState env run state input = (runEach env run runs).map collect := by
  unfold calls at made
  unfold runState
  split at made
  · next parallel =>
    cases made
    simp only [parallel]
  · next map =>
    cases made
    simp only [map]
  · cases made

/-- Any other state panics only at a choice. -/
theorem runState_of_no_calls (made : calls env state input = none) (run : Json → String → Option AslResult) :
    runState env run state input = none ↔ ¬ Clean env state input := by
  have unclean : ¬ Clean env state input ↔ (strField state "Type").getD "Pass" = "Choice" ∧
      firstChoice env input ((arrField state "Choices").getD []) = none := by
    rw [Clean, firstChoice_eq_none_iff]
    simp
  rw [unclean]
  unfold calls at made
  unfold runState
  split
  · next type => simp [type]
  · next type => simp [type]
  · next type => simp [type]
  · next type => simp [type, runChoice]
  · next type => simp [type] at made
  · next type => simp [type] at made
  · next no_choice _ _ => simpa using fun type => absurd type no_choice

/-! ### Results -/

theorem runEach_failure {failure : AslResult} (failed : runEach env run runs = some (.inl failure)) :
    failure.error.isSome = true := by
  induction runs with
  | nil => cases failed
  | cons call rest ih =>
    obtain ⟨definition, input⟩ := call
    rw [runEach] at failed
    obtain ⟨result, -, failed⟩ := Option.bind_eq_some_iff.mp failed
    split at failed
    · next here =>
      cases failed
      exact here
    · obtain ⟨results, later, same⟩ := Option.map_eq_some_iff.mp failed
      cases results with
      | inl other =>
        cases same
        exact ih later
      | inr values => cases same

/-- A result without an error is a value. -/
def IsValue (env : Env) (result : AslResult) : Prop :=
  result.error = none → ∃ value, result = ⟨env.toStr value, none, none⟩

theorem runState_stop (stops : runState env run state input = some (.stop result)) : IsValue env result := by
  intro plain
  cases made : calls env state input with
  | some runs =>
    rw [runState_of_calls made] at stops
    obtain ⟨results, ran, same⟩ := Option.map_eq_some_iff.mp stops
    cases results with
    | inl failure =>
      cases same
      have fails := runEach_failure ran
      rw [plain] at fails
      cases fails
    | inr values => cases same
  | none =>
    unfold calls at made
    unfold runState at stops
    split at stops
    · cases stops
    · cases stops
      exact ⟨input, rfl⟩
    · cases stops
      cases plain
    · obtain ⟨chosen, -, same⟩ := Option.map_eq_some_iff.mp stops
      split at same
      · cases same
      · cases same
        cases plain
    · next type => simp [type] at made
    · next type => simp [type] at made
    · cases stops

theorem runLoop_isValue {states : List (String × Json)} {left : Nat} {input : Json}
    (ends : runLoop env run states left stateName input = some result) : IsValue env result := by
  induction left generalizing stateName input with
  | zero =>
    cases ends
    intro plain
    cases plain
  | succ left ih =>
    rw [runLoop] at ends
    split at ends
    · cases ends
      intro plain
      cases plain
    · obtain ⟨turn, taken, ends⟩ := Option.bind_eq_some_iff.mp ends
      split at ends
      · cases ends
        exact runState_stop taken
      · exact ih ends
      · split at ends
        · cases ends
          exact fun _ => ⟨_, rfl⟩
        · split at ends
          · exact ih ends
          · cases ends
            exact fun _ => ⟨_, rfl⟩

theorem runAsl_isValue {definition : Json} {inputStr : String}
    (ends : runAsl env definition inputStr = some result) : IsValue env result := by
  rw [runAsl_eq, aslBody] at ends
  split at ends
  · cases ends
    intro plain
    cases plain
  · split at ends
    · cases ends
      intro plain
      cases plain
    · exact runLoop_isValue ends

/-- Runs one after the other: all return values, or the first that does not panics or fails. -/
theorem runEach_cases (faithful : ∀ v, env.fromStr (env.toStr v) = some v) (runs : List (Json × String)) :
    (∃ values, List.Forall₂ (Succeeds env) runs values ∧
      runEach env (runAsl env) runs = some (.inr values)) ∨
    ∃ before call after, runs = before ++ call :: after ∧
      (∀ c ∈ before, ∃ value, Succeeds env c value) ∧
      (runAsl env call.1 call.2 = none ∧ runEach env (runAsl env) runs = none ∨
        ∃ failure, runAsl env call.1 call.2 = some failure ∧ failure.error.isSome = true ∧
          runEach env (runAsl env) runs = some (.inl failure)) := by
  induction runs with
  | nil => exact .inl ⟨[], .nil, rfl⟩
  | cons first rest ih =>
    obtain ⟨definition, input⟩ := first
    rw [runEach]
    cases ran : runAsl env definition input with
    | none => exact .inr ⟨[], _, rest, rfl, List.forall_mem_nil _, .inl ⟨ran, rfl⟩⟩
    | some result =>
      rw [Option.bind_some]
      cases failed : result.error.isSome with
      | true =>
        rw [if_pos rfl]
        exact .inr ⟨[], _, rest, rfl, List.forall_mem_nil _, .inr ⟨result, ran, failed, rfl⟩⟩
      | false =>
        obtain ⟨value, rfl⟩ := runAsl_isValue ran (Option.not_isSome_iff_eq_none.mp (by simp [failed]))
        rw [if_neg Bool.false_ne_true, faithful]
        rcases ih with ⟨values, each, later⟩ | ⟨before, call, after, rfl, earlier, later⟩
        · rw [later]
          exact .inl ⟨value :: values, .cons ran each, rfl⟩
        · refine .inr ⟨(definition, input) :: before, call, after, rfl,
            List.forall_mem_cons.mpr ⟨⟨value, ran⟩, earlier⟩, ?_⟩
          rcases later with ⟨panics, later⟩ | ⟨failure, fails, error, later⟩
          · rw [later]
            exact .inl ⟨panics, rfl⟩
          · rw [later]
            exact .inr ⟨failure, fails, error, rfl⟩

/-! ### The loop -/

section Loop

variable {definition : Json} {inputStr : String} {state input : Json}

/-- The rest of the run, from where its loop is. -/
theorem runAsl_of_reaches {left : Nat} (reaches : Reaches env definition inputStr left stateName input) :
    ∃ states, statesOf definition = some states ∧
      runAsl env definition inputStr = runLoop env (runAsl env) states left stateName input := by
  induction reaches with
  | start defined starts =>
    refine ⟨_, defined, ?_⟩
    rw [runAsl_eq, aslBody]
    rw [statesOf] at defined
    rw [defined, starts]
  | goto _ named turn ih =>
    obtain ⟨states, defined, same⟩ := ih
    rw [stateNamed, defined, Option.bind_some] at named
    refine ⟨states, defined, ?_⟩
    rw [same, runLoop, named]
    simp only [turn, Option.bind_some]
  | next _ named turn goesOn follows ih =>
    obtain ⟨states, defined, same⟩ := ih
    rw [stateNamed, defined, Option.bind_some] at named
    refine ⟨states, defined, ?_⟩
    rw [isEnd] at goesOn
    rw [same, runLoop, named]
    simp [turn, goesOn, follows]

/-- A run panics with the turn of a state, and stops with it. -/
theorem runAsl_of_visits (visits : Visits env definition inputStr state input) :
    (runState env (runAsl env) state input = none → runAsl env definition inputStr = none) ∧
      ∀ result, runState env (runAsl env) state input = some (.stop result) →
        runAsl env definition inputStr = some result := by
  obtain ⟨left, stateName, reaches, named⟩ := visits
  obtain ⟨states, defined, same⟩ := runAsl_of_reaches reaches
  rw [stateNamed, defined, Option.bind_some] at named
  rw [same, runLoop, named]
  constructor
  · intro panics
    simp only [panics, Option.bind_none]
  · intro result stops
    simp only [stops, Option.bind_some]

/-- What a run that is called does to the state that calls it, after others that returned values. -/
theorem runEach_at {before after : List (Json × String)} {call : Json × String}
    (earlier : ∀ c ∈ before, ∃ value, Succeeds env c value) :
    (runAsl env call.1 call.2 = none → runEach env (runAsl env) (before ++ call :: after) = none) ∧
      ∀ failure, runAsl env call.1 call.2 = some failure → failure.error.isSome = true →
        runEach env (runAsl env) (before ++ call :: after) = some (.inl failure) := by
  induction before with
  | nil =>
    obtain ⟨definition, input⟩ := call
    rw [List.nil_append, runEach]
    constructor
    · intro panics
      rw [panics, Option.bind_none]
    · intro failure fails error
      rw [fails, Option.bind_some, if_pos error]
  | cons first before ih =>
    obtain ⟨definition, input⟩ := first
    obtain ⟨⟨value, here⟩, earlier⟩ := List.forall_mem_cons.mp earlier
    rw [List.cons_append, runEach, show runAsl env definition input = _ from here, Option.bind_some,
      if_neg (by simp)]
    constructor
    · intro panics
      rw [(ih earlier).1 panics, Option.map_none]
    · intro failure fails error
      rw [(ih earlier).2 failure fails error]
      rfl

/-- A panic below a run is one of the run, and so is a failure. -/
theorem runAsl_of_within (within : Within env definition inputStr state input) :
    (runState env (runAsl env) state input = none → runAsl env definition inputStr = none) ∧
      ∀ failure, failure.error.isSome = true →
        runState env (runAsl env) state input = some (.stop failure) →
          runAsl env definition inputStr = some failure := by
  induction within with
  | here visits =>
    exact ⟨(runAsl_of_visits visits).1, fun failure _ => (runAsl_of_visits visits).2 failure⟩
  | inner visits made earlier _ ih =>
    constructor
    · intro panics
      refine (runAsl_of_visits visits).1 ?_
      rw [runState_of_calls made, (runEach_at earlier).1 (ih.1 panics), Option.map_none]
    · intro failure error stops
      refine (runAsl_of_visits visits).2 failure ?_
      rw [runState_of_calls made, (runEach_at earlier).2 failure (ih.2 failure error stops) error]
      rfl

theorem runState_of_unclean (unclean : ¬ Clean env state input) :
    runState env (runAsl env) state input = none := by
  refine (runState_of_no_calls ?_ _).mpr unclean
  rw [Clean, Classical.not_imp] at unclean
  simp [calls, unclean.1]

/-- The runs that a state makes are of smaller definitions. -/
theorem depth_call_lt {call : Json × String}
    (named : stateNamed definition stateName = some state) (made : calls env state input = some runs)
    (member : call ∈ runs) : Json.depth call.1 < Json.depth definition := by
  obtain ⟨states, defined, found⟩ := Option.bind_eq_some_iff.mp named
  obtain ⟨object, there, plain⟩ := Option.bind_eq_some_iff.mp defined
  have inside : Json.depth state < Json.depth object := by
    cases object with
    | obj fields =>
      cases plain
      exact @Json.depth_lt_of_get? (.obj states) state stateName found
    | null | bool _ | posInt _ | negInt _ | float _ | str _ | arr _ => cases plain
  have outside := Json.depth_lt_of_get? there
  have one : Json.depth (.obj []) = 1 := rfl
  unfold calls at made
  split at made
  · cases made
    obtain ⟨branch, among, rfl⟩ := List.mem_map.mp member
    cases found : arrField state "Branches" with
    | none =>
      rw [found] at among
      cases among
    | some branches =>
      rw [found] at among
      have below := depth_lt_of_arrField found among
      dsimp only
      omega
  · cases made
    obtain ⟨item, -, rfl⟩ := List.mem_map.mp member
    cases found : state.get? "Iterator" with
    | none =>
      dsimp only [Option.getD_none]
      omega
    | some iterator =>
      have below := Json.depth_lt_of_get? found
      dsimp only [Option.getD_some]
      omega
  · cases made

/-- Without the pattern "*" a run comes to a result; the induction is on the depth of the definition, and
inside of it on the iterations that the loop has left. -/
theorem terminates_of_avoids (faithful : ∀ v, env.fromStr (env.toStr v) = some v) {n : Nat}
    (small : Json.depth definition < n) (avoids : AvoidsLoneStar env definition inputStr) :
    ∃ result, runAsl env definition inputStr = some result := by
  induction n generalizing definition inputStr with
  | zero => omega
  | succ n ih =>
    rw [runAsl_eq, aslBody]
    split
    · exact ⟨_, rfl⟩
    next states defined =>
    split
    · exact ⟨_, rfl⟩
    next startAt starts =>
    suffices loop : ∀ left stateName input, Reaches env definition inputStr left stateName input →
        ∃ result, runLoop env (runAsl env) states left stateName input = some result from
      loop 1000 startAt _ (.start defined starts)
    intro left
    induction left with
    | zero => exact fun _ _ _ => ⟨_, rfl⟩
    | succ left loop =>
      intro stateName input reaches
      rw [runLoop]
      cases found : states.lookup stateName with
      | none => exact ⟨_, rfl⟩
      | some state =>
        have named : stateNamed definition stateName = some state := by
          rw [stateNamed, show statesOf definition = _ from defined, Option.bind_some, found]
        have visits : Visits env definition inputStr state input := ⟨left, stateName, reaches, named⟩
        have turns : ∃ turn, runState env (runAsl env) state input = some turn := by
          cases made : calls env state input with
          | none =>
            refine Option.ne_none_iff_exists'.mp fun panics => ?_
            exact (runState_of_no_calls made _).mp panics (avoids state input (.here visits))
          | some runs =>
            rw [runState_of_calls made]
            rcases runEach_cases faithful runs with
              ⟨values, -, ran⟩ | ⟨before, call, after, rfl, earlier, ran⟩
            · exact ⟨_, by rw [ran, Option.map_some]⟩
            · have smaller := depth_call_lt named made (List.mem_append_right before List.mem_cons_self)
              obtain ⟨result, returns⟩ := @ih call.1 call.2 (by omega) fun state' input' inside =>
                avoids state' input' (.inner visits made earlier inside)
              rcases ran with ⟨panics, -⟩ | ⟨failure, -, -, ran⟩
              · rw [returns] at panics
                cases panics
              · exact ⟨_, by rw [ran, Option.map_some]⟩
        obtain ⟨turn, taken⟩ := turns
        simp only [taken, Option.bind_some]
        cases turn with
        | stop result => exact ⟨result, rfl⟩
        | goto nextState => exact loop nextState input (.goto reaches named taken)
        | output value =>
          dsimp only
          split
          · exact ⟨_, rfl⟩
          next goesOn =>
          split
          · next nextState follows =>
            exact loop nextState value (.next reaches named taken (by simpa [isEnd] using goesOn) follows)
          · exact ⟨_, rfl⟩

end Loop

end Runs

/-- A run comes to a result, made of those of the runs below it, exactly when none of its choice rules meets
the pattern "*". -/
theorem runAsl_total_and_composed_iff (env : Env) (faithful : ∀ v, env.fromStr (env.toStr v) = some v)
    (definition : Json) (inputStr : String) :
    ((∃ result, runAsl env definition inputStr = some result) ∧
      ∀ state input runs, Within env definition inputStr state input → calls env state input = some runs →
        Composed env definition inputStr state input runs) ↔
      AvoidsLoneStar env definition inputStr := by
  constructor
  · rintro ⟨⟨result, returns⟩, -⟩ state input within
    by_contra unclean
    rw [(runAsl_of_within within).1 (runState_of_unclean unclean)] at returns
    cases returns
  · intro avoids
    obtain ⟨result, returns⟩ := terminates_of_avoids faithful (Nat.lt_succ_self _) avoids
    refine ⟨⟨result, returns⟩, ?_⟩
    intro state input runs within made
    obtain ⟨panic, failing⟩ := runAsl_of_within within
    have turn := runState_of_calls made (runAsl env)
    rcases runEach_cases faithful runs with
      ⟨values, each, ran⟩ | ⟨before, call, after, rfl, earlier, ran⟩
    · exact .inl ⟨values, each, by rw [turn, ran]; rfl⟩
    · rcases ran with ⟨-, ran⟩ | ⟨failure, fails, error, ran⟩
      · rw [panic (by rw [turn, ran]; rfl)] at returns
        cases returns
      · refine .inr ⟨before, call, after, failure, rfl, earlier, fails, error, failing failure error ?_⟩
        rw [turn, ran]
        rfl

/-- Values as the text that `serde_json` prints, for the numbers that occur here. -/
def textEnv : Env where
  region := "us-east-1"
  accountId := "000000000000"
  toStr := fun v => String.ofList (JsonText.print v)
  fromStr := fun s => JsonText.parse s.toList
  asF64 := fun v => v.asU64?.map fun n => n

theorem textEnv_faithful (v : Json) : textEnv.fromStr (textEnv.toStr v) = some v := by
  simp only [textEnv, String.toList_ofList]
  exact JsonText.parse_print v

def finish : Json :=
  .obj [("StartAt", .str "S"), ("States", .obj [("S", .obj [("Type", .str "Succeed")])])]

/-- One branch, which succeeds at once. -/
def oneBranch : Json :=
  .obj [("StartAt", .str "P"), ("States", .obj [("P", .obj [("Branches", .arr [finish]), ("End", .bool true),
    ("Type", .str "Parallel")])])]

theorem stateNamed_single {start type : String} {fields : List (String × Json)}
    {state : Json} (found : stateNamed (.obj [("StartAt", .str start), ("States", .obj [(type, .obj fields)])])
      stateName = some state) : state = .obj fields := by
  have lookup : [(type, Json.obj fields)].lookup stateName = some state := found
  rw [List.lookup_cons] at lookup
  split at lookup
  · exact (Option.some.inj lookup).symm
  · cases lookup

theorem finish_clean {inputStr : String}
    (within : Within textEnv finish inputStr state input) : Clean textEnv state input := by
  cases within with
  | here visits =>
    obtain ⟨_, _, _, named⟩ := visits
    rw [stateNamed_single named]
    intro choice
    exact absurd choice (by decide)
  | inner visits made =>
    obtain ⟨_, _, _, named⟩ := visits
    rw [stateNamed_single named] at made
    cases made

theorem oneBranch_avoids (inputStr : String) : AvoidsLoneStar textEnv oneBranch inputStr := by
  intro state input within
  cases within with
  | here visits =>
    obtain ⟨_, _, _, named⟩ := visits
    rw [stateNamed_single named]
    intro choice
    exact absurd choice (by decide)
  | @inner _ _ _ _ _ _ call before after visits made _ inside =>
    obtain ⟨_, _, _, named⟩ := visits
    rw [stateNamed_single named] at made
    have branch : call ∈ before ++ call :: after := List.mem_append_right before List.mem_cons_self
    rw [← Option.some.inj made] at branch
    rw [List.mem_singleton.mp branch] at inside
    exact finish_clean inside

theorem oneBranch_composed : (∃ result, runAsl textEnv oneBranch "[]" = some result) ∧
    ∀ state input runs, Within textEnv oneBranch "[]" state input →
      calls textEnv state input = some runs → Composed textEnv oneBranch "[]" state input runs :=
  (runAsl_total_and_composed_iff textEnv textEnv_faithful oneBranch "[]").mpr (oneBranch_avoids "[]")

/-- A choice for every text. -/
def anyText : Json :=
  .obj [("StartAt", .str "C"), ("States", .obj [("C", .obj [("Choices", .arr [.obj [("Next", .str "C"),
    ("StringMatches", .str "*"), ("Variable", .str "$")]]), ("Type", .str "Choice")])])]

/-- The choice panics on the text "a". -/
theorem choice_panics : ¬ ∀ env : Env, (∀ v, env.fromStr (env.toStr v) = some v) →
    ∀ definition inputStr, ∃ result, runAsl env definition inputStr = some result := by
  intro claim
  obtain ⟨result, returns⟩ := claim textEnv textEnv_faithful anyText "\"a\""
  have panics : runAsl textEnv anyText "\"a\"" = none := by decide +kernel
  rw [panics] at returns
  cases returns

end Openstack.StepFunctions

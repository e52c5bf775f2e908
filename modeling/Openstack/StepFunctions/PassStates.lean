import Openstack.Lib.AssocList
import Openstack.StepFunctions.Composition

/-!
# Pass states

The `Pass` branch of `run_asl` (`crates/services/stepfunctions/src/provider.rs`, lines 117-135). The
result first takes the place of the input; the path is applied to what is there then, which is the result.
-/
namespace Openstack.StepFunctions

open AssocList (lookup_cons_ite)

/-- The object `fields` with `value` in the field `key`. -/
def WithField (fields : List (String × Json)) (key : String) (value output : Json) : Prop :=
  ∃ out, output = .obj out ∧ ∀ name, out.lookup name = if name = key then some value else fields.lookup name

/-- What a `Pass` state promises for the input `fields`. -/
structure PassRight (state : Json) (fields : List (String × Json)) (output : Json) : Prop where
  atPath : ∀ result key, state.get? "Result" = some result →
    strField state "ResultPath" = some ("$." ++ key) → WithField fields key result output
  result : ∀ result, state.get? "Result" = some result →
    strField state "ResultPath" = none ∨ strField state "ResultPath" = some "$" → output = result
  noResult : state.get? "Result" = none → output = .obj fields

/-- The state is a `Pass` state, by its type or by default. -/
def isPass (state : Json) : Prop := (strField state "Type").getD "Pass" = "Pass"

/-- A result for a path `$.k` is an object with the fields of the input, but for `k`. -/
def ResultCoversInput (state : Json) (fields : List (String × Json)) : Prop :=
  ∀ result key, state.get? "Result" = some result → strField state "ResultPath" = some ("$." ++ key) →
    ∃ own, result = .obj own ∧ ∀ name, name ≠ key → own.lookup name = fields.lookup name

theorem lookup_insertField (key name : String) (value : Json) (fields : List (String × Json)) :
    (insertField key value fields).lookup name = if name = key then some value else fields.lookup name := by
  induction fields with
  | nil => rw [insertField, lookup_cons_ite]
  | cons field rest ih =>
    obtain ⟨k, v⟩ := field
    rw [insertField]
    split
    · next here =>
      obtain rfl : k = key := here
      rw [lookup_cons_ite, lookup_cons_ite]
      split <;> rfl
    · next other =>
      split
      · rw [lookup_cons_ite]
      · rw [lookup_cons_ite, lookup_cons_ite, ih]
        split
        · next first => rw [if_neg fun same => other (first.symm.trans same)]
        · rfl

theorem underRoot_append (key : String) : underRoot ("$." ++ key) = some key := by
  have front : "$.".toList.isPrefixOf ("$." ++ key).toList = true := by
    rw [String.toList_append]
    exact List.isPrefixOf_iff_prefix.mpr (List.prefix_append _ _)
  rw [underRoot, RustStr.stripPrefix, if_pos front, String.toList_append, List.drop_left, Option.map_some,
    String.ofList_toList]

theorem root_ne_append (key : String) : "$." ++ key ≠ "$" := by
  intro same
  have lengths := congrArg (fun s => s.toList.length) same
  simp at lengths

section Output

variable {state : Json} {fields : List (String × Json)}

theorem passOutput_noResult (absent : state.get? "Result" = none) (input : Json) :
    passOutput state input = input := by
  rw [passOutput, absent, Option.getD_none]
  cases (strField state "ResultPath").filter (· ≠ "$") with
  | none => rfl
  | some resultPath =>
    dsimp only
    cases underRoot resultPath <;> cases input <;> rfl

theorem passOutput_root {result : Json} (found : state.get? "Result" = some result)
    (root : strField state "ResultPath" = none ∨ strField state "ResultPath" = some "$") (input : Json) :
    passOutput state input = result := by
  have filtered : (strField state "ResultPath").filter (· ≠ "$") = none := by
    rcases root with absent | root
    · rw [absent]
      rfl
    · rw [root]
      rfl
  rw [passOutput, filtered, found, Option.getD_some]

/-- The result takes its own place in itself; one that is no object stays as it is. -/
def placedInItself (key : String) : Json → Json
  | .obj own => .obj (insertField key (.obj own) own)
  | result => result

theorem passOutput_path {result : Json} {key : String} (found : state.get? "Result" = some result)
    (path : strField state "ResultPath" = some ("$." ++ key)) (input : Json) :
    passOutput state input = placedInItself key result := by
  have filtered : (strField state "ResultPath").filter (· ≠ "$") = some ("$." ++ key) := by
    rw [path, Option.filter_some, if_pos (decide_eq_true (root_ne_append key))]
  rw [passOutput, filtered, found, Option.getD_some]
  dsimp only
  rw [underRoot_append]
  cases result <;> rfl

theorem withField_passOutput_iff {result : Json} {key : String} (found : state.get? "Result" = some result)
    (path : strField state "ResultPath" = some ("$." ++ key)) (input : Json) :
    WithField fields key result (passOutput state input) ↔
      ∃ own, result = .obj own ∧ ∀ name, name ≠ key → own.lookup name = fields.lookup name := by
  rw [passOutput_path found path]
  cases result with
  | obj own =>
    constructor
    · rintro ⟨out, same, lookups⟩
      cases same
      refine ⟨own, rfl, fun name other => ?_⟩
      have here := lookups name
      rwa [lookup_insertField, if_neg other, if_neg other] at here
    · rintro ⟨own', same, others⟩
      cases same
      refine ⟨_, rfl, fun name => ?_⟩
      rw [lookup_insertField]
      split
      · rfl
      · next other => exact others name other
  | null | bool _ | posInt _ | negInt _ | float _ | str _ | arr _ =>
    refine iff_of_false ?_ ?_
    · rintro ⟨out, same, -⟩
      cases same
    · rintro ⟨own, same, -⟩
      cases same

theorem passRight_iff : PassRight state fields (passOutput state (.obj fields)) ↔
    ResultCoversInput state fields := by
  constructor
  · intro right result key found path
    exact (withField_passOutput_iff found path _).mp (right.atPath result key found path)
  · intro covers
    refine ⟨fun result key found path => ?_, fun result found root => ?_, fun absent => ?_⟩
    · exact (withField_passOutput_iff found path _).mpr (covers result key found path)
    · exact passOutput_root found root _
    · exact passOutput_noResult absent _

end Output

/-- A `Pass` state does what it promises, in every run that comes to it, exactly when the result covers
the input. -/
theorem pass_states_right_iff (env : Env) (run : Json → String → Option AslResult) {state : Json}
    (pass : isPass state) (fields : List (String × Json)) :
    (∃ output, runState env run state (.obj fields) = some (.output output) ∧
      PassRight state fields output) ↔ ResultCoversInput state fields := by
  have turn : runState env run state (.obj fields) = some (.output (passOutput state (.obj fields))) := by
    rw [runState, pass]
    rfl
  rw [turn, ← passRight_iff]
  constructor
  · rintro ⟨output, same, right⟩
    cases same
    exact right
  · exact fun right => ⟨_, rfl, right⟩

section Example

def mergeState : Json :=
  .obj [("Result", .obj [("y", .posInt 1)]), ("ResultPath", .str "$.r"), ("Type", .str "Pass")]

/-- The result has the field of the input. -/
theorem mergeState_right : ∃ output,
    runState textEnv (runAsl textEnv) mergeState (.obj [("y", .posInt 1)]) = some (.output output) ∧
      PassRight mergeState [("y", .posInt 1)] output := by
  have pass : isPass mergeState := rfl
  refine (pass_states_right_iff textEnv (runAsl textEnv) pass [("y", .posInt 1)]).mpr ?_
  intro result key found _
  cases found
  exact ⟨_, rfl, fun _ _ => rfl⟩

/-- The field `x` of the input is lost, and `y` of the result comes in beside `r`. -/
theorem pass_drops_input_fields :
    runState textEnv (runAsl textEnv) mergeState (.obj [("x", .posInt 0)]) = some (.output (.obj
      [("r", .obj [("y", .posInt 1)]), ("y", .posInt 1)])) ∧
    ¬ ∃ output, runState textEnv (runAsl textEnv) mergeState (.obj [("x", .posInt 0)]) =
        some (.output output) ∧ PassRight mergeState [("x", .posInt 0)] output := by
  have turn : runState textEnv (runAsl textEnv) mergeState (.obj [("x", .posInt 0)]) = some (.output (.obj
      [("r", .obj [("y", .posInt 1)]), ("y", .posInt 1)])) := rfl
  refine ⟨turn, ?_⟩
  rintro ⟨output, same, right⟩
  cases turn.symm.trans same
  obtain ⟨out, shape, lookups⟩ := right.atPath _ "r" rfl rfl
  cases shape
  have lost := lookups "x"
  rw [if_neg (by decide)] at lost
  cases lost

end Example

end Openstack.StepFunctions

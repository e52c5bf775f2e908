import Openstack.Lib.Glob
import Openstack.Lib.KeywordSearch
import Openstack.StepFunctions.Interpreter

/-!
# What a choice rule means

`provider.rs:271-336`. A rule is a tree of comparisons, and `eval_choice_rule` reads it off its JSON text.
Two values that are missing compare as equal there, the slice of the pattern "*" is out of range, and a
star inside of a pattern stands for itself.
-/
namespace Openstack.StepFunctions

inductive Operator where
  | stringEquals
  | numericEquals
  | numericGreaterThan
  | numericLessThan
  | booleanEquals
  | stringMatches
  deriving DecidableEq, Repr

def Operator.key : Operator → String
  | .stringEquals => "StringEquals"
  | .numericEquals => "NumericEquals"
  | .numericGreaterThan => "NumericGreaterThan"
  | .numericLessThan => "NumericLessThan"
  | .booleanEquals => "BooleanEquals"
  | .stringMatches => "StringMatches"

inductive Rule where
  | compare (var : String) (op : Operator) (operand : Json)
  | and (rules : List Rule)
  | or (rules : List Rule)
  | not (rule : Rule)

theorem Rule.induct {P : Rule → Prop} (compare : ∀ var op operand, P (.compare var op operand))
    (and : ∀ rules, (∀ r ∈ rules, P r) → P (.and rules))
    (or : ∀ rules, (∀ r ∈ rules, P r) → P (.or rules)) (not : ∀ rule, P rule → P (.not rule))
    (rule : Rule) : P rule := by
  refine @Rule.rec P (fun rules => ∀ r ∈ rules, P r) compare and or not ?_ ?_ rule
  · exact List.forall_mem_nil _
  · intro first rest here later
    exact List.forall_mem_cons.mpr ⟨here, later⟩

mutual

/-- The rule as it stands in a definition. -/
def Rule.json : Rule → Json
  | .compare var op operand => .obj [(op.key, operand), ("Variable", .str var)]
  | .and rules => .obj [("And", .arr (jsonOfRules rules))]
  | .or rules => .obj [("Or", .arr (jsonOfRules rules))]
  | .not rule => .obj [("Not", rule.json)]

def jsonOfRules : List Rule → List Json
  | [] => []
  | rule :: rest => rule.json :: jsonOfRules rest

end

mutual

/-- The rule and the rules it is built from. -/
def Rule.parts : Rule → List Rule
  | .compare var op operand => [.compare var op operand]
  | .and rules => .and rules :: partsOfRules rules
  | .or rules => .or rules :: partsOfRules rules
  | .not rule => .not rule :: rule.parts

def partsOfRules : List Rule → List Rule
  | [] => []
  | rule :: rest => rule.parts ++ partsOfRules rest

end

section Meaning

variable (env : Env) (input : Json)

/-- Both values are of the type that is read, and they stand in the relation. -/
def bothAnd {α : Type} (read : Json → Option α) (related : α → α → Bool) (field : Option Json)
    (operand : Json) : Bool :=
  ((field.bind read).bind fun a => (read operand).map fun b => related a b).getD false

/-- A comparison is false when its variable is missing or of another type; a star in a pattern stands for any
text. -/
def Operator.denote (op : Operator) (field : Option Json) (operand : Json) : Bool :=
  match op with
  | .stringEquals => bothAnd Json.asStr? (fun a b => a == b) field operand
  | .numericEquals => bothAnd env.asF64 (fun a b => a == b) field operand
  | .numericGreaterThan => bothAnd env.asF64 (fun a b => decide (b < a)) field operand
  | .numericLessThan => bothAnd env.asF64 (fun a b => decide (a < b)) field operand
  | .booleanEquals => bothAnd Json.asBool? (fun a b => a == b) field operand
  | .stringMatches =>
    bothAnd Json.asStr? (fun s pattern => Glob.test '*' pattern.toList s.toList) field operand

mutual

def Rule.denote : Rule → Bool
  | .compare var op operand => op.denote env (getJsonPath input var) operand
  | .and rules => denoteAll rules
  | .or rules => denoteAny rules
  | .not rule => !rule.denote

def denoteAll : List Rule → Bool
  | [] => true
  | rule :: rest => rule.denote && denoteAll rest

def denoteAny : List Rule → Bool
  | [] => false
  | rule :: rest => rule.denote || denoteAny rest

end

end Meaning

section Patterns

def opensLeft (cs : List Char) : Bool := ['*'].isPrefixOf cs

def opensRight (cs : List Char) : Bool := ['*'].isSuffixOf cs

/-- The pattern without the stars at its ends. -/
def middle (cs : List Char) : List Char :=
  let cs := if opensLeft cs then cs.drop 1 else cs
  if opensRight cs then cs.dropLast else cs

/-- The text has the middle of the pattern as it is, with more on an open side only. -/
def Placed (cs s : List Char) : Prop :=
  ∃ a c, s = a ++ middle cs ++ c ∧ (opensLeft cs = false → a = []) ∧ (opensRight cs = false → c = [])

/-- The pattern is not a lone star. If there is a star inside of it and the text matches it, then the text
has that star too. -/
def Readable (pattern s : String) : Prop :=
  pattern ≠ "*" ∧ ('*' ∈ middle pattern.toList → Glob.Matches '*' pattern.toList s.toList →
    Placed pattern.toList s.toList)

theorem opensLeft_iff {cs : List Char} : opensLeft cs = true ↔ ∃ rest, cs = '*' :: rest := by
  rw [opensLeft, List.isPrefixOf_iff_prefix]
  constructor
  · rintro ⟨rest, rfl⟩
    exact ⟨rest, rfl⟩
  · rintro ⟨rest, rfl⟩
    exact ⟨rest, rfl⟩

theorem opensRight_iff {cs : List Char} : opensRight cs = true ↔ ∃ rest, cs = rest ++ ['*'] := by
  rw [opensRight, List.isSuffixOf_iff_suffix]
  constructor
  · rintro ⟨rest, rfl⟩
    exact ⟨rest, rfl⟩
  · rintro ⟨rest, rfl⟩
    exact ⟨rest, rfl⟩

/-- A pattern is its middle between the stars at its ends. -/
theorem pattern_eq {cs : List Char} (more : cs ≠ ['*']) :
    cs = (if opensLeft cs then ['*'] else []) ++ middle cs ++ if opensRight cs then ['*'] else [] := by
  cases left : opensLeft cs with
  | true =>
    obtain ⟨rest, rfl⟩ := opensLeft_iff.mp left
    have nonempty : rest ≠ [] := fun empty => more (by rw [empty])
    have right : opensRight ('*' :: rest) = opensRight rest := by
      rw [Bool.eq_iff_iff, opensRight_iff, opensRight_iff]
      constructor
      · rintro ⟨front, eq⟩
        cases front with
        | nil => exact absurd (List.cons.inj eq).2 nonempty
        | cons c front => exact ⟨front, (List.cons.inj eq).2⟩
      · rintro ⟨front, rfl⟩
        exact ⟨'*' :: front, rfl⟩
    rw [right, middle, if_pos left, List.drop_one, List.tail_cons]
    cases ends : opensRight rest with
    | true =>
      obtain ⟨front, rfl⟩ := opensRight_iff.mp ends
      simp
    | false => simp
  | false =>
    simp only [middle, left, Bool.false_eq_true, if_false, List.nil_append]
    cases ends : opensRight cs with
    | true =>
      obtain ⟨front, rfl⟩ := opensRight_iff.mp ends
      simp
    | false => simp

theorem matches_iff {cs s : List Char} (more : cs ≠ ['*']) : Glob.Matches '*' cs s ↔
    ∃ a b c, s = a ++ b ++ c ∧ (opensLeft cs = false → a = []) ∧ Glob.Matches '*' (middle cs) b ∧
      (opensRight cs = false → c = []) := by
  conv_lhs => rw [pattern_eq more]
  exact Glob.matches_open_iff _ _

theorem matches_of_placed {cs s : List Char} (more : cs ≠ ['*']) (placed : Placed cs s) :
    Glob.Matches '*' cs s := by
  obtain ⟨a, c, rfl, left, right⟩ := placed
  exact (matches_iff more).mpr ⟨a, _, c, rfl, left, Glob.matches_self _ _, right⟩

theorem placed_of_matches {cs s : List Char} (more : cs ≠ ['*']) (plain : '*' ∉ middle cs)
    (holds : Glob.Matches '*' cs s) : Placed cs s := by
  obtain ⟨a, b, c, rfl, left, middle, right⟩ := (matches_iff more).mp holds
  rw [(Glob.matches_plain_iff plain).mp middle]
  exact ⟨a, c, rfl, left, right⟩

theorem stringMatches_lone (s : String) : stringMatches "*" s = none := by
  rw [stringMatches]
  exact if_pos (by decide)

/-- What the three slices look for. -/
theorem stringMatches_placed {pattern : String} (more : pattern.toList ≠ ['*']) (s : String) :
    ∃ result, stringMatches pattern s = some result ∧
      (result = true ↔ Placed pattern.toList s.toList) := by
  have whole := pattern_eq more
  rw [stringMatches, Placed]
  simp only [← opensLeft.eq_def, ← opensRight.eq_def]
  cases left : opensLeft pattern.toList <;> cases right : opensRight pattern.toList <;>
    rw [left, right] at whole
  case true.true =>
    have long : pattern.toList.length ≠ 1 := by
      rw [whole]
      simp
    have inner : (pattern.toList.drop 1).dropLast = middle pattern.toList := by
      conv_lhs => rw [whole]
      simp
    refine ⟨_, by simp only [Bool.and_self, if_true, if_neg long]; rfl, ?_⟩
    rw [inner, KeywordSearch.contains_iff_infix]
    constructor
    · rintro ⟨a, c, eq⟩
      exact ⟨a, c, eq.symm, by simp, by simp⟩
    · rintro ⟨a, c, eq, -, -⟩
      exact ⟨a, c, eq.symm⟩
  case false.true =>
    have front : pattern.toList.dropLast = middle pattern.toList := by
      conv_lhs => rw [whole]
      simp
    refine ⟨_, by simp only [Bool.false_and, Bool.false_eq_true, if_false, if_true]; rfl, ?_⟩
    rw [front, List.isPrefixOf_iff_prefix]
    constructor
    · rintro ⟨c, eq⟩
      exact ⟨[], c, eq.symm, fun _ => rfl, by simp⟩
    · rintro ⟨a, c, eq, first, -⟩
      rw [first rfl] at eq
      exact ⟨c, eq.symm⟩
  case true.false =>
    have back : pattern.toList.drop 1 = middle pattern.toList := by
      conv_lhs => rw [whole]
      simp
    refine ⟨_, by simp only [Bool.and_false, Bool.false_eq_true, if_false, if_true]; rfl, ?_⟩
    rw [back, List.isSuffixOf_iff_suffix]
    constructor
    · rintro ⟨a, eq⟩
      exact ⟨a, [], by rw [eq, List.append_nil], by simp, fun _ => rfl⟩
    · rintro ⟨a, c, eq, -, last⟩
      rw [last rfl, List.append_nil] at eq
      exact ⟨a, eq.symm⟩
  case false.false =>
    have all : pattern.toList = middle pattern.toList := by
      conv_lhs => rw [whole]
      simp
    refine ⟨_, by simp only [Bool.and_self, Bool.false_eq_true, if_false]; rfl, ?_⟩
    rw [← all, decide_eq_true_iff, ← String.toList_inj]
    constructor
    · intro same
      exact ⟨[], [], by rw [same, List.nil_append, List.append_nil], fun _ => rfl, fun _ => rfl⟩
    · rintro ⟨a, c, eq, first, last⟩
      rw [eq, first rfl, last rfl, List.nil_append, List.append_nil]

/-- The code reads a pattern as a glob exactly when it is readable for the text. -/
theorem stringMatches_eq_glob_iff (pattern s : String) :
    stringMatches pattern s = some (Glob.test '*' pattern.toList s.toList) ↔ Readable pattern s := by
  by_cases lone : pattern = "*"
  · subst lone
    rw [stringMatches_lone]
    exact iff_of_false (by simp) (fun readable => readable.1 rfl)
  have more : pattern.toList ≠ ['*'] := fun same => lone (String.toList_inj.mp same)
  obtain ⟨result, found, placed⟩ := stringMatches_placed more s
  rw [found, Option.some.injEq, Bool.eq_iff_iff, Glob.test_iff, placed, Readable, and_iff_right lone]
  constructor
  · intro same _ holds
    exact same.mpr holds
  · intro inside
    refine ⟨matches_of_placed more, fun holds => ?_⟩
    by_cases star : '*' ∈ middle pattern.toList
    · exact inside star holds
    · exact placed_of_matches more star holds

end Patterns

section Comparisons

variable (env : Env)

/-- The comparison is not one of two missing values, and a pattern is readable for its text. -/
def Operator.Fits (op : Operator) (field : Option Json) (operand : Json) : Prop :=
  match op with
  | .stringEquals => (field.bind Json.asStr?).isSome ∨ operand.asStr?.isSome
  | .numericEquals => (field.bind env.asF64).isSome ∨ (env.asF64 operand).isSome
  | .booleanEquals => (field.bind Json.asBool?).isSome ∨ operand.asBool?.isSome
  | .numericGreaterThan => True
  | .numericLessThan => True
  | .stringMatches => ∀ s pattern, field.bind Json.asStr? = some s → operand.asStr? = some pattern →
      Readable pattern s

/-- Comparing the values as options differs from comparing them where both are missing. -/
theorem decide_eq_bothAnd_iff {α : Type} [DecidableEq α] (read : Json → Option α) (field : Option Json)
    (operand : Json) :
    some (decide (field.bind read = read operand)) = some (bothAnd read (fun a b => a == b) field operand) ↔
      (field.bind read).isSome ∨ (read operand).isSome := by
  rw [bothAnd]
  cases field.bind read with
  | none => cases read operand <;> simp
  | some a => cases read operand <;> simp [beq_eq_decide]

theorem compareNumbers_none (related : Rat → Rat → Bool) (field : Option Json) :
    compareNumbers env related field none = none := by
  rw [compareNumbers, Option.bind_none]
  cases field.bind env.asF64 <;> rfl

/-- An ordering that does not apply leaves the rule false. -/
theorem compareNumbers_eq (related : Rat → Rat → Bool) (field : Option Json) (operand : Json) :
    ((compareNumbers env related field (some operand)).map some).getD (some false) =
      some (bothAnd env.asF64 related field operand) := by
  rw [compareNumbers, bothAnd, Option.bind_some]
  cases field.bind env.asF64 with
  | none => rfl
  | some a => cases env.asF64 operand <;> rfl

theorem stringMatches_eq_bothAnd_iff (field : Option Json) (operand : Json) :
    (operand.asStr?.bind fun pattern => (field.bind Json.asStr?).map fun s =>
        stringMatches pattern s).getD (some false) =
      some (bothAnd Json.asStr? (fun s pattern => Glob.test '*' pattern.toList s.toList) field operand) ↔
    ∀ s pattern, field.bind Json.asStr? = some s → operand.asStr? = some pattern →
      Readable pattern s := by
  rw [bothAnd]
  cases field.bind Json.asStr? with
  | none => cases operand.asStr? <;> simp
  | some s =>
    cases operand.asStr? with
    | none => simp
    | some pattern => simpa using stringMatches_eq_glob_iff pattern s

section Leaves

variable (var : String) (field : Option Json) (operand : Json)

theorem compareVariable_greaterThan :
    compareVariable env (Rule.compare var .numericGreaterThan operand).json field =
      (compareNumbers env (fun a b => b < a) field (some operand)).map some := by
  have here : (Rule.compare var .numericGreaterThan operand).json.get? "NumericGreaterThan" =
      some operand := rfl
  unfold compareVariable
  rw [here]
  cases compareNumbers env (fun a b => b < a) field (some operand) with
  | some result => rfl
  | none =>
    have absent : (Rule.compare var .numericGreaterThan operand).json.get? "NumericLessThan" = none := rfl
    simp only [absent, compareNumbers_none]
    rfl

theorem compareVariable_lessThan :
    compareVariable env (Rule.compare var .numericLessThan operand).json field =
      (compareNumbers env (fun a b => a < b) field (some operand)).map some := by
  have here : (Rule.compare var .numericLessThan operand).json.get? "NumericLessThan" = some operand := rfl
  have absent : (Rule.compare var .numericLessThan operand).json.get? "NumericGreaterThan" = none := rfl
  unfold compareVariable
  simp only [here, absent, compareNumbers_none]
  cases compareNumbers env (fun a b => a < b) field (some operand) <;> rfl

theorem compareVariable_boolean :
    compareVariable env (Rule.compare var .booleanEquals operand).json field =
      some (some (decide (field.bind Json.asBool? = operand.asBool?))) := by
  have greater : (Rule.compare var .booleanEquals operand).json.get? "NumericGreaterThan" = none := rfl
  have less : (Rule.compare var .booleanEquals operand).json.get? "NumericLessThan" = none := rfl
  unfold compareVariable
  simp only [greater, less, compareNumbers_none]
  rfl

theorem compareVariable_stringMatches :
    compareVariable env (Rule.compare var .stringMatches operand).json field =
      operand.asStr?.bind fun pattern => (field.bind Json.asStr?).map fun s => stringMatches pattern s := by
  have greater : (Rule.compare var .stringMatches operand).json.get? "NumericGreaterThan" = none := rfl
  have less : (Rule.compare var .stringMatches operand).json.get? "NumericLessThan" = none := rfl
  have here : strField (Rule.compare var .stringMatches operand).json "StringMatches" = operand.asStr? := rfl
  unfold compareVariable matchOperands
  simp only [greater, less, here, compareNumbers_none]
  cases operand.asStr? with
  | none => rfl
  | some pattern => cases field.bind Json.asStr? <;> rfl

end Leaves

/-- The code gives a comparison its meaning exactly when it fits. -/
theorem evalChoiceRule_compare_iff (input : Json) (var : String) (op : Operator) (operand : Json) :
    evalChoiceRule env input (Rule.compare var op operand).json =
        some ((Rule.compare var op operand).denote env input) ↔
      op.Fits env (getJsonPath input var) operand := by
  have alone : ∀ eval, combineRules eval (Rule.compare var op operand).json = some false := by
    intro eval
    cases op <;> rfl
  have variable_of : strField (Rule.compare var op operand).json "Variable" = some var := by
    cases op <;> rfl
  rw [evalChoiceRule_eq, ruleBody, alone, variable_of, Option.bind_some, Rule.denote]
  cases op with
  | stringEquals => exact decide_eq_bothAnd_iff Json.asStr? _ operand
  | numericEquals => exact decide_eq_bothAnd_iff env.asF64 _ operand
  | numericGreaterThan =>
    rw [compareVariable_greaterThan]
    exact iff_of_true (compareNumbers_eq env _ _ operand) trivial
  | numericLessThan =>
    rw [compareVariable_lessThan]
    exact iff_of_true (compareNumbers_eq env _ _ operand) trivial
  | booleanEquals =>
    rw [compareVariable_boolean]
    exact decide_eq_bothAnd_iff Json.asBool? _ operand
  | stringMatches =>
    rw [compareVariable_stringMatches]
    exact stringMatches_eq_bothAnd_iff _ operand

end Comparisons

section Trees

variable (env : Env) (input : Json)

theorem allRules_denote {rules : List Rule}
    (each : ∀ r ∈ rules, evalChoiceRule env input r.json = some (r.denote env input)) :
    allRules (evalChoiceRule env input) (jsonOfRules rules) = some (denoteAll env input rules) := by
  induction rules with
  | nil => rfl
  | cons r rest ih =>
    rw [jsonOfRules, allRules, each r List.mem_cons_self, Option.bind_some, denoteAll,
      ih fun x there => each x (List.mem_cons_of_mem _ there)]
    cases r.denote env input <;> rfl

theorem anyRule_denote {rules : List Rule}
    (each : ∀ r ∈ rules, evalChoiceRule env input r.json = some (r.denote env input)) :
    anyRule (evalChoiceRule env input) (jsonOfRules rules) = some (denoteAny env input rules) := by
  induction rules with
  | nil => rfl
  | cons r rest ih =>
    rw [jsonOfRules, anyRule, each r List.mem_cons_self, Option.bind_some, denoteAny,
      ih fun x there => each x (List.mem_cons_of_mem _ there)]
    cases r.denote env input <;> rfl

theorem parts_subset_of_mem {rules : List Rule} {r : Rule} (there : r ∈ rules) :
    r.parts ⊆ partsOfRules rules := by
  induction rules with
  | nil => cases there
  | cons first rest ih =>
    rw [partsOfRules]
    rcases List.mem_cons.mp there with rfl | later
    · exact List.subset_append_left _ _
    · exact List.Subset.trans (ih later) (List.subset_append_right _ _)

theorem exists_of_mem_parts {rules : List Rule} {part : Rule} (there : part ∈ partsOfRules rules) :
    ∃ r ∈ rules, part ∈ r.parts := by
  induction rules with
  | nil => cases there
  | cons first rest ih =>
    rcases List.mem_append.mp there with here | later
    · exact ⟨first, List.mem_cons_self, here⟩
    · obtain ⟨r, among, inside⟩ := ih later
      exact ⟨r, List.mem_cons_of_mem _ among, inside⟩

/-- The comparisons of the rule fit. -/
def Rule.LeavesFit (rule : Rule) : Prop :=
  ∀ var op operand, .compare var op operand ∈ rule.parts → op.Fits env (getJsonPath input var) operand

variable {env input} in
theorem Rule.LeavesFit.of_subset {rule part : Rule} (fits : rule.LeavesFit env input)
    (inside : part.parts ⊆ rule.parts) : part.LeavesFit env input :=
  fun var op operand there => fits var op operand (inside there)

theorem Rule.mem_parts (rule : Rule) : rule ∈ rule.parts := by
  cases rule <;> exact List.mem_cons_self

theorem evalChoiceRule_and (rules : List Rule) : evalChoiceRule env input (Rule.and rules).json =
    allRules (evalChoiceRule env input) (jsonOfRules rules) := by
  rw [evalChoiceRule_eq]
  rfl

theorem evalChoiceRule_or (rules : List Rule) : evalChoiceRule env input (Rule.or rules).json =
    anyRule (evalChoiceRule env input) (jsonOfRules rules) := by
  rw [evalChoiceRule_eq]
  rfl

theorem evalChoiceRule_not (rule : Rule) : evalChoiceRule env input (Rule.not rule).json =
    (evalChoiceRule env input rule.json).map (!·) := by
  rw [evalChoiceRule_eq]
  rfl

/-- Where the comparisons fit, the code gives every part of the rule its meaning. -/
theorem eval_parts_of_leavesFit (rule : Rule) (fits : rule.LeavesFit env input) :
    ∀ part ∈ rule.parts, evalChoiceRule env input part.json = some (part.denote env input) := by
  induction rule using Rule.induct with
  | compare var op operand =>
    intro part there
    rw [List.mem_singleton.mp there]
    exact (evalChoiceRule_compare_iff env input var op operand).mpr (fits var op operand List.mem_cons_self)
  | and rules ih =>
    have below := fun r among => ih r among
      (fits.of_subset (List.Subset.trans (parts_subset_of_mem among) (List.subset_cons_self _ _)))
    intro part there
    rcases List.mem_cons.mp there with rfl | inside
    · rw [evalChoiceRule_and, allRules_denote env input fun r among => below r among r r.mem_parts,
        Rule.denote]
    · obtain ⟨r, among, inside⟩ := exists_of_mem_parts inside
      exact below r among part inside
  | or rules ih =>
    have below := fun r among => ih r among
      (fits.of_subset (List.Subset.trans (parts_subset_of_mem among) (List.subset_cons_self _ _)))
    intro part there
    rcases List.mem_cons.mp there with rfl | inside
    · rw [evalChoiceRule_or, anyRule_denote env input fun r among => below r among r r.mem_parts,
        Rule.denote]
    · obtain ⟨r, among, inside⟩ := exists_of_mem_parts inside
      exact below r among part inside
  | not rule ih =>
    have below := ih (fits.of_subset (List.subset_cons_self _ _))
    intro part there
    rcases List.mem_cons.mp there with rfl | inside
    · rw [evalChoiceRule_not, below rule rule.mem_parts, Option.map_some, Rule.denote]
    · exact below part inside

end Trees

/-- An environment that reads no text. -/
def blankEnv : Env := ⟨"us-east-1", "000000000000", fun _ => "", fun _ => none, fun _ => none⟩

end Openstack.StepFunctions

import Openstack.DynamoDb.ByteScans
import Openstack.Studio.FlowReports
import Openstack.Studio.ManifestParsing

/-!
# Interpolation and its lint

`check_interpolation_value` (`guided_manifest.rs:472-538`) and `interpolate_value` (`guided_runtime.rs:423-448`) as
the loops over byte positions that they are. A slice that starts or ends inside a character, or outside the text,
panics; so does, here, a loop that does not end (`none`). Both read a text as one template of texts and expressions.
-/
namespace Openstack.Studio

open DynamoDb (byteLen byteLen_append slice slice_append sliceFrom sliceFrom_append sliceTo_append)

/-- `s.find(pat)`, a byte position. -/
def find (pat s : Text) : Option Nat := (RustStr.before pat s).map byteLen

theorem find_eq_none {pat s : Text} (absent : RustStr.before pat s = none) : find pat s = none := by
  rw [find, absent]
  rfl

theorem find_eq_some {pat s front : Text} (first : RustStr.before pat s = some front) :
    find pat s = some (byteLen front) := by
  rw [find, first]
  rfl

/-! ## The lint -/

def emptyExpression : String := "empty interpolation expression"

def unclosedExpression : String := "unclosed interpolation expression"

def unsafeExpression (expr : String) : String := "unsafe expression '" ++ expr ++ "'"

def invalidPath (expr : String) : String := "invalid identifier path in expression '" ++ expr ++ "'"

def unsupportedSource (expr : String) : String :=
  "unsupported expression source '" ++ expr ++ "', expected inputs/context/captures/built-ins"

def isValidIdentifierSegment : Text → Bool
  | [] => false
  | first :: rest =>
    (first.isAlpha || first == '_') && rest.all fun ch => ch.isAlphanum || ch == '_' || ch == '-'

def validateInterpolationExpression (expr : String) : Except String Unit :=
  if expr = "" then .error emptyExpression
  else if RustStr.contains expr.toList ";".toList || RustStr.contains expr.toList "\x60".toList ||
      RustStr.contains expr.toList "$\x7b".toList then .error (unsafeExpression expr)
  else if expr = "rand8()" ∨ expr = "timestamp()" then .ok ()
  else if RustStr.startsWith expr "inputs." || RustStr.startsWith expr "context." ||
      RustStr.startsWith expr "captures." then
    if ((expr.toList.splitOn '.').drop 1).all isValidIdentifierSegment then .ok ()
    else .error (invalidPath expr)
  else .error (unsupportedSource expr)

/-- The issue of an expression, if it has one. -/
def expressionIssues (path expr : String) : List ValidationIssue :=
  match validateInterpolationExpression expr with
  | .ok () => []
  | .error message => [⟨path, message⟩]

/-- The loop of `check_interpolation_value`. -/
def checkFrom (path : String) (value : Text) :
    (fuel cursor : Nat) → List ValidationIssue → Option (List ValidationIssue)
  | 0, _, _ => none
  | fuel + 1, cursor, issues => do
    let rest ← sliceFrom cursor value
    match find opening rest with
    | none => return issues
    | some start =>
      let tokenStart := cursor + start + 2
      let behind ← sliceFrom tokenStart value
      match find closing behind with
      | none => return issues ++ [⟨path, unclosedExpression⟩]
      | some endRel =>
        let token ← slice tokenStart (tokenStart + endRel) value
        checkFrom path value fuel (tokenStart + endRel + 2)
          (issues ++ expressionIssues path (String.ofList (RustStr.trim token)))

/-! ## The run -/

section Run

variable {σ : Type} (env : Env σ) (bindings : BindingContext)

/-- The loop of `interpolate_value`. -/
def interpolateBytes (input : String) :
    (fuel cursor : Nat) → (output : Text) → σ → Option (Except AdapterError String × σ)
  | 0, _, _, _ => none
  | fuel + 1, cursor, output, s => do
    let rest ← sliceFrom cursor input.toList
    match find opening rest with
    | none => return (.ok (String.ofList (output ++ rest)), s)
    | some startRel =>
      let text ← slice cursor (cursor + startRel) input.toList
      let exprStart := cursor + startRel + 2
      let behind ← sliceFrom exprStart input.toList
      match find closing behind with
      | none => return (.error (malformedInterpolation input), s)
      | some endRel =>
        let expr ← slice exprStart (exprStart + endRel) input.toList
        match (resolveExpression env bindings (String.ofList (RustStr.trim expr))).run s with
        | (.error e, s') => return (.error e, s')
        | (.ok value, s') =>
          interpolateBytes input fuel (exprStart + endRel + 2) (output ++ text ++ value.toList) s'

end Run

/-! ## Templates -/

/-- A text from left to right: a text and an expression, and so on, up to a text with no opening, or with one that is
never closed. -/
inductive Template where
  | text (s : Text)
  | unclosed (front : Text)
  | expression (front expr : Text) (rest : Template)

namespace Template

def exprs : Template → List String
  | .text _ | .unclosed _ => []
  | .expression _ expr rest => String.ofList (RustStr.trim expr) :: exprs rest

/-- The texts, with the values in the places of the expressions. -/
def fill : Template → List String → Text
  | .text s, _ => s
  | .expression front _ rest, value :: values => front ++ value.toList ++ fill rest values
  | .unclosed front, _ | .expression front _ _, [] => front

def issues (path : String) : Template → List ValidationIssue
  | .text _ => []
  | .unclosed _ => [⟨path, unclosedExpression⟩]
  | .expression _ expr rest => expressionIssues path (String.ofList (RustStr.trim expr)) ++ issues path rest

end Template

/-- The first opening starts an expression, and the first closing behind it ends it. -/
inductive ReadAs : Text → Template → Prop
  | text {s : Text} (plain : RustStr.before opening s = none) : ReadAs s (.text s)
  | unclosed {front behind : Text} (first : RustStr.before opening (front ++ (opening ++ behind)) = some front)
      (never : RustStr.before closing behind = none) : ReadAs (front ++ (opening ++ behind)) (.unclosed front)
  | expression {front expr rest : Text} {template : Template}
      (first : RustStr.before opening (front ++ (opening ++ (expr ++ (closing ++ rest)))) = some front)
      (ends : RustStr.before closing (expr ++ (closing ++ rest)) = some expr) (later : ReadAs rest template) :
      ReadAs (front ++ (opening ++ (expr ++ (closing ++ rest)))) (.expression front expr template)

theorem split_before {pat s front : Text} (found : RustStr.before pat s = some front) :
    ∃ rest, s = front ++ (pat ++ rest) := by
  obtain ⟨rest, whole⟩ := RustStr.before_isPrefix found
  exact ⟨rest, by rw [← whole, List.append_assoc]⟩

theorem exists_readAs (s : Text) : ∃ template, ReadAs s template := by
  induction size : s.length using Nat.strong_induction_on generalizing s with
  | h n ih =>
    cases first : RustStr.before opening s with
    | none => exact ⟨_, .text first⟩
    | some front =>
      obtain ⟨behind, rfl⟩ := split_before first
      cases ends : RustStr.before closing behind with
      | none => exact ⟨_, .unclosed first ends⟩
      | some expr =>
        obtain ⟨rest, rfl⟩ := split_before ends
        have shorter : rest.length < n := by
          have two : opening.length = 2 := rfl
          simp only [List.length_append] at size
          omega
        obtain ⟨template, later⟩ := ih _ shorter rest rfl
        exact ⟨_, .expression first ends later⟩

/-! ### Both loops read templates -/

section Loops

variable {s : Text} {template : Template}

/-- Where the slices of a round start and end. -/
structure Cuts (value : Text) (cursor : Nat) (front behind : Text) : Prop where
  rest : sliceFrom cursor value = some (front ++ (opening ++ behind))
  text : slice cursor (cursor + byteLen front) value = some front
  behind : sliceFrom (cursor + byteLen front + 2) value = some behind

theorem cuts (done front behind : Text) :
    Cuts (done ++ (front ++ (opening ++ behind))) (byteLen done) front behind where
  rest := sliceFrom_append done _
  text := by rw [slice_append, sliceTo_append]
  behind := by
    have position : byteLen done + byteLen front + 2 = byteLen (done ++ (front ++ opening)) := by
      rw [byteLen_append, byteLen_append, ← Nat.add_assoc]
      rfl
    have shape : done ++ (front ++ (opening ++ behind)) = (done ++ (front ++ opening)) ++ behind := by simp
    rw [position, shape, sliceFrom_append]

/-- The slice of an expression, and the position behind it. -/
theorem cut_expression (done front expr rest : Text) :
    slice (byteLen done + byteLen front + 2) (byteLen done + byteLen front + 2 + byteLen expr)
        (done ++ (front ++ (opening ++ (expr ++ (closing ++ rest))))) = some expr ∧
      byteLen done + byteLen front + 2 + byteLen expr + 2 =
        byteLen (done ++ (front ++ (opening ++ (expr ++ closing)))) := by
  have two : byteLen opening = 2 ∧ byteLen closing = 2 := ⟨rfl, rfl⟩
  constructor
  · have position : byteLen done + byteLen front + 2 = byteLen (done ++ (front ++ opening)) := by
      rw [byteLen_append, byteLen_append, two.1, ← Nat.add_assoc]
    have shape : done ++ (front ++ (opening ++ (expr ++ (closing ++ rest)))) =
        (done ++ (front ++ opening)) ++ (expr ++ (closing ++ rest)) := by simp
    rw [position, shape, slice_append, sliceTo_append]
  · simp only [byteLen_append, two.1, two.2]
    omega

theorem checkFrom_of_readAs (path : String) (reads : ReadAs s template) :
    ∀ (done : Text) (fuel : Nat) (issues : List ValidationIssue), byteLen s < fuel →
      checkFrom path (done ++ s) fuel (byteLen done) issues = some (issues ++ template.issues path) := by
  induction reads with
  | text plain =>
    intro done fuel issues enough
    obtain ⟨fuel, rfl⟩ := Nat.exists_eq_add_one_of_ne_zero (Nat.ne_zero_of_lt enough)
    simp [checkFrom, sliceFrom_append, find_eq_none plain, Template.issues]
  | @unclosed front behind first never =>
    intro done fuel issues enough
    obtain ⟨fuel, rfl⟩ := Nat.exists_eq_add_one_of_ne_zero (Nat.ne_zero_of_lt enough)
    have cut := cuts done front behind
    simp [checkFrom, cut.rest, cut.behind, find_eq_some first, find_eq_none never, Template.issues]
  | @expression front expr rest template first ends later ih =>
    intro done fuel issues enough
    obtain ⟨fuel, rfl⟩ := Nat.exists_eq_add_one_of_ne_zero (Nat.ne_zero_of_lt enough)
    have cut := cuts done front (expr ++ (closing ++ rest))
    obtain ⟨sliced, position⟩ := cut_expression done front expr rest
    have fewer : byteLen rest < fuel := by
      have two : byteLen opening = 2 := rfl
      simp only [byteLen_append, two] at enough
      omega
    have next := ih (done ++ (front ++ (opening ++ (expr ++ closing)))) fuel
      (issues ++ expressionIssues path (String.ofList (RustStr.trim expr))) fewer
    simp only [List.append_assoc] at next
    simp [checkFrom, cut.rest, cut.behind, find_eq_some first, find_eq_some ends, sliced, position, next,
      Template.issues]

section Effects

variable {σ : Type} (env : Env σ) (bindings : BindingContext)

/-- The values of the expressions, one after the other, put in their places. -/
def evaluate (input : String) : Template → Effect σ Text
  | .text s => return s
  | .unclosed _ => throw (malformedInterpolation input)
  | .expression front expr rest => do
    let value ← resolveExpression env bindings (String.ofList (RustStr.trim expr))
    let tail ← evaluate input rest
    return front ++ value.toList ++ tail

/-- A computation with an output that is there already in front of its own. -/
def behind (output : Text) (result : Except AdapterError Text × σ) : Except AdapterError String × σ :=
  (result.1.map fun tail => String.ofList (output ++ tail), result.2)

theorem interpolateBytes_of_readAs (input : String) (reads : ReadAs s template) :
    ∀ (done : Text) (fuel : Nat) (output : Text) (st : σ), input.toList = done ++ s → byteLen s < fuel →
      interpolateBytes env bindings input fuel (byteLen done) output st =
        some (behind output ((evaluate env bindings input template).run st)) := by
  induction reads with
  | text plain =>
    intro done fuel output st whole enough
    obtain ⟨fuel, rfl⟩ := Nat.exists_eq_add_one_of_ne_zero (Nat.ne_zero_of_lt enough)
    simp only [interpolateBytes, whole, sliceFrom_append, Option.bind_eq_bind, Option.bind_some,
      find_eq_none plain]
    rfl
  | @unclosed front back first never =>
    intro done fuel output st whole enough
    obtain ⟨fuel, rfl⟩ := Nat.exists_eq_add_one_of_ne_zero (Nat.ne_zero_of_lt enough)
    have cut := cuts done front back
    rw [← whole] at cut
    simp only [interpolateBytes, cut.rest, cut.text, cut.behind, Option.bind_eq_bind, Option.bind_some,
      find_eq_some first, find_eq_none never]
    rfl
  | @expression front expr rest template first ends later ih =>
    intro done fuel output st whole enough
    obtain ⟨fuel, rfl⟩ := Nat.exists_eq_add_one_of_ne_zero (Nat.ne_zero_of_lt enough)
    have cut := cuts done front (expr ++ (closing ++ rest))
    obtain ⟨sliced, position⟩ := cut_expression done front expr rest
    rw [← whole] at cut sliced
    have fewer : byteLen rest < fuel := by
      have two : byteLen opening = 2 := rfl
      simp only [byteLen_append, two] at enough
      omega
    have shape : input.toList = (done ++ (front ++ (opening ++ (expr ++ closing)))) ++ rest := by simp [whole]
    simp only [interpolateBytes, cut.rest, cut.text, cut.behind, sliced, position, Option.bind_eq_bind,
      Option.bind_some, find_eq_some first, find_eq_some ends]
    rw [evaluate, run_bind]
    cases (resolveExpression env bindings (String.ofList (RustStr.trim expr))).run st with
    | mk result st' =>
      cases result with
      | error e => rfl
      | ok value =>
        have next := ih (done ++ (front ++ (opening ++ (expr ++ closing)))) fuel
          (output ++ front ++ value.toList) st' shape fewer
        simp only [next, run_bind]
        cases (evaluate env bindings input template).run st' with
        | mk tail st'' =>
          cases tail with
          | error e => rfl
          | ok tail =>
            have texts : output ++ front ++ value.toList ++ tail = output ++ (front ++ value.toList ++ tail) := by simp
            exact congrArg (fun text => some (Except.ok (String.ofList text), st'')) texts

/-- The loop over characters reads the same templates. -/
theorem interpolateFrom_of_readAs (input : String) (reads : ReadAs s template) :
    ∀ fuel, s.length < fuel →
      interpolateFrom env bindings input fuel s = evaluate env bindings input template := by
  induction reads with
  | text plain =>
    intro fuel enough
    obtain ⟨fuel, rfl⟩ := Nat.exists_eq_add_one_of_ne_zero (Nat.ne_zero_of_lt enough)
    rw [interpolateFrom, plain, evaluate]
  | @unclosed front back first never =>
    intro fuel enough
    obtain ⟨fuel, rfl⟩ := Nat.exists_eq_add_one_of_ne_zero (Nat.ne_zero_of_lt enough)
    have rest : (front ++ (opening ++ back)).drop (front.length + opening.length) = back := by
      rw [← List.length_append, ← List.append_assoc, List.drop_left]
    rw [interpolateFrom, first, evaluate]
    simp only [rest, never]
  | @expression front expr rest template first ends later ih =>
    intro fuel enough
    obtain ⟨fuel, rfl⟩ := Nat.exists_eq_add_one_of_ne_zero (Nat.ne_zero_of_lt enough)
    have behind_opening : (front ++ (opening ++ (expr ++ (closing ++ rest)))).drop (front.length + opening.length) =
        expr ++ (closing ++ rest) := by
      rw [← List.length_append, ← List.append_assoc, List.drop_left]
    have behind_closing : (expr ++ (closing ++ rest)).drop (expr.length + closing.length) = rest := by
      rw [← List.length_append, ← List.append_assoc, List.drop_left]
    have fewer : rest.length < fuel := by
      have two : opening.length = 2 := rfl
      simp only [List.length_append, two] at enough
      omega
    rw [interpolateFrom, first, evaluate]
    simp only [behind_opening, ends, behind_closing, ih fuel fewer]

theorem interpolateValue_run (input : String) (reads : ReadAs input.toList template) (st : σ) :
    (interpolateValue env bindings input).run st = behind [] ((evaluate env bindings input template).run st) := by
  have enough : input.toList.length < input.length + 1 := by
    rw [String.length_toList]
    omega
  rw [interpolateValue, interpolateFrom_of_readAs env bindings input reads _ enough, run_bind]
  cases (evaluate env bindings input template).run st with
  | mk result st' => cases result <;> rfl

end Effects

end Loops

/-! ## Values -/

section Values

variable {σ : Type} (env : Env σ) (bindings : BindingContext)

/-- The value of an expression, and what asking for it does to the environment. -/
inductive ValueOf : String → String → σ → σ → Prop
  | rand8 {value : String} {s s' : σ} (generated : (generateRand8 env).run s = (.ok value, s')) :
      ValueOf "rand8()" value s s'
  | timestamp (s : σ) : ValueOf "timestamp()" (toString (env.unixSeconds s).1) s (env.unixSeconds s).2
  | bound {start source path value : String} {get : BindingContext → StrMap String} (s : σ)
      (listed : (start, source, get) ∈ bindingSources) (found : (get bindings)[path]? = some value) :
      ValueOf (start ++ path) value s s

/-- The values of expressions, each asked for once, in their order. -/
inductive ValuesOf : List String → List String → σ → σ → Prop
  | nil (s : σ) : ValuesOf [] [] s s
  | cons {expr value : String} {exprs values : List String} {s s' s'' : σ} (first : ValueOf env bindings expr value s s')
      (rest : ValuesOf exprs values s' s'') : ValuesOf (expr :: exprs) (value :: values) s s''

/-- The expression names a source that has no such name; the error says so. -/
def Unbound (expr : String) (e : AdapterError) : Prop :=
  ∃ start source get path, (start, source, get) ∈ bindingSources ∧ expr = start ++ path ∧
    (get bindings)[path]? = none ∧ e = missingBinding source path expr

/-- The values of the expressions in front of one that is not bound. -/
def Misses {α : Type} (template : Template) (s : σ) (result : Except AdapterError α × σ) : Prop :=
  ∃ earlier expr later values e, template.exprs = earlier ++ expr :: later ∧
    ValuesOf env bindings earlier values s result.2 ∧ Unbound bindings expr e ∧ result.1 = .error e

/-- The values of the expressions stand in their places, in one text. -/
def Replaces (template : Template) (s : σ) (result : Except AdapterError String × σ) : Prop :=
  ∃ values, ValuesOf env bindings template.exprs values s result.2 ∧
    result.1 = .ok (String.ofList (template.fill values))

theorem lookupBinding_cases (expr : String) (sources : List (String × String × (BindingContext → StrMap String))) :
    (∃ start source get path, (start, source, get) ∈ sources ∧ expr = start ++ path ∧
      match (get bindings)[path]? with
      | some value => lookupBinding bindings expr sources = .ok value
      | none => lookupBinding bindings expr sources = .error (missingBinding source path expr)) ∨
    (∀ entry ∈ sources, RustStr.startsWith expr entry.1 = false) ∧
      lookupBinding bindings expr sources = .error (unsupportedExpression expr) := by
  induction sources with
  | nil => exact .inr ⟨fun entry member => absurd member List.not_mem_nil, rfl⟩
  | cons entry rest ih =>
    obtain ⟨start, source, get⟩ := entry
    by_cases begins : start.toList.isPrefixOf expr.toList = true
    · obtain ⟨path, whole⟩ := List.isPrefixOf_iff_prefix.mp begins
      have stripped : RustStr.stripPrefix start.toList expr.toList = some path := by
        rw [RustStr.stripPrefix, if_pos begins, ← whole, List.drop_left]
      have text : expr = start ++ String.ofList path := by
        rw [← String.toList_inj, String.toList_append, String.toList_ofList, whole]
      refine .inl ⟨start, source, get, String.ofList path, List.mem_cons_self, text, ?_⟩
      rw [lookupBinding, stripped]
      dsimp only
      cases (get bindings)[String.ofList path]? <;> rfl
    · have stripped : RustStr.stripPrefix start.toList expr.toList = none := by
        rw [RustStr.stripPrefix, if_neg begins]
      rw [lookupBinding, stripped]
      dsimp only
      rcases ih with ⟨start', source', get', path, listed, text, found⟩ | ⟨none_begins, unsupported⟩
      · exact .inl ⟨start', source', get', path, List.mem_cons_of_mem _ listed, text, found⟩
      · refine .inr ⟨List.forall_mem_cons.mpr ⟨?_, none_begins⟩, unsupported⟩
        exact Bool.eq_false_iff.mpr begins

theorem run_stateless {m : Effect σ String} {result : Except AdapterError String} (pure : ∀ s, m s = (result, s))
    (s : σ) : m.run s = (result, s) := pure s

/-- Neither an expression of the program's own nor one that begins with a source. -/
def Unknown (expr : String) : Prop :=
  expr ≠ "rand8()" ∧ expr ≠ "timestamp()" ∧ ∀ entry ∈ bindingSources, RustStr.startsWith expr entry.1 = false

theorem resolveExpression_cases (expr : String) (s : σ) :
    (∃ value s', (resolveExpression env bindings expr).run s = (.ok value, s') ∧ ValueOf env bindings expr value s s') ∨
      (∃ e, (resolveExpression env bindings expr).run s = (.error e, s) ∧ Unbound bindings expr e) ∨
      Unknown expr := by
  rw [resolveExpression]
  split
  · next same =>
    obtain ⟨value, s', generated⟩ : ∃ value s', (generateRand8 env).run s = (.ok value, s') := ⟨_, _, rfl⟩
    exact .inl ⟨value, s', generated, same ▸ .rand8 generated⟩
  · next notRand =>
    split
    · next same => exact .inl ⟨_, _, rfl, same ▸ .timestamp s⟩
    · next notTime =>
      rw [run_stateless fun _ => rfl]
      rcases lookupBinding_cases bindings expr bindingSources with
        ⟨start, source, get, path, listed, rfl, found⟩ | ⟨none_begins, -⟩
      · cases binding : (get bindings)[path]? with
        | some value =>
          rw [binding] at found
          exact .inl ⟨value, s, by rw [found], .bound s listed binding⟩
        | none =>
          rw [binding] at found
          exact .inr (.inl ⟨_, by rw [found], start, source, get, path, listed, rfl, binding, rfl⟩)
      · exact .inr (.inr ⟨notRand, notTime, none_begins⟩)

theorem resolveExpression_of_unknown {expr : String} (unknown : Unknown expr) (s : σ) :
    (resolveExpression env bindings expr).run s = (.error (unsupportedExpression expr), s) := by
  rw [resolveExpression, if_neg unknown.1, if_neg unknown.2.1, run_stateless fun _ => rfl]
  rcases lookupBinding_cases bindings expr bindingSources with ⟨start, source, get, path, listed, rfl, -⟩ | ⟨-, found⟩
  · have begins : RustStr.startsWith (start ++ path) start = true := by
      rw [RustStr.startsWith, String.toList_append]
      exact List.isPrefixOf_iff_prefix.mpr (List.prefix_append _ _)
    exact absurd begins (by rw [unknown.2.2 _ listed]; decide)
  · rw [found]

/-- What the lint accepts is one of the program's own expressions or names a source. -/
theorem source_of_valid {expr : String} (valid : validateInterpolationExpression expr = .ok ()) :
    ¬ Unknown expr := by
  rintro ⟨notRand, notTime, none_begins⟩
  simp only [bindingSources, List.forall_mem_cons] at none_begins
  obtain ⟨inputs, context, captures, -⟩ := none_begins
  simp [validateInterpolationExpression, notRand, notTime, inputs, context, captures] at valid
  split at valid
  · cases valid
  · split at valid <;> cases valid

theorem evaluate_of_clean (input path : String) (template : Template) (clean : template.issues path = []) (s : σ) :
    Misses env bindings template s ((evaluate env bindings input template).run s) ∨
      ∃ values, ValuesOf env bindings template.exprs values s ((evaluate env bindings input template).run s).2 ∧
        ((evaluate env bindings input template).run s).1 = .ok (template.fill values) := by
  induction template generalizing s with
  | text t => exact .inr ⟨[], .nil s, rfl⟩
  | unclosed front => cases clean
  | expression front expr rest ih =>
    rw [Template.issues, List.append_eq_nil_iff] at clean
    have valid : validateInterpolationExpression (String.ofList (RustStr.trim expr)) = .ok () := by
      have none_here := clean.1
      rw [expressionIssues] at none_here
      split at none_here
      · next valid => exact valid
      · cases none_here
    rw [evaluate, run_bind]
    rcases resolveExpression_cases env bindings (String.ofList (RustStr.trim expr)) s with
      ⟨value, s', found, gives⟩ | ⟨e, missing, unbound⟩ | unknown
    · have later := ih clean.2 s'
      rw [found]
      dsimp only
      rw [run_bind]
      cases result : (evaluate env bindings input rest).run s' with
      | mk r s'' =>
        rw [result] at later
        rcases later with ⟨earlier, name, others, values, e, split, asked, unbound, failed⟩ | ⟨values, asked, filled⟩
        · obtain rfl : r = .error e := failed
          refine .inl ⟨String.ofList (RustStr.trim expr) :: earlier, name, others, value :: values, e, ?_,
            .cons gives asked, unbound, rfl⟩
          rw [Template.exprs, split, List.cons_append]
        · obtain rfl : r = .ok (rest.fill values) := filled
          exact .inr ⟨value :: values, .cons gives asked, rfl⟩
    · rw [missing]
      exact .inl ⟨[], _, rest.exprs, [], e, rfl, .nil s, unbound, rfl⟩
    · exact absurd unknown (source_of_valid valid)

/-! ### What the lint reports -/

theorem toList_quoted (a b c : String) : (a ++ b ++ c).toList = a.toList ++ b.toList ++ c.toList := by
  rw [String.toList_append, String.toList_append]

/-- The first characters tell the messages apart. -/
theorem leading_messages (expr : String) :
    emptyExpression.toList.take 4 = ['e', 'm', 'p', 't'] ∧ unclosedExpression.toList.take 4 = ['u', 'n', 'c', 'l'] ∧
      (unsafeExpression expr).toList.take 4 = ['u', 'n', 's', 'a'] ∧
      (invalidPath expr).toList.take 4 = ['i', 'n', 'v', 'a'] ∧
      (unsupportedSource expr).toList.take 4 = ['u', 'n', 's', 'u'] := by
  have leads {text : String} {a b c d : Char} (starts : ∃ rest, text.toList = a :: b :: c :: d :: rest)
      (more back : String) : (text ++ more ++ back).toList.take 4 = [a, b, c, d] := by
    obtain ⟨rest, starts⟩ := starts
    rw [toList_quoted, starts]
    rfl
  obtain ⟨_, empty⟩ : ∃ rest, emptyExpression.toList = 'e' :: 'm' :: 'p' :: 't' :: rest := ⟨_, String.toList_ofList⟩
  obtain ⟨_, unclosed⟩ : ∃ rest, unclosedExpression.toList = 'u' :: 'n' :: 'c' :: 'l' :: rest :=
    ⟨_, String.toList_ofList⟩
  refine ⟨by rw [empty]; rfl, by rw [unclosed]; rfl, ?_, ?_, ?_⟩
  · exact leads ⟨_, String.toList_ofList⟩ _ _
  · exact leads ⟨_, String.toList_ofList⟩ _ _
  · exact leads ⟨_, String.toList_ofList⟩ _ _

/-- An expression that is never closed, or one that the program does not know. -/
def Fatal (message : String) : Prop := message = unclosedExpression ∨ ∃ expr, message = unsupportedSource expr

theorem leading_of_fatal {message : String} (fatal : Fatal message) :
    message.toList.take 4 = ['u', 'n', 'c', 'l'] ∨ message.toList.take 4 = ['u', 'n', 's', 'u'] := by
  rcases fatal with rfl | ⟨expr, rfl⟩
  · exact .inl (leading_messages "").2.1
  · exact .inr (leading_messages expr).2.2.2.2

theorem unknown_of_fatal {expr message : String} (reported : validateInterpolationExpression expr = .error message)
    (fatal : Fatal message) : Unknown expr := by
  have leading := leading_of_fatal fatal
  obtain ⟨empty, -, notSafe, invalid, -⟩ := leading_messages expr
  rw [validateInterpolationExpression] at reported
  split at reported
  · obtain rfl := Except.error.inj reported
    rw [empty] at leading
    exact absurd leading (by decide)
  · split at reported
    · obtain rfl := Except.error.inj reported
      rw [notSafe] at leading
      exact absurd leading (by decide)
    · split at reported
      · cases reported
      · next others =>
        split at reported
        · split at reported
          · cases reported
          · obtain rfl := Except.error.inj reported
            rw [invalid] at leading
            exact absurd leading (by decide)
        · next sources =>
          simp only [Bool.or_eq_true, not_or, Bool.not_eq_true] at sources
          obtain ⟨⟨inputs, context⟩, captures⟩ := sources
          refine ⟨fun same => others (.inl same), fun same => others (.inr same), ?_⟩
          simp only [bindingSources, List.forall_mem_cons]
          exact ⟨inputs, context, captures, fun entry member => absurd member List.not_mem_nil⟩

theorem evaluate_of_fatal (input path : String) (template : Template)
    (reported : ∃ issue ∈ template.issues path, Fatal issue.message) (s : σ) :
    ∃ e, ((evaluate env bindings input template).run s).1 = .error e := by
  induction template generalizing s with
  | text t =>
    obtain ⟨issue, member, -⟩ := reported
    exact absurd member List.not_mem_nil
  | unclosed front => exact ⟨_, rfl⟩
  | expression front expr rest ih =>
    obtain ⟨issue, member, fatal⟩ := reported
    rw [evaluate, run_bind]
    cases found : (resolveExpression env bindings (String.ofList (RustStr.trim expr))).run s with
    | mk result s' =>
      cases result with
      | error e => exact ⟨e, rfl⟩
      | ok value =>
        rw [Template.issues, List.mem_append] at member
        rcases member with here | later
        · -- an expression with such an issue has no value
          rw [expressionIssues] at here
          split at here
          · cases here
          · next message reported =>
            obtain rfl := List.mem_singleton.mp here
            rw [resolveExpression_of_unknown env bindings (unknown_of_fatal reported fatal)] at found
            cases found
        · obtain ⟨e, failed⟩ := ih ⟨issue, later, fatal⟩ s'
          refine ⟨e, ?_⟩
          dsimp only
          rw [run_bind]
          cases result : (evaluate env bindings input rest).run s' with
          | mk r s'' =>
            rw [result] at failed
            obtain rfl : r = .error e := failed
            rfl

end Values

/-- The lint and the run return on every text, slicing between characters only, and read it as one template. A text
without issues gets the values of its expressions in their places, or misses the first that is not bound; a text with
an unclosed or unsupported expression fails. -/
theorem interpolation_agrees_with_lint {σ : Type} (env : Env σ) (input path : String) :
    ∃ template issues, ReadAs input.toList template ∧
      (∀ fuel earlier, byteLen input.toList < fuel →
        checkFrom path input.toList fuel 0 earlier = some (earlier ++ issues)) ∧
      ∀ bindings s,
        (∀ fuel, byteLen input.toList < fuel → interpolateBytes env bindings input fuel 0 [] s =
          some ((interpolateValue env bindings input).run s)) ∧
        (issues = [] → Misses env bindings template s ((interpolateValue env bindings input).run s) ∨
          Replaces env bindings template s ((interpolateValue env bindings input).run s)) ∧
        ((∃ issue ∈ issues, Fatal issue.message) →
          ∃ e, ((interpolateValue env bindings input).run s).1 = .error e) := by
  obtain ⟨template, reads⟩ := exists_readAs input.toList
  refine ⟨template, template.issues path, reads, fun fuel earlier enough => ?_, fun bindings s => ?_⟩
  · exact checkFrom_of_readAs path reads [] fuel earlier enough
  · rw [interpolateValue_run env bindings input reads]
    refine ⟨fun fuel enough => ?_, fun clean => ?_, fun fatal => ?_⟩
    · exact interpolateBytes_of_readAs env bindings input reads [] fuel [] s rfl enough
    · rcases evaluate_of_clean env bindings input path template clean s with
        ⟨earlier, expr, later, values, e, split, asked, unbound, failed⟩ | ⟨values, asked, filled⟩
      · exact .inl ⟨earlier, expr, later, values, e, split, asked, unbound, by rw [behind, failed]; rfl⟩
      · exact .inr ⟨values, asked, by rw [behind, filled]; rfl⟩
    · obtain ⟨e, failed⟩ := evaluate_of_fatal env bindings input path template fatal s
      exact ⟨e, by rw [behind, failed]; rfl⟩

end Openstack.Studio

import Openstack.Lib.Json
import Openstack.Lib.RustFmt
import Openstack.Lib.RustStr
import Openstack.Studio.GuidedManifest

/-!
# Running a guided flow

`crates/studio-ui/src/guided_runtime.rs`, `protocol_adapters.rs` and the history of `history.rs`. What is
outside the program, the executor, the clocks and the random counter, is an environment with a state of
its own, and each use of it is a step of that state; `serde_json` is a part of it. Maps are visited in
the order of their keys. A `u8` that counts attempts never passes the bound of the loop, so it is a
natural number.
-/
namespace Openstack.Studio

abbrev Text := List Char

structure AdapterRequest where
  method : String
  path : String
  query : StrMap String
  headers : StrMap String
  body : Option String

structure AdapterResponse where
  status : Nat
  headers : StrMap String
  body : String

structure AdapterError where
  code : String
  message : String
  retryable : Bool
  deriving DecidableEq, Repr

structure AdapterResult where
  request : AdapterRequest
  captures : StrMap String

inductive AdapterExecError where
  | unsupportedProtocol
  | invalidJsonBody (error : String)
  | invalidXmlCapturePath (path : String)
  deriving DecidableEq, Repr

/-- `Display`. -/
def AdapterExecError.text : AdapterExecError → String
  | .unsupportedProtocol => "unsupported protocol adapter"
  | .invalidJsonBody error => "invalid JSON response body: " ++ error
  | .invalidXmlCapturePath path => "invalid XML capture path: " ++ path

structure Env (σ : Type) where
  execute : NormalizedOperation → σ → Except AdapterExecError AdapterResponse × σ
  /-- `attempt_start.elapsed().as_millis()`. -/
  elapsedMillis : σ → Nat × σ
  unixSeconds : σ → Nat × σ
  subsecNanos : σ → Nat × σ
  /-- `RAND_COUNTER.fetch_add(1)`. -/
  randCounter : σ → Nat × σ
  parseJson : String → Except String Json
  printJson : Json → String

structure BindingContext where
  inputs : StrMap String
  context : StrMap String
  captures : StrMap String

/-- `normalize_error`. -/
def normalizeError (protocol : ProtocolClass) (response : AdapterResponse) : Option AdapterError :=
  if response.status < 400 then none
  else
    some
      { code := match protocol with
          | .query => "query_error"
          | .jsonTarget => "json_target_error"
          | .restXml => "rest_xml_error"
          | .restJson => "rest_json_error"
        message := response.body
        retryable := response.status = 429 || 500 ≤ response.status }

/-- `capture_xml_tag`. -/
def captureXmlTag (body tag : Text) : Option Text := do
  let front ← RustStr.before ('<' :: tag) body
  let fromTag := body.drop front.length
  let opening ← RustStr.before ['>'] fromTag
  if ['/', '>'].isSuffixOf (opening ++ ['>']) then none
  else RustStr.before (['<', '/'] ++ tag ++ ['>']) (fromTag.drop (opening.length + 1))

def captureQueryOrXmlBody (body : String) (sources : StrMap String) : StrMap String :=
  sources.filterMap fun _ source => (captureXmlTag body.toList source.toList).map String.ofList

/-- The segments of a path, without the empty ones. -/
def pathSegments (path : String) : List String :=
  ((path.toList.splitOn '.').filter (· ≠ [])).map String.ofList

/-- The walk along the segments of a capture; whatever is missing is `null`. -/
def walk (value : Json) (segments : List String) : Json :=
  segments.foldl (fun current segment => current.index segment) value

section Adapters

variable {σ : Type} (env : Env σ)

/-- A value as the text of a capture. -/
def captureText : Json → Option String
  | .null => none
  | .str s => some s
  | other => some (env.printJson other)

def captureJsonBody (body : String) (sources : StrMap String) :
    Except AdapterExecError (StrMap String) :=
  if RustStr.trim body.toList = [] then .ok ∅
  else
    match env.parseJson body with
    | .error e => .error (.invalidJsonBody e)
    | .ok payload =>
      .ok (sources.filterMap fun _ source =>
        if pathSegments source = [] then none
        else captureText env (walk payload (pathSegments source)))

/-- `entry(name).or_insert(value)`. -/
def orInsert (headers : StrMap String) (name value : String) : StrMap String :=
  if headers.contains name then headers else headers.insert name value

def adapterRequest (operation : NormalizedOperation) (headers : StrMap String) : AdapterRequest where
  method := operation.method
  path := operation.path
  query := operation.query
  headers := headers
  body := operation.body

def executeProtocolAdapter (protocol : ProtocolClass) (operation : NormalizedOperation)
    (response : AdapterResponse) (sources : StrMap String) : Except AdapterExecError AdapterResult :=
  match protocol with
  | .query =>
    .ok ⟨adapterRequest operation
      (orInsert operation.headers "content-type" "application/x-www-form-urlencoded"),
      captureQueryOrXmlBody response.body sources⟩
  | .jsonTarget =>
    (captureJsonBody env response.body sources).map fun captures =>
      ⟨adapterRequest operation
        (orInsert (orInsert operation.headers "content-type" "application/x-amz-json-1.1")
          "x-amz-target" "OpenStackStudio.Execute"), captures⟩
  | .restXml =>
    .ok ⟨adapterRequest operation operation.headers, captureQueryOrXmlBody response.body sources⟩
  | .restJson =>
    (captureJsonBody env response.body sources).map fun captures =>
      ⟨adapterRequest operation (orInsert operation.headers "content-type" "application/json"), captures⟩

end Adapters

section Interpolation

variable {σ : Type} (env : Env σ) (bindings : BindingContext)

/-- A computation that uses the environment and may fail. -/
abbrev Effect (σ α : Type) := ExceptT AdapterError (StateM σ) α

/-- One use of the environment. -/
def use {α : Type} (f : σ → α × σ) : Effect σ α := fun s => (.ok (f s).1, (f s).2)

def generateRand8 : Effect σ String := do
  let nanos ← use env.subsecNanos
  let counter ← use env.randCounter
  return RustFmt.hex 8 (nanos ^^^ counter)

def missingBinding (source path expr : String) : AdapterError where
  code := "missing_binding"
  message := "missing " ++ source ++ " binding '" ++ path ++ "' for expression '" ++ expr ++ "'"
  retryable := false

def unsupportedExpression (expr : String) : AdapterError where
  code := "unsupported_expression"
  message := "unsupported expression '" ++ expr ++ "'"
  retryable := false

/-- The three sources of bindings, with the texts that name them. -/
def bindingSources : List (String × String × (BindingContext → StrMap String)) :=
  [("inputs.", "input", BindingContext.inputs), ("context.", "context", BindingContext.context),
    ("captures.", "capture", BindingContext.captures)]

def lookupBinding (expr : String) :
    List (String × String × (BindingContext → StrMap String)) → Except AdapterError String
  | [] => .error (unsupportedExpression expr)
  | (start, source, get) :: rest =>
    match RustStr.stripPrefix start.toList expr.toList with
    | some path =>
      match (get bindings)[String.ofList path]? with
      | some value => .ok value
      | none => .error (missingBinding source (String.ofList path) expr)
    | none => lookupBinding expr rest

def resolveExpression (expr : String) : Effect σ String :=
  if expr = "rand8()" then generateRand8 env
  else if expr = "timestamp()" then do
    let seconds ← use env.unixSeconds
    return toString seconds
  else fun s => (lookupBinding bindings expr bindingSources, s)

def opening : Text := "\x7b\x7b".toList

def closing : Text := "\x7d\x7d".toList

def malformedInterpolation (input : String) : AdapterError where
  code := "malformed_interpolation"
  message := "unclosed interpolation expression in '" ++ input ++ "'"
  retryable := false

/-- The loop over the expressions of a text; every round drops one, so its length is fuel enough. -/
def interpolateFrom (input : String) : (fuel : Nat) → Text → Effect σ Text
  | 0, rest => return rest
  | fuel + 1, rest =>
    match RustStr.before opening rest with
    | none => return rest
    | some front =>
      let expression := rest.drop (front.length + opening.length)
      match RustStr.before closing expression with
      | none => throw (malformedInterpolation input)
      | some expr => do
        let value ← resolveExpression env bindings (String.ofList (RustStr.trim expr))
        let tail ← interpolateFrom input fuel (expression.drop (expr.length + closing.length))
        return front ++ value.toList ++ tail

def interpolateValue (input : String) : Effect σ String := do
  let output ← interpolateFrom env bindings input (input.length + 1) input.toList
  return String.ofList output

/-- The loop over headers or query parameters. -/
def interpolateEntries : List (String × String) → Effect σ (StrMap String)
  | [] => return ∅
  | (k, v) :: rest => do
    let value ← interpolateValue env bindings v
    let entries ← interpolateEntries rest
    return entries.insert k value

def interpolateBody : Option String → Effect σ (Option String)
  | none => return none
  | some body => do
    let value ← interpolateValue env bindings body
    return some value

def resolveOperation (operation : NormalizedOperation) : Effect σ NormalizedOperation := do
  let headers ← interpolateEntries env bindings operation.headers.toList
  let query ← interpolateEntries env bindings operation.query.toList
  let path ← interpolateValue env bindings operation.path
  let body ← interpolateBody env bindings operation.body
  return { method := operation.method, path := path, headers := headers, query := query, body := body }

end Interpolation

section Assertions

variable {σ : Type} (env : Env σ)

/-- `extract_json_path`. -/
def extractJsonPath (value : Json) (path : String) : Option String :=
  ((pathSegments path).foldlM (fun current segment => Json.get? segment current) value).map fun
    | .str s => s
    | other => env.printJson other

def bodyContains (response : AdapterResponse) (text : String) : Bool :=
  RustStr.contains response.body.toList text.toList

def FlowAssertion.holds (a : FlowAssertion) (response : AdapterResponse) : Bool :=
  match a.kind with
  | "status" => RustFmt.parseUnsigned 16 a.expected = some response.status
  | "header" => response.headers[a.target]? = some a.expected
  | "body" => bodyContains response a.expected
  | "json-path" =>
    match env.parseJson response.body with
    | .ok value => extractJsonPath env value a.target = some a.expected
    | .error _ => false
  | "xml-path" => bodyContains response a.expected
  | "resource" => bodyContains response a.expected
  | _ => false

def assertionFailed (a : FlowAssertion) : AdapterError where
  code := "assertion_failed"
  message := "assertion '" ++ a.kind ++ "' on '" ++ a.target ++ "' expected '" ++ a.expected ++ "'"
  retryable := false

/-- The first assertion that does not hold. -/
def evaluateAssertions (assertions : List FlowAssertion) (response : AdapterResponse) :
    Option AdapterError :=
  (assertions.find? fun a => !a.holds env response).map assertionFailed

end Assertions

/-- A later capture of the same name wins. -/
def captureSources (captures : List CaptureBinding) : StrMap String :=
  captures.foldl (fun acc c => acc.insert c.name c.source) ∅

def applyCaptureBindings (captures : List CaptureBinding) (extracted : StrMap String)
    (bindings : BindingContext) : BindingContext :=
  { bindings with
    captures := captures.foldl (fun acc c =>
      match extracted[c.name]? with
      | some value => acc.insert c.name value
      | none => acc) bindings.captures }

structure InteractionEntry where
  id : Nat
  timestampUnixMs : Nat
  service : String
  status : Nat
  request : AdapterRequest

structure InteractionHistory where
  maxEntries : Nat
  entries : List InteractionEntry

/-- `next_id`, with the saturating addition of `u64`. -/
def InteractionHistory.nextId (h : InteractionHistory) : Nat :=
  min ((h.entries.map (·.id)).foldl max 0 + 1) 18446744073709551615

def InteractionHistory.push (h : InteractionHistory) (e : InteractionEntry) : InteractionHistory :=
  { h with entries := (e :: h.entries).take h.maxEntries }

inductive GuidedExecutionState where
  | pending
  | running
  | succeeded
  | failed
  | canceled
  deriving DecidableEq, Repr

structure StepOutcome where
  stepId : String
  success : Bool
  attempts : Nat
  statusCode : Option Nat
  error : Option AdapterError
  deriving DecidableEq, Repr

structure CleanupOutcome where
  stepId : String
  success : Bool
  deriving DecidableEq, Repr

structure GuidedExecutionReport where
  state : GuidedExecutionState
  outcomes : List StepOutcome
  cleanup : List CleanupOutcome
  captures : StrMap String

structure RetryPolicy where
  maxAttempts : UInt8

/-- `retry_policy.max_attempts.max(1)`. -/
def RetryPolicy.attempts (policy : RetryPolicy) : Nat := max policy.maxAttempts.toNat 1

/-- What a run works on. -/
structure RunState (σ : Type) where
  world : σ
  history : InteractionHistory
  bindings : BindingContext

/-- The variables of the retry loop when it ends. -/
structure AttemptResult (σ : Type) where
  attempts : Nat
  finalResponse : Option AdapterResponse
  finalError : Option AdapterError
  bindings : BindingContext
  world : σ

section Run

variable {σ : Type} (env : Env σ) (protocol : ProtocolClass) (stepTimeoutMs : Option Nat)

def executionError (e : AdapterExecError) : AdapterError where
  code := "execution_error"
  message := e.text
  retryable := false

def stepTimeout (timeoutMs : Nat) : AdapterError where
  code := "step_timeout"
  message := "step exceeded timeout of " ++ toString timeoutMs ++ "ms"
  retryable := false

def adapterError (e : AdapterExecError) : AdapterError where
  code := "adapter_error"
  message := e.text
  retryable := false

/-- The time is only read when there is a limit. -/
def timedOut (s : σ) : Option AdapterError × σ :=
  match stepTimeoutMs with
  | none => (none, s)
  | some timeoutMs =>
    let (elapsed, s) := env.elapsedMillis s
    (if timeoutMs < elapsed then some (stepTimeout timeoutMs) else none, s)

/-- Captures and assertions of a response that is no error. -/
def judgeResponse (step : GuidedStep) (operation : NormalizedOperation) (response : AdapterResponse)
    (bindings : BindingContext) : Option AdapterError × BindingContext :=
  match executeProtocolAdapter env protocol operation response (captureSources step.captures) with
  | .ok result =>
    (evaluateAssertions env step.assertions response,
      applyCaptureBindings step.captures result.captures bindings)
  | .error e => (some (adapterError e), bindings)

/-- The retry loop; `remaining` is what `attempts` lacks to the bound. -/
def attemptLoop (step : GuidedStep) (operation : NormalizedOperation) (bindings : BindingContext) :
    (remaining attempts : Nat) → (finalResponse : Option AdapterResponse) → σ → AttemptResult σ
  | 0, attempts, finalResponse, s => ⟨attempts, finalResponse, none, bindings, s⟩
  | remaining + 1, attempts, finalResponse, s =>
    match env.execute operation s with
    | (.error e, s) => ⟨attempts + 1, finalResponse, some (executionError e), bindings, s⟩
    | (.ok response, s) =>
      match timedOut env stepTimeoutMs s with
      | (some e, s) => ⟨attempts + 1, finalResponse, some e, bindings, s⟩
      | (none, s) =>
        match normalizeError protocol response with
        | some e =>
          if e.retryable ∧ 0 < remaining then
            attemptLoop step operation bindings remaining (attempts + 1) (some response) s
          else ⟨attempts + 1, some response, some e, bindings, s⟩
        | none =>
          let (finalError, bindings) := judgeResponse env protocol step operation response bindings
          ⟨attempts + 1, some response, finalError, bindings, s⟩

/-- A response goes into the history. -/
def recordResponse (service : String) (operation : NormalizedOperation)
    (history : InteractionHistory) : Option AdapterResponse → InteractionHistory
  | none => history
  | some response =>
    history.push
      { id := history.nextId
        timestampUnixMs := 0
        service := service
        status := response.status
        request := adapterRequest operation operation.headers }

def unresolvedOutcome (step : GuidedStep) (e : AdapterError) : StepOutcome where
  stepId := step.id
  success := false
  attempts := 0
  statusCode := none
  error := some e

def AttemptResult.outcome (r : AttemptResult σ) (step : GuidedStep) : StepOutcome where
  stepId := step.id
  success := r.finalError.isNone
  attempts := r.attempts
  statusCode := r.finalResponse.map (·.status)
  error := r.finalError

/-- The variables of the loop over the steps. -/
structure FlowRun (σ : Type) where
  state : GuidedExecutionState
  outcomes : List StepOutcome
  run : RunState σ

/-- What the retry loop of a step leaves. -/
def FlowRun.after (f : FlowRun σ) (service : String) (step : GuidedStep)
    (operation : NormalizedOperation) (r : AttemptResult σ) : FlowRun σ where
  state := if r.finalError.isNone then f.state else .failed
  outcomes := f.outcomes ++ [r.outcome step]
  run :=
    { world := r.world
      history := recordResponse service operation f.run.history r.finalResponse
      bindings := r.bindings }

/-- The loop over the steps; it ends at a step that fails. -/
def runSteps (service : String) (policy : RetryPolicy) : List GuidedStep → FlowRun σ → FlowRun σ
  | [], f => f
  | step :: rest, f =>
    match (resolveOperation env f.run.bindings step.operation).run f.run.world with
    | (.error e, s) =>
      { state := .failed
        outcomes := f.outcomes ++ [unresolvedOutcome step e]
        run := { f.run with world := s } }
    | (.ok operation, s) =>
      let r := attemptLoop env protocol stepTimeoutMs step operation f.run.bindings policy.attempts 0
        none s
      if r.finalError.isNone then runSteps service policy rest (f.after service step operation r)
      else f.after service step operation r

/-- The response came and is no error. -/
def cleanupSucceeds (result : Except AdapterExecError AdapterResponse) : Bool :=
  match result with
  | .ok response => (normalizeError protocol response).isNone
  | .error _ => false

/-- `run_cleanup`. -/
def runCleanup (bindings : BindingContext) : List GuidedStep → σ → List CleanupOutcome × σ
  | [], s => ([], s)
  | step :: rest, s =>
    match (resolveOperation env bindings step.operation).run s with
    | (.error _, s) =>
      let (outcomes, s) := runCleanup bindings rest s
      (⟨step.id, false⟩ :: outcomes, s)
    | (.ok operation, s) =>
      let (result, s) := env.execute operation s
      let (outcomes, s) := runCleanup bindings rest s
      (⟨step.id, cleanupSucceeds protocol result⟩ :: outcomes, s)

/-- The cleanup of a flow, if it has one. -/
def cleanUp (flow : GuidedFlow) (f : FlowRun σ) : List CleanupOutcome × σ :=
  if flow.cleanup.isEmpty then ([], f.run.world)
  else runCleanup env protocol f.run.bindings flow.cleanup f.run.world

def FlowRun.report (f : FlowRun σ) (cleanup : List CleanupOutcome) : GuidedExecutionReport where
  state := if f.state = .running then .succeeded else f.state
  outcomes := f.outcomes
  cleanup := cleanup
  captures := f.run.bindings.captures

/-- `run_guided_flow_internal`: `run_guided_flow` has no time limit, and
`run_guided_flow_with_policy` has one. -/
def runGuidedFlow (service : String) (flow : GuidedFlow) (policy : RetryPolicy) (run : RunState σ) :
    GuidedExecutionReport × RunState σ :=
  let f := runSteps env protocol stepTimeoutMs service policy flow.steps ⟨.running, [], run⟩
  let (cleanup, s) := cleanUp env protocol flow f
  (f.report cleanup, { f.run with world := s })

theorem cleanUp_eq (flow : GuidedFlow) (f : FlowRun σ) :
    cleanUp env protocol flow f = runCleanup env protocol f.run.bindings flow.cleanup f.run.world := by
  unfold cleanUp
  split
  · next none => rw [List.isEmpty_iff.mp none, runCleanup]
  · rfl

end Run

end Openstack.Studio

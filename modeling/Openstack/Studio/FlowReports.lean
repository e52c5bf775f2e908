import Openstack.Studio.GuidedRuntime

/-!
# What a report says of a run

The executor is watched: an environment that also notes each call it serves. The steps of a flow, the
attempts of a step and the cleanup are then read off the calls (`guided_runtime.rs`, lines 131-337;
`protocol_adapters.rs`, lines 61-83).
-/
namespace Openstack.Studio

structure Call where
  operation : NormalizedOperation
  result : Except AdapterExecError AdapterResponse

section Recording

variable {σ : Type}
variable {operation : NormalizedOperation} {e : AdapterError} {response : AdapterResponse}
  {r : AttemptResult (σ × List Call)}

/-- A use of the environment that leaves the notes alone. -/
def unnoted {α : Type} (f : σ → α × σ) (s : σ × List Call) : α × (σ × List Call) :=
  ((f s.1).1, ((f s.1).2, s.2))

/-- The same environment, watched. -/
def Env.recording (env : Env σ) : Env (σ × List Call) where
  execute operation s :=
    ((env.execute operation s.1).1,
      ((env.execute operation s.1).2, s.2 ++ [⟨operation, (env.execute operation s.1).1⟩]))
  elapsedMillis := unnoted env.elapsedMillis
  unixSeconds := unnoted env.unixSeconds
  subsecNanos := unnoted env.subsecNanos
  randCounter := unnoted env.randCounter
  parseJson := env.parseJson
  printJson := env.printJson

def RunState.recording (run : RunState σ) : RunState (σ × List Call) where
  world := (run.world, [])
  history := run.history
  bindings := run.bindings

/-! ## Statement -/

section Statement

variable (env : Env σ) (protocol : ProtocolClass) (stepTimeoutMs : Option Nat) (service : String)
  (flow : GuidedFlow) (policy : RetryPolicy)

/-- The calls of the run, in order. -/
def callsOf (run : RunState σ) : List Call :=
  (runGuidedFlow env.recording protocol stepTimeoutMs service flow policy run.recording).2.world.2

/-- All expressions of the operation have a value, whatever the environment does. -/
def Resolves (bindings : BindingContext) (operation : NormalizedOperation) : Prop :=
  ∀ s, ((resolveOperation env bindings operation).run s).1.isOk = true

/-- What the operation becomes in some state of the environment. -/
def ResolvesTo (bindings : BindingContext) (operation resolved : NormalizedOperation) : Prop :=
  ∃ s, ((resolveOperation env bindings operation).run s).1 = .ok resolved

/-- A retryable error response. -/
def Call.AsksForRetry (c : Call) : Prop :=
  ∃ response, c.result = .ok response ∧ (response.status = 429 ∨ 500 ≤ response.status)

/-- A step that the run reached: its calls and its outcome, with the bindings before and after. -/
structure StepTrace where
  before : BindingContext
  calls : List Call
  outcome : StepOutcome
  after : BindingContext

/-- The calls end with the response, and the bindings are those that it leaves. -/
def Captured (step : GuidedStep) (p : StepTrace) (operation : NormalizedOperation)
    (response : AdapterResponse) : Prop :=
  p.calls.getLast? = some ⟨operation, .ok response⟩ ∧
    p.after = (judgeResponse env protocol step operation response p.before).2

structure StepRun (step : GuidedStep) (p : StepTrace) : Prop where
  id : p.outcome.stepId = step.id
  attempts : p.outcome.attempts = p.calls.length
  bound : p.calls.length ≤ max 1 policy.maxAttempts.toNat
  operation : (¬ Resolves env p.before step.operation ∧ p.calls = []) ∨
    (Resolves env p.before step.operation ∧ p.calls ≠ [] ∧ ∃ resolved,
      ResolvesTo env p.before step.operation resolved ∧ ∀ c ∈ p.calls, c.operation = resolved)
  retries : ∀ c ∈ p.calls.dropLast, c.AsksForRetry
  error : p.outcome.success = p.outcome.error.isNone
  bindings : p.after = p.before ∨ ∃ operation response, Captured env protocol step p operation response
  response : p.outcome.success = true → ∃ operation response,
    Captured env protocol step p operation response ∧ response.status < 400 ∧
      evaluateAssertions env step.assertions response = none ∧
        p.outcome.statusCode = some response.status

/-- Each step starts with the bindings that the one before it leaves. -/
def Linked (start : BindingContext) : List StepTrace → BindingContext → Prop
  | [], last => last = start
  | p :: rest, last => p.before = start ∧ Linked p.after rest last

/-- A cleanup step with its call, where it makes one, and its outcome. -/
def CleanupRun (bindings : BindingContext) (step : GuidedStep)
    (part : Option Call × CleanupOutcome) : Prop :=
  part.2.stepId = step.id ∧
    match part.1 with
    | none => ¬ Resolves env bindings step.operation ∧ part.2.success = false
    | some c => Resolves env bindings step.operation ∧
      ResolvesTo env bindings step.operation c.operation ∧
        part.2.success = cleanupSucceeds protocol c.result

/-- The calls of a run by what they are for. -/
structure FlowTrace where
  steps : List StepTrace
  cleanup : List (Option Call × CleanupOutcome)

structure Faithful (start last : BindingContext) (report : GuidedExecutionReport) (calls : List Call)
    (t : FlowTrace) : Prop where
  calls : calls = (t.steps.map (·.calls)).flatten ++ (t.cleanup.map Prod.fst).reduceOption
  outcomes : report.outcomes = t.steps.map (·.outcome)
  cleanupOutcomes : report.cleanup = t.cleanup.map Prod.snd
  steps : List.Forall₂ (StepRun env protocol policy) (flow.steps.take t.steps.length) t.steps
  bindings : Linked start t.steps last
  stops : ∀ o ∈ report.outcomes.dropLast, o.success = true
  succeeded : report.state = .succeeded ↔
    report.outcomes.length = flow.steps.length ∧ ∀ o ∈ report.outcomes, o.success = true
  failed : report.state ≠ .succeeded →
    report.state = .failed ∧ ∃ o, report.outcomes.getLast? = some o ∧ o.success = false
  cleanup : List.Forall₂ (CleanupRun env protocol last) flow.cleanup t.cleanup

end Statement

/-! ## Interpolation -/

/-- The watched computation does the same and makes no calls. -/
def Unnoted {α : Type} (m : Effect σ α) (m' : Effect (σ × List Call) α) : Prop :=
  ∀ s calls, m'.run (s, calls) = ((m.run s).1, ((m.run s).2, calls))

/-- Both computations succeed or both fail, wherever they start. -/
def SameSuccess {α : Type} (m m' : Effect σ α) : Prop :=
  ∀ s s', (m.run s).1.isOk = (m'.run s').1.isOk

theorem run_bind {α β : Type} (m : Effect σ α) (f : α → Effect σ β) (s : σ) : (m >>= f).run s =
    match m.run s with
    | (.ok a, s') => (f a).run s'
    | (.error e, s') => (.error e, s') := by
  change (match m s with | (x, s') => ExceptT.bindCont f x s') = _
  cases found : m.run s with
  | mk x s' =>
    have found' : m s = (x, s') := found
    rw [found']
    cases x <;> rfl

theorem Unnoted.bind {α β : Type} {m : Effect σ α} {m' : Effect (σ × List Call) α}
    {f : α → Effect σ β} {f' : α → Effect (σ × List Call) β} (first : Unnoted m m')
    (next : ∀ a, Unnoted (f a) (f' a)) : Unnoted (m >>= f) (m' >>= f') := by
  intro s calls
  rw [run_bind, run_bind, first s calls]
  cases m.run s with
  | mk x s' =>
    cases x with
    | error e => rfl
    | ok a => exact next a s' calls

theorem Unnoted.pure {α : Type} (a : α) : Unnoted (pure a : Effect σ α) (pure a) := fun _ _ => rfl

theorem Unnoted.throw {α : Type} (e : AdapterError) :
    Unnoted (throw e : Effect σ α) (throw e) := fun _ _ => rfl

theorem Unnoted.use {α : Type} (f : σ → α × σ) : Unnoted (use f) (use (unnoted f)) := fun _ _ => rfl

theorem SameSuccess.bind {α β : Type} {m m' : Effect σ α} {f f' : α → Effect σ β}
    (first : SameSuccess m m') (next : ∀ a a', SameSuccess (f a) (f' a')) :
    SameSuccess (m >>= f) (m' >>= f') := by
  intro s s'
  rw [run_bind, run_bind]
  have same := first s s'
  cases left : m.run s with
  | mk x t =>
    cases right : m'.run s' with
    | mk x' t' =>
      rw [left, right] at same
      cases x with
      | error e =>
        cases x' with
        | error e' => rfl
        | ok a' => cases same
      | ok a =>
        cases x' with
        | error e' => cases same
        | ok a' => exact next a a' t t'

theorem SameSuccess.pure {α : Type} (a a' : α) : SameSuccess (pure a : Effect σ α) (pure a') :=
  fun _ _ => rfl

theorem SameSuccess.throw {α : Type} (e : AdapterError) :
    SameSuccess (throw e : Effect σ α) (throw e) := fun _ _ => rfl

theorem SameSuccess.use {α : Type} (f : σ → α × σ) : SameSuccess (use f) (use f) := fun _ _ => rfl

variable (env : Env σ) (bindings : BindingContext)

theorem unnoted_resolveExpression (expr : String) :
    Unnoted (resolveExpression env bindings expr) (resolveExpression env.recording bindings expr) := by
  unfold resolveExpression
  split
  · exact (Unnoted.use _).bind fun _ => (Unnoted.use _).bind fun _ => .pure _
  · split
    · exact (Unnoted.use _).bind fun _ => .pure _
    · exact fun _ _ => rfl

theorem unnoted_interpolateFrom (input : String) (fuel : Nat) (rest : Text) :
    Unnoted (interpolateFrom env bindings input fuel rest)
      (interpolateFrom env.recording bindings input fuel rest) := by
  induction fuel generalizing rest with
  | zero => exact .pure _
  | succ fuel ih =>
    rw [interpolateFrom, interpolateFrom]
    cases RustStr.before opening rest with
    | none => exact .pure _
    | some front =>
      simp only
      cases RustStr.before closing (rest.drop (front.length + opening.length)) with
      | none => exact .throw _
      | some expr =>
        exact (unnoted_resolveExpression env bindings _).bind fun _ => (ih _).bind fun _ => .pure _

theorem unnoted_interpolateValue (input : String) :
    Unnoted (interpolateValue env bindings input) (interpolateValue env.recording bindings input) :=
  (unnoted_interpolateFrom env bindings input _ _).bind fun _ => .pure _

theorem unnoted_interpolateEntries (entries : List (String × String)) :
    Unnoted (interpolateEntries env bindings entries)
      (interpolateEntries env.recording bindings entries) := by
  induction entries with
  | nil => exact .pure _
  | cons entry rest ih =>
    exact (unnoted_interpolateValue env bindings _).bind fun _ => ih.bind fun _ => .pure _

theorem unnoted_interpolateBody (body : Option String) :
    Unnoted (interpolateBody env bindings body) (interpolateBody env.recording bindings body) := by
  cases body with
  | none => exact .pure _
  | some body => exact (unnoted_interpolateValue env bindings body).bind fun _ => .pure _

theorem unnoted_resolveOperation (operation : NormalizedOperation) :
    Unnoted (resolveOperation env bindings operation)
      (resolveOperation env.recording bindings operation) :=
  (unnoted_interpolateEntries env bindings _).bind fun _ =>
    (unnoted_interpolateEntries env bindings _).bind fun _ =>
      (unnoted_interpolateValue env bindings _).bind fun _ =>
        (unnoted_interpolateBody env bindings _).bind fun _ => .pure _

theorem sameSuccess_resolveExpression (expr : String) :
    SameSuccess (resolveExpression env bindings expr) (resolveExpression env bindings expr) := by
  unfold resolveExpression
  split
  · exact (SameSuccess.use _).bind fun _ _ => (SameSuccess.use _).bind fun _ _ => .pure _ _
  · split
    · exact (SameSuccess.use _).bind fun _ _ => .pure _ _
    · exact fun _ _ => rfl

theorem sameSuccess_interpolateFrom (input : String) (fuel : Nat) (rest : Text) :
    SameSuccess (interpolateFrom env bindings input fuel rest)
      (interpolateFrom env bindings input fuel rest) := by
  induction fuel generalizing rest with
  | zero => exact .pure _ _
  | succ fuel ih =>
    rw [interpolateFrom]
    cases RustStr.before opening rest with
    | none => exact .pure _ _
    | some front =>
      simp only
      cases RustStr.before closing (rest.drop (front.length + opening.length)) with
      | none => exact .throw _
      | some expr =>
        exact (sameSuccess_resolveExpression env bindings _).bind fun _ _ =>
          (ih _).bind fun _ _ => .pure _ _

theorem sameSuccess_interpolateValue (input : String) :
    SameSuccess (interpolateValue env bindings input) (interpolateValue env bindings input) :=
  (sameSuccess_interpolateFrom env bindings input _ _).bind fun _ _ => .pure _ _

theorem sameSuccess_interpolateEntries (entries : List (String × String)) :
    SameSuccess (interpolateEntries env bindings entries) (interpolateEntries env bindings entries) := by
  induction entries with
  | nil => exact .pure _ _
  | cons entry rest ih =>
    exact (sameSuccess_interpolateValue env bindings _).bind fun _ _ => ih.bind fun _ _ => .pure _ _

theorem sameSuccess_interpolateBody (body : Option String) :
    SameSuccess (interpolateBody env bindings body) (interpolateBody env bindings body) := by
  cases body with
  | none => exact .pure _ _
  | some body => exact (sameSuccess_interpolateValue env bindings body).bind fun _ _ => .pure _ _

/-- Whether an operation resolves is a matter of the bindings. -/
theorem sameSuccess_resolveOperation (operation : NormalizedOperation) :
    SameSuccess (resolveOperation env bindings operation) (resolveOperation env bindings operation) :=
  (sameSuccess_interpolateEntries env bindings _).bind fun _ _ =>
    (sameSuccess_interpolateEntries env bindings _).bind fun _ _ =>
      (sameSuccess_interpolateValue env bindings _).bind fun _ _ =>
        (sameSuccess_interpolateBody env bindings _).bind fun _ _ => .pure _ _

theorem resolves_of_ok {operation resolved : NormalizedOperation} {s s' : σ}
    (found : (resolveOperation env bindings operation).run s = (.ok resolved, s')) :
    Resolves env bindings operation ∧ ResolvesTo env bindings operation resolved := by
  refine ⟨fun t => ?_, s, by rw [found]⟩
  rw [sameSuccess_resolveOperation env bindings operation t s, found]
  rfl

theorem not_resolves_of_error {s s' : σ} (found : (resolveOperation env bindings operation).run s = (.error e, s')) :
    ¬ Resolves env bindings operation := by
  intro resolves
  have ok := resolves s
  rw [found] at ok
  cases ok

/-! ## The attempts of a step -/

variable (protocol : ProtocolClass) (stepTimeoutMs : Option Nat)

theorem asksForRetry_of_retryable (error : normalizeError protocol response = some e) (again : e.retryable = true) :
    Call.AsksForRetry ⟨operation, .ok response⟩ := by
  refine ⟨response, rfl, ?_⟩
  unfold normalizeError at error
  split at error
  · cases error
  · cases error
    simpa using again

theorem status_of_no_error (fine : normalizeError protocol response = none) :
    response.status < 400 := by
  unfold normalizeError at fine
  split at fine
  · next small => exact small
  · cases fine

/-- What the retry loop of a step has called when it ends. -/
structure AttemptsMade (step : GuidedStep) (operation : NormalizedOperation) (remaining attempts : Nat)
    (calls : List Call) (r : AttemptResult (σ × List Call)) (made : List Call) : Prop where
  noted : r.world.2 = calls ++ made
  nonempty : made ≠ []
  attempts : r.attempts = attempts + made.length
  bound : made.length ≤ remaining
  same : ∀ c ∈ made, c.operation = operation
  retries : ∀ c ∈ made.dropLast, c.AsksForRetry
  left : r.bindings = bindings ∨ ∃ response, made.getLast? = some ⟨operation, .ok response⟩ ∧
    r.bindings = (judgeResponse env protocol step operation response bindings).2
  success : r.finalError = none → ∃ response, made.getLast? = some ⟨operation, .ok response⟩ ∧
    r.bindings = (judgeResponse env protocol step operation response bindings).2 ∧
      response.status < 400 ∧ evaluateAssertions env step.assertions response = none ∧
        r.finalResponse = some response

theorem execute_recording (operation : NormalizedOperation) (s : σ) (calls : List Call) :
    env.recording.execute operation (s, calls) = ((env.execute operation s).1,
      ((env.execute operation s).2, calls ++ [⟨operation, (env.execute operation s).1⟩])) := rfl

theorem unnoted_timedOut (s : σ) (calls : List Call) :
    timedOut env.recording stepTimeoutMs (s, calls) =
      ((timedOut env stepTimeoutMs s).1, ((timedOut env stepTimeoutMs s).2, calls)) := by
  cases stepTimeoutMs <;> rfl

theorem assertions_of_judged {step : GuidedStep}
    (fine : (judgeResponse env protocol step operation response bindings).1 = none) :
    evaluateAssertions env step.assertions response = none := by
  unfold judgeResponse at fine
  split at fine
  · exact fine
  · cases fine

section Attempts

variable {step : GuidedStep} {operation : NormalizedOperation} {calls : List Call} {attempts : Nat}

/-- A last call. -/
theorem attemptsMade_last {remaining : Nat} {result : Except AdapterExecError AdapterResponse}
     (noted : r.world.2 = calls ++ [⟨operation, result⟩]) (counted : r.attempts = attempts + 1)
    (left : r.bindings = bindings ∨ ∃ response, result = .ok response ∧
      r.bindings = (judgeResponse env protocol step operation response bindings).2)
    (success : r.finalError = none → ∃ response, result = .ok response ∧
      r.bindings = (judgeResponse env protocol step operation response bindings).2 ∧
        response.status < 400 ∧ evaluateAssertions env step.assertions response = none ∧
          r.finalResponse = some response) :
    AttemptsMade env bindings protocol step operation (remaining + 1) attempts calls r
      [⟨operation, result⟩] where
  noted := noted
  nonempty := by simp
  attempts := counted
  bound := by simp
  same := by simp
  retries := by simp
  left := by
    refine left.imp_right ?_
    rintro ⟨response, rfl, judged⟩
    exact ⟨response, rfl, judged⟩
  success fine := by
    obtain ⟨response, rfl, others⟩ := success fine
    exact ⟨response, rfl, others⟩

/-- A call before others. -/
theorem AttemptsMade.cons {remaining : Nat} {c : Call}
    {made : List Call} (of : c.operation = operation) (retry : c.AsksForRetry)
    (rest : AttemptsMade env bindings protocol step operation remaining (attempts + 1)
      (calls ++ [c]) r made) :
    AttemptsMade env bindings protocol step operation (remaining + 1) attempts calls r
      (c :: made) where
  noted := by rw [rest.noted, List.append_assoc, List.singleton_append]
  nonempty := by simp
  attempts := by
    rw [rest.attempts, List.length_cons]
    omega
  bound := by
    rw [List.length_cons]
    exact Nat.succ_le_succ rest.bound
  same c' member := by
    rcases List.mem_cons.mp member with rfl | later
    · exact of
    · exact rest.same c' later
  retries c' member := by
    rw [List.dropLast_cons_of_ne_nil rest.nonempty] at member
    rcases List.mem_cons.mp member with rfl | later
    · exact retry
    · exact rest.retries c' later
  left := by
    rw [List.getLast?_cons_of_ne_nil rest.nonempty]
    exact rest.left
  success := by
    rw [List.getLast?_cons_of_ne_nil rest.nonempty]
    exact rest.success

end Attempts

/-- The loop makes its first attempt, and each further one after a response that asks for it. -/
theorem attemptLoop_made (step : GuidedStep) (operation : NormalizedOperation) (remaining : Nat)
    (positive : 0 < remaining) (attempts : Nat) (finalResponse : Option AdapterResponse) (s : σ)
    (calls : List Call) : ∃ made, AttemptsMade env bindings protocol step operation remaining attempts
      calls (attemptLoop env.recording protocol stepTimeoutMs step operation bindings remaining attempts
        finalResponse (s, calls)) made := by
  induction remaining generalizing attempts finalResponse s calls with
  | zero => omega
  | succ remaining ih =>
    rw [attemptLoop]
    rw [execute_recording]
    cases answer : env.execute operation s with
    | mk result s' =>
      cases result with
      | error e =>
        exact ⟨_, attemptsMade_last env bindings protocol rfl rfl (.inl rfl) fun none => by cases none⟩
      | ok response =>
        simp only
        rw [unnoted_timedOut]
        cases timed : timedOut env stepTimeoutMs s' with
        | mk late s'' =>
          cases late with
          | some e =>
            exact ⟨_, attemptsMade_last env bindings protocol rfl rfl (.inl rfl)
              fun none => by cases none⟩
          | none =>
            simp only
            cases error : normalizeError protocol response with
            | none =>
              refine ⟨_, attemptsMade_last env bindings protocol rfl rfl
                (.inr ⟨response, rfl, rfl⟩) fun none => ?_⟩
              exact ⟨response, rfl, rfl, status_of_no_error protocol error,
                assertions_of_judged env.recording bindings protocol none, rfl⟩
            | some e =>
              simp only
              split
              · next again =>
                obtain ⟨made, rest⟩ := ih again.2 (attempts + 1) (some response) s''
                  (calls ++ [⟨operation, .ok response⟩])
                exact ⟨_, rest.cons env bindings protocol rfl
                  (asksForRetry_of_retryable protocol error again.1)⟩
              · exact ⟨_, attemptsMade_last env bindings protocol rfl rfl (.inl rfl)
                  fun none => by cases none⟩

/-! ## The steps of a flow -/

variable (service : String) (policy : RetryPolicy)

/-- How far the loop over the steps has come. -/
structure StepsRun (steps : List GuidedStep) (before after : FlowRun (σ × List Call))
    (parts : List StepTrace) : Prop where
  noted : after.run.world.2 = before.run.world.2 ++ (parts.map (·.calls)).flatten
  outcomes : after.outcomes = before.outcomes ++ parts.map (·.outcome)
  each : List.Forall₂ (StepRun env protocol policy) (steps.take parts.length) parts
  bindings : Linked before.run.bindings parts after.run.bindings
  stops : ∀ o ∈ (parts.map (·.outcome)).dropLast, o.success = true
  ends : (after.state = .running ∧ parts.length = steps.length ∧
      ∀ o ∈ parts.map (·.outcome), o.success = true) ∨
    (after.state = .failed ∧ ∃ o, (parts.map (·.outcome)).getLast? = some o ∧ o.success = false)

section Steps

variable {env bindings protocol policy} {step : GuidedStep} {rest : List GuidedStep}
  {before middle after : FlowRun (σ × List Call)} {parts : List StepTrace} {p : StepTrace}

theorem stepRun_unresolved (open' : ¬ Resolves env bindings step.operation) :
    StepRun env protocol policy step ⟨bindings, [], unresolvedOutcome step e, bindings⟩ where
  id := rfl
  attempts := rfl
  bound := by simp
  operation := .inl ⟨open', rfl⟩
  retries := by simp
  error := rfl
  bindings := .inl rfl
  response success := by cases success

theorem stepRun_of_attempts {calls made : List Call} (resolves : Resolves env bindings step.operation)
    (resolved : ResolvesTo env bindings step.operation operation)
    (tried : AttemptsMade env bindings protocol step operation policy.attempts 0 calls r made) :
    StepRun env protocol policy step ⟨bindings, made, r.outcome step, r.bindings⟩ where
  id := rfl
  attempts := tried.attempts.trans (Nat.zero_add _)
  bound := by
    have bound := tried.bound
    rwa [RetryPolicy.attempts, Nat.max_comm] at bound
  operation := .inr ⟨resolves, tried.nonempty, operation, resolved, tried.same⟩
  retries := tried.retries
  error := rfl
  bindings := by
    refine tried.left.imp_right ?_
    rintro ⟨response, last, judged⟩
    exact ⟨operation, response, last, judged⟩
  response success := by
    obtain ⟨response, last, judged, small, held, final⟩ :=
      tried.success (Option.isNone_iff_eq_none.mp success)
    exact ⟨operation, response, ⟨last, judged⟩, small, held, by rw [AttemptResult.outcome, final]; rfl⟩

/-- The loop ends here. -/
theorem stepsRun_failed (run : StepRun env protocol policy step p) (failed : p.outcome.success = false)
    (state : after.state = .failed) (noted : after.run.world.2 = before.run.world.2 ++ p.calls)
    (outcomes : after.outcomes = before.outcomes ++ [p.outcome])
    (started : p.before = before.run.bindings) (left : after.run.bindings = p.after) :
    StepsRun env protocol policy (step :: rest) before after [p] where
  noted := by simpa using noted
  outcomes := outcomes
  each := .cons run .nil
  bindings := ⟨started, left⟩
  stops := by simp
  ends := .inr ⟨state, p.outcome, rfl, failed⟩

/-- The loop goes on. -/
theorem StepsRun.cons (run : StepRun env protocol policy step p) (fine : p.outcome.success = true)
    (noted : middle.run.world.2 = before.run.world.2 ++ p.calls)
    (outcomes : middle.outcomes = before.outcomes ++ [p.outcome])
    (started : p.before = before.run.bindings) (left : middle.run.bindings = p.after)
    (later : StepsRun env protocol policy rest middle after parts) :
    StepsRun env protocol policy (step :: rest) before after (p :: parts) where
  noted := by rw [later.noted, noted, List.append_assoc]; rfl
  outcomes := by rw [later.outcomes, outcomes, List.append_assoc]; rfl
  each := .cons run later.each
  bindings := ⟨started, left ▸ later.bindings⟩
  stops o' member := by
    rw [List.map_cons] at member
    by_cases last : parts.map (·.outcome) = []
    · simp [last] at member
    · rw [List.dropLast_cons_of_ne_nil last] at member
      rcases List.mem_cons.mp member with rfl | earlier
      · exact fine
      · exact later.stops o' earlier
  ends := by
    rcases later.ends with ⟨state, complete, all⟩ | ⟨state, o', last, failed⟩
    · exact .inl ⟨state, by simp [complete], by simpa [fine] using all⟩
    · refine .inr ⟨state, o', ?_, failed⟩
      rw [List.map_cons, List.getLast?_cons, last]
      rfl

end Steps

theorem runSteps_run (steps : List GuidedStep) (f : FlowRun (σ × List Call))
    (running : f.state = .running) :
    ∃ parts, StepsRun env protocol policy steps f
      (runSteps env.recording protocol stepTimeoutMs service policy steps f) parts := by
  induction steps generalizing f with
  | nil =>
    exact ⟨[], by simp [runSteps], by simp [runSteps], .nil, rfl, by simp,
      .inl ⟨running, rfl, by simp⟩⟩
  | cons step rest ih =>
    rw [runSteps]
    cases world : f.run.world with
    | mk s calls =>
      rw [unnoted_resolveOperation env f.run.bindings step.operation s calls]
      cases found : (resolveOperation env f.run.bindings step.operation).run s with
      | mk result s' =>
        cases result with
        | error e =>
          have open' := not_resolves_of_error env _ found
          refine ⟨_, stepsRun_failed (stepRun_unresolved open') rfl rfl ?_ rfl rfl rfl⟩
          simp [world]
        | ok operation =>
          obtain ⟨resolves, resolved⟩ := resolves_of_ok env f.run.bindings found
          obtain ⟨made, tried⟩ := attemptLoop_made env f.run.bindings protocol stepTimeoutMs step
            operation policy.attempts (by simp [RetryPolicy.attempts]) 0 none s' calls
          have run := stepRun_of_attempts resolves resolved tried
          simp only
          split
          · next fine =>
            obtain ⟨parts, later⟩ := ih (f.after service step operation _) ((if_pos fine).trans running)
            refine ⟨_, later.cons run fine ?_ rfl rfl rfl⟩
            rw [world]
            exact tried.noted
          · next failed =>
            refine ⟨_, stepsRun_failed run ((Bool.not_eq_true _).mp failed) ?_ ?_ rfl rfl rfl⟩
            · exact if_neg failed
            · rw [world]
              exact tried.noted

/-! ## The cleanup -/

theorem runCleanup_run (steps : List GuidedStep) (s : σ) (calls : List Call) :
    ∃ parts : List (Option Call × CleanupOutcome),
      List.Forall₂ (CleanupRun env protocol bindings) steps parts ∧
        (runCleanup env.recording protocol bindings steps (s, calls)).1 = parts.map Prod.snd ∧
        (runCleanup env.recording protocol bindings steps (s, calls)).2.2 =
          calls ++ (parts.map Prod.fst).reduceOption := by
  induction steps generalizing s calls with
  | nil => exact ⟨[], .nil, rfl, by simp [runCleanup]⟩
  | cons step rest ih =>
    rw [runCleanup]
    rw [unnoted_resolveOperation env bindings step.operation s calls]
    cases found : (resolveOperation env bindings step.operation).run s with
    | mk result s' =>
      cases result with
      | error e =>
        obtain ⟨parts, each, outcomes, noted⟩ := ih s' calls
        refine ⟨(none, ⟨step.id, false⟩) :: parts,
          .cons ⟨rfl, not_resolves_of_error env _ found, rfl⟩ each, ?_, ?_⟩
        · simp only [outcomes, List.map_cons]
        · simpa using noted
      | ok operation =>
        obtain ⟨resolves, resolved⟩ := resolves_of_ok env bindings found
        obtain ⟨parts, each, outcomes, noted⟩ := ih (env.execute operation s').2
          (calls ++ [⟨operation, (env.execute operation s').1⟩])
        refine ⟨(some ⟨operation, (env.execute operation s').1⟩,
          ⟨step.id, cleanupSucceeds protocol (env.execute operation s').1⟩) :: parts,
          .cons ⟨rfl, resolves, resolved, rfl⟩ each, ?_, ?_⟩
        · simp [execute_recording, outcomes]
        · simp [execute_recording, noted]

/-! ## Watching changes nothing -/

theorem attemptLoop_recording (step : GuidedStep) (operation : NormalizedOperation)
    (remaining attempts : Nat) (finalResponse : Option AdapterResponse) (s : σ) (calls : List Call) :
    ∃ made, attemptLoop env.recording protocol stepTimeoutMs step operation bindings remaining attempts
        finalResponse (s, calls) =
      let r := attemptLoop env protocol stepTimeoutMs step operation bindings remaining attempts
        finalResponse s
      ⟨r.attempts, r.finalResponse, r.finalError, r.bindings, (r.world, made)⟩ := by
  induction remaining generalizing attempts finalResponse s calls with
  | zero => exact ⟨calls, rfl⟩
  | succ remaining ih =>
    simp only [attemptLoop, execute_recording]
    cases env.execute operation s with
    | mk result s' =>
      cases result with
      | error e => exact ⟨_, rfl⟩
      | ok response =>
        simp only [unnoted_timedOut]
        cases timedOut env stepTimeoutMs s' with
        | mk late s'' =>
          cases late with
          | some e => exact ⟨_, rfl⟩
          | none =>
            simp only
            cases normalizeError protocol response with
            | none => exact ⟨_, rfl⟩
            | some e =>
              simp only
              split
              · exact ih _ _ _ _
              · exact ⟨_, rfl⟩

/-- The same variables, with the calls made so far. -/
def FlowRun.noting (f : FlowRun σ) (calls : List Call) : FlowRun (σ × List Call) where
  state := f.state
  outcomes := f.outcomes
  run := { world := (f.run.world, calls), history := f.run.history, bindings := f.run.bindings }

theorem runSteps_recording (steps : List GuidedStep) (f : FlowRun σ) (calls : List Call) :
    ∃ made, runSteps env.recording protocol stepTimeoutMs service policy steps (f.noting calls) =
      (runSteps env protocol stepTimeoutMs service policy steps f).noting made := by
  induction steps generalizing f calls with
  | nil => exact ⟨calls, rfl⟩
  | cons step rest ih =>
    have resolving : (resolveOperation env.recording (f.noting calls).run.bindings step.operation).run
        (f.noting calls).run.world = _ :=
      unnoted_resolveOperation env f.run.bindings step.operation f.run.world calls
    rw [runSteps, runSteps, resolving]
    cases (resolveOperation env f.run.bindings step.operation).run f.run.world with
    | mk result s' =>
      cases result with
      | error e => exact ⟨_, rfl⟩
      | ok operation =>
        obtain ⟨made, same⟩ := attemptLoop_recording env f.run.bindings protocol stepTimeoutMs step
          operation policy.attempts 0 none s' calls
        have here : attemptLoop env.recording protocol stepTimeoutMs step operation
            (f.noting calls).run.bindings policy.attempts 0 none (s', calls) = _ := same
        simp only [here]
        split
        · exact ih (f.after service step operation _) made
        · exact ⟨made, rfl⟩

theorem runCleanup_recording (steps : List GuidedStep) (s : σ) (calls : List Call) :
    ∃ made, runCleanup env.recording protocol bindings steps (s, calls) =
      ((runCleanup env protocol bindings steps s).1,
        ((runCleanup env protocol bindings steps s).2, made)) := by
  induction steps generalizing s calls with
  | nil => exact ⟨calls, rfl⟩
  | cons step rest ih =>
    rw [runCleanup, runCleanup, unnoted_resolveOperation env bindings step.operation s calls]
    cases (resolveOperation env bindings step.operation).run s with
    | mk result s' =>
      cases result with
      | error e =>
        obtain ⟨made, same⟩ := ih s' calls
        exact ⟨made, by simp only [same]⟩
      | ok operation =>
        obtain ⟨made, same⟩ := ih (env.execute operation s').2
          (calls ++ [⟨operation, (env.execute operation s').1⟩])
        exact ⟨made, by simp only [execute_recording, same]⟩

variable (flow : GuidedFlow)

/-- Who is watched reports the same. -/
theorem runGuidedFlow_recording (run : RunState σ) :
    (runGuidedFlow env.recording protocol stepTimeoutMs service flow policy run.recording).1 =
        (runGuidedFlow env protocol stepTimeoutMs service flow policy run).1 ∧
      (runGuidedFlow env.recording protocol stepTimeoutMs service flow policy run.recording).2.bindings =
        (runGuidedFlow env protocol stepTimeoutMs service flow policy run).2.bindings := by
  obtain ⟨made, steps⟩ := runSteps_recording env protocol stepTimeoutMs service policy flow.steps
    ⟨.running, [], run⟩ []
  have start : (⟨.running, [], run.recording⟩ : FlowRun (σ × List Call)) =
    FlowRun.noting ⟨.running, [], run⟩ [] := rfl
  obtain ⟨all, cleanup⟩ := runCleanup_recording env
    (runSteps env protocol stepTimeoutMs service policy flow.steps ⟨.running, [], run⟩).run.bindings
    protocol flow.cleanup
    (runSteps env protocol stepTimeoutMs service policy flow.steps ⟨.running, [], run⟩).run.world made
  have cleaned : cleanUp env.recording protocol flow ((runSteps env protocol stepTimeoutMs service
      policy flow.steps ⟨.running, [], run⟩).noting made) = _ := (cleanUp_eq ..).trans cleanup
  rw [runGuidedFlow, runGuidedFlow, start, steps]
  simp only [cleaned, cleanUp_eq]
  exact ⟨rfl, rfl⟩

/-- The calls of a run tell the steps up to the first that fails, each within its attempts, and then
the whole cleanup; the report says the same. -/
theorem run_guided_flow_faithful (run : RunState σ) :
    ∃ t, Faithful env protocol flow policy run.bindings
      (runGuidedFlow env protocol stepTimeoutMs service flow policy run).2.bindings
      (runGuidedFlow env protocol stepTimeoutMs service flow policy run).1
      (callsOf env protocol stepTimeoutMs service flow policy run) t := by
  obtain ⟨report, bindings⟩ := runGuidedFlow_recording env protocol stepTimeoutMs service policy flow run
  rw [← report, ← bindings, callsOf, runGuidedFlow]
  obtain ⟨parts, steps⟩ := runSteps_run env protocol stepTimeoutMs service policy flow.steps
    ⟨.running, [], run.recording⟩ rfl
  generalize runSteps env.recording protocol stepTimeoutMs service policy flow.steps
    ⟨.running, [], run.recording⟩ = f at steps
  obtain ⟨cleanupParts, each, outcomes, noted⟩ := runCleanup_run env f.run.bindings protocol flow.cleanup
    f.run.world.1 f.run.world.2
  simp only [cleanUp_eq, outcomes]
  refine ⟨⟨parts, cleanupParts⟩, ?_⟩
  have reported : f.outcomes = parts.map (·.outcome) := by simpa using steps.outcomes
  have state : (f.report (cleanupParts.map Prod.snd)).state =
    if f.state = .running then .succeeded else f.state := rfl
  have others : (f.report (cleanupParts.map Prod.snd)).outcomes = parts.map (·.outcome) := reported
  exact
    { calls := by
        rw [noted, steps.noted]
        rfl
      outcomes := reported
      cleanupOutcomes := rfl
      steps := steps.each
      bindings := steps.bindings
      stops := by
        rw [others]
        exact steps.stops
      succeeded := by
        rw [state, others]
        rcases steps.ends with ⟨running, complete, all⟩ | ⟨failed, o, last, unsuccessful⟩
        · exact iff_of_true (if_pos running) ⟨by simpa using complete, all⟩
        · refine iff_of_false (by simp [failed]) ?_
          rintro ⟨-, all⟩
          rw [all o (List.mem_of_getLast? last)] at unsuccessful
          cases unsuccessful
      failed := by
        rw [state, others]
        intro not
        rcases steps.ends with ⟨running, -, -⟩ | ⟨failed, last⟩
        · exact absurd (if_pos running) not
        · exact ⟨by simp [failed], last⟩
      cleanup := each }

end Recording

end Openstack.Studio

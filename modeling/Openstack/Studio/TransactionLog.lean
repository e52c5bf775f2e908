import Mathlib
import Openstack.Lib.Run

/-!
# The transaction log

`crates/studio-ui/src/transaction_log.rs` and `record_transaction` of `crates/internal-api/src/studio_transactions.rs`.
Additions of machine integers panic where they overflow.
-/
namespace Openstack.Studio

inductive TransactionOutcome where
  | success
  | clientError
  | serverError
  | pending
  deriving DecidableEq, Repr

def TransactionOutcome.fromStatus (status : UInt16) : TransactionOutcome :=
  if status = 0 then .pending
  else if 200 ≤ status ∧ status ≤ 299 then .success
  else if 400 ≤ status ∧ status ≤ 499 then .clientError
  else if 500 ≤ status ∧ status ≤ 599 then .serverError
  else .clientError

structure TransactionRecord where
  id : UInt64
  service : String
  operation : Option String
  method : String
  path : String
  status : UInt16
  requestBodyPreview : Option String
  responseBodyPreview : Option String
  startedAtMs : UInt64
  durationMs : Option UInt64
  outcome : TransactionOutcome
  fromGuidedFlow : Bool
  deriving DecidableEq, Repr

/-- The characters that fit into so many bytes. -/
def fitting : (room : Nat) → List Char → List Char
  | _, [] => []
  | room, c :: rest => if c.utf8Size ≤ room then c :: fitting (room - c.utf8Size) rest else []

def truncate (s : String) (maxBytes : Nat) : String :=
  if s.utf8ByteSize ≤ maxBytes then s else String.ofList (fitting maxBytes s.toList) ++ "…"

namespace TransactionRecord

def maxBodyPreview : Nat := 1024

def new (id : UInt64) (service method path : String) (startedAtMs : UInt64) : TransactionRecord where
  id
  service
  operation := none
  method
  path
  status := 0
  requestBodyPreview := none
  responseBodyPreview := none
  startedAtMs
  durationMs := none
  outcome := .pending
  fromGuidedFlow := false

variable (r : TransactionRecord)

def withOperation (op : String) : TransactionRecord := { r with operation := some op }

def withRequestBody (body : String) : TransactionRecord :=
  { r with requestBodyPreview := some (truncate body maxBodyPreview) }

def withGuided : TransactionRecord := { r with fromGuidedFlow := true }

def complete (status : UInt16) (responseBody : String) (durationMs : UInt64) : TransactionRecord :=
  { r with
    status
    outcome := .fromStatus status
    responseBodyPreview := some (truncate responseBody maxBodyPreview)
    durationMs := some durationMs }

end TransactionRecord

structure TransactionSummary where
  total : Nat
  success : Nat
  clientError : Nat
  serverError : Nat
  pending : Nat
  avgDurationMs : Option Nat
  deriving DecidableEq, Repr

/-- Entries come newest first. -/
structure TransactionLog where
  maxEntries : Nat
  entries : List TransactionRecord
  nextId : UInt64

/-- `a + b` of `u64`. -/
def addU64 (a b : UInt64) : Option UInt64 := if a.toNat + b.toNat < 2 ^ 64 then some (a + b) else none

namespace TransactionLog

def new (maxEntries : Nat) : TransactionLog := ⟨max maxEntries 1, [], 1⟩

variable (log : TransactionLog)

def push (record : TransactionRecord) : Option (UInt64 × TransactionLog) :=
  (addU64 log.nextId 1).map fun nextId => (log.nextId,
    { log with
      nextId
      entries := ({ record with id := log.nextId } :: log.entries).take log.maxEntries })

def clear : TransactionLog := { log with entries := [] }

def clearService (service : String) : TransactionLog :=
  { log with entries := log.entries.filter fun r => r.service ≠ service }

/-- The counters of `summary`. -/
structure Tally where
  success : Nat := 0
  clientError : Nat := 0
  serverError : Nat := 0
  pending : Nat := 0
  totalDurationMs : UInt64 := 0
  completed : Nat := 0

def Tally.count (t : Tally) : TransactionOutcome → Tally
  | .success => { t with success := t.success + 1 }
  | .clientError => { t with clientError := t.clientError + 1 }
  | .serverError => { t with serverError := t.serverError + 1 }
  | .pending => { t with pending := t.pending + 1 }

/-- One round of the loop in `summary`. -/
def Tally.add (t : Tally) (r : TransactionRecord) : Option Tally :=
  match r.durationMs with
  | none => some (t.count r.outcome)
  | some d => (addU64 t.totalDurationMs d).map fun total =>
    { t.count r.outcome with totalDurationMs := total, completed := t.completed + 1 }

def summary : Option TransactionSummary :=
  (log.entries.foldlM Tally.add {}).map fun t =>
    { total := log.entries.length
      success := t.success
      clientError := t.clientError
      serverError := t.serverError
      pending := t.pending
      avgDurationMs := if 0 < t.completed then some (t.totalDurationMs.toNat / t.completed) else none }

end TransactionLog

structure RecordTransactionRequest where
  service : String
  operation : Option String
  method : String
  path : String
  status : UInt16
  requestBodyPreview : Option String
  responseBodyPreview : Option String
  startedAtMs : UInt64
  durationMs : UInt64
  fromGuidedFlow : Option Bool

def toProviderSlug : String → String
  | "events" => "eventbridge"
  | "states" => "stepfunctions"
  | "awsevents" => "eventbridge"
  | "monitoring" => "cloudwatch"
  | "logs" => "cloudwatch"
  | "email" => "ses"
  | "email-smtp" => "ses"
  | "elasticmapreduce" => "emr"
  | slug => slug

/-- The record that `record_transaction` pushes. -/
def RecordTransactionRequest.record (payload : RecordTransactionRequest) : TransactionRecord :=
  let start := TransactionRecord.new 0 (toProviderSlug payload.service) payload.method payload.path
    payload.startedAtMs
  let named := match payload.operation with
    | some op => start.withOperation op
    | none => start
  let asked := match payload.requestBodyPreview with
    | some body => named.withRequestBody body
    | none => named
  let guided := if payload.fromGuidedFlow.getD false then asked.withGuided else asked
  guided.complete payload.status (payload.responseBodyPreview.getD "") payload.durationMs

inductive LogCall where
  | recordTransaction (payload : RecordTransactionRequest)
  | clear
  | clearService (service : String)

/-- A log, and what was recorded and not cleared since, newest first. -/
structure TracedLog where
  log : TransactionLog
  recorded : List TransactionRecord

/-- A call that panics leaves the log as it is. -/
def logStep (s : TracedLog) : LogCall → TracedLog
  | .recordTransaction payload =>
    match s.log.push payload.record with
    | some (id, log) => ⟨log, { payload.record with id } :: s.recorded⟩
    | none => s
  | .clear => ⟨s.log.clear, []⟩
  | .clearService service =>
    ⟨s.log.clearService (toProviderSlug service), s.recorded.filter fun r => r.service ≠ toProviderSlug service⟩

/-- The durations of the completed requests. -/
def durationsOf (entries : List TransactionRecord) : List Nat :=
  (entries.filterMap TransactionRecord.durationMs).map UInt64.toNat

/-- The mean, rounded down. -/
def floorMean (values : List Nat) : Option Nat :=
  if values = [] then none else some (values.sum / values.length)

def TransactionSummary.outcomes (t : TransactionSummary) : Nat :=
  t.success + t.clientError + t.serverError + t.pending

structure SummaryExact (log : TransactionLog) (summary : TransactionSummary) : Prop where
  total : summary.total = log.entries.length
  outcomes : summary.outcomes = log.entries.length
  mean : summary.avgDurationMs = floorMean (durationsOf log.entries)

/-- The log keeps the latest records, newest first, and sums them up without an overflow. -/
structure LogExact (s : TracedLog) : Prop where
  recent : s.log.entries <+: s.recorded
  ordered : (s.log.entries.map TransactionRecord.id).Pairwise (· > ·)
  bounded : s.log.entries.length ≤ s.log.maxEntries
  summary : ∃ summary, s.log.summary = some summary ∧ SummaryExact s.log summary

/-- The retained durations together are a value of 64 bits. -/
def DurationsFit (s : TracedLog) : Prop := (durationsOf s.log.entries).sum < 2 ^ 64

namespace TransactionLog

theorem addU64_of_lt {a b : UInt64} (less : a.toNat + b.toNat < 2 ^ 64) :
    addU64 a b = some (a + b) ∧ (a + b).toNat = a.toNat + b.toNat := by
  refine ⟨if_pos less, ?_⟩
  rw [UInt64.toNat_add]
  exact Nat.mod_eq_of_lt less

def Tally.counted (t : Tally) : Nat := t.success + t.clientError + t.serverError + t.pending

theorem Tally.counted_count (t : Tally) (outcome : TransactionOutcome) :
    (t.count outcome).counted = t.counted + 1 := by
  cases outcome <;> simp only [Tally.count, Tally.counted] <;> omega

theorem Tally.count_totals (t : Tally) (outcome : TransactionOutcome) :
    (t.count outcome).totalDurationMs = t.totalDurationMs ∧ (t.count outcome).completed = t.completed := by
  cases outcome <;> exact ⟨rfl, rfl⟩

/-- What a round of the loop adds. -/
theorem Tally.add_eq (t : Tally) (r : TransactionRecord) :
    match r.durationMs with
    | none => t.add r = some (t.count r.outcome)
    | some d =>
      if t.totalDurationMs.toNat + d.toNat < 2 ^ 64 then
        t.add r = some { t.count r.outcome with
          totalDurationMs := t.totalDurationMs + d, completed := t.completed + 1 }
      else t.add r = none := by
  cases duration : r.durationMs with
  | none => simp only [Tally.add, duration]
  | some d =>
    simp only
    split
    · next fits => simp only [Tally.add, duration, (addU64_of_lt fits).1, Option.map_some]
    · next large => simp only [Tally.add, duration, addU64, if_neg large, Option.map_none]

theorem foldlM_add_fits {entries : List TransactionRecord} {t : Tally}
    (fits : t.totalDurationMs.toNat + (durationsOf entries).sum < 2 ^ 64) :
    ∃ t', entries.foldlM Tally.add t = some t' ∧ t'.counted = t.counted + entries.length ∧
      t'.totalDurationMs.toNat = t.totalDurationMs.toNat + (durationsOf entries).sum ∧
      t'.completed = t.completed + (durationsOf entries).length := by
  induction entries generalizing t with
  | nil => exact ⟨t, rfl, rfl, rfl, rfl⟩
  | cons r entries ih =>
    have round := t.add_eq r
    obtain ⟨total, completed⟩ := t.count_totals r.outcome
    have counted := t.counted_count r.outcome
    cases duration : r.durationMs with
    | none =>
      have same : durationsOf (r :: entries) = durationsOf entries := by
        rw [durationsOf, List.filterMap_cons_none duration, durationsOf]
      rw [duration] at round
      rw [same] at fits ⊢
      obtain ⟨t', done, all, sum, number⟩ := ih (t := t.count r.outcome) (by rw [total]; exact fits)
      refine ⟨t', ?_, ?_, ?_, ?_⟩
      · rw [List.foldlM_cons, round]
        exact done
      · rw [all, counted, List.length_cons]
        omega
      · rw [sum, total]
      · rw [number, completed]
    | some d =>
      have more : durationsOf (r :: entries) = d.toNat :: durationsOf entries := by
        rw [durationsOf, List.filterMap_cons_some duration, List.map_cons, durationsOf]
      rw [more, List.sum_cons] at fits
      have here : t.totalDurationMs.toNat + d.toNat < 2 ^ 64 := by omega
      rw [duration] at round
      simp only [if_pos here] at round
      have added := (addU64_of_lt here).2
      obtain ⟨t', done, all, sum, number⟩ := ih (t := { t.count r.outcome with
        totalDurationMs := t.totalDurationMs + d, completed := t.completed + 1 }) (by simp only [added]; omega)
      refine ⟨t', ?_, ?_, ?_, ?_⟩
      · rw [List.foldlM_cons, round]
        exact done
      · rw [all, List.length_cons]
        exact (congrArg (· + entries.length) counted).trans (by omega)
      · rw [sum, more, List.sum_cons, added]
        omega
      · rw [number, more, List.length_cons]
        simp only
        omega

theorem foldlM_add_overflows {entries : List TransactionRecord} {t : Tally}
    (large : 2 ^ 64 ≤ t.totalDurationMs.toNat + (durationsOf entries).sum) : entries.foldlM Tally.add t = none := by
  induction entries generalizing t with
  | nil =>
    have below := t.totalDurationMs.toNat_lt
    simp only [durationsOf, List.filterMap_nil, List.map_nil, List.sum_nil] at large
    omega
  | cons r entries ih =>
    have round := t.add_eq r
    cases duration : r.durationMs with
    | none =>
      have same : durationsOf (r :: entries) = durationsOf entries := by
        rw [durationsOf, List.filterMap_cons_none duration, durationsOf]
      rw [duration] at round
      rw [List.foldlM_cons, round]
      refine ih (t := t.count r.outcome) ?_
      rw [(t.count_totals r.outcome).1, ← same]
      exact large
    | some d =>
      have more : durationsOf (r :: entries) = d.toNat :: durationsOf entries := by
        rw [durationsOf, List.filterMap_cons_some duration, List.map_cons, durationsOf]
      rw [more, List.sum_cons] at large
      rw [duration] at round
      simp only at round
      split at round
      · next fits =>
        rw [List.foldlM_cons, round]
        refine ih ?_
        simp only [(addU64_of_lt fits).2]
        omega
      · rw [List.foldlM_cons, round]
        rfl

theorem summary_isSome_iff (log : TransactionLog) :
    (∃ summary, log.summary = some summary ∧ SummaryExact log summary) ↔
      (durationsOf log.entries).sum < 2 ^ 64 := by
  constructor
  · rintro ⟨summary, made, -⟩
    by_contra large
    have none : log.entries.foldlM Tally.add {} = none :=
      foldlM_add_overflows (by rw [UInt64.toNat_zero]; omega)
    rw [TransactionLog.summary, none] at made
    cases made
  · intro fits
    have small : ({} : Tally).totalDurationMs.toNat + (durationsOf log.entries).sum < 2 ^ 64 := by
      rw [UInt64.toNat_zero, Nat.zero_add]
      exact fits
    obtain ⟨t, made, counted, sum, completed⟩ := foldlM_add_fits small
    rw [UInt64.toNat_zero, Nat.zero_add] at sum
    simp only [Nat.zero_add] at completed
    refine ⟨_, by rw [TransactionLog.summary, made, Option.map_some], rfl, ?_, ?_⟩
    · exact counted.trans (Nat.zero_add _)
    · simp only [floorMean, sum, completed, List.length_pos_iff]
      by_cases none : durationsOf log.entries = []
      · simp [none]
      · simp [none]

end TransactionLog

/-- What every call keeps. -/
structure LogKept (s : TracedLog) : Prop where
  recent : s.log.entries <+: s.recorded
  ordered : (s.log.entries.map TransactionRecord.id).Pairwise (· > ·)
  bounded : s.log.entries.length ≤ s.log.maxEntries
  below : ∀ r ∈ s.log.entries, r.id < s.log.nextId

theorem logKept_new (maxEntries : Nat) : LogKept ⟨.new maxEntries, []⟩ where
  recent := List.prefix_rfl
  ordered := List.Pairwise.nil
  bounded := Nat.zero_le _
  below _ member := absurd member List.not_mem_nil

/-- Fewer entries of the same log. -/
theorem LogKept.sublist {s : TracedLog} (kept : LogKept s) {entries recorded : List TransactionRecord}
    (fewer : entries.Sublist s.log.entries) (recent : entries <+: recorded) :
    LogKept ⟨{ s.log with entries }, recorded⟩ where
  recent := recent
  ordered := kept.ordered.sublist (fewer.map _)
  bounded := Nat.le_trans fewer.length_le kept.bounded
  below r member := kept.below r (fewer.subset member)

theorem LogKept.push {s : TracedLog} (kept : LogKept s) {record : TransactionRecord} {id : UInt64}
    {log : TransactionLog} (pushed : s.log.push record = some (id, log)) :
    LogKept ⟨log, { record with id } :: s.recorded⟩ := by
  obtain ⟨nextId, next, made⟩ := Option.map_eq_some_iff.mp pushed
  obtain ⟨rfl, rfl⟩ := Prod.mk.inj made
  have one : (1 : UInt64).toNat = 1 := rfl
  have fits : s.log.nextId.toNat + (1 : UInt64).toNat < 2 ^ 64 := by
    by_contra large
    rw [addU64, if_neg large] at next
    cases next
  obtain ⟨sum, value⟩ := TransactionLog.addU64_of_lt fits
  obtain rfl := Option.some.inj (sum.symm.trans next)
  have grows : s.log.nextId < s.log.nextId + 1 := by
    rw [UInt64.lt_iff_toNat_lt, value, one]
    exact Nat.lt_succ_self _
  have front := List.take_prefix s.log.maxEntries ({ record with id := s.log.nextId } :: s.log.entries)
  constructor
  · obtain ⟨older, whole⟩ := kept.recent
    exact front.trans ⟨older, by rw [List.cons_append, whole]⟩
  · refine List.Pairwise.sublist (front.sublist.map _) ?_
    rw [List.map_cons, List.pairwise_cons]
    refine ⟨fun id' member => ?_, kept.ordered⟩
    obtain ⟨r, there, rfl⟩ := List.mem_map.mp member
    exact kept.below r there
  · exact List.length_take_le _ _
  · intro r member
    rcases List.mem_cons.mp (front.subset member) with rfl | there
    · exact grows
    · exact UInt64.lt_trans (kept.below r there) grows

theorem logKept_step (s : TracedLog) (call : LogCall) (kept : LogKept s) : LogKept (logStep s call) := by
  cases call with
  | recordTransaction payload =>
    rw [logStep]
    split
    · next id log pushed => exact kept.push pushed
    · exact kept
  | clear => exact kept.sublist (List.nil_sublist _) List.nil_prefix
  | clearService service => exact kept.sublist List.filter_sublist (kept.recent.filter _)

/-- In every state of every run. -/
theorem transaction_log_exact_iff (maxEntries : Nat) (calls : List LogCall) :
    Run.AllStates logStep (fun s => LogExact s ↔ DurationsFit s) ⟨.new maxEntries, []⟩ calls := by
  refine Run.AllStates.imp (fun s (kept : LogKept s) => ?_) _ _
    (Run.allStates_of_preserved logKept_step _ _ (logKept_new maxEntries))
  constructor
  · exact fun exact => (TransactionLog.summary_isSome_iff s.log).mp exact.summary
  · exact fun fits => ⟨kept.recent, kept.ordered, kept.bounded, (TransactionLog.summary_isSome_iff s.log).mpr fits⟩

section Overflow

def putObject (durationMs : UInt64) : RecordTransactionRequest where
  service := "s3"
  operation := some "PutObject"
  method := "PUT"
  path := "/logs/a"
  status := 200
  requestBodyPreview := none
  responseBodyPreview := none
  startedAtMs := 0
  durationMs
  fromGuidedFlow := none

/-- Two durations that have no sum of 64 bits. -/
theorem summary_overflows : ¬ Run.AllStates logStep LogExact ⟨.new 2000, []⟩
    [.recordTransaction (putObject (2 ^ 63)), .recordTransaction (putObject (2 ^ 63))] := by
  rintro ⟨-, -, exact⟩
  have fits := (TransactionLog.summary_isSome_iff _).mp exact.summary
  exact absurd fits (by decide +kernel)

end Overflow

end Openstack.Studio

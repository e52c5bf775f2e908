import Mathlib.Data.List.Dedup
import Mathlib.Data.List.FinRange
import Mathlib.Data.String.Basic
import Openstack.Lib.Serialisability
import Openstack.DynamoDb.TransactWrite

/-!
# Concurrent writers

The writers of `provider.rs` under their table mutexes: for every number of requests and
every schedule the outcome is that of a serial execution, and no requests wait for each
other in a circle. The mutexes are compared by their text keys; a transaction sorts table
names, and a common front does not change the order of two texts.

One thing breaks the first part: a transaction takes the mutexes of the names it finds,
while an operation without a name works on the table with the empty name.
-/
namespace Openstack.DynamoDb

open Locking

/-- The text by which mutexes are ordered. -/
def lockRank : Lock → String
  | .store _ _ => ""
  | .table key => key

theorem append_lt_append_left (front : String) {a b : String} (lt : a < b) :
    front ++ a < front ++ b := by
  rw [String.lt_iff_toList_lt, String.toList_append, String.toList_append]
  exact List.append_left_lt (String.lt_iff_toList_lt.mp lt)

theorem tableNames_sorted (items : List Json) : (tableNames items).Pairwise (· < ·) := by
  have sorted : (tableNames items).Pairwise (· ≤ ·) := List.pairwise_insertionSort (· ≤ ·) _
  have nodup : (tableNames items).Nodup :=
    (List.perm_insertionSort (· ≤ ·) _).nodup_iff.mpr (List.nodup_dedup _)
  exact (sorted.and nodup).imp fun h => lt_of_le_of_ne h.1 h.2

theorem mem_tableNames {items : List Json} {op : Json} {name : String}
    (mem : op ∈ listedOps items) (named : stringField "TableName" op = some name) :
    name ∈ tableNames items := by
  rw [tableNames, List.mem_insertionSort, List.mem_dedup]
  exact List.mem_filterMap.mpr ⟨op, mem, named⟩

/-- Every writer takes its mutexes in increasing order. -/
theorem process_locks_sorted (D : DecimalOps) (request : WriteRequest) :
    (request.process D).locks.Pairwise fun l m => lockRank l < lockRank m := by
  have single : ∀ ctx body field f, ((singleItemWriter ctx body field f).locks).Pairwise
      fun l m => lockRank l < lockRank m := by
    intro ctx body field f
    unfold singleItemWriter
    split
    · exact .nil
    · split
      · exact .nil
      · exact List.pairwise_singleton _ _
  cases request with
  | putItem ctx body => exact single ctx body _ _
  | deleteItem ctx body => exact single ctx body _ _
  | updateItem ctx body => exact single ctx body _ _
  | batchWriteTable ctx tableName requests =>
    simp only [WriteRequest.process, batchWriteTable]
    split
    · exact .nil
    · exact List.pairwise_singleton _ _
  | transactWriteItems ctx body =>
    simp only [WriteRequest.process, transactWriteItems]
    split
    · exact .nil
    · next items _ =>
      refine List.pairwise_map.mpr ((tableNames_sorted items).imp ?_)
      intro a b lt
      exact append_lt_append_left _ lt

theorem process_locks_nodup (D : DecimalOps) (request : WriteRequest) :
    (request.process D).locks.Nodup := by
  refine (process_locks_sorted D request).imp ?_
  rintro l m lt rfl
  exact lt_irrefl _ lt

/-- An absent table stays absent: no writer creates one. -/
def Absent (tables : Tables) (id : TableId) : Prop := tables id = none

variable {D : DecimalOps} {ctx : RequestContext} {tables : Tables} {locks : List Lock}

theorem underTableLock_covered (id : TableId) (missing : Response)
    (f : Table → Response × Table) :
    (underTableLock id missing f).body.Covered tableLock (Absent tables) tables
      (underTableLock id missing f).locks := by
  refine ⟨?_, .inl ⟨by simp [underTableLock], fun _ => trivial⟩⟩
  intro absent
  have gone : tables id = none := absent
  simp only [gone]

theorem applyPass_covered (writes : List Write)
    (locked : ∀ w ∈ writes, tableLock (ctx.table w.tableName) ∈ locks) :
    (applyPass D ctx writes).Covered tableLock (Absent tables) tables locks := by
  induction writes with
  | nil => trivial
  | cons w rest ih =>
    have later := ih (fun v mem => locked v (by simp [mem]))
    refine ⟨?_, .inl ⟨locked w (by simp), ?_⟩⟩
    · intro absent
      rw [show tables _ = none from absent]
      rfl
    · intro c
      cases c with
      | none => exact later
      | some t =>
        simp only
        cases w.applyTo D ctx.now t with
        | none => trivial
        | some _ => exact later

theorem conditionPass_covered {next : TableProg} (ops : List Json)
    (locked : ∀ op ∈ ops, tableLock (ctx.table (opTableName op)) ∈ locks)
    (covered : next.Covered tableLock (Absent tables) tables locks) :
    (conditionPass ctx ops next).Covered tableLock (Absent tables) tables locks := by
  induction ops with
  | nil => exact covered
  | cons op rest ih =>
    have later := ih (fun o mem => locked o (by simp [mem]))
    rw [conditionPass]
    split
    · exact later
    · next cond _ =>
      refine ⟨fun _ => rfl, .inl ⟨locked op (by simp), ?_⟩⟩
      intro c
      cases c with
      | none => trivial
      | some t =>
        simp only
        split
        · trivial
        · trivial
        · exact later

/-- The existence check stops at an absent table, so what comes after it is reached only
when every table it looked at was locked. -/
theorem existencePass_covered {next : TableProg} (ops : List Json)
    (safe : ∀ op ∈ ops, tableLock (ctx.table (opTableName op)) ∈ locks ∨
      Absent tables (ctx.table (opTableName op)))
    (covered : (∀ op ∈ ops, tableLock (ctx.table (opTableName op)) ∈ locks) →
      next.Covered tableLock (Absent tables) tables locks) :
    (existencePass ctx ops next).Covered tableLock (Absent tables) tables locks := by
  induction ops with
  | nil => exact covered (by simp)
  | cons op rest ih =>
    refine ⟨fun _ => rfl, ?_⟩
    rcases safe op (by simp) with locked | absent
    · refine .inl ⟨locked, ?_⟩
      intro c
      cases c with
      | none => trivial
      | some t =>
        apply ih (fun o mem => safe o (by simp [mem]))
        intro all
        apply covered
        intro o mem
        rcases List.mem_cons.mp mem with rfl | mem
        · exact locked
        · exact all o mem
    · refine .inr ⟨absent, ?_⟩
      rw [show tables _ = none from absent]
      trivial

/-- The write of an entry is on the table of one of its operations. -/
theorem chosenWrite_op {items : List Json} {w : Write} (mem : w ∈ items.filterMap chosenWrite) :
    ∃ op ∈ listedOps items, opTableName op = w.tableName := by
  obtain ⟨ti, mem_ti, chosen⟩ := List.mem_filterMap.mp mem
  have listed : ∀ name ∈ opNames, ∀ op, ti.get? name = some op → op ∈ listedOps items := by
    intro name mem_name op found
    exact List.mem_flatMap.mpr ⟨ti, mem_ti, List.mem_filterMap.mpr ⟨name, mem_name, found⟩⟩
  unfold chosenWrite at chosen
  split at chosen
  · next put found =>
    cases chosen
    exact ⟨put, listed "Put" (by simp [opNames]) put found, rfl⟩
  · split at chosen
    · next del found =>
      cases chosen
      exact ⟨del, listed "Delete" (by simp [opNames]) del found, rfl⟩
    · obtain ⟨upd, found, rfl⟩ := Option.map_eq_some_iff.mp chosen
      exact ⟨upd, listed "Update" (by simp [opNames]) upd found, rfl⟩

/-- Every operation of a transaction has a table name; or the empty name is among the
locked ones, or there is no table with the empty name. -/
def WriteRequest.NamesTables (tables : Tables) : WriteRequest → Prop
  | .transactWriteItems ctx body =>
    ∀ items, (body.get? "TransactItems").bind Json.asArray? = some items →
      (∀ op ∈ listedOps items, (stringField "TableName" op).isSome) ∨
        "" ∈ tableNames items ∨ tables (ctx.table "") = none
  | _ => True

theorem transaction_covered (items : List Json)
    (names : (∀ op ∈ listedOps items, (stringField "TableName" op).isSome) ∨
      "" ∈ tableNames items ∨ tables (ctx.table "") = none) :
    (transaction D ctx items).Covered tableLock (Absent tables) tables
      ((tableNames items).map fun name => tableLock (ctx.table name)) := by
  apply existencePass_covered
  · intro op mem
    cases named : stringField "TableName" op with
    | some name =>
      left
      rw [opTableName, named]
      exact List.mem_map.mpr ⟨name, mem_tableNames mem named, rfl⟩
    | none =>
      rw [opTableName, named]
      rcases names with all | locked | absent
      · have := all op mem
        rw [named] at this
        cases this
      · exact .inl (List.mem_map.mpr ⟨"", locked, rfl⟩)
      · exact .inr absent
  · intro locked
    refine conditionPass_covered _ locked (applyPass_covered _ ?_)
    intro w mem
    obtain ⟨op, mem_op, same⟩ := chosenWrite_op mem
    rw [← same]
    exact locked op mem_op

theorem process_covered (request : WriteRequest) (names : request.NamesTables tables) :
    (request.process D).body.Covered tableLock (Absent tables) tables
      (request.process D).locks := by
  have single : ∀ ctx body field f,
      ((singleItemWriter ctx body field f).body).Covered tableLock (Absent tables) tables
        (singleItemWriter ctx body field f).locks := by
    intro ctx body field f
    unfold singleItemWriter
    split
    · trivial
    · split
      · trivial
      · exact underTableLock_covered _ _ _
  cases request with
  | putItem ctx body => exact single ctx body _ _
  | deleteItem ctx body => exact single ctx body _ _
  | updateItem ctx body => exact single ctx body _ _
  | batchWriteTable ctx tableName requests =>
    simp only [WriteRequest.process, batchWriteTable]
    split
    · trivial
    · exact underTableLock_covered _ _ _
  | transactWriteItems ctx body =>
    simp only [WriteRequest.process, transactWriteItems]
    split
    · trivial
    · next items found => exact transaction_covered items (names items found)

/-- The concurrent run of the requests under a schedule. -/
def runWriters (D : DecimalOps) {n : Nat} (requests : Fin n → WriteRequest) (tables : Tables)
    (schedule : List (Fin n)) : Sys (Fin n) Lock TableId (Option Table) Response :=
  run (fun i => (requests i).process D) tables schedule

theorem runWriters_inv {n : Nat} (requests : Fin n → WriteRequest) (tables : Tables)
    (names : ∀ i, (requests i).NamesTables tables) (schedule : List (Fin n)) :
    SerialInv (fun i => (requests i).process D) tableLock (Absent tables) tables
      (runWriters D requests tables schedule) :=
  serialInv_run (fun i => process_locks_nodup D (requests i))
    (fun i => process_covered (requests i) (names i)) schedule

/-- In every state a schedule reaches no requests wait for each other in a circle; and once
every request has been answered, the tables and the answers are those of a serial
execution, if the transactions name their tables. -/
theorem writers_serialisable (D : DecimalOps) {n : Nat} (requests : Fin n → WriteRequest)
    (tables : Tables) (schedule : List (Fin n)) :
    (∀ i, ¬ Relation.TransGen (WaitsFor (runWriters D requests tables schedule)) i i) ∧
      ((∀ i, (requests i).NamesTables tables) →
        (∀ i, ((runWriters D requests tables schedule).phase i).finished = true) →
        Serial (fun i => (requests i).process D) tables
          (runWriters D requests tables schedule)) := by
  constructor
  · exact waitsFor_acyclic lockRank
      (lockInv_run (fun i => process_locks_nodup D (requests i)) tables schedule)
      (fun i => process_locks_sorted D (requests i))
  · intro names ended
    exact (runWriters_inv requests tables names schedule).serial ended

/-- `{"pk": {"S": v}}`. -/
def pkJson (v : String) : Json := .obj [("pk", .obj [("S", .str v)])]

/-- A transaction of two Puts and a PutItem into the first of its tables. -/
def twoTableRequests : Fin 2 → WriteRequest
  | 0 => .transactWriteItems exampleContext (.obj [("TransactItems", .arr [
      .obj [("Put", .obj [("TableName", .str "orders"), ("Item", pkJson "x")])],
      .obj [("Put", .obj [("TableName", .str "items"), ("Item", pkJson "x")])]])])
  | 1 => .putItem exampleContext (.obj [("TableName", .str "orders"), ("Item", pkJson "x"),
      ("ConditionExpression", .str "attribute_not_exists(pk)")])

theorem twoTableRequests_named (i : Fin 2) :
    (twoTableRequests i).NamesTables (emptyTables ["items", "orders"]) := by
  match i with
  | 0 =>
    intro items found
    cases found
    exact .inl (by decide)
  | 1 => trivial

/-- The transaction takes both mutexes and checks its tables, PutItem waits, the transaction
writes and leaves, PutItem is refused. -/
theorem writers_serialisable_twoTables :
    (∀ i, ((runWriters wholeDecimals twoTableRequests (emptyTables ["items", "orders"])
      [0, 0, 1, 0, 0, 0, 1, 0, 0, 0, 0, 0, 0, 1, 1, 1, 1]).phase i).finished = true) ∧
    Serial (fun i => (twoTableRequests i).process wholeDecimals) (emptyTables ["items", "orders"])
      (runWriters wholeDecimals twoTableRequests (emptyTables ["items", "orders"])
        [0, 0, 1, 0, 0, 0, 1, 0, 0, 0, 0, 0, 0, 1, 1, 1, 1]) := by
  have ended : ∀ i, ((runWriters wholeDecimals twoTableRequests (emptyTables ["items", "orders"])
      [0, 0, 1, 0, 0, 0, 1, 0, 0, 0, 0, 0, 0, 1, 1, 1, 1]).phase i).finished = true := by
    decide +kernel
  exact ⟨ended, (writers_serialisable wholeDecimals twoTableRequests
    (emptyTables ["items", "orders"])
    [0, 0, 1, 0, 0, 0, 1, 0, 0, 0, 0, 0, 0, 1, 1, 1, 1]).2 twoTableRequests_named ended⟩

/-- Two conditional Puts of one new row into the table with the empty name; only PutItem
spells the name out. -/
def unnamedRequests : Fin 2 → WriteRequest
  | 0 => .transactWriteItems exampleContext (.obj [("TransactItems", .arr [
      .obj [("Put", .obj [("Item", pkJson "x"),
        ("ConditionExpression", .str "attribute_not_exists(pk)")])]])])
  | 1 => .putItem exampleContext (.obj [("TableName", .str ""), ("Item", pkJson "x"),
      ("ConditionExpression", .str "attribute_not_exists(pk)")])

/-- The transaction checks its condition, PutItem comes and goes, the transaction writes:
both answer 200, which no serial execution does. -/
theorem unnamed_transaction_not_serialisable :
    (∀ i, ((runWriters wholeDecimals unnamedRequests (emptyTables [""])
      [0, 0, 0, 1, 1, 1, 1, 1, 1, 0, 0, 0]).phase i).finished = true) ∧
    ¬ Serial (fun i => (unnamedRequests i).process wholeDecimals) (emptyTables [""])
      (runWriters wholeDecimals unnamedRequests (emptyTables [""])
        [0, 0, 0, 1, 1, 1, 1, 1, 1, 0, 0, 0]) := by
  refine ⟨by decide +kernel, ?_⟩
  rintro ⟨order, nodup, all, _, answers⟩
  have both : ∀ i, (serialResponse (fun i => (unnamedRequests i).process wholeDecimals)
      (emptyTables [""]) order i).status = some 200 := by
    intro i
    have answered : ((runWriters wholeDecimals unnamedRequests (emptyTables [""])
        [0, 0, 0, 1, 1, 1, 1, 1, 1, 0, 0, 0]).phase i).response?.bind Response.status =
          some 200 := by
      revert i
      decide +kernel
    rwa [answers i] at answered
  have length : order.length = 2 := by
    have perm : order.Perm (List.finRange 2) :=
      (List.perm_ext_iff_of_nodup nodup (List.nodup_finRange 2)).mpr fun i => by simp [all i]
    simpa using perm.length_eq
  obtain ⟨a, b, rfl⟩ := List.length_eq_two.mp length
  have not_both : ∀ a b : Fin 2, [a, b].Nodup →
      ¬ ∀ i, (serialResponse (fun i => (unnamedRequests i).process wholeDecimals)
        (emptyTables [""]) [a, b] i).status = some 200 := by
    decide +kernel
  exact not_both a b nodup both

end Openstack.DynamoDb

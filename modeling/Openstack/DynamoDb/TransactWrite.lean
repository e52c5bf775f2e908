import Openstack.DynamoDb.Provider

/-!
# All-or-nothing transactions

What TransactWriteItems promises when nothing else runs (`provider.rs:1560-1720`): an
answer other than 200 leaves every table as it was, and after a 200 every listed write has
been carried out, in order. The code keeps the promise only when the writes it goes on to
apply can all be carried out: the checks look at neither the items nor the keys of the
writes, an entry with two writes gets only its first, and a decimal overflow ends the
second pass half way.
-/
namespace Openstack.DynamoDb

open Locking (Prog Access)

/-- The row key of a Put, of a Delete and of an Update is usable, and so is the key of
the item the Update leaves. -/
def Write.usable (D : DecimalOps) : Write → Table → Bool
  | .put _ item, t => (t.extractKeyFromItem item).isSome
  | .delete _ key, t => (t.extractKeyFromItem key).isSome
  | .update _ key updateExpr names values, t =>
    match t.extractKeyFromItem key with
    | none => false
    | some (hk, sk) =>
      match updatedItem D ((row t.items hk sk).getD key) updateExpr names values with
      | none => false
      | some item => (t.extractKeyFromItem item).isSome

/-- The table after the write, when it can be carried out. -/
def Write.perform (D : DecimalOps) (now : Int) (w : Write) (t : Table) : Option Table :=
  if w.usable D t then w.applyTo D now t else none

/-- All the writes an entry lists. -/
def listedWrites (ti : Json) : List Write :=
  ((ti.get? "Put").map Write.ofPut).toList ++ ((ti.get? "Delete").map Write.ofDelete).toList ++
    ((ti.get? "Update").map Write.ofUpdate).toList

section Spec

variable (D : DecimalOps) (ctx : RequestContext)

/-- The writes carried out one after another; `none` when one cannot be. -/
def performAll : List Write → Tables → Option Tables
  | [], tables => some tables
  | w :: rest, tables =>
    match tables (ctx.table w.tableName) with
    | none => none
    | some t =>
      match w.perform D ctx.now t with
      | none => none
      | some t' => performAll rest (Function.update tables (ctx.table w.tableName) (some t'))

/-- The access is to the table of the write and carries it out. -/
def CarriesOut (w : Write) (a : Access TableId (Option Table)) : Prop :=
  a.cell = ctx.table w.tableName ∧
    ∃ t t', a.before = some t ∧ w.perform D ctx.now t = some t' ∧ a.after = some t'

/-- The accesses of the existence check and of the condition pass. -/
def checkCount (transactItems : List Json) : Nat :=
  (listedOps transactItems).length +
    ((listedOps transactItems).filter fun op =>
      (stringField "ConditionExpression" op).isSome).length

/-- The promise of a transaction that runs alone. -/
structure AllOrNothing (transactItems : List Json) (tables : Tables) : Prop where
  nothing : ((transaction D ctx transactItems).exec tables).1.status ≠ some 200 →
    ((transaction D ctx transactItems).exec tables).2 = tables
  all : ((transaction D ctx transactItems).exec tables).1.status = some 200 →
    performAll D ctx (transactItems.flatMap listedWrites) tables =
      some ((transaction D ctx transactItems).exec tables).2
  /-- After the checks there is one access for each listed write, which carries it out. -/
  none_skipped : ((transaction D ctx transactItems).exec tables).1.status = some 200 →
    ∃ checks applied, (transaction D ctx transactItems).trace tables = checks ++ applied ∧
      checks.length = checkCount transactItems ∧
      List.Forall₂ (CarriesOut D ctx) (transactItems.flatMap listedWrites) applied

/-- Every operation names a table that exists, and every condition holds. -/
def Validates (transactItems : List Json) (tables : Tables) : Prop :=
  ∀ op ∈ listedOps transactItems, ∃ t, tables (ctx.table (opTableName op)) = some t ∧
    ∀ cond, stringField "ConditionExpression" op = some cond →
      opCondition op cond t = some (.ok ())

/-- Every write is usable on its table as the writes before it leave it. -/
def AllUsable : List Write → Tables → Prop
  | [], _ => True
  | w :: rest, tables =>
    ∃ t t', tables (ctx.table w.tableName) = some t ∧ w.usable D t = true ∧
      w.applyTo D ctx.now t = some t' ∧
      AllUsable rest (Function.update tables (ctx.table w.tableName) (some t'))

/-- The tables after the writes as the second pass makes them, whether or not they can be
carried out; `none` when one overflows. -/
def applyAll : List Write → Tables → Option Tables
  | [], tables => some tables
  | w :: rest, tables =>
    match tables (ctx.table w.tableName) with
    | none => applyAll rest tables
    | some t =>
      match w.applyTo D ctx.now t with
      | none => none
      | some t' => applyAll rest (Function.update tables (ctx.table w.tableName) (some t'))

/-- Some write overflows, and the writes before it leave the tables as they were. -/
def OverflowsUntouched (writes : List Write) (tables : Tables) : Prop :=
  ∃ front w back t, writes = front ++ w :: back ∧ applyAll D ctx front tables = some tables ∧
    tables (ctx.table w.tableName) = some t ∧ w.applyTo D ctx.now t = none

/-- No entry lists two writes, and every write is usable at its turn. -/
def WritesUsable (transactItems : List Json) (tables : Tables) : Prop :=
  (∀ ti ∈ transactItems, (listedWrites ti).length ≤ 1) ∧
    AllUsable D ctx (transactItems.filterMap chosenWrite) tables

end Spec

variable {D : DecimalOps} {ctx : RequestContext} {tables : Tables}

theorem existencePass_ok (next : TableProg) (ops : List Json)
    (here : ∀ op ∈ ops, ∃ t, tables (ctx.table (opTableName op)) = some t) :
    (existencePass ctx ops next).exec tables = next.exec tables ∧
      ∃ checks, checks.length = ops.length ∧
        (existencePass ctx ops next).trace tables = checks ++ next.trace tables := by
  induction ops with
  | nil => exact ⟨rfl, [], rfl, rfl⟩
  | cons op rest ih =>
    obtain ⟨t, found⟩ := here op (by simp)
    obtain ⟨exec_eq, checks, length, trace_eq⟩ := ih (fun o mem => here o (by simp [mem]))
    simp only [existencePass, Prog.exec_read, Prog.trace_read, found]
    exact ⟨exec_eq, _ :: checks, congrArg (· + 1) length, congrArg (List.cons _) trace_eq⟩

theorem existencePass_fail (next : TableProg) (ops : List Json)
    (missing : ∃ op ∈ ops, tables (ctx.table (opTableName op)) = none) :
    ∃ r : Response, r.status ≠ some 200 ∧ (existencePass ctx ops next).exec tables = (r, tables) := by
  induction ops with
  | nil => simp at missing
  | cons op rest ih =>
    simp only [existencePass, Prog.exec_read]
    cases found : tables (ctx.table (opTableName op)) with
    | none => exact ⟨missingTableCanceled (opTableName op),
        by simp [missingTableCanceled, Response.status], rfl⟩
    | some t =>
      obtain ⟨op', mem, absent⟩ := missing
      rcases List.mem_cons.mp mem with rfl | mem
      · rw [found] at absent
        cases absent
      · exact ih ⟨op', mem, absent⟩

theorem conditionPass_ok (next : TableProg) (ops : List Json)
    (here : ∀ op ∈ ops, ∃ t, tables (ctx.table (opTableName op)) = some t ∧
      ∀ cond, stringField "ConditionExpression" op = some cond →
        opCondition op cond t = some (.ok ())) :
    (conditionPass ctx ops next).exec tables = next.exec tables ∧
      ∃ checks, checks.length =
          (ops.filter fun op => (stringField "ConditionExpression" op).isSome).length ∧
        (conditionPass ctx ops next).trace tables = checks ++ next.trace tables := by
  induction ops with
  | nil => exact ⟨rfl, [], rfl, rfl⟩
  | cons op rest ih =>
    obtain ⟨t, found, holds⟩ := here op (by simp)
    obtain ⟨exec_eq, checks, length, trace_eq⟩ := ih (fun o mem => here o (by simp [mem]))
    cases condition : stringField "ConditionExpression" op with
    | none =>
      simp only [conditionPass, condition]
      exact ⟨exec_eq, checks, by simp [condition, length], trace_eq⟩
    | some cond =>
      simp only [conditionPass, condition, Prog.exec_read, Prog.trace_read, found,
        holds cond condition]
      exact ⟨exec_eq, _ :: checks, by simp [condition, length], congrArg (List.cons _) trace_eq⟩

theorem conditionPass_fail (next : TableProg) (ops : List Json)
    (here : ∀ op ∈ ops, ∃ t, tables (ctx.table (opTableName op)) = some t)
    (fails : ∃ op ∈ ops, ∃ t cond, tables (ctx.table (opTableName op)) = some t ∧
      stringField "ConditionExpression" op = some cond ∧ opCondition op cond t ≠ some (.ok ())) :
    ∃ r : Response, r.status ≠ some 200 ∧ (conditionPass ctx ops next).exec tables = (r, tables) := by
  induction ops with
  | nil => simp at fails
  | cons op rest ih =>
    have later : ∀ o ∈ rest, ∃ t, tables (ctx.table (opTableName o)) = some t :=
      fun o mem => here o (by simp [mem])
    obtain ⟨t, found⟩ := here op (by simp)
    obtain ⟨op', mem, t', cond', found', condition', fails'⟩ := fails
    cases condition : stringField "ConditionExpression" op with
    | none =>
      simp only [conditionPass, condition]
      rcases List.mem_cons.mp mem with rfl | mem
      · rw [condition] at condition'
        cases condition'
      · exact ih later ⟨op', mem, t', cond', found', condition', fails'⟩
    | some cond =>
      simp only [conditionPass, condition, Prog.exec_read, found]
      cases outcome : opCondition op cond t with
      | none => exact ⟨.panicked .expression, by decide, rfl⟩
      | some result =>
        cases result with
        | error e => exact ⟨conditionCanceled, by decide, rfl⟩
        | ok _ =>
          rcases List.mem_cons.mp mem with rfl | mem
          · rw [condition] at condition'
            rw [found] at found'
            cases condition'
            cases found'
            exact absurd outcome fails'
          · exact ih later ⟨op', mem, t', cond', found', condition', fails'⟩

/-- A transaction that passes its checks goes on to its writes with the tables as they were. -/
theorem transaction_validated {items : List Json} (valid : Validates ctx items tables) :
    (transaction D ctx items).exec tables =
        (applyPass D ctx (items.filterMap chosenWrite)).exec tables ∧
      ∃ checks, checks.length = checkCount items ∧
        (transaction D ctx items).trace tables =
          checks ++ (applyPass D ctx (items.filterMap chosenWrite)).trace tables := by
  have exist : ∀ op ∈ listedOps items, ∃ t, tables (ctx.table (opTableName op)) = some t := by
    intro op mem
    obtain ⟨t, found, _⟩ := valid op mem
    exact ⟨t, found⟩
  obtain ⟨exec₁, checks₁, length₁, trace₁⟩ := existencePass_ok
    (conditionPass ctx (listedOps items) (applyPass D ctx (items.filterMap chosenWrite)))
    (listedOps items) exist
  obtain ⟨exec₂, checks₂, length₂, trace₂⟩ := conditionPass_ok
    (applyPass D ctx (items.filterMap chosenWrite)) (listedOps items) valid
  refine ⟨exec₁.trans exec₂, checks₁ ++ checks₂, ?_, ?_⟩
  · rw [List.length_append, length₁, length₂, checkCount]
  · rw [transaction, trace₁, trace₂, List.append_assoc]

/-- A transaction that fails a check does nothing. -/
theorem transaction_refused {items : List Json} (invalid : ¬ Validates ctx items tables) :
    ∃ r : Response, r.status ≠ some 200 ∧
      (transaction D ctx items).exec tables = (r, tables) := by
  by_cases exist : ∀ op ∈ listedOps items, ∃ t, tables (ctx.table (opTableName op)) = some t
  · have fails : ∃ op ∈ listedOps items, ∃ t cond,
        tables (ctx.table (opTableName op)) = some t ∧
        stringField "ConditionExpression" op = some cond ∧
        opCondition op cond t ≠ some (.ok ()) := by
      by_contra none_fails
      apply invalid
      intro op mem
      obtain ⟨t, found⟩ := exist op mem
      refine ⟨t, found, ?_⟩
      intro cond condition
      by_contra fails
      exact none_fails ⟨op, mem, t, cond, found, condition, fails⟩
    rw [transaction, (existencePass_ok _ (listedOps items) exist).1]
    exact conditionPass_fail _ (listedOps items) exist fails
  · have missing : ∃ op ∈ listedOps items, tables (ctx.table (opTableName op)) = none := by
      by_contra none_missing
      apply exist
      intro op mem
      cases found : tables (ctx.table (opTableName op)) with
      | none => exact absurd ⟨op, mem, found⟩ none_missing
      | some t => exact ⟨t, rfl⟩
    exact existencePass_fail _ (listedOps items) missing

theorem perform_eq_some {w : Write} {t t' : Table} {now : Int} :
    w.perform D now t = some t' ↔ w.usable D t = true ∧ w.applyTo D now t = some t' := by
  simp [Write.perform]

/-- Writes that are all usable are all carried out. -/
theorem applyPass_usable (writes : List Write) (usable : AllUsable D ctx writes tables) :
    ∃ tables', (applyPass D ctx writes).exec tables = (.ok .empty, tables') ∧
      performAll D ctx writes tables = some tables' ∧
      List.Forall₂ (CarriesOut D ctx) writes ((applyPass D ctx writes).trace tables) := by
  induction writes generalizing tables with
  | nil => exact ⟨tables, rfl, rfl, .nil⟩
  | cons w rest ih =>
    obtain ⟨t, t', found, ok, applied, later⟩ := usable
    have performed : w.perform D ctx.now t = some t' := perform_eq_some.mpr ⟨ok, applied⟩
    obtain ⟨tables', exec_eq, perform_eq, carried⟩ := ih later
    simp only [applyPass, Prog.exec, Prog.trace, performAll, found, applied, performed,
      Option.map_some, Option.getD_some]
    exact ⟨tables', exec_eq, perform_eq, .cons ⟨rfl, t, t', rfl, performed, rfl⟩ carried⟩

/-- The second pass accesses the tables once for each write it gets to. -/
theorem applyPass_trace_length (writes : List Write)
    (ok : ((applyPass D ctx writes).exec tables).1.status = some 200) :
    ((applyPass D ctx writes).trace tables).length = writes.length := by
  induction writes generalizing tables with
  | nil => rfl
  | cons w rest ih =>
    simp only [applyPass, Prog.exec, Prog.trace, List.length_cons] at ok ⊢
    cases found : tables (ctx.table w.tableName) with
    | none =>
      simp only [found] at ok ⊢
      rw [ih ok]
    | some t =>
      simp only [found] at ok ⊢
      cases applied : w.applyTo D ctx.now t with
      | none => simp [applied, Prog.exec, Response.status] at ok
      | some t' =>
        simp only [applied] at ok ⊢
        rw [ih ok]

theorem applyPass_carried (writes : List Write)
    (carried : List.Forall₂ (CarriesOut D ctx) writes ((applyPass D ctx writes).trace tables)) :
    AllUsable D ctx writes tables := by
  induction writes generalizing tables with
  | nil => trivial
  | cons w rest ih =>
    simp only [applyPass, Prog.trace] at carried
    obtain ⟨⟨_, t, t', found, performed, _⟩, later⟩ := List.forall₂_cons.mp carried
    obtain ⟨ok, applied⟩ := perform_eq_some.mp performed
    simp only at found
    simp only [found, applied, Option.map_some, Option.getD_some] at later
    exact ⟨t, t', found, ok, applied, ih later⟩

/-- The second pass ends without a 200 only at an overflow, after the writes before it. -/
theorem applyPass_overflow (writes : List Write)
    (failed : ((applyPass D ctx writes).exec tables).1.status ≠ some 200) :
    ∃ front w back t, writes = front ++ w :: back ∧
      applyAll D ctx front tables = some ((applyPass D ctx writes).exec tables).2 ∧
      ((applyPass D ctx writes).exec tables).2 (ctx.table w.tableName) = some t ∧
      w.applyTo D ctx.now t = none := by
  induction writes generalizing tables with
  | nil => exact absurd rfl failed
  | cons w rest ih =>
    simp only [applyPass, Prog.exec] at failed ⊢
    cases found : tables (ctx.table w.tableName) with
    | none =>
      have same : Function.update tables (ctx.table w.tableName) none = tables := by
        rw [← found, Function.update_eq_self]
      simp only [found, Option.map_none, same] at failed ⊢
      obtain ⟨front, v, back, t, split_eq, applied, there, overflow⟩ := ih failed
      refine ⟨w :: front, v, back, t, by rw [split_eq]; rfl, ?_, there, overflow⟩
      simpa only [applyAll, found] using applied
    | some t =>
      simp only [found, Option.map_some] at failed ⊢
      cases applied : w.applyTo D ctx.now t with
      | none =>
        simp only [Option.getD_none, Prog.exec]
        rw [← found, Function.update_eq_self]
        exact ⟨[], w, rest, t, rfl, rfl, found, applied⟩
      | some t' =>
        simp only [applied, Option.getD_some] at failed ⊢
        obtain ⟨front, v, back, t₂, split_eq, rest_applied, there, overflow⟩ := ih failed
        refine ⟨w :: front, v, back, t₂, by rw [split_eq]; rfl, ?_, there, overflow⟩
        simpa only [applyAll, found, applied] using rest_applied

theorem applyPass_of_overflow {mid : Tables} {w : Write} {t : Table} (front back : List Write)
    (applied : applyAll D ctx front tables = some mid)
    (there : mid (ctx.table w.tableName) = some t) (overflow : w.applyTo D ctx.now t = none) :
    (applyPass D ctx (front ++ w :: back)).exec tables = (.panicked .decimal, mid) := by
  induction front generalizing tables with
  | nil =>
    cases applied
    simp only [List.nil_append, applyPass, Prog.exec, there, overflow, Option.map_some,
      Option.getD_none]
    rw [← there, Function.update_eq_self]
  | cons v rest ih =>
    simp only [applyAll] at applied
    simp only [List.cons_append, applyPass, Prog.exec]
    cases found : tables (ctx.table v.tableName) with
    | none =>
      simp only [found, Option.map_none] at applied ⊢
      rw [← found, Function.update_eq_self]
      exact ih applied
    | some t₁ =>
      simp only [found, Option.map_some] at applied ⊢
      cases step : v.applyTo D ctx.now t₁ with
      | none => simp [step] at applied
      | some t₂ =>
        simp only [step, Option.getD_some] at applied ⊢
        exact ih applied

theorem chosenWrite_eq_head? (ti : Json) : chosenWrite ti = (listedWrites ti).head? := by
  unfold chosenWrite listedWrites
  cases ti.get? "Put" with
  | some put => simp
  | none =>
    cases ti.get? "Delete" with
    | some del => simp
    | none => cases ti.get? "Update" <;> simp

theorem listed_eq_chosen (items : List Json)
    (single : ∀ ti ∈ items, (listedWrites ti).length ≤ 1) :
    items.flatMap listedWrites = items.filterMap chosenWrite := by
  induction items with
  | nil => rfl
  | cons ti rest ih =>
    have later := ih (fun x mem => single x (by simp [mem]))
    have here := single ti (by simp)
    rw [List.flatMap_cons, later, List.filterMap_cons, chosenWrite_eq_head?]
    match writes : listedWrites ti with
    | [] => rfl
    | [w] => rfl
    | _ :: _ :: _ => simp [writes] at here

/-- One write for each entry that lists any: fewer than listed when an entry lists two. -/
theorem chosen_length_le (items : List Json) :
    (items.filterMap chosenWrite).length ≤ (items.flatMap listedWrites).length := by
  induction items with
  | nil => rfl
  | cons ti rest ih =>
    rw [List.flatMap_cons, List.filterMap_cons, chosenWrite_eq_head?, List.length_append]
    cases listedWrites ti with
    | nil => simpa using ih
    | cons w more =>
      simp only [List.head?_cons, List.length_cons]
      omega

theorem single_of_length (items : List Json)
    (same : (items.flatMap listedWrites).length = (items.filterMap chosenWrite).length) :
    ∀ ti ∈ items, (listedWrites ti).length ≤ 1 := by
  induction items with
  | nil => simp
  | cons ti rest ih =>
    have le := chosen_length_le rest
    rw [List.flatMap_cons, List.filterMap_cons, chosenWrite_eq_head?, List.length_append] at same
    intro x mem
    cases writes : listedWrites ti with
    | nil =>
      rw [writes] at same
      rcases List.mem_cons.mp mem with rfl | mem
      · simp [writes]
      · exact ih (by simpa using same) x mem
    | cons w more =>
      rw [writes] at same
      simp only [List.head?_cons, List.length_cons] at same
      rcases List.mem_cons.mp mem with rfl | mem
      · rw [writes, List.length_cons]
        omega
      · exact ih (by omega) x mem

/-- TransactWriteItems is all-or-nothing exactly when, once its checks pass, either every
write it lists is its entry's only one and usable at its turn, or a write overflows before
any table has changed. -/
theorem transaction_allOrNothing_iff (D : DecimalOps) (ctx : RequestContext)
    (transactItems : List Json) (tables : Tables) :
    AllOrNothing D ctx transactItems tables ↔
      (Validates ctx transactItems tables →
        WritesUsable D ctx transactItems tables ∨
          OverflowsUntouched D ctx (transactItems.filterMap chosenWrite) tables) := by
  constructor
  · intro promise valid
    obtain ⟨exec_eq, checks, length, trace_eq⟩ := transaction_validated (D := D) valid
    by_cases ok : ((transaction D ctx transactItems).exec tables).1.status = some 200
    · left
      obtain ⟨checks', applied, trace_eq', length', carried⟩ := promise.none_skipped ok
      have same : applied =
          (applyPass D ctx (transactItems.filterMap chosenWrite)).trace tables :=
        (List.append_inj (trace_eq'.symm.trans trace_eq) (length'.trans length.symm)).2
      rw [exec_eq] at ok
      have single := single_of_length transactItems (by
        rw [carried.length_eq, same, applyPass_trace_length _ ok])
      rw [same, listed_eq_chosen transactItems single] at carried
      exact ⟨single, applyPass_carried _ carried⟩
    · right
      have unchanged := promise.nothing ok
      rw [exec_eq] at ok unchanged
      obtain ⟨front, w, back, t, split_eq, applied, there, overflow⟩ := applyPass_overflow _ ok
      rw [unchanged] at applied there
      exact ⟨front, w, back, t, split_eq, applied, there, overflow⟩
  · intro condition
    by_cases valid : Validates ctx transactItems tables
    · obtain ⟨exec_eq, checks, length, trace_eq⟩ := transaction_validated (D := D) valid
      obtain ⟨single, usable⟩ | ⟨front, w, back, t, split_eq, applied, there, overflow⟩ :=
        condition valid
      · obtain ⟨tables', applied_eq, performed, carried⟩ := applyPass_usable _ usable
        rw [← listed_eq_chosen transactItems single] at performed
        rw [applied_eq] at exec_eq
        refine ⟨?_, ?_, ?_⟩
        · intro failed
          rw [exec_eq] at failed
          exact absurd rfl failed
        · intro _
          rw [exec_eq]
          exact performed
        · intro _
          exact ⟨checks, _, trace_eq, length, by
            rw [listed_eq_chosen transactItems single]; exact carried⟩
      · rw [split_eq, applyPass_of_overflow front back applied there overflow] at exec_eq
        refine ⟨?_, ?_, ?_⟩
        · intro _
          rw [exec_eq]
        · intro ok
          rw [exec_eq] at ok
          cases ok
        · intro ok
          rw [exec_eq] at ok
          cases ok
    · obtain ⟨r, failed, exec_eq⟩ := transaction_refused (D := D) valid
      refine ⟨?_, ?_, ?_⟩
      · intro _
        rw [exec_eq]
      · intro ok
        rw [exec_eq] at ok
        exact absurd ok failed
      · intro ok
        rw [exec_eq] at ok
        exact absurd ok failed

/-- Decimals without a fraction, with the range of a 96-bit integer. -/
def wholeDecimals : DecimalOps where
  Decimal := Int
  fromStr := String.toInt?
  add x y := if (x + y).natAbs < 2 ^ 96 then some (x + y) else none
  normalize := id
  toStr := toString

/-- A table with the string hash key `pk`, as CreateTable makes it. -/
def tableWithPk (name : String) : Table :=
  Table.new "id" 0 name "000000000000" "us-east-1" [⟨"pk", .hash⟩] [⟨"pk", "S"⟩] [] []
    ⟨false, none⟩

def exampleContext : RequestContext := ⟨"000000000000", "us-east-1", 0⟩

/-- Empty tables with the given names, and no others. -/
def emptyTables (names : List String) : Tables := fun id =>
  if id = exampleContext.table id.name ∧ id.name ∈ names then some (tableWithPk id.name) else none

/-- A Put without the key attribute is answered with 200 and stores nothing. -/
theorem transaction_drops_keyless_put :
    ¬ AllOrNothing wholeDecimals exampleContext
      [.obj [("Put", .obj [("TableName", .str "orders"),
        ("Item", .obj [("total", .obj [("N", .str "3")])])])]]
      (emptyTables ["orders"]) := by
  intro promise
  have carried := promise.all (by decide +kernel)
  have impossible : (performAll wholeDecimals exampleContext
      ([.obj [("Put", .obj [("TableName", .str "orders"),
        ("Item", .obj [("total", .obj [("N", .str "3")])])])]].flatMap listedWrites)
      (emptyTables ["orders"])).isSome = false := by decide +kernel
  rw [carried] at impossible
  cases impossible

end Openstack.DynamoDb

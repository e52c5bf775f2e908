import Openstack.Lib.Interference
import Openstack.Lib.Run
import Openstack.DynamoDb.WriterSerialisability

/-!
# Transactions against table deletion

`provider.rs:148-256`, `provider.rs:634-721` and `store.rs:909-946`: CreateTable and
DeleteTable. Both hold the guard of the store of their account and region, which excludes
each other but not the handlers that already have the table map, and neither takes a table
mutex. A transaction looks its tables up in each of its three passes; the comment on its
`unwrap` relies on the tables of the first pass being there in the second.

The description in the answers is the table itself.
-/
namespace Openstack.DynamoDb

open Locking

/-! ## Requests -/

def elements (v : Option Json) : List Json := (v.bind Json.asArray?).getD []

def parseKeySchema (v : Option Json) : List KeySchemaElement :=
  (elements v).filterMap fun ks => do
    let attr ← stringField "AttributeName" ks
    let kt ← stringField "KeyType" ks
    some ⟨attr, if kt = "HASH" then .hash else .range⟩

def parseAttrDefs (v : Option Json) : List AttributeDefinition :=
  (elements v).filterMap fun a => do
    let name ← stringField "AttributeName" a
    let type ← stringField "AttributeType" a
    some ⟨name, type⟩

def parseProjection : Option Json → Projection
  | none => ⟨"ALL", []⟩
  | some v =>
    { projectionType := (stringField "ProjectionType" v).getD "ALL"
      nonKeyAttributes := stringElements (elements (v.get? "NonKeyAttributes")) }

/-- `parse_gsis` and `parse_lsis`, which read the same fields. -/
def parseIndexes (v : Option Json) : List SecondaryIndex :=
  (elements v).filterMap fun g => do
    let name ← stringField "IndexName" g
    some ⟨name, parseKeySchema (g.get? "KeySchema"), parseProjection (g.get? "Projection"), 0⟩

def parseStreamSpec : Option Json → StreamSpecification
  | none => ⟨false, none⟩
  | some s =>
    { streamEnabled := ((s.get? "StreamEnabled").bind Json.asBool?).getD false
      streamViewType := stringField "StreamViewType" s }

/-- The table a CreateTable request asks for. -/
def requestedTable (ctx : RequestContext) (body : Json) (tableId name : String) : Table :=
  Table.new tableId ctx.now name ctx.accountId ctx.region (parseKeySchema (body.get? "KeySchema"))
    (parseAttrDefs (body.get? "AttributeDefinitions"))
    (parseIndexes (body.get? "GlobalSecondaryIndexes"))
    (parseIndexes (body.get? "LocalSecondaryIndexes"))
    (parseStreamSpec (body.get? "StreamSpecification"))

def describeTable (id : TableId) : TableProg :=
  .read id fun
    | some t => .ret (.ok (.tableDescription t))
    | none => .ret (.error "InternalFailure" "Table was created but could not be retrieved" 500)

/-- `create_table` of the store looks for the table once more before it inserts. -/
def insertTable (id : TableId) (table : Table) : TableProg :=
  .read id fun
    | some _ => describeTable id
    | none => .access id (fun _ => some table) fun _ => describeTable id

def createTable (ctx : RequestContext) (body : Json) (tableId : String) : TableProcess :=
  match stringField "TableName" body with
  | none => answerAtOnce (validationException "TableName is required")
  | some name =>
    { locks := [.store ctx.accountId ctx.region]
      body := .read (ctx.table name) fun
        | some _ => .ret (.error "ResourceInUseException" ("Table already exists: " ++ name) 400)
        | none => insertTable (ctx.table name) (requestedTable ctx body tableId name) }

def deleteTable (ctx : RequestContext) (body : Json) : TableProcess :=
  match stringField "TableName" body with
  | none => answerAtOnce (validationException "TableName is required")
  | some name =>
    { locks := [.store ctx.accountId ctx.region]
      body := .access (ctx.table name) (fun _ => none) fun
        | none => .ret noSuchTable
        | some t => .ret (.ok (.tableDescription t)) }

inductive TableRequest where
  | write (request : WriteRequest)
  | createTable (ctx : RequestContext) (body : Json) (tableId : String)
  | deleteTable (ctx : RequestContext) (body : Json)

@[grind] def TableRequest.process (D : DecimalOps) : TableRequest → TableProcess
  | .write request => request.process D
  | .createTable ctx body tableId => DynamoDb.createTable ctx body tableId
  | .deleteTable ctx body => DynamoDb.deleteTable ctx body

/-- The request is a transaction with the given entries. -/
def TableRequest.IsTransaction (request : TableRequest) (ctx : RequestContext)
    (transactItems : List Json) : Prop :=
  ∃ body, request = .write (.transactWriteItems ctx body) ∧
    (body.get? "TransactItems").bind Json.asArray? = some transactItems

/-! ## The same table -/

/-- Both lookups find a table, and it is the same one. -/
def SameTable (a b : Option Table) : Prop :=
  ∃ t t', a = some t ∧ b = some t' ∧ t.tableId = t'.tableId

theorem SameTable.trans (a b c : Option Table) (ab : SameTable a b) (bc : SameTable b c) :
    SameTable a c := by
  obtain ⟨t, t', rfl, rfl, same⟩ := ab
  obtain ⟨u, u', found, rfl, same'⟩ := bc
  cases found
  exact ⟨t, u', rfl, rfl, same.trans same'⟩

/-- An access that neither creates nor removes nor replaces a table. -/
def KeepsTable (upd : Option Table → Option Table) : Prop :=
  upd none = none ∧ ∀ t, SameTable (some t) (upd (some t))

theorem keepsTable_id : KeepsTable id := ⟨rfl, fun t => ⟨t, t, rfl, rfl, rfl⟩⟩

theorem putItem_tableId (now : Int) (item : Item) (t : Table) :
    (t.putItem now item).2.tableId = t.tableId := by
  unfold Table.putItem
  split
  · rfl
  · simp only [Table.appendStreamRecord]
    split <;> rfl

theorem deleteItem_tableId (now : Int) (key : Item) (t : Table) :
    (t.deleteItem now key).2.tableId = t.tableId := by
  unfold Table.deleteItem
  split
  · rfl
  · split
    · rfl
    · split
      · rfl
      · simp only [Table.appendStreamRecord]
        split <;> rfl

theorem applyTo_tableId {D : DecimalOps} {now : Int} {w : Write} {t t' : Table}
    (applied : w.applyTo D now t = some t') : t'.tableId = t.tableId := by
  cases w with
  | put name item =>
    cases applied
    exact putItem_tableId now item t
  | delete name key =>
    cases applied
    exact deleteItem_tableId now key t
  | update name key updateExpr names values =>
    simp only [Write.applyTo] at applied
    split at applied
    · cases applied
      rfl
    · obtain ⟨item, _, rfl⟩ := Option.map_eq_some_iff.mp applied
      exact putItem_tableId now item t

theorem batchWrite_tableId (now : Int) (reqs : List Json) (t : Table) :
    (reqs.foldl (batchWriteOne now) t).tableId = t.tableId := by
  have one : ∀ t req, (batchWriteOne now t req).tableId = t.tableId := by
    intro t req
    unfold batchWriteOne
    split
    · split
      · exact putItem_tableId _ _ _
      · rfl
    · split
      · exact deleteItem_tableId _ _ _
      · rfl
  induction reqs generalizing t with
  | nil => rfl
  | cons req rest ih => rw [List.foldl_cons, ih, one]

/-! ## What the programs do to the table map -/

variable {D : DecimalOps} {ctx : RequestContext}

theorem underTableLock_keeps (id : TableId) (missing : Response) {f : Table → Response × Table}
    (keeps : ∀ t, (f t).2.tableId = t.tableId) :
    (underTableLock id missing f).body.EachUpdate KeepsTable :=
  ⟨⟨rfl, fun t => ⟨t, (f t).2, rfl, rfl, (keeps t).symm⟩⟩, fun _ => trivial⟩

theorem singleItemWriter_keeps (body : Json) (field : String)
    {f : Item → WriteOptions → Table → Response × Table}
    (keeps : ∀ item o t, (f item o t).2.tableId = t.tableId) :
    (singleItemWriter ctx body field f).body.EachUpdate KeepsTable := by
  unfold singleItemWriter
  split
  · trivial
  · split
    · trivial
    · exact underTableLock_keeps _ _ (keeps _ _)

theorem applyPass_keeps (writes : List Write) : (applyPass D ctx writes).EachUpdate KeepsTable := by
  induction writes with
  | nil => trivial
  | cons w rest ih =>
    refine ⟨⟨rfl, ?_⟩, ?_⟩
    · intro t
      refine ⟨t, (w.applyTo D ctx.now t).getD t, rfl, rfl, ?_⟩
      cases applied : w.applyTo D ctx.now t with
      | none => rfl
      | some t' => exact (applyTo_tableId applied).symm
    · intro c
      cases c with
      | none => exact ih
      | some t =>
        simp only
        cases w.applyTo D ctx.now t with
        | none => trivial
        | some _ => exact ih

theorem conditionPass_keeps {next : TableProg} (ops : List Json)
    (keeps : next.EachUpdate KeepsTable) : (conditionPass ctx ops next).EachUpdate KeepsTable := by
  induction ops with
  | nil => exact keeps
  | cons op rest ih =>
    rw [conditionPass]
    split
    · exact ih
    · refine ⟨keepsTable_id, ?_⟩
      intro c
      cases c with
      | none => trivial
      | some t =>
        simp only
        split
        · trivial
        · trivial
        · exact ih

theorem existencePass_keeps {next : TableProg} (ops : List Json)
    (keeps : next.EachUpdate KeepsTable) : (existencePass ctx ops next).EachUpdate KeepsTable := by
  induction ops with
  | nil => exact keeps
  | cons op rest ih =>
    refine ⟨keepsTable_id, ?_⟩
    intro c
    cases c with
    | none => trivial
    | some t => exact ih

/-- No writer creates, removes or replaces a table. -/
theorem process_keeps (request : WriteRequest) :
    (request.process D).body.EachUpdate KeepsTable := by
  cases request with
  | putItem ctx body =>
    refine singleItemWriter_keeps body "Item" ?_
    intro item o t
    unfold putItemOn
    split
    · rfl
    · exact putItem_tableId _ _ _
  | deleteItem ctx body =>
    refine singleItemWriter_keeps body "Key" ?_
    intro key o t
    unfold deleteItemOn
    split
    · rfl
    · exact deleteItem_tableId _ _ _
  | updateItem ctx body =>
    refine singleItemWriter_keeps body "Key" ?_
    intro key o t
    unfold updateItemOn
    split
    · rfl
    · split
      · rfl
      · simp only
        split
        · rfl
        · exact putItem_tableId _ _ _
  | batchWriteTable ctx tableName requests =>
    simp only [WriteRequest.process, batchWriteTable]
    split
    · trivial
    · exact underTableLock_keeps _ _ (batchWrite_tableId _ _)
  | transactWriteItems ctx body =>
    simp only [WriteRequest.process, transactWriteItems]
    split
    · trivial
    · exact existencePass_keeps _ (conditionPass_keeps _ (applyPass_keeps _))

/-- The program inserts its table only where the last lookup found none. -/
def InsertsWhereAbsent (id : TableId) : TableProg → (absent : Prop) → Prop
  | .ret _, _ => True
  | .access k upd next, absent => k = id ∧
      ((KeepsTable upd ∧ ∀ c, InsertsWhereAbsent id (next c) (c = none)) ∨
        (absent ∧ ∀ c, InsertsWhereAbsent id (next c) False))

theorem describeTable_inserts (id : TableId) (absent : Prop) :
    InsertsWhereAbsent id (describeTable id) absent := by
  refine ⟨rfl, .inl ⟨keepsTable_id, ?_⟩⟩
  intro c
  cases c <;> trivial

theorem insertTable_inserts (id : TableId) (table : Table) (absent : Prop) :
    InsertsWhereAbsent id (insertTable id table) absent := by
  refine ⟨rfl, .inl ⟨keepsTable_id, ?_⟩⟩
  intro c
  cases c with
  | some t => exact describeTable_inserts id _
  | none => exact ⟨rfl, .inr ⟨rfl, fun _ => describeTable_inserts id _⟩⟩

theorem createTable_inserts (ctx : RequestContext) (body : Json) (tableId : String) :
    (∃ r, (createTable ctx body tableId).body = .ret r) ∨
      ∃ id : TableId, .store id.accountId id.region ∈ (createTable ctx body tableId).locks ∧
        InsertsWhereAbsent id (createTable ctx body tableId).body False := by
  unfold createTable
  split
  · exact .inl ⟨_, rfl⟩
  · next name _ =>
    refine .inr ⟨ctx.table name, by simp [RequestContext.table], rfl, .inl ⟨keepsTable_id, ?_⟩⟩
    intro c
    cases c with
    | some t => trivial
    | none => exact insertTable_inserts _ _ _

theorem deleteTable_removes (body : Json) :
    (deleteTable ctx body).body.EachUpdate fun upd => ∀ c, upd c = none := by
  unfold deleteTable
  split
  · trivial
  · refine ⟨fun _ => rfl, ?_⟩
    intro c
    cases c <;> trivial

/-! ## What a transaction concludes -/

/-- The access applies the write to a table that is there. -/
def AppliesTo (D : DecimalOps) (ctx : RequestContext) (w : Write)
    (a : Access TableId (Option Table)) : Prop :=
  a.cell = ctx.table w.tableName ∧
    ∃ t t', a.before = some t ∧ w.applyTo D ctx.now t = some t' ∧ a.after = some t'

/-- After the checks there is one access for each write, which applies it to the table that
the checks found. -/
def AppliedToChecked (D : DecimalOps) (ctx : RequestContext) (writes : List Write)
    (log : List (Access TableId (Option Table))) : Prop :=
  ∃ checks applied, log = checks ++ applied ∧
    List.Forall₂ (fun w a => AppliesTo D ctx w a ∧
      ∃ c ∈ checks, c.cell = a.cell ∧ SameTable c.before a.before) writes applied

/-- The `unwrap` was not reached without a table, and after a 200 every write has been
applied to the table that was checked. -/
def Concludes (D : DecimalOps) (ctx : RequestContext) (transactItems : List Json)
    (r : Response) (log : List (Access TableId (Option Table))) : Prop :=
  r ≠ .panicked .missingTable ∧
    (r.status = some 200 →
      AppliedToChecked D ctx (transactItems.filterMap chosenWrite) log)

section Steady

variable {items : List Json}

theorem applyPass_steady (done todo : List Write)
    (checks applied : List (Access TableId (Option Table)))
    (all : items.filterMap chosenWrite = done ++ todo)
    (checked : ∀ w ∈ todo, ∃ c ∈ checks, c.cell = ctx.table w.tableName)
    (before : List.Forall₂ (fun w a => AppliesTo D ctx w a ∧
      ∃ c ∈ checks, c.cell = a.cell ∧ SameTable c.before a.before) done applied) :
    (applyPass D ctx todo).Steady SameTable (Concludes D ctx items) (checks ++ applied) := by
  induction todo generalizing done applied with
  | nil =>
    refine ⟨by simp, fun _ => ⟨checks, applied, rfl, ?_⟩⟩
    rw [all, List.append_nil]
    exact before
  | cons w rest ih =>
    intro c consistent
    obtain ⟨chk, mem, cell⟩ := checked w (by simp)
    have still := consistent chk (List.mem_append_left _ mem) cell
    obtain ⟨t₀, t, _, rfl, _⟩ := id still
    cases step : w.applyTo D ctx.now t with
    | none =>
      simp only [step]
      exact ⟨fun may => absurd may (Prog.not_mayAccess_ret _ _), by simp, by simp [Response.status]⟩
    | some t' =>
      simp only [step, Option.map_some, Option.getD_some]
      refine ⟨fun _ => ⟨t, t', rfl, rfl, (applyTo_tableId step).symm⟩, ?_⟩
      rw [List.append_assoc]
      refine ih (done ++ [w]) (applied ++ [_]) (by simpa using all)
        (fun v mem_v => checked v (by simp [mem_v])) ?_
      exact List.rel_append before
        (.cons ⟨⟨rfl, t, t', rfl, step, rfl⟩, chk, mem, cell, still⟩ .nil)

theorem conditionPass_steady (ops : List Json) (log : List (Access TableId (Option Table)))
    (checked : ∀ op ∈ listedOps items, ∃ c ∈ log, c.cell = ctx.table (opTableName op))
    (listed : ∀ op ∈ ops, op ∈ listedOps items) :
    (conditionPass ctx ops (applyPass D ctx (items.filterMap chosenWrite))).Steady SameTable
      (Concludes D ctx items) log := by
  induction ops generalizing log with
  | nil =>
    have steady := applyPass_steady (D := D) [] (items.filterMap chosenWrite) log [] rfl
      (fun w mem => by
        obtain ⟨op, mem_op, same⟩ := chosenWrite_op mem
        rw [← same]
        exact checked op mem_op) .nil
    rwa [List.append_nil] at steady
  | cons op rest ih =>
    have later : ∀ log', (∀ c ∈ log, c ∈ log') →
        (conditionPass ctx rest (applyPass D ctx (items.filterMap chosenWrite))).Steady SameTable
          (Concludes D ctx items) log' := by
      intro log' more
      refine ih log' ?_ (fun o mem => listed o (by simp [mem]))
      intro o mem
      obtain ⟨c, mem_c, cell⟩ := checked o mem
      exact ⟨c, more c mem_c, cell⟩
    rw [conditionPass]
    split
    · exact later log (fun _ mem => mem)
    · next cond _ =>
      intro c consistent
      obtain ⟨chk, mem, cell⟩ := checked op (listed op (by simp))
      obtain ⟨t₀, t, _, rfl, _⟩ := consistent chk mem cell
      refine ⟨fun _ => ⟨t, t, rfl, rfl, rfl⟩, ?_⟩
      simp only
      split
      · exact ⟨by simp, by simp [Response.status]⟩
      · exact ⟨by simp [conditionCanceled], by simp [conditionCanceled, Response.status]⟩
      · exact later _ (fun a mem_a => List.mem_append_left _ mem_a)

theorem existencePass_steady (done todo : List Json) (log : List (Access TableId (Option Table)))
    (all : listedOps items = done ++ todo)
    (checked : ∀ op ∈ done, ∃ c ∈ log, c.cell = ctx.table (opTableName op)) :
    (existencePass ctx todo (conditionPass ctx (listedOps items)
      (applyPass D ctx (items.filterMap chosenWrite)))).Steady SameTable
      (Concludes D ctx items) log := by
  induction todo generalizing done log with
  | nil =>
    rw [List.append_nil] at all
    exact conditionPass_steady _ log (by rwa [all]) (fun _ mem => mem)
  | cons op rest ih =>
    intro c _
    cases c with
    | none =>
      refine ⟨fun may => absurd may (Prog.not_mayAccess_ret _ _), ?_⟩
      exact ⟨by simp [missingTableCanceled], by simp [missingTableCanceled, Response.status]⟩
    | some t =>
      refine ⟨fun _ => ⟨t, t, rfl, rfl, rfl⟩, ?_⟩
      refine ih (done ++ [op]) _ (by simpa using all) ?_
      intro o mem
      rcases List.mem_append.mp mem with mem | mem
      · obtain ⟨chk, mem_c, cell⟩ := checked o mem
        exact ⟨chk, List.mem_append_left _ mem_c, cell⟩
      · rw [List.mem_singleton.mp mem]
        exact ⟨_, List.mem_append_right _ (List.mem_singleton_self _), rfl⟩

/-- As long as the tables it has checked stay, a transaction never misses one. -/
theorem transaction_steady (items : List Json) :
    (transaction D ctx items).Steady SameTable (Concludes D ctx items) [] :=
  existencePass_steady [] (listedOps items) [] rfl (by simp)

end Steady

/-! ## The invariant -/

section Deletion

variable {n : Nat} {requests : Fin n → TableRequest}
  {s s' : Sys (Fin n) Lock TableId (Option Table) Response} {i : Fin n}

/-- Between `s` and `s'` no table goes away that a running transaction has looked up and may
look up again. -/
def Spares (requests : Fin n → TableRequest)
    (s s' : Sys (Fin n) Lock TableId (Option Table) Response) : Prop :=
  ∀ k, s.cells k ≠ none → s'.cells k = none → ∀ j ctx items p,
    (requests j).IsTransaction ctx items → s.phase j = .running p →
      (∃ a ∈ s.log j, a.cell = k) → ¬ p.MayAccess k

/-- A running CreateTable: nothing left to do, or an insertion where its table is absent. -/
def Creating (procs : Fin n → TableProcess)
    (s : Sys (Fin n) Lock TableId (Option Table) Response) (i : Fin n) (p : TableProg) : Prop :=
  (∃ r, p = .ret r) ∨ ∃ (id : TableId) (absent : Prop),
    .store id.accountId id.region ∈ (procs i).locks ∧ InsertsWhereAbsent id p absent ∧
      (absent → s.cells id = none)

structure TableInv (D : DecimalOps) (requests : Fin n → TableRequest)
    (s : Sys (Fin n) Lock TableId (Option Table) Response) : Prop where
  locks : LockInv (fun i => (requests i).process D) s
  writers : ∀ i w p, requests i = .write w → s.phase i = .running p → p.EachUpdate KeepsTable
  creators : ∀ i ctx body tableId p, requests i = .createTable ctx body tableId →
    s.phase i = .running p → Creating (fun i => (requests i).process D) s i p
  deleters : ∀ i ctx body p, requests i = .deleteTable ctx body → s.phase i = .running p →
    p.EachUpdate fun upd => ∀ c, upd c = none
  transactions : ∀ j ctx items, (requests j).IsTransaction ctx items →
    SteadyInv SameTable (Concludes D ctx items) s j

theorem tableInv_start (D : DecimalOps) (requests : Fin n → TableRequest) (tables : Tables) :
    TableInv D requests (start (fun i => (requests i).process D) tables) where
  locks := lockInv_start _ tables
  writers := by intro i w p _ h; cases h
  creators := by intro i ctx body tableId p _ h; cases h
  deleters := by intro i ctx body p _ h; cases h
  transactions := fun j _ _ _ => steadyInv_start _ tables j

/-- An access to a table that exists keeps it, unless DeleteTable makes it. -/
theorem TableInv.access_some (inv : TableInv D requests s) {k : TableId} {t : Table}
    {upd : Option Table → Option Table} {next : Option Table → TableProg}
    (here : s.phase i = .running (.access k upd next)) (found : s.cells k = some t) :
    SameTable (some t) (upd (some t)) ∨
      (∃ ctx body, requests i = .deleteTable ctx body) ∧ upd (some t) = none := by
  cases request : requests i with
  | write w => exact .inl ((inv.writers i w _ request here).1.2 t)
  | createTable ctx body tableId =>
    left
    obtain ⟨r, ended⟩ | ⟨id, absent, _, ⟨rfl, ⟨keeps, _⟩ | ⟨known, _⟩⟩, none_there⟩ :=
      inv.creators i ctx body tableId _ request here
    · cases ended
    · exact keeps.2 t
    · rw [none_there known] at found
      cases found
  | deleteTable ctx body =>
    exact .inr ⟨⟨ctx, body, rfl⟩, (inv.deleters i ctx body _ request here).1 (some t)⟩

/-- An access to an absent table leaves it absent, unless it is an insertion under the guard
of the store. -/
theorem TableInv.access_none (inv : TableInv D requests s) {k : TableId}
    {upd : Option Table → Option Table} {next : Option Table → TableProg}
    (here : s.phase i = .running (.access k upd next)) :
    upd none = none ∨ .store k.accountId k.region ∈ ((requests i).process D).locks := by
  cases request : requests i with
  | write w => exact .inl (inv.writers i w _ request here).1.1
  | createTable ctx body tableId =>
    obtain ⟨r, ended⟩ | ⟨id, absent, held, ⟨rfl, _⟩, _⟩ :=
      inv.creators i ctx body tableId _ request here
    · cases ended
    · exact .inr (by rw [← request]; exact held)
  | deleteTable ctx body => exact .inl ((inv.deleters i ctx body _ request here).1 none)

/-- A transaction finds what it has looked up again, if the step spares its tables. -/
theorem TableInv.relies (inv : TableInv D requests s)
    (move : Move (fun i => (requests i).process D) s i s') (spares : Spares requests s s')
    {j : Fin n} {ctx : RequestContext} {items : List Json}
    (transaction : (requests j).IsTransaction ctx items) {p : TableProg}
    (running : s.phase j = .running p) {a : Access TableId (Option Table)} (mem : a ∈ s.log j)
    (may : p.MayAccess a.cell) : SameTable (s.cells a.cell) (s'.cells a.cell) := by
  obtain ⟨_, t, _, found, _⟩ := (inv.transactions j ctx items transaction).fresh p running a mem may
  have kept : SameTable (s.cells a.cell) (s.cells a.cell) := ⟨t, t, found, found, rfl⟩
  cases move with
  | access k upd next here =>
    by_cases cell : a.cell = k
    · subst cell
      have now : Function.update s.cells a.cell (upd (s.cells a.cell)) a.cell = upd (some t) := by
        rw [Function.update_self, found]
      simp only [now]
      rcases inv.access_some here found with same | ⟨_, gone⟩
      · rwa [found]
      · exact absurd may (spares a.cell (by simp [found]) (now.trans gone) j ctx items p transaction
          running ⟨a, mem, rfl⟩)
    · simpa [Function.update_of_ne cell] using kept
  | _ => exact kept

/-- A table that a running CreateTable has not found stays absent until it inserts it. -/
theorem TableInv.stays_absent (inv : TableInv D requests s)
    (move : Move (fun i => (requests i).process D) s i s') {j : Fin n} {q : TableProg} {id : TableId}
    (running : s.phase j = .running q) (different : j ≠ i)
    (held : .store id.accountId id.region ∈ ((requests j).process D).locks)
    (absent : s.cells id = none) : s'.cells id = none := by
  cases move with
  | access k upd next here =>
    by_cases cell : id = k
    · subst cell
      simp only [Function.update_self, absent]
      rcases inv.access_none here with stays | theirs
      · exact stays
      · have same := inv.locks.exclusive (i := i) (j := j)
          (l := .store id.accountId id.region) (by rw [here]; exact theirs)
          (by rw [running]; exact held)
        exact absurd same.symm different
    · simpa [Function.update_of_ne cell] using absent
  | _ => exact absent

theorem TableInv.creators_move (inv : TableInv D requests s)
    (move : Move (fun i => (requests i).process D) s i s') {j : Fin n} {ctx : RequestContext}
    {body : Json} {tableId : String} {p : TableProg}
    (request : requests j = .createTable ctx body tableId) (after : s'.phase j = .running p) :
    Creating (fun i => (requests i).process D) s' j p := by
  obtain ⟨before, same⟩ | ⟨rfl, rfl⟩ | ⟨rfl, k, upd, next, here, rfl, cells⟩ :=
    move.running_cases after
  · by_cases different : j = i
    · rw [same different]
      exact inv.creators j ctx body tableId p request before
    · obtain ended | ⟨id, absent, held, inserts, known⟩ :=
        inv.creators j ctx body tableId p request before
      · exact .inl ended
      · exact .inr ⟨id, absent, held, inserts,
          fun h => inv.stays_absent move before different held (known h)⟩
  · simp only [request, TableRequest.process]
    obtain ended | ⟨id, held, inserts⟩ := createTable_inserts ctx body tableId
    · exact .inl ended
    · exact .inr ⟨id, False, by simpa only [request, TableRequest.process] using held, inserts,
        False.elim⟩
  · obtain ⟨r, ended⟩ | ⟨id, absent, held, ⟨rfl, inserts⟩, known⟩ :=
      inv.creators j ctx body tableId _ request here
    · cases ended
    · right
      obtain ⟨keeps, later⟩ | ⟨_, later⟩ := inserts
      · refine ⟨k, s.cells k = none, held, later _, ?_⟩
        intro absent_now
        rw [cells, Function.update_self, absent_now]
        exact keeps.1
      · exact ⟨k, False, held, later _, False.elim⟩

theorem tableRequest_locks_nodup (D : DecimalOps) (request : TableRequest) :
    (request.process D).locks.Nodup := by
  cases request with
  | write w => exact process_locks_nodup D w
  | createTable ctx body tableId =>
    simp only [TableRequest.process, createTable]
    split
    · exact List.nodup_nil
    · exact List.nodup_singleton _
  | deleteTable ctx body =>
    simp only [TableRequest.process, deleteTable]
    split
    · exact List.nodup_nil
    · exact List.nodup_singleton _

theorem TableInv.move (inv : TableInv D requests s)
    (move : Move (fun i => (requests i).process D) s i s') (spares : Spares requests s s') :
    TableInv D requests s' where
  locks := inv.locks.move (fun i => tableRequest_locks_nodup D (requests i)) move
  writers := by
    intro j w p request after
    refine move.eachUpdate ?_ (fun q before => inv.writers j w q request before) after
    rw [request]
    exact process_keeps w
  creators := fun j ctx body tableId p request after => inv.creators_move move request after
  deleters := by
    intro j ctx body p request after
    refine move.eachUpdate ?_ (fun q before => inv.deleters j ctx body q request before) after
    rw [request]
    exact deleteTable_removes body
  transactions := by
    intro j ctx items transaction
    refine (inv.transactions j ctx items transaction).move SameTable.trans ?_ move ?_
    · obtain ⟨body, request, found⟩ := transaction
      simp only [request, TableRequest.process, WriteRequest.process, transactWriteItems, found]
      exact transaction_steady items
    · intro _ p running a mem may
      exact inv.relies move spares transaction running mem may

/-- Tables are spared when no DeleteTable moves while a transaction is in its passes. -/
theorem TableInv.spares (inv : TableInv D requests s)
    (move : Move (fun i => (requests i).process D) s i s')
    (calm : (∃ ctx body, requests i = .deleteTable ctx body) → ∀ j ctx items,
      (requests j).IsTransaction ctx items → ∀ p, s.phase j ≠ .running p) :
    Spares requests s s' := by
  intro k there gone j ctx items p transaction running _ _
  cases move with
  | access m upd next here =>
    by_cases cell : k = m
    · subst cell
      obtain ⟨t, found⟩ := Option.ne_none_iff_exists'.mp there
      simp only [Function.update_self, found] at gone
      rcases inv.access_some here found with ⟨_, t', _, kept, _⟩ | ⟨delete, _⟩
      · rw [gone] at kept
        cases kept
      · exact calm delete j ctx items transaction p running
    · exact there (by simpa [Function.update_of_ne cell] using gone)
  | _ => exact there gone

end Deletion

/-- The concurrent run of table and item requests under a schedule. -/
def runRequests (D : DecimalOps) {n : Nat} (requests : Fin n → TableRequest) (tables : Tables)
    (schedule : List (Fin n)) : Sys (Fin n) Lock TableId (Option Table) Response :=
  run (fun i => (requests i).process D) tables schedule

/-- In every run in which no table goes away that a transaction has looked up and may look
up again, no transaction reaches its `unwrap` without a table, and a transaction that
answers 200 has applied its writes to the tables it checked: to all it lists, when no entry
lists two. -/
theorem transaction_keeps_checked_tables (D : DecimalOps) {n : Nat}
    (requests : Fin n → TableRequest) (tables : Tables) (schedule : List (Fin n))
    (spared : Run.AllSteps (step fun i => (requests i).process D)
      (fun s i => Spares requests s (step (fun i => (requests i).process D) s i))
      (start (fun i => (requests i).process D) tables) schedule)
    (i : Fin n) (ctx : RequestContext) (transactItems : List Json)
    (transaction : (requests i).IsTransaction ctx transactItems) :
    let s := runRequests D requests tables schedule
    s.phase i ≠ .running (.ret (.panicked .missingTable)) ∧
      (s.phase i).response? ≠ some (.panicked .missingTable) ∧
      ∀ r, (s.phase i).response? = some r → r.status = some 200 →
        AppliedToChecked D ctx (transactItems.filterMap chosenWrite) (s.log i) ∧
        ((∀ ti ∈ transactItems, (listedWrites ti).length ≤ 1) →
          AppliedToChecked D ctx (transactItems.flatMap listedWrites) (s.log i)) := by
  intro s
  have inv : TableInv D requests s := by
    refine Run.foldl_of_allSteps ?_ _ schedule (tableInv_start D requests tables) spared
    intro s i inv spares
    exact inv.move (step_move _ s i) spares
  have steady := inv.transactions i ctx transactItems transaction
  refine ⟨?_, ?_, ?_⟩
  · intro reached
    exact (steady.running _ reached).1 rfl
  · intro answered
    exact (steady.ended _ answered).1 rfl
  · intro r answered ok
    have applied := (steady.ended r answered).2 ok
    refine ⟨applied, ?_⟩
    intro single
    rwa [listed_eq_chosen transactItems single]

/-- A conditional Put into `orders`, and the requests that remove that table and create
another one. -/
def deletionRequests : Fin 3 → TableRequest
  | 0 => .write (.transactWriteItems exampleContext (.obj [("TransactItems", .arr [
      .obj [("Put", .obj [("TableName", .str "orders"), ("Item", pkJson "x"),
        ("ConditionExpression", .str "attribute_not_exists(pk)")])]])]))
  | 1 => .deleteTable exampleContext (.obj [("TableName", .str "orders")])
  | 2 => .createTable exampleContext (.obj [("TableName", .str "items"),
      ("KeySchema", .arr [.obj [("AttributeName", .str "pk"), ("KeyType", .str "HASH")]])]) "id2"

/-- The transaction together with CreateTable, and DeleteTable after both. -/
def deletesLast : List (Fin 3) :=
  [0, 2, 0, 2, 0, 2, 0, 2, 0, 2, 0, 2, 0, 2, 0, 2, 2, 1, 1, 1, 1, 1, 1]

theorem deletesLast_spared :
    Run.AllSteps (step fun i => (deletionRequests i).process wholeDecimals)
      (fun s i => Spares deletionRequests s
        (step (fun i => (deletionRequests i).process wholeDecimals) s i))
      (start (fun i => (deletionRequests i).process wholeDecimals) (emptyTables ["orders"]))
      deletesLast := by
  have late : Run.AllSteps (step fun i => (deletionRequests i).process wholeDecimals)
      (fun s i => i = 1 → (s.phase 0).finished = true)
      (start (fun i => (deletionRequests i).process wholeDecimals) (emptyTables ["orders"]))
      deletesLast := by
    decide +kernel
  refine Run.allSteps_of_invariant ?_ _ deletesLast (tableInv_start _ deletionRequests _) late
  intro s i inv after
  have spares : Spares deletionRequests s
      (step (fun i => (deletionRequests i).process wholeDecimals) s i) := by
    refine inv.spares (step_move _ s i) ?_
    rintro ⟨ctx, body, delete⟩ j ctx' items ⟨body', transaction, _⟩ p running
    have first : j = 0 := by
      match j with
      | 0 => rfl
      | 1 => cases transaction
      | 2 => cases transaction
    have second : i = 1 := by
      match i with
      | 0 => cases delete
      | 1 => rfl
      | 2 => cases delete
    have ended := after second
    rw [← first, running] at ended
    cases ended
  exact ⟨inv.move (step_move _ s i) spares, spares⟩

theorem transaction_keeps_checked_tables_deletesLast :
    ((runRequests wholeDecimals deletionRequests (emptyTables ["orders"])
      deletesLast).phase 0).response?.bind Response.status = some 200 ∧
    AppliedToChecked wholeDecimals exampleContext [.put "orders" (itemField "Item"
        (.obj [("Item", pkJson "x")]))]
      ((runRequests wholeDecimals deletionRequests (emptyTables ["orders"]) deletesLast).log 0) := by
  have applied := transaction_keeps_checked_tables wholeDecimals deletionRequests
    (emptyTables ["orders"]) deletesLast deletesLast_spared 0 exampleContext _ ⟨_, rfl, rfl⟩
  exact ⟨by decide +kernel, (applied.2.2 (.ok .empty) rfl rfl).1⟩

/-! ## A table deleted under a transaction -/

/-- The same without the condition. -/
def unconditionalRequests : Fin 2 → TableRequest
  | 0 => .write (.transactWriteItems exampleContext (.obj [("TransactItems", .arr [
      .obj [("Put", .obj [("TableName", .str "orders"), ("Item", pkJson "x")])]])]))
  | 1 => .deleteTable exampleContext (.obj [("TableName", .str "orders")])

/-- DeleteTable right after the existence check: with a condition the `unwrap` fails, and
without one the Put is dropped and answered with 200. -/
theorem deletion_breaks_transaction :
    ((runRequests wholeDecimals deletionRequests (emptyTables ["orders"])
      [0, 0, 0, 1, 1, 1, 0, 0]).phase 0).response? = some (.panicked .missingTable) ∧
    ((runRequests wholeDecimals unconditionalRequests (emptyTables ["orders"])
      [0, 0, 0, 1, 1, 1, 0, 0]).phase 0).response?.bind Response.status = some 200 ∧
    ∀ w, ¬ AppliedToChecked wholeDecimals exampleContext [w]
      ((runRequests wholeDecimals unconditionalRequests (emptyTables ["orders"])
        [0, 0, 0, 1, 1, 1, 0, 0]).log 0) := by
  refine ⟨rfl, by decide +kernel, ?_⟩
  rintro w ⟨checks, applied, log_eq, all⟩
  obtain ⟨a, rest, ⟨⟨_, t, _, found, _⟩, _⟩, nothing, rfl⟩ := List.forall₂_cons_left_iff.mp all
  rw [List.forall₂_nil_left_iff] at nothing
  have last : ((runRequests wholeDecimals unconditionalRequests (emptyTables ["orders"])
      [0, 0, 0, 1, 1, 1, 0, 0]).log 0).getLast?.map (·.before.isSome) = some false := by
    decide +kernel
  rw [log_eq, nothing] at last
  simp [found] at last

end Openstack.DynamoDb

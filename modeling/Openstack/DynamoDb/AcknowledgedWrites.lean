import Openstack.DynamoDb.RowStore
import Openstack.DynamoDb.TransactWrite

/-!
# Acknowledged writes

PutItem (`provider.rs:864-922`) and BatchWriteItem (`provider.rs:1455-1506`) when nothing else
runs. A 200 promises that the last put to a key can be read back and that a deleted key is
absent; an error promises that no table has changed. The answer does not look at what
`put_item` returned, an entry with a PutRequest never gets to its DeleteRequest, and the batch
works table by table, so each promise has a condition of its own.
-/
namespace Openstack.DynamoDb

variable {requests : Json} {reqs : List Json} {t : Table}

/-! ## The batch -/

/-- The rounds of the loop over the tables, up to the first that ends in an error. -/
def batchRounds (ctx : RequestContext) : List (String × Json) → Tables → Response × Tables
  | [], tables => (.ok .unprocessedItems, tables)
  | (tableName, requests) :: rest, tables =>
    match (batchWriteTable ctx tableName requests).body.exec tables with
    | (.ok _, tables') => batchRounds ctx rest tables'
    | stopped => stopped

def batchWriteItem (ctx : RequestContext) (body : Json) (tables : Tables) : Response × Tables :=
  match (body.get? "RequestItems").bind Json.asObject? with
  | none => (validationException "RequestItems is required", tables)
  | some requestItems => batchRounds ctx requestItems tables

/-! ## Listed writes -/

def ItemOp.item : ItemOp → Item
  | .putItem _ item => item
  | .deleteItem _ key => key

/-- What a write leaves under its key. -/
def ItemOp.leaves : ItemOp → Option Item
  | .putItem _ item => some item
  | .deleteItem _ _ => none

/-- A write of a request, with whether the handler comes to it. -/
structure ListedWrite where
  reached : Bool
  op : ItemOp

/-- The writes of one entry of a batch. A DeleteRequest beside a PutRequest is listed, but
the handler does not come to it. -/
def entryWrites (now : Int) (req : Json) : List ListedWrite :=
  (((req.get? "PutRequest").bind (itemField? "Item")).map fun item =>
      ⟨true, .putItem now item⟩).toList ++
    (((req.get? "DeleteRequest").bind (itemField? "Key")).map fun key =>
      ⟨(req.get? "PutRequest").isNone, .deleteItem now key⟩).toList

/-- The writes the handler carries out. -/
def reachedOps (writes : List ListedWrite) : List ItemOp :=
  (writes.filter (·.reached)).map (·.op)

/-- The entries of the rounds on one table. -/
def entriesFor (name : String) (rounds : List (String × Json)) : List Json :=
  (rounds.filter (·.1 = name)).flatMap fun r => r.2.asArray?.getD []

def Table.opKey (t : Table) (op : ItemOp) : Option (String × String) := t.extractKeyFromItem op.item

/-- What a 200 promises about one table: the last put to a key is read back by a GetItem of
the key, and every deleted key is absent. -/
structure Table.Promise (t t' : Table) (writes : List ListedWrite) : Prop where
  puts : ∀ earlier reached now item later,
    writes = earlier ++ ⟨reached, .putItem now item⟩ :: later →
    (∀ w ∈ later, ∀ k, t.opKey w.op = some k → t.extractKeyFromItem item ≠ some k) →
    t'.getItem (t.makeKeyMap item) = some item
  deletes : ∀ reached now key, ⟨reached, .deleteItem now key⟩ ∈ writes →
    t'.getItem (t.makeKeyMap key) = none

/-- The row under a key after some writes: the last one to the key decides. -/
def Table.rowAfter (t : Table) (k : String × String) (ops : List ItemOp) : Option Item :=
  ops.foldl (fun r op => if t.opKey op = some k then op.leaves else r) (t.rows k)

/-- The condition on the writes of one table: the last put to a key has a key that can be read,
and for every listed delete of such a key the last write to it that is carried out is a delete,
or there is none and the row was absent before. -/
structure Table.Keeps (t : Table) (writes : List ListedWrite) : Prop where
  puts : ∀ earlier reached now item later,
    writes = earlier ++ ⟨reached, .putItem now item⟩ :: later →
    (∀ w ∈ later, ∀ k, t.opKey w.op = some k → t.extractKeyFromItem item ≠ some k) →
    (t.extractKeyRefFromItem item).isSome = true
  deletes : ∀ reached now key, ⟨reached, .deleteItem now key⟩ ∈ writes →
    ∀ k, t.extractKeyRefFromItem key = some k → t.rowAfter k (reachedOps writes) = none

/-! ## One table -/

theorem Table.applyItem_keySchema (t : Table) (op : ItemOp) :
    (t.applyItem op).keySchema = t.keySchema := by
  cases effective : t.change op with
  | none => rw [Table.applyItem_unchanged effective]
  | some c => exact (Table.applyItem_changed effective).keySchema

theorem Table.foldl_applyItem_keySchema (t : Table) (ops : List ItemOp) :
    (ops.foldl Table.applyItem t).keySchema = t.keySchema := by
  induction ops generalizing t with
  | nil => rfl
  | cons op rest ih => rw [List.foldl_cons, ih, Table.applyItem_keySchema]

/-- One write decides its own row and no other. -/
theorem Table.rows_applyItem (t : Table) (op : ItemOp) (k : String × String) :
    (t.applyItem op).rows k = if t.opKey op = some k then op.leaves else t.rows k := by
  cases effective : t.change op with
  | none =>
    rw [Table.applyItem_unchanged effective]
    split
    · next named =>
      cases op with
      | putItem now item =>
        have unusable := Option.map_eq_none_iff.mp effective
        simp [Table.opKey, ItemOp.item, unusable] at named
      | deleteItem now key =>
        simp only [Table.opKey, ItemOp.item] at named
        simpa [Table.change, named, ItemOp.leaves] using effective
    · rfl
  | some c =>
    rw [(Table.applyItem_changed effective).rows, ChangeLog.Change.apply, Function.update_apply]
    have named : t.opKey op = some c.key ∧ op.leaves = c.after := by
      cases op with
      | putItem now item =>
        obtain ⟨key, filed, rfl⟩ := Option.map_eq_some_iff.mp effective
        exact ⟨filed, rfl⟩
      | deleteItem now key =>
        obtain ⟨key', filed, effective⟩ := Option.bind_eq_some_iff.mp effective
        obtain ⟨old, _, rfl⟩ := Option.map_eq_some_iff.mp effective
        exact ⟨filed, rfl⟩
    rw [named.1, named.2]
    simp only [Option.some.injEq, eq_comm]

theorem Table.rows_foldl (t : Table) (ops : List ItemOp) (k : String × String) :
    (ops.foldl Table.applyItem t).rows k = t.rowAfter k ops := by
  unfold Table.rowAfter
  induction ops generalizing t with
  | nil => rfl
  | cons op rest ih =>
    have sameKeys : (t.applyItem op).opKey = t.opKey := by
      funext other
      exact Table.extractKey_congr (t.applyItem_keySchema op) avToKeyStr other.item
    rw [List.foldl_cons, ih, List.foldl_cons, sameKeys, Table.rows_applyItem]

/-- A GetItem of a key after some writes. -/
theorem Table.getItem_foldl (t : Table) (ops : List ItemOp) (item : Item) :
    (ops.foldl Table.applyItem t).getItem (t.makeKeyMap item) =
      (t.extractKeyRefFromItem item).bind fun k => t.rowAfter k ops := by
  have schema := t.foldl_applyItem_keySchema ops
  unfold Table.getItem Table.extractKeyRefFromItem
  rw [Table.extractKey_congr schema, Table.extractKey_makeKeyMap]
  cases t.extractKey avToKeyStrRef item with
  | none => rfl
  | some k => exact t.rows_foldl ops k

/-- Writes to other keys do not decide a row. -/
theorem Table.rowAfter_append_other (t : Table) (k : String × String) (ops later : List ItemOp)
    (other : ∀ op ∈ later, t.opKey op ≠ some k) :
    t.rowAfter k (ops ++ later) = t.rowAfter k ops := by
  unfold Table.rowAfter
  rw [List.foldl_append]
  generalize List.foldl _ (t.rows k) ops = r
  induction later with
  | nil => rfl
  | cons op rest ih =>
    rw [List.foldl_cons, if_neg (other op List.mem_cons_self)]
    exact ih fun op member => other op (List.mem_cons_of_mem _ member)

theorem Table.rowAfter_last (t : Table) (k : String × String) (ops : List ItemOp) (op : ItemOp)
    (named : t.opKey op = some k) : t.rowAfter k (ops ++ [op]) = op.leaves := by
  simp [Table.rowAfter, named]

/-- On one table the promise is kept exactly under the condition. -/
theorem Table.promise_iff (t : Table) (writes : List ListedWrite)
    (putsReached : ∀ w ∈ writes, ∀ now item, w.op = .putItem now item → w.reached = true) :
    t.Promise ((reachedOps writes).foldl Table.applyItem t) writes ↔ t.Keeps writes := by
  constructor
  · intro promise
    constructor
    case puts =>
      intro earlier reached now item later split last
      have returned := promise.puts earlier reached now item later split last
      rw [Table.getItem_foldl] at returned
      obtain ⟨k, asked, _⟩ := Option.bind_eq_some_iff.mp returned
      simp [asked]
    case deletes =>
      intro reached now key listed k asked
      have absent := promise.deletes reached now key listed
      rwa [Table.getItem_foldl, asked, Option.bind_some] at absent
  · intro keeps
    constructor
    case puts =>
      intro earlier reached now item later split last
      obtain ⟨k, asked⟩ := Option.isSome_iff_exists.mp
        (keeps.puts earlier reached now item later split last)
      have named := Table.extractKeyRef_some asked
      have carriedOut : reached = true :=
        putsReached ⟨reached, .putItem now item⟩ (by rw [split]; simp) now item rfl
      have order : reachedOps writes =
          (reachedOps earlier ++ [.putItem now item]) ++ reachedOps later := by
        simp [split, reachedOps, carriedOut]
      rw [Table.getItem_foldl, asked, Option.bind_some, order, Table.rowAfter_append_other,
        Table.rowAfter_last t k (reachedOps earlier) (.putItem now item) named]
      · rfl
      · intro op member
        obtain ⟨w, listed, rfl⟩ := List.mem_map.mp member
        intro same
        exact last w (List.mem_filter.mp listed).1 k same named
    case deletes =>
      intro reached now key listed
      rw [Table.getItem_foldl, Option.bind_eq_none_iff]
      intro k asked
      exact keeps.deletes reached now key listed k asked

/-! ## All tables -/

/-- Every listed table exists. -/
def TablesListed (ctx : RequestContext) (tables : Tables) (rounds : List (String × Json)) : Prop :=
  ∀ r ∈ rounds, r.2.asArray?.isSome = true → (tables (ctx.table r.1)).isSome = true

/-- The rounds before the first that names a missing table. -/
def roundsBefore (ctx : RequestContext) (tables : Tables) (rounds : List (String × Json)) :
    List (String × Json) :=
  rounds.takeWhile fun r => r.2.asArray?.isNone || (tables (ctx.table r.1)).isSome

/-- The tables after some rounds. -/
def afterRounds (ctx : RequestContext) (rounds : List (String × Json)) (tables : Tables) : Tables :=
  fun id => (tables id).map fun t =>
    if id = ctx.table id.name then (entriesFor id.name rounds).foldl (batchWriteOne ctx.now) t else t

theorem batchWriteOne_eq (now : Int) (t : Table) (req : Json) :
    batchWriteOne now t req = (reachedOps (entryWrites now req)).foldl Table.applyItem t := by
  unfold batchWriteOne entryWrites reachedOps
  cases put : req.get? "PutRequest" with
  | some value =>
    cases item : itemField? "Item" value with
    | none =>
      cases (req.get? "DeleteRequest").bind (itemField? "Key") <;> simp [item]
    | some item' =>
      cases (req.get? "DeleteRequest").bind (itemField? "Key") <;>
        simp [item, Table.applyItem]
  | none =>
    cases (req.get? "DeleteRequest").bind (itemField? "Key") <;> simp [Table.applyItem]

theorem foldl_batchWriteOne (now : Int) (t : Table) (reqs : List Json) :
    reqs.foldl (batchWriteOne now) t =
      (reachedOps (reqs.flatMap (entryWrites now))).foldl Table.applyItem t := by
  induction reqs generalizing t with
  | nil => rfl
  | cons req rest ih =>
    rw [List.foldl_cons, ih, batchWriteOne_eq, ← List.foldl_append]
    simp [reachedOps]

/-- Every listed put is carried out. -/
theorem entryWrites_puts (now : Int) (reqs : List Json) :
    ∀ w ∈ reqs.flatMap (entryWrites now), ∀ at_ item, w.op = .putItem at_ item →
      w.reached = true := by
  intro w listed at_ item isPut
  obtain ⟨req, _, inEntry⟩ := List.mem_flatMap.mp listed
  simp only [entryWrites, List.mem_append, Option.mem_toList, Option.map_eq_some_iff] at inEntry
  rcases inEntry with ⟨item', _, rfl⟩ | ⟨key, _, rfl⟩
  · rfl
  · cases isPut

section Rounds

variable {ctx : RequestContext}

/-- A round whose requests are not a list does nothing. -/
theorem round_skipped (tables : Tables) (tableName : String) (entries : requests.asArray? = none) :
    (batchWriteTable ctx tableName requests).body.exec tables = (.ok .unprocessedItems, tables) := by
  simp [batchWriteTable, entries, answerAtOnce, Locking.Prog.exec]

theorem round_missing {tables : Tables} {tableName : String}
    (entries : requests.asArray? = some reqs) (missing : tables (ctx.table tableName) = none) :
    (batchWriteTable ctx tableName requests).body.exec tables =
      (resourceNotFound ("Table " ++ tableName ++ " not found"), tables) := by
  simp [batchWriteTable, entries, underTableLock, Locking.Prog.atomic, Locking.Prog.exec, missing]

theorem round_written {tables : Tables} {tableName : String} (entries : requests.asArray? = some reqs)
    (found : tables (ctx.table tableName) = some t) :
    (batchWriteTable ctx tableName requests).body.exec tables =
      (.ok .unprocessedItems, Function.update tables (ctx.table tableName)
        (some (reqs.foldl (batchWriteOne ctx.now) t))) := by
  simp [batchWriteTable, entries, underTableLock, Locking.Prog.atomic, Locking.Prog.exec, found]

theorem afterRounds_nil (tables : Tables) : afterRounds ctx [] tables = tables := by
  funext id
  simp [afterRounds, entriesFor]

theorem afterRounds_other (tables : Tables) (r : String × Json) (rest : List (String × Json))
    (skipped : r.2.asArray? = none) :
    afterRounds ctx (r :: rest) tables = afterRounds ctx rest tables := by
  funext id
  simp only [afterRounds, entriesFor, List.filter_cons]
  by_cases same : r.1 = id.name <;> simp [same, skipped]

theorem afterRounds_cons (tables : Tables) (tableName : String) (requests : Json) (rest : List (String × Json))
    (entries : requests.asArray? = some reqs) (found : tables (ctx.table tableName) = some t) :
    afterRounds ctx ((tableName, requests) :: rest) tables =
      afterRounds ctx rest (Function.update tables (ctx.table tableName)
        (some (reqs.foldl (batchWriteOne ctx.now) t))) := by
  funext id
  by_cases here : id = ctx.table tableName
  · subst here
    rw [afterRounds, afterRounds, Function.update_self, found]
    simp [entriesFor, entries, RequestContext.table, List.foldl_append]
  · have elsewhere : ¬ (tableName = id.name ∧ id = ctx.table id.name) := by
      rintro ⟨name, own⟩
      exact here (by rw [own, name])
    rw [afterRounds, afterRounds, Function.update_of_ne here]
    by_cases own : id = ctx.table id.name
    · have other : tableName ≠ id.name := fun name => elsewhere ⟨name, own⟩
      simp [entriesFor, other]
    · simp [own]

theorem roundsBefore_update (tables : Tables) (rest : List (String × Json)) {id : TableId}
    {t t' : Table} (found : tables id = some t) :
    roundsBefore ctx (Function.update tables id (some t')) rest = roundsBefore ctx tables rest := by
  unfold roundsBefore
  congr 1
  funext r
  by_cases here : ctx.table r.1 = id
  · simp [here, found]
  · simp [Function.update_of_ne here]

theorem roundsBefore_cons (tables : Tables) (r : String × Json) (rest : List (String × Json)) :
    roundsBefore ctx tables (r :: rest) =
      if r.2.asArray?.isNone || (tables (ctx.table r.1)).isSome then
        r :: roundsBefore ctx tables rest else [] := by
  rw [roundsBefore, List.takeWhile_cons]
  rfl

theorem batchRounds_tables (rounds : List (String × Json)) (tables : Tables) :
    (batchRounds ctx rounds tables).2 = afterRounds ctx (roundsBefore ctx tables rounds) tables := by
  induction rounds generalizing tables with
  | nil => simp [batchRounds, roundsBefore, afterRounds_nil]
  | cons r rest ih =>
    obtain ⟨tableName, requests⟩ := r
    rw [batchRounds, roundsBefore_cons]
    cases entries : requests.asArray? with
    | none => simp [round_skipped _ _ entries, ih, afterRounds_other _ (tableName, requests) _ entries]
    | some reqs =>
      cases found : tables (ctx.table tableName) with
      | none => simp [round_missing entries found, resourceNotFound, afterRounds_nil]
      | some t =>
        simp [round_written entries found, ih, roundsBefore_update _ _ found,
          afterRounds_cons _ _ _ _ entries found]

theorem batchRounds_response (rounds : List (String × Json)) (tables : Tables) :
    (TablesListed ctx tables rounds ∧ (batchRounds ctx rounds tables).1 = .ok .unprocessedItems) ∨
      (¬ TablesListed ctx tables rounds ∧ ∃ tableName, (batchRounds ctx rounds tables).1 =
        resourceNotFound ("Table " ++ tableName ++ " not found")) := by
  induction rounds generalizing tables with
  | nil => exact Or.inl ⟨by simp [TablesListed], rfl⟩
  | cons r rest ih =>
    obtain ⟨tableName, requests⟩ := r
    rw [batchRounds]
    cases entries : requests.asArray? with
    | none =>
      rw [round_skipped _ _ entries]
      have same : TablesListed ctx tables ((tableName, requests) :: rest) ↔
          TablesListed ctx tables rest := by simp [TablesListed, entries]
      simp only [same]
      exact ih tables
    | some reqs =>
      cases found : tables (ctx.table tableName) with
      | none =>
        rw [round_missing entries found]
        refine Or.inr ⟨?_, tableName, rfl⟩
        simp [TablesListed, entries, found]
      | some t =>
        rw [round_written entries found]
        have same : TablesListed ctx tables ((tableName, requests) :: rest) ↔
            TablesListed ctx (Function.update tables (ctx.table tableName)
              (some (reqs.foldl (batchWriteOne ctx.now) t))) rest := by
          have kept : ∀ name, ((Function.update tables (ctx.table tableName)
              (some (reqs.foldl (batchWriteOne ctx.now) t))) (ctx.table name)).isSome =
                (tables (ctx.table name)).isSome := by
            intro name
            by_cases here : ctx.table name = ctx.table tableName
            · simp [here, found]
            · simp [Function.update_of_ne here]
          simp [TablesListed, entries, found, kept]
        simp only [same]
        exact ih _

end Rounds

/-! ## Requests -/

inductive AckRequest where
  | putItem (body : Json)
  | batchWriteItem (body : Json)

namespace AckRequest

def respond (ctx : RequestContext) : AckRequest → Tables → Response × Tables
  | .putItem body, tables => (DynamoDb.putItem ctx body).body.exec tables
  | .batchWriteItem body, tables => DynamoDb.batchWriteItem ctx body tables

/-- The writes a request lists for one table. -/
def writesFor (ctx : RequestContext) (name : String) : AckRequest → List ListedWrite
  | .putItem body =>
    if stringField "TableName" body = some name then
      ((itemField? "Item" body).map fun item => ⟨true, .putItem ctx.now item⟩).toList
    else []
  | .batchWriteItem body =>
    (entriesFor name (((body.get? "RequestItems").bind Json.asObject?).getD [])).flatMap
      (entryWrites ctx.now)

/-- After a 200 every table keeps its promise, and after an error every table is as before.
No request reports an unprocessed item. -/
structure Acknowledged (ctx : RequestContext) (req : AckRequest) (tables : Tables) : Prop where
  ok : (req.respond ctx tables).1.status = some 200 →
    ∀ name t, tables (ctx.table name) = some t →
      ∃ t', (req.respond ctx tables).2 (ctx.table name) = some t' ∧
        t.Promise t' (req.writesFor ctx name)
  error : ∀ code message status, (req.respond ctx tables).1 = .error code message status →
    (req.respond ctx tables).2 = tables

/-- The condition of a PutItem: an item that is not refused has a key that can be read. The
condition of a batch: with every listed table there, the writes of each table meet theirs;
with one missing, the entries of the tables before it leave these as they were. -/
def Honest (ctx : RequestContext) (tables : Tables) : AckRequest → Prop
  | .putItem body => ∀ name item t, stringField "TableName" body = some name →
      itemField? "Item" body = some item → tables (ctx.table name) = some t →
      (writeOptions body).refusal (t.getItem item) = none →
      (t.extractKeyRefFromItem item).isSome = true
  | .batchWriteItem body => ∀ rounds, (body.get? "RequestItems").bind Json.asObject? = some rounds →
      (TablesListed ctx tables rounds → ∀ name t, tables (ctx.table name) = some t →
        t.Keeps ((AckRequest.batchWriteItem body).writesFor ctx name)) ∧
      (¬ TablesListed ctx tables rounds → ∀ name t, tables (ctx.table name) = some t →
        (entriesFor name (roundsBefore ctx tables rounds)).foldl (batchWriteOne ctx.now) t = t)

end AckRequest

theorem WriteOptions.refusal_status {o : WriteOptions} {existing : Option Item} {r : Response}
    (refused : o.refusal existing = some r) : r.status ≠ some 200 := by
  unfold WriteOptions.refusal at refused
  split at refused
  · cases refused
  · split at refused <;> cases refused <;> simp [Response.status]

theorem Table.keeps_nil (t : Table) : t.Keeps [] where
  puts earlier reached now item later split := by simp at split
  deletes reached now key listed := by simp at listed

theorem Table.keeps_put_iff (t : Table) (now : Int) (item : Item) :
    t.Keeps [⟨true, .putItem now item⟩] ↔ (t.extractKeyRefFromItem item).isSome = true := by
  constructor
  · intro keeps
    exact keeps.puts [] true now item [] rfl (by simp)
  · intro readable
    constructor
    case puts =>
      intro earlier reached now' item' later split _
      cases earlier with
      | nil =>
        simp only [List.nil_append, List.cons.injEq, ListedWrite.mk.injEq, ItemOp.putItem.injEq]
          at split
        rw [← split.1.2.2]
        exact readable
      | cons w rest => simp at split
    case deletes => simp

section Honest

variable {ctx : RequestContext} {tables : Tables}

/-- PutItem on a table that is there. -/
theorem putItem_exec {body : Json} {name : String} {item : Item}
    (named : stringField "TableName" body = some name) (given : itemField? "Item" body = some item)
    (found : tables (ctx.table name) = some t) :
    (putItem ctx body).body.exec tables =
      ((putItemOn ctx.now item (writeOptions body) t).1,
        Function.update tables (ctx.table name)
          (some (putItemOn ctx.now item (writeOptions body) t).2)) := by
  simp [putItem, singleItemWriter, named, given, underTableLock, Locking.Prog.atomic,
    Locking.Prog.exec, found]

/-- A PutItem that is answered without a table to work on. -/
theorem putItem_exec_refused {body : Json}
    (refused : ∀ name item, stringField "TableName" body = some name →
      itemField? "Item" body = some item → tables (ctx.table name) = none) :
    ((putItem ctx body).body.exec tables).1.status ≠ some 200 ∧
      ((putItem ctx body).body.exec tables).2 = tables := by
  unfold putItem singleItemWriter
  cases named : stringField "TableName" body with
  | none => simp [answerAtOnce, Locking.Prog.exec, validationException, Response.status]
  | some name =>
    cases given : itemField? "Item" body with
    | none => simp [answerAtOnce, Locking.Prog.exec, validationException, Response.status]
    | some item =>
      have missing := refused name item named given
      simp [underTableLock, Locking.Prog.atomic, Locking.Prog.exec, missing, noSuchTable,
        resourceNotFound, Response.status]

theorem putItem_acknowledged_iff (body : Json) :
    (AckRequest.putItem body).Acknowledged ctx tables ↔
      (AckRequest.putItem body).Honest ctx tables := by
  by_cases works : ∃ name item t, stringField "TableName" body = some name ∧
      itemField? "Item" body = some item ∧ tables (ctx.table name) = some t
  · obtain ⟨name, item, t, named, given, found⟩ := works
    have exec : (putItem ctx body).body.exec tables = _ := putItem_exec named given found
    have condition : (AckRequest.putItem body).Honest ctx tables ↔
        ((writeOptions body).refusal (t.getItem item) = none →
          (t.extractKeyRefFromItem item).isSome = true) := by
      constructor
      · intro honest
        exact honest name item t named given found
      · intro readable name' item' t' named' given' found'
        rw [named, Option.some.injEq] at named'
        rw [given, Option.some.injEq] at given'
        subst named' given'
        rw [found, Option.some.injEq] at found'
        subst found'
        exact readable
    rw [condition]
    cases refusal : (writeOptions body).refusal (t.getItem item) with
    | some r =>
      have answer : putItemOn ctx.now item (writeOptions body) t = (r, t) := by
        simp [putItemOn, refusal]
      refine iff_of_true ⟨?_, ?_⟩ (by simp)
      · intro ok
        rw [AckRequest.respond, exec, answer] at ok
        exact absurd ok (WriteOptions.refusal_status refusal)
      · intro _ _ _ _
        rw [AckRequest.respond, exec, answer, ← found, Function.update_eq_self]
    | none =>
      have stored : (putItemOn ctx.now item (writeOptions body) t).2 =
          (reachedOps [⟨true, .putItem ctx.now item⟩]).foldl Table.applyItem t := by
        simp [putItemOn, refusal, reachedOps, Table.applyItem]
      have promise := t.promise_iff [⟨true, .putItem ctx.now item⟩] (by simp)
      rw [Table.keeps_put_iff, ← stored] at promise
      have listed : (AckRequest.putItem body).writesFor ctx name =
          [⟨true, .putItem ctx.now item⟩] := by simp [AckRequest.writesFor, named, given]
      have after : ((AckRequest.putItem body).respond ctx tables).2 =
          Function.update tables (ctx.table name)
            (some (putItemOn ctx.now item (writeOptions body) t).2) := by
        rw [AckRequest.respond, exec]
      simp only [forall_const]
      rw [← promise]
      constructor
      · intro acknowledged
        obtain ⟨t', written, kept⟩ := acknowledged.ok (by
          rw [AckRequest.respond, exec]
          simp [putItemOn, refusal, Response.status]) name t found
        rw [after, Function.update_self, Option.some.injEq] at written
        rwa [← written, listed] at kept
      · intro kept
        constructor
        case ok =>
          intro _ other u present
          by_cases here : other = name
          · subst here
            rw [found, Option.some.injEq] at present
            subst present
            exact ⟨_, by rw [after, Function.update_self], by rwa [listed]⟩
          · have elsewhere : ctx.table other ≠ ctx.table name := by
              intro same
              exact here (congrArg TableId.name same)
            refine ⟨u, by rw [after, Function.update_of_ne elsewhere, present], ?_⟩
            have nothing : (AckRequest.putItem body).writesFor ctx other = [] := by
              simp [AckRequest.writesFor, named, Ne.symm here]
            rw [nothing]
            exact (u.promise_iff [] (by simp)).mpr u.keeps_nil
        case error =>
          intro code message status failed
          rw [AckRequest.respond, exec] at failed
          simp [putItemOn, refusal] at failed
  · have refused : ∀ name item, stringField "TableName" body = some name →
        itemField? "Item" body = some item → tables (ctx.table name) = none := by
      intro name item named given
      by_contra found
      obtain ⟨t, found⟩ := Option.ne_none_iff_exists'.mp found
      exact works ⟨name, item, t, named, given, found⟩
    have answer : _ ∧ ((putItem ctx body).body.exec tables).2 = tables :=
      putItem_exec_refused refused
    refine iff_of_true ⟨fun ok => absurd ok answer.1, fun _ _ _ _ => answer.2⟩ ?_
    intro name item t named given found
    exact absurd ⟨name, item, t, named, given, found⟩ works

theorem afterRounds_self (rounds : List (String × Json)) (name : String) :
    afterRounds ctx rounds tables (ctx.table name) =
      (tables (ctx.table name)).map fun t =>
        (entriesFor name rounds).foldl (batchWriteOne ctx.now) t := by
  simp [afterRounds, RequestContext.table]

/-- The rounds leave every table as it was exactly when they leave each table of the account
and region so. -/
theorem afterRounds_eq_iff (rounds : List (String × Json)) :
    afterRounds ctx rounds tables = tables ↔ ∀ name t, tables (ctx.table name) = some t →
      (entriesFor name rounds).foldl (batchWriteOne ctx.now) t = t := by
  constructor
  · intro same name t found
    have here := congrFun same (ctx.table name)
    rw [afterRounds_self, found] at here
    simpa using here
  · intro each
    funext id
    unfold afterRounds
    cases found : tables id with
    | none => rfl
    | some t =>
      by_cases own : id = ctx.table id.name
      · rw [own] at found
        simp [← own, each id.name t found]
      · simp [own]

theorem batchWriteItem_acknowledged_iff (body : Json) :
    (AckRequest.batchWriteItem body).Acknowledged ctx tables ↔
      (AckRequest.batchWriteItem body).Honest ctx tables := by
  cases given : (body.get? "RequestItems").bind Json.asObject? with
  | none =>
    have answer : (AckRequest.batchWriteItem body).respond ctx tables =
        (validationException "RequestItems is required", tables) := by
      simp [AckRequest.respond, batchWriteItem, given]
    refine iff_of_true ⟨?_, ?_⟩ ?_
    · intro ok
      simp [answer, validationException, Response.status] at ok
    · intro _ _ _ _
      rw [answer]
    · intro rounds found
      rw [given] at found
      cases found
  | some rounds =>
    have answer : (AckRequest.batchWriteItem body).respond ctx tables =
        batchRounds ctx rounds tables := by simp [AckRequest.respond, batchWriteItem, given]
    have condition : (AckRequest.batchWriteItem body).Honest ctx tables ↔
        (TablesListed ctx tables rounds → ∀ name t, tables (ctx.table name) = some t →
          t.Keeps ((AckRequest.batchWriteItem body).writesFor ctx name)) ∧
        (¬ TablesListed ctx tables rounds → ∀ name t, tables (ctx.table name) = some t →
          (entriesFor name (roundsBefore ctx tables rounds)).foldl (batchWriteOne ctx.now) t =
            t) := by
      simp [AckRequest.Honest, given]
    rw [condition]
    have answered : (TablesListed ctx tables rounds ∧ _) ∨ _ := batchRounds_response rounds tables
    rcases answered with ⟨listed, ok⟩ | ⟨missing, tableName, failed⟩
    · have all : roundsBefore ctx tables rounds = rounds := by
        rw [roundsBefore, List.takeWhile_eq_self_iff]
        intro r member
        cases entries : r.2.asArray? with
        | none => rfl
        | some reqs => simp [listed r member (by simp [entries])]
      have writes : ∀ name, (AckRequest.batchWriteItem body).writesFor ctx name =
          (entriesFor name rounds).flatMap (entryWrites ctx.now) := by
        intro name
        simp [AckRequest.writesFor, given]
      simp only [listed, true_implies, not_true_eq_false, false_implies, and_true]
      constructor
      · intro acknowledged name t found
        obtain ⟨t', written, kept⟩ := acknowledged.ok (by rw [answer, ok]; rfl) name t found
        rw [answer, batchRounds_tables, all, afterRounds_self, found, Option.map_some,
          Option.some.injEq, foldl_batchWriteOne] at written
        rw [writes, ← written] at kept
        rw [writes]
        exact (t.promise_iff _ (entryWrites_puts ctx.now _)).mp kept
      · intro keeps
        constructor
        case ok =>
          intro _ name t found
          refine ⟨(entriesFor name rounds).foldl (batchWriteOne ctx.now) t,
            by rw [answer, batchRounds_tables, all, afterRounds_self, found]; rfl, ?_⟩
          have kept := keeps name t found
          rw [writes] at kept ⊢
          rw [foldl_batchWriteOne]
          exact (t.promise_iff _ (entryWrites_puts ctx.now _)).mpr kept
        case error =>
          intro code message status failed
          rw [answer, ok] at failed
          cases failed
    · simp only [missing, false_implies, not_false_eq_true, true_implies, true_and]
      rw [← afterRounds_eq_iff, ← batchRounds_tables]
      constructor
      · intro acknowledged
        rw [← answer]
        exact acknowledged.error _ _ _ (by rw [answer, failed]; rfl)
      · intro unchanged
        refine ⟨?_, ?_⟩
        · intro ok
          rw [answer, failed] at ok
          simp [resourceNotFound, Response.status] at ok
        · intro _ _ _ _
          rw [answer, unchanged]

end Honest

/-- A batch that puts a row into a table that exists and one into a table that does not. -/
def halfBatch : Json :=
  .obj [("RequestItems", .obj
    [("orders", .arr [.obj [("PutRequest", .obj [("Item", .obj [("pk", .obj [("S", .str "1")])])])]]),
      ("parcels", .arr [])])]

end Openstack.DynamoDb

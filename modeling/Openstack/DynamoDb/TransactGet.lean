import Openstack.Lib.Run
import Openstack.DynamoDb.WriterSerialisability

/-!
# Transactional reads

`provider.rs:560-604` (projection) and `provider.rs:1511-1558` (TransactGetItems). The
handler reads the tables one entry after another and takes no mutex, so writers can move
between two of its reads. A store that does not exist yet has no tables: the early answer
for it is the one the loop would give. `char::is_alphanumeric` is a table of the Unicode
standard and enters as a parameter.
-/
namespace Openstack.DynamoDb

open Locking

/-- Replace every `#name` by the attribute it stands for; `open_` is the placeholder that
is being read. -/
@[grind] def resolvePlaceholders (alnum : Char → Bool) (names : AttrNames) :
    (open_ : Option Text) → Text → Text
  | none, [] => []
  | some name, [] => (resolveName name names).toList
  | none, c :: rest =>
    if c = '#' then resolvePlaceholders alnum names (some ['#']) rest
    else c :: resolvePlaceholders alnum names none rest
  | some name, c :: rest =>
    if alnum c ∨ c = '_' then resolvePlaceholders alnum names (some (name ++ [c])) rest
    else if c = '#' then
      (resolveName name names).toList ++ resolvePlaceholders alnum names (some ['#']) rest
    else (resolveName name names).toList ++ c :: resolvePlaceholders alnum names none rest

def projectItem (alnum : Char → Bool) (item : Item) (projection : Option String)
    (names : AttrNames) : Item :=
  match projection with
  | none => item
  | some expr =>
    if expr = "" then item
    else
      let attrs := ((resolvePlaceholders alnum names none expr.toList).splitOn ',').map RustStr.trim
      item.filter fun k _ => attrs.contains k.toList

section Reader

variable (alnum : Char → Bool) (ctx : RequestContext)

/-- What a Get finds in its table; `none` is the empty object. -/
def getFrom (get : Json) (table : Option Table) : Option Item :=
  match table with
  | none => none
  | some t =>
    (t.getItem (itemField "Key" get)).map fun item =>
      projectItem alnum item (stringField "ProjectionExpression" get)
        (parseExprNames (get.get? "ExpressionAttributeNames"))

/-- The response to one entry. -/
def getResponse (tables : Tables) (ti : Json) : Option Item :=
  match ti.get? "Get" with
  | none => none
  | some get => getFrom alnum get (tables (ctx.table (opTableName get)))

/-- A TransactGetItems request under way: the entries it has answered, with the answers,
and those it has still to read. -/
structure Reader where
  answered : List (Json × Option Item)
  todo : List Json

def Reader.start (transactItems : List Json) : Reader := ⟨[], transactItems⟩

def Reader.responses (r : Reader) : List (Option Item) := r.answered.map Prod.snd

def Reader.step (tables : Tables) (r : Reader) : Reader :=
  match r.todo with
  | [] => r
  | ti :: rest => ⟨r.answered ++ [(ti, getResponse alnum ctx tables ti)], rest⟩

end Reader

/-- The writers and the reader. -/
structure Mixed (n : Nat) where
  writers : Sys (Fin n) Lock TableId (Option Table) Response
  reader : Reader

section Mixed

variable (D : DecimalOps) (alnum : Char → Bool) (ctx : RequestContext) {n : Nat}
  (requests : Fin n → WriteRequest)

/-- `none` is a step of the reader. -/
def Mixed.step (s : Mixed n) : Option (Fin n) → Mixed n
  | none => { s with reader := s.reader.step alnum ctx s.writers.cells }
  | some i => { s with writers := Locking.step (fun j => (requests j).process D) s.writers i }

def Mixed.start (transactItems : List Json) (tables : Tables) : Mixed n where
  writers := Locking.start (fun j => (requests j).process D) tables
  reader := .start transactItems

/-- The access leaves what the entry gets as it was. -/
def LeavesAnswer (a : Access TableId (Option Table)) (ti : Json) : Prop :=
  ∀ get, ti.get? "Get" = some get → ctx.table (opTableName get) = a.cell →
    getFrom alnum get a.before = getFrom alnum get a.after

/-- Between the first and the last read no writer changes what an entry already answered
gets; and at the last read no writer that is still at work has changed what an entry
gets. -/
def Undisturbed (transactItems : List Json) (s : Mixed n) : Option (Fin n) → Prop
  | some i => s.reader.todo ≠ [] → ∀ e ∈ s.reader.answered,
      getResponse alnum ctx
        (Locking.step (fun j => (requests j).process D) s.writers i).cells e.1 =
      getResponse alnum ctx s.writers.cells e.1
  | none => s.reader.todo.length = 1 → ∀ j p, s.writers.phase j = .running p →
      ∀ a ∈ s.writers.log j, ∀ ti ∈ transactItems, LeavesAnswer alnum ctx a ti

end Mixed

section Isolation

variable {D : DecimalOps} {alnum : Char → Bool} {ctx : RequestContext} {n : Nat}
  {requests : Fin n → WriteRequest} {transactItems : List Json} {tables : Tables}

/-- While it reads, every answer is still what its entry gets; afterwards, all are what the
entries get at one point of the serial order. -/
structure ReaderInv (D : DecimalOps) (alnum : Char → Bool) (ctx : RequestContext)
    (requests : Fin n → WriteRequest) (transactItems : List Json) (tables : Tables)
    (s : Mixed n) : Prop where
  serial : SerialInv (fun i => (requests i).process D) tableLock (Absent tables) tables s.writers
  entries : s.reader.answered.map Prod.fst ++ s.reader.todo = transactItems
  current : s.reader.todo ≠ [] → ∀ e ∈ s.reader.answered,
    e.2 = getResponse alnum ctx s.writers.cells e.1
  isolated : s.reader.todo = [] → ∃ point, point <+: s.writers.order ∧
    ∀ e ∈ s.reader.answered, e.2 = getResponse alnum ctx
      (serialCells (fun i => (requests i).process D) tables point) e.1

theorem readerInv_start (D : DecimalOps) (alnum : Char → Bool) (ctx : RequestContext)
    (requests : Fin n → WriteRequest) (transactItems : List Json) (tables : Tables) :
    ReaderInv D alnum ctx requests transactItems tables
      (Mixed.start D requests transactItems tables) where
  serial := serialInv_start
  entries := rfl
  current := by simp [Mixed.start, Reader.start]
  isolated := fun _ => ⟨[], List.nil_prefix, by simp [Mixed.start, Reader.start]⟩

/-- What an entry gets is what it gets after the writers that have finished, when no writer
at work has changed it. -/
theorem getResponse_serial {s : Sys (Fin n) Lock TableId (Option Table) Response}
    (inv : SerialInv (fun i => (requests i).process D) tableLock (Absent tables) tables s)
    (ti : Json) (clean : ∀ j p, s.phase j = .running p → ∀ a ∈ s.log j, LeavesAnswer alnum ctx a ti) :
    getResponse alnum ctx s.cells ti = getResponse alnum ctx
      (serialCells (fun i => (requests i).process D) tables s.order) ti := by
  unfold getResponse
  cases found : ti.get? "Get" with
  | none => rfl
  | some get =>
    simp only
    by_cases use : InUse (fun i => (requests i).process D) tableLock s
        (ctx.table (opTableName get))
    · obtain ⟨j, p, here, locked⟩ := use
      -- follow the accesses of the writer that holds the table
      refine inv.changed j p here _ locked
        (fun c => getFrom alnum get c = getFrom alnum get (serialCells _ tables s.order _)) rfl ?_
      intro a mem cell same
      rw [← same]
      exact (clean j p here a mem get found cell.symm).symm
    · rw [inv.idle _ use]

theorem ReaderInv.writerStep {s : Mixed n} {i : Fin n}
    (names : ∀ i, (requests i).NamesTables tables)
    (inv : ReaderInv D alnum ctx requests transactItems tables s)
    (cond : Undisturbed D alnum ctx requests transactItems s (some i)) :
    ReaderInv D alnum ctx requests transactItems tables
      (s.step D alnum ctx requests (some i)) where
  serial := inv.serial.move (fun i => process_locks_nodup D (requests i))
    (fun i => process_covered (requests i) (names i)) (step_move _ _ _)
  entries := inv.entries
  current := by
    intro reading e mem
    rw [inv.current reading e mem]
    exact (cond reading e mem).symm
  isolated := by
    intro readAll
    obtain ⟨point, before, same⟩ := inv.isolated readAll
    exact ⟨point, before.trans (step_move _ _ _).order_grows, same⟩

theorem ReaderInv.readerStep {s : Mixed n}
    (inv : ReaderInv D alnum ctx requests transactItems tables s)
    (cond : Undisturbed D alnum ctx requests transactItems s none) :
    ReaderInv D alnum ctx requests transactItems tables (s.step D alnum ctx requests none) := by
  have entries := inv.entries
  cases todo : s.reader.todo with
  | nil =>
    have same : s.step D alnum ctx requests none = s := by
      simp [Mixed.step, Reader.step, todo]
    rw [same]
    exact inv
  | cons ti rest =>
    have next : s.reader.step alnum ctx s.writers.cells =
        ⟨s.reader.answered ++ [(ti, getResponse alnum ctx s.writers.cells ti)], rest⟩ := by
      simp [Reader.step, todo]
    have current : ∀ e ∈ s.reader.answered ++ [(ti, getResponse alnum ctx s.writers.cells ti)],
        e.2 = getResponse alnum ctx s.writers.cells e.1 := by
      intro e mem
      rcases List.mem_append.mp mem with mem | mem
      · exact inv.current (by simp [todo]) e mem
      · rw [List.mem_singleton.mp mem]
    rw [todo] at entries
    constructor
    case serial => exact inv.serial
    case entries =>
      simp only [Mixed.step, next, List.map_append, List.map_cons, List.map_nil,
        List.append_assoc, List.singleton_append]
      exact entries
    case current =>
      simp only [Mixed.step, next]
      exact fun _ => current
    case isolated =>
      simp only [Mixed.step, next]
      rintro rfl
      refine ⟨s.writers.order, List.prefix_rfl, ?_⟩
      intro e mem
      rw [current e mem]
      have listed : e.1 ∈ transactItems := by
        rw [← entries]
        rcases List.mem_append.mp mem with mem | mem
        · exact List.mem_append_left _ (List.mem_map_of_mem mem)
        · rw [List.mem_singleton.mp mem]
          simp
      exact getResponse_serial inv.serial e.1
        (fun j p here a mem_log => cond (by simp [todo]) j p here a mem_log e.1 listed)

end Isolation

/-- A TransactGetItems request and the writers under a schedule. -/
def runMixed (D : DecimalOps) (alnum : Char → Bool) (ctx : RequestContext) {n : Nat}
    (requests : Fin n → WriteRequest) (transactItems : List Json) (tables : Tables)
    (schedule : List (Option (Fin n))) : Mixed n :=
  schedule.foldl (Mixed.step D alnum ctx requests) (Mixed.start D requests transactItems tables)

/-- The answers of the reader are those of all its entries at one point of the serial order
of the writers. -/
def ReadsAtOnePoint (D : DecimalOps) (alnum : Char → Bool) (ctx : RequestContext) {n : Nat}
    (requests : Fin n → WriteRequest) (transactItems : List Json) (tables : Tables)
    (order : List (Fin n)) (r : Reader) : Prop :=
  ∃ m, r.responses = transactItems.map (getResponse alnum ctx
    (serialCells (fun i => (requests i).process D) tables (order.take m)))

/-- In every run in which no step disturbs the reader, once it has read all its entries its
answers are those of one point of the order in which the writers end; and once the writers
have all ended, that order explains the tables and their answers. -/
theorem transactGet_isolated (D : DecimalOps) (alnum : Char → Bool) (ctx : RequestContext)
    {n : Nat} (requests : Fin n → WriteRequest) (transactItems : List Json) (tables : Tables)
    (names : ∀ i, (requests i).NamesTables tables) (schedule : List (Option (Fin n)))
    (undisturbed : Run.AllSteps (Mixed.step D alnum ctx requests)
      (Undisturbed D alnum ctx requests transactItems)
      (Mixed.start D requests transactItems tables) schedule) :
    let s := runMixed D alnum ctx requests transactItems tables schedule
    (s.reader.todo = [] →
      ReadsAtOnePoint D alnum ctx requests transactItems tables s.writers.order s.reader) ∧
    ((∀ i, (s.writers.phase i).finished = true) →
      s.writers.order.Nodup ∧ (∀ i, i ∈ s.writers.order) ∧
      s.writers.cells = serialCells (fun i => (requests i).process D) tables s.writers.order ∧
      ∀ i, (s.writers.phase i).response? =
        some (serialResponse (fun i => (requests i).process D) tables s.writers.order i)) := by
  intro s
  have inv : ReaderInv D alnum ctx requests transactItems tables s := by
    refine Run.foldl_of_allSteps ?_ _ schedule
      (readerInv_start D alnum ctx requests transactItems tables) undisturbed
    intro s a inv cond
    cases a with
    | none => exact inv.readerStep cond
    | some i => exact inv.writerStep names cond
  constructor
  · intro readAll
    obtain ⟨point, before, same⟩ := inv.isolated readAll
    refine ⟨point.length, ?_⟩
    have entries := inv.entries
    rw [readAll, List.append_nil] at entries
    rw [← List.prefix_iff_eq_take.mp before, ← entries, Reader.responses, List.map_map]
    exact List.map_congr_left same
  · intro ended
    exact ⟨inv.serial.nodup, fun i => (inv.serial.mem_order i).mpr (ended i),
      inv.serial.cells_eq ended, inv.serial.responses_eq ended⟩

/-- One transaction that puts a row into `orders` and one into `items`. -/
def twoPuts : Fin 1 → WriteRequest := fun _ => twoTableRequests 0

/-- The same two rows, read. -/
def twoGets : List Json :=
  [.obj [("Get", .obj [("TableName", .str "orders"), ("Key", pkJson "x")])],
    .obj [("Get", .obj [("TableName", .str "items"), ("Key", pkJson "x")])]]

/-- Both reads while the transaction takes its mutexes. -/
def readsFirst : List (Option (Fin 1)) :=
  [some 0, none, some 0, none, some 0, some 0, some 0, some 0, some 0, some 0]

theorem readsFirst_undisturbed :
    Run.AllSteps (Mixed.step wholeDecimals Char.isAlphanum exampleContext twoPuts)
      (Undisturbed wholeDecimals Char.isAlphanum exampleContext twoPuts twoGets)
      (Mixed.start wholeDecimals twoPuts twoGets (emptyTables ["items", "orders"])) readsFirst := by
  have early : ∀ (s : Mixed 1), s.reader.answered = [] →
      Undisturbed wholeDecimals Char.isAlphanum exampleContext twoPuts twoGets s (some 0) := by
    intro s nothing _ e mem
    rw [nothing] at mem
    cases mem
  have late : ∀ (s : Mixed 1), s.reader.todo = [] →
      Undisturbed wholeDecimals Char.isAlphanum exampleContext twoPuts twoGets s (some 0) :=
    fun s readAll reading => absurd readAll reading
  refine ⟨early _ rfl, ?_, ?_, ?_, late _ rfl, late _ rfl, late _ rfl, late _ rfl, late _ rfl,
    late _ rfl, trivial⟩
  · intro two
    cases two
  · intro _ e _
    rfl
  · intro _ j p here a mem
    cases mem

theorem transactGet_isolated_readsFirst :
    ReadsAtOnePoint wholeDecimals Char.isAlphanum exampleContext twoPuts twoGets
      (emptyTables ["items", "orders"]) [0]
      (runMixed wholeDecimals Char.isAlphanum exampleContext twoPuts twoGets
        (emptyTables ["items", "orders"]) readsFirst).reader :=
  (transactGet_isolated wholeDecimals Char.isAlphanum exampleContext twoPuts twoGets
    (emptyTables ["items", "orders"]) (fun _ => twoTableRequests_named 0) readsFirst
    readsFirst_undisturbed).1 rfl

/-- One read before the transaction and one after it. -/
def readsAround : List (Option (Fin 1)) := none :: List.replicate 11 (some 0) ++ [none]

/-- The first Get misses the row of the transaction and the second finds it. -/
theorem transactGet_torn :
    let s := runMixed wholeDecimals Char.isAlphanum exampleContext twoPuts twoGets
      (emptyTables ["items", "orders"]) readsAround
    s.reader.todo = [] ∧ (∀ i, (s.writers.phase i).finished = true) ∧
      ¬ ∃ order : List (Fin 1), order.Nodup ∧ (∀ i, i ∈ order) ∧
        ReadsAtOnePoint wholeDecimals Char.isAlphanum exampleContext twoPuts twoGets
          (emptyTables ["items", "orders"]) order s.reader := by
  intro s
  refine ⟨rfl, by decide +kernel, ?_⟩
  rintro ⟨order, nodup, all, m, same⟩
  have length : order.length = 1 := by
    have perm : order.Perm (List.finRange 1) :=
      (List.perm_ext_iff_of_nodup nodup (List.nodup_finRange 1)).mpr fun i => by simp [all i]
    simpa using perm.length_eq
  obtain ⟨i, rfl⟩ := List.length_eq_one_iff.mp length
  have found : s.reader.responses.map Option.isSome = [false, true] := by decide +kernel
  rw [same] at found
  have at_no_point : ∀ i : Fin 1, ∀ point ∈ [[], [i]],
      (twoGets.map (getResponse Char.isAlphanum exampleContext
        (serialCells (fun i => (twoPuts i).process wholeDecimals)
          (emptyTables ["items", "orders"]) point))).map Option.isSome ≠ [false, true] := by
    decide +kernel
  cases m with
  | zero => exact at_no_point i [] (by simp) found
  | succ m => exact at_no_point i [i] (by simp) (by simpa using found)

end Openstack.DynamoDb

import Openstack.Lib.ChangeLog
import Openstack.DynamoDb.IndexReads
import Openstack.DynamoDb.Provider

/-!
# The primary store of a table

`store.rs:541-618` and the read-modify-write of UpdateItem (`provider.rs:1083-1103`), read
as changes of a partial function from key pairs to items. A call that is effective makes
one change; every other call leaves the table as it was. The invariant of the store (each
row lies under its own key, the counter counts the rows) follows from the change alone.
-/
namespace Openstack.DynamoDb

open ChangeLog (Change)

variable {t : Table} {c : RowChange} {k : String × String}

abbrev RowChange := Change (String × String) Item

/-- The stored rows by key pair. -/
def Table.rows (t : Table) (k : String × String) : Option Item := row t.items k.1 k.2

/-- One call of an item writer of the table. -/
inductive ItemOp where
  | putItem (now : Int) (item : Item)
  | deleteItem (now : Int) (key : Item)

def Table.applyItem (t : Table) : ItemOp → Table
  | .putItem now item => (t.putItem now item).2
  | .deleteItem now key => (t.deleteItem now key).2

/-- What an effective call changes. A put without usable key attributes and a delete of an
absent row are not effective. -/
def Table.change (t : Table) : ItemOp → Option RowChange
  | .putItem _ item => (t.extractKeyFromItem item).map fun k => ⟨k, t.rows k, some item⟩
  | .deleteItem _ key => (t.extractKeyFromItem key).bind fun k =>
      (t.rows k).map fun old => ⟨k, some old, none⟩

def changeEvent (c : RowChange) : String :=
  if c.after.isNone then "REMOVE" else if c.before.isSome then "MODIFY" else "INSERT"

/-- The stream record of the `n`-th change of a table with this key schema. -/
structure StreamRecord.Describes (r : StreamRecord) (t : Table) (n : Nat) (c : RowChange) :
    Prop where
  sequenceNumber : r.sequenceNumber = RustFmt.dec 20 n
  event : r.eventName = changeEvent c
  keys : t.extractKeyFromItem r.keys = some c.key
  newImage : r.newImage = c.after
  oldImage : r.oldImage = c.before

/-- What one change does to a table. -/
structure Table.Changed (t : Table) (c : RowChange) (t' : Table) : Prop where
  rows : t'.rows = c.apply t.rows
  before : c.before = t.rows c.key
  keyed : ∀ item, c.after = some item → t.extractKeyFromItem item = some c.key
  held : c.after = none → c.before ≠ none
  itemCount : t'.itemCount = if c.after.isNone then t.itemCount - 1
    else if c.before.isSome then t.itemCount else t.itemCount + 1
  keySchema : t'.keySchema = t.keySchema
  streamSpecification : t'.streamSpecification = t.streamSpecification
  streamArn : t'.streamArn = t.streamArn
  stream : t.streamSpecification.streamEnabled = true →
    t'.streamSequence = t.streamSequence + 1 ∧ ∃ r : StreamRecord,
      t'.streamRecords = ChangeLog.push 1000 t.streamRecords r ∧
      r.Describes t (t.streamSequence + 1) c

/-- Only the key schema decides the key strings of an item. -/
theorem Table.extractKey_congr {t t' : Table} (schema : t'.keySchema = t.keySchema)
    (keyStr : AttributeValue → Option String) (item : Item) :
    t'.extractKey keyStr item = t.extractKey keyStr item := by
  simp [Table.extractKey, Table.hashKeyName, Table.rangeKeyName, schema]

theorem Table.getElem?_copyKey_self (name : String) (item keys : Item)
    (agrees : keys[name]? = none ∨ keys[name]? = item[name]?) :
    (Table.copyKey (some name) item keys)[name]? = item[name]? := by
  cases found : item[name]? with
  | none => simpa [Table.copyKey, found] using agrees
  | some v => simp [Table.copyKey, found]

theorem Table.getElem?_copyKey_agrees (name : Option String) (item keys : Item) (a : String)
    (agrees : keys[a]? = item[a]?) : (Table.copyKey name item keys)[a]? = item[a]? := by
  cases name with
  | none => exact agrees
  | some n =>
    cases found : item[n]? with
    | none => simpa [Table.copyKey, found] using agrees
    | some v =>
      simp only [Table.copyKey, found, StrMap.getElem?_insert]
      split
      · next same => rw [← same, found]
      · exact agrees

theorem Table.getElem?_makeKeyMap_hash {hk : String} (hash : t.hashKeyName = some hk)
    (item : Item) : (t.makeKeyMap item)[hk]? = item[hk]? := by
  unfold Table.makeKeyMap
  rw [hash]
  apply Table.getElem?_copyKey_agrees
  apply Table.getElem?_copyKey_self
  simp

theorem Table.getElem?_makeKeyMap_range {rk : String}
    (range : t.rangeKeyName = some rk) (item : Item) : (t.makeKeyMap item)[rk]? = item[rk]? := by
  unfold Table.makeKeyMap
  rw [range]
  apply Table.getElem?_copyKey_self
  cases t.hashKeyName with
  | none => simp [Table.copyKey]
  | some hk =>
    cases found : item[hk]? with
    | none => simp [Table.copyKey, found]
    | some v =>
      simp only [Table.copyKey, found, StrMap.getElem?_insert]
      split
      · next same => exact Or.inr (by rw [← same, found])
      · exact Or.inl (by simp)

/-- The copied key attributes name the row of the item. -/
theorem Table.extractKey_makeKeyMap (keyStr : AttributeValue → Option String) (t : Table)
    (item : Item) : t.extractKey keyStr (t.makeKeyMap item) = t.extractKey keyStr item := by
  unfold Table.extractKey
  cases hash : t.hashKeyName with
  | none => rfl
  | some hk =>
    cases range : t.rangeKeyName with
    | none => simp [Table.getElem?_makeKeyMap_hash hash]
    | some rk => simp [Table.getElem?_makeKeyMap_hash hash, Table.getElem?_makeKeyMap_range range]

/-- The extractors as conditions on the key attributes. -/
theorem Table.extractKey_eq_some (keyStr : AttributeValue → Option String) (t : Table)
    (item : Item) (h s : String) :
    t.extractKey keyStr item = some (h, s) ↔ ∃ hk, t.hashKeyName = some hk ∧
      item[hk]?.bind keyStr = some h ∧
      (t.rangeKeyName.elim (some "") fun rk => item[rk]?.bind keyStr) = some s := by
  unfold Table.extractKey
  cases t.hashKeyName with
  | none => simp
  | some hk =>
    cases t.rangeKeyName with
    | none =>
      simp only [Option.bind_eq_bind, Option.bind_some, Option.elim_none, Option.some.injEq,
        Option.bind_eq_some_iff, Prod.mk.injEq, exists_eq_left']
      constructor
      · rintro ⟨v, found, text, filed, rfl, rfl⟩
        exact ⟨⟨v, found, filed⟩, rfl⟩
      · rintro ⟨⟨v, found, filed⟩, rfl⟩
        exact ⟨v, found, h, filed, rfl, rfl⟩
    | some rk =>
      simp only [Option.bind_eq_bind, Option.bind_some, Option.elim_some, Option.some.injEq,
        Option.bind_eq_some_iff, Prod.mk.injEq, exists_eq_left']
      constructor
      · rintro ⟨v, found, text, filed, w, foundRange, sortText, filedRange, rfl, rfl⟩
        exact ⟨⟨v, found, filed⟩, w, foundRange, filedRange⟩
      · rintro ⟨⟨v, found, filed⟩, w, foundRange, filedRange⟩
        exact ⟨v, found, h, filed, w, foundRange, s, filedRange, rfl, rfl⟩

/-- A key that can be read is the key its row is filed under. -/
theorem Table.extractKeyRef_some {item : Item}
    (asked : t.extractKeyRefFromItem item = some k) : t.extractKeyFromItem item = some k := by
  have filed : ∀ (n v : String), item[n]?.bind avToKeyStrRef = some v →
      item[n]?.bind avToKeyStr = some v := by
    intro n v text
    obtain ⟨a, found, ref⟩ := Option.bind_eq_some_iff.mp text
    exact Option.bind_eq_some_iff.mpr ⟨a, found, avToKeyStrRef_some ref⟩
  obtain ⟨h, s⟩ := k
  obtain ⟨hk, hash, hashText, rangeText⟩ := (Table.extractKey_eq_some _ _ _ _ _).mp asked
  refine (Table.extractKey_eq_some _ _ _ _ _).mpr ⟨hk, hash, filed hk h hashText, ?_⟩
  cases range : t.rangeKeyName with
  | none => simpa [range] using rangeText
  | some rk =>
    simp only [range, Option.elim_some] at rangeText ⊢
    exact filed rk s rangeText

theorem Table.appendStreamRecord_frame (t : Table) (now : Int) (e : String) (k : Item)
    (o n : Option Item) :
    (t.appendStreamRecord now e k o n).itemCount = t.itemCount ∧
      (t.appendStreamRecord now e k o n).keySchema = t.keySchema ∧
      (t.appendStreamRecord now e k o n).streamSpecification = t.streamSpecification ∧
      (t.appendStreamRecord now e k o n).streamArn = t.streamArn := by
  unfold Table.appendStreamRecord
  split <;> exact ⟨rfl, rfl, rfl, rfl⟩

theorem Table.appendStreamRecord_stream (t : Table) (now : Int) (e : String) (k : Item)
    (o n : Option Item) (enabled : t.streamSpecification.streamEnabled = true) :
    (t.appendStreamRecord now e k o n).streamSequence = t.streamSequence + 1 ∧
      (t.appendStreamRecord now e k o n).streamRecords =
        ChangeLog.push 1000 t.streamRecords
          ⟨RustFmt.dec 20 (t.streamSequence + 1), e, k, n, o, now⟩ := by
  simp [Table.appendStreamRecord, enabled, ChangeLog.push]

/-- The shared end of both writers: the rows, the counter and the indexes are already
stored, and the stream record of the change is appended. -/
theorem Table.changed_of_stored {t stored : Table} {keys : Item} (now : Int)
    (rows : stored.rows = c.apply t.rows) (before : c.before = t.rows c.key)
    (keyed : ∀ item, c.after = some item → t.extractKeyFromItem item = some c.key)
    (held : c.after = none → c.before ≠ none)
    (itemCount : stored.itemCount = if c.after.isNone then t.itemCount - 1
      else if c.before.isSome then t.itemCount else t.itemCount + 1)
    (keyMap : t.extractKeyFromItem keys = some c.key)
    (frame : stored.keySchema = t.keySchema ∧
      stored.streamSpecification = t.streamSpecification ∧ stored.streamArn = t.streamArn ∧
      stored.streamSequence = t.streamSequence ∧ stored.streamRecords = t.streamRecords) :
    t.Changed c (stored.appendStreamRecord now (changeEvent c) keys c.before c.after) := by
  obtain ⟨schema, spec, arn, sequence, records⟩ := frame
  obtain ⟨count', schema', spec', arn'⟩ :=
    stored.appendStreamRecord_frame now (changeEvent c) keys c.before c.after
  constructor
  case rows =>
    funext k
    rw [Table.rows, Table.appendStreamRecord_items, ← rows]
    rfl
  case before => exact before
  case keyed => exact keyed
  case held => exact held
  case itemCount => rw [count', itemCount]
  case keySchema => rw [schema', schema]
  case streamSpecification => rw [spec', spec]
  case streamArn => rw [arn', arn]
  case stream =>
    intro enabled
    obtain ⟨sequence', records'⟩ := stored.appendStreamRecord_stream now (changeEvent c) keys
      c.before c.after (by rw [spec, enabled])
    rw [sequence', records', sequence, records]
    exact ⟨rfl, _, rfl, rfl, rfl, keyMap, rfl, rfl⟩

theorem Table.putItem_changed {item : Item} (now : Int) (key : t.extractKeyFromItem item = some k) :
    t.Changed ⟨k, t.rows k, some item⟩ (t.putItem now item).2 := by
  obtain ⟨hk, sk⟩ := k
  simp only [Table.putItem, key]
  refine Table.changed_of_stored now ?_ rfl ?_ (by simp) ?_ ?_ ⟨rfl, rfl, rfl, rfl, rfl⟩
  · funext k
    simp only [Table.rows, row_insert, Change.apply, Function.update_apply, Prod.ext_iff, eq_comm]
  · rintro _ ⟨rfl⟩
    exact key
  · rfl
  · rw [Table.extractKeyFromItem, Table.extractKey_makeKeyMap, ← Table.extractKeyFromItem, key]

theorem Table.deleteItem_changed {key old : Item} (now : Int)
    (extracted : t.extractKeyFromItem key = some k) (present : t.rows k = some old) :
    t.Changed ⟨k, some old, none⟩ (t.deleteItem now key).2 := by
  obtain ⟨hk, sk⟩ := k
  obtain ⟨part, hpart, hold⟩ := Option.bind_eq_some_iff.mp present
  simp only at hpart hold
  simp only [Table.deleteItem, extracted, hpart, hold]
  refine Table.changed_of_stored now ?_ present.symm (by simp) (by simp) rfl ?_
    ⟨rfl, rfl, rfl, rfl, rfl⟩
  · funext k
    simp only [Table.rows, row_erase _ _ _ _ _ _ hpart, Change.apply, Function.update_apply,
      Prod.ext_iff, eq_comm]
  · rw [Table.extractKeyFromItem, Table.extractKey_makeKeyMap, ← Table.extractKeyFromItem, extracted]

/-- An effective call makes its change. -/
theorem Table.applyItem_changed {op : ItemOp}
    (effective : t.change op = some c) : t.Changed c (t.applyItem op) := by
  cases op with
  | putItem now item =>
    obtain ⟨k, key, rfl⟩ := Option.map_eq_some_iff.mp effective
    exact Table.putItem_changed now key
  | deleteItem now key =>
    obtain ⟨k, extracted, effective⟩ := Option.bind_eq_some_iff.mp effective
    obtain ⟨old, present, rfl⟩ := Option.map_eq_some_iff.mp effective
    exact Table.deleteItem_changed now extracted present

/-- Every other call leaves the table as it was. -/
theorem Table.applyItem_unchanged {op : ItemOp} (idle : t.change op = none) :
    t.applyItem op = t := by
  cases op with
  | putItem now item =>
    have unusable := Option.map_eq_none_iff.mp idle
    simp [Table.applyItem, Table.putItem, unusable]
  | deleteItem now key =>
    simp only [Table.applyItem, Table.deleteItem]
    cases extracted : t.extractKeyFromItem key with
    | none => rfl
    | some k =>
      obtain ⟨hk, sk⟩ := k
      simp only [Table.change, extracted, Option.bind_some, Option.map_eq_none_iff, Table.rows,
        row, Option.bind_eq_none_iff] at idle
      cases found : t.items[hk]? with
      | none => simp only [found]
      | some part => simp only [found, idle part found]

/-- Every stored row lies under its own key, and the counter counts the rows. -/
structure Table.RowInvariant (t : Table) : Prop where
  keyed : ∀ h s item, row t.items h s = some item → t.extractKeyFromItem item = some (h, s)
  counted : t.itemCount = t.allItems.length

/-- The number of stored items is the number of key pairs in use. -/
theorem Table.length_allItems (t : Table) :
    t.allItems.length = (ChangeLog.keys t.rows).ncard := by
  have distinct := Table.allRows_pairs_nodup t.items
  have pairs : ChangeLog.keys t.rows =
      (((Table.allRows t.items).map fun r => (r.1, r.2.1)).toFinset : Set (String × String)) := by
    ext k
    obtain ⟨h, s⟩ := k
    simp only [ChangeLog.keys, Table.rows, Set.mem_ofPred_eq, List.coe_toFinset, List.mem_map,
      Prod.exists, Prod.mk.injEq]
    constructor
    · intro used
      obtain ⟨item, found⟩ := Option.ne_none_iff_exists'.mp used
      exact ⟨h, s, item, Table.mem_allRows.mpr found, rfl, rfl⟩
    · rintro ⟨h', s', item, found, rfl, rfl⟩
      simp [Table.mem_allRows.mp found]
  rw [pairs, Set.ncard_coe_finset, List.toFinset_card_of_nodup distinct, Table.allItems_eq]
  simp

theorem Table.finite_keys (t : Table) : (ChangeLog.keys t.rows).Finite := by
  apply ((Table.allRows t.items).map fun r => (r.1, r.2.1)).finite_toSet.subset
  rintro ⟨h, s⟩ used
  obtain ⟨item, found⟩ := Option.ne_none_iff_exists'.mp used
  exact List.mem_map.mpr ⟨(h, s, item), Table.mem_allRows.mpr found, rfl⟩

/-- The counter follows the number of key pairs in use through one change. -/
theorem Table.Changed.counted {t t' : Table} (changed : t.Changed c t')
    (counted : t.itemCount = t.allItems.length) : t'.itemCount = t'.allItems.length := by
  rw [changed.itemCount, t'.length_allItems, changed.rows, counted, t.length_allItems]
  have finite := t.finite_keys
  have held : c.key ∈ ChangeLog.keys t.rows ↔ c.before ≠ none := by
    rw [changed.before]
    rfl
  cases after : c.after with
  | none =>
    have present := held.mpr (changed.held after)
    rw [ChangeLog.keys_apply_none _ _ after, Set.ncard_sdiff_singleton_of_mem present]
    rfl
  | some item =>
    rw [ChangeLog.keys_apply_some _ _ (by simp [after])]
    cases before : c.before with
    | none =>
      have absent : c.key ∉ ChangeLog.keys t.rows := by simp [held, before]
      rw [Set.ncard_insert_of_notMem absent finite]
      rfl
    | some old =>
      have present := held.mpr (by simp [before])
      rw [Set.insert_eq_of_mem present]
      rfl

theorem Table.Changed.invariant {t t' : Table} (changed : t.Changed c t')
    (before : t.RowInvariant) : t'.RowInvariant where
  keyed h s item found := by
    rw [Table.extractKeyFromItem, Table.extractKey_congr changed.keySchema]
    have stored : c.apply t.rows (h, s) = some item := by rw [← changed.rows]; exact found
    simp only [Change.apply, Function.update_apply] at stored
    split at stored
    · next same => rw [same]; exact changed.keyed item stored
    · exact before.keyed h s item stored
  counted := changed.counted before.counted

/-- One call of a writer of rows, the read-modify-write of UpdateItem included. -/
inductive RowOp where
  | item (op : ItemOp)
  | updateItem (now : Int) (key : Item) (updateExpr : Option String) (o : WriteOptions)

def Table.applyRow (D : DecimalOps) (t : Table) : RowOp → Table
  | .item op => t.applyItem op
  | .updateItem now key updateExpr o => (updateItemOn D now key updateExpr o t).2

/-- Whatever the update expression computes, UpdateItem either leaves the table or ends in
`put_item`, which files the item under the key it has by then. -/
theorem updateItemOn_cases (D : DecimalOps) (now : Int) (key : Item) (updateExpr : Option String)
    (o : WriteOptions) (t : Table) :
    (updateItemOn D now key updateExpr o t).2 = t ∨
      ∃ item, (updateItemOn D now key updateExpr o t).2 = t.applyItem (.putItem now item) := by
  unfold updateItemOn
  split
  · exact Or.inl rfl
  · split
    · exact Or.inl rfl
    · dsimp only
      split
      · exact Or.inl rfl
      · next newItem _ => exact Or.inr ⟨newItem, rfl⟩

/-- One call of a writer makes at most one change. -/
theorem Table.applyRow_cases (D : DecimalOps) (t : Table) (op : RowOp) :
    t.applyRow D op = t ∨ ∃ c, t.Changed c (t.applyRow D op) := by
  have item : ∀ op : ItemOp, t.applyItem op = t ∨ ∃ c, t.Changed c (t.applyItem op) := by
    intro op
    cases effective : t.change op with
    | none => exact Or.inl (Table.applyItem_unchanged effective)
    | some c => exact Or.inr ⟨c, Table.applyItem_changed effective⟩
  cases op with
  | item op => exact item op
  | updateItem now key updateExpr o =>
    rw [Table.applyRow]
    rcases updateItemOn_cases D now key updateExpr o t with same | ⟨stored, put⟩
    · exact Or.inl same
    · rw [put]
      exact item _

theorem Table.applyRow_invariant (D : DecimalOps) (t : Table) (op : RowOp)
    (before : t.RowInvariant) : (t.applyRow D op).RowInvariant := by
  rcases t.applyRow_cases D op with same | ⟨c, changed⟩
  · rwa [same]
  · exact changed.invariant before

theorem Table.new_invariant (tableId : String) (now : Int) (name accountId region : String)
    (keySchema : List KeySchemaElement) (defs : List AttributeDefinition)
    (gsis lsis : List SecondaryIndex) (spec : StreamSpecification) :
    (Table.new tableId now name accountId region keySchema defs gsis lsis spec).RowInvariant where
  keyed h s item found := by simp [Table.new, row] at found
  counted := rfl

/-- In every run of put_item, delete_item and UpdateItem from a fresh table, every state
keeps each row under its own key and counts its rows. -/
theorem row_invariant_along_run (D : DecimalOps) (tableId : String) (now : Int)
    (name accountId region : String) (keySchema : List KeySchemaElement)
    (defs : List AttributeDefinition) (gsis lsis : List SecondaryIndex)
    (spec : StreamSpecification) (ops : List RowOp) :
    Run.AllStates (Table.applyRow D) Table.RowInvariant
      (Table.new tableId now name accountId region keySchema defs gsis lsis spec) ops := by
  have start := Table.new_invariant tableId now name accountId region keySchema defs gsis lsis spec
  generalize Table.new tableId now name accountId region keySchema defs gsis lsis spec = t at start
  induction ops generalizing t with
  | nil => exact start
  | cons op rest ih => exact ⟨start, ih _ (t.applyRow_invariant D op start)⟩

end Openstack.DynamoDb

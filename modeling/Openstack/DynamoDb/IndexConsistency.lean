import Openstack.Lib.Run
import Openstack.DynamoDb.Table

/-!
# Secondary-index consistency

What `MaterializedIndex::add` files and what `MaterializedIndex::remove` takes
out, over whole runs of the four table writers. An index is consistent when its
buckets are exactly the stored rows that carry its keys. `remove` cannot name the
bucket of a Boolean hash attribute, so the condition under which a write keeps
every index consistent speaks about rows filed under a Boolean.
-/
namespace Openstack.DynamoDb

variable {idx : MaterializedIndex} {items : StrMap (StrMap Item)}

/-- The index files this item under bucket `v`. -/
def MaterializedIndex.Files (idx : MaterializedIndex) (item : Item) (v : String) : Prop :=
  item[idx.hashKeyName]?.bind avToKeyStr = some v ∧ idx.carriesRange item = true

/-- Bucket `v` holds exactly the primary keys of the stored rows filed under `v`,
without repetition, and no bucket is empty. -/
def IndexConsistent (items : StrMap (StrMap Item)) (idx : MaterializedIndex) : Prop :=
  idx.data.Represents (fun v p => ∃ item, row items p.1 p.2 = some item ∧ idx.Files item v)

/-- Every materialized index of the table is consistent with its rows. -/
def Table.IndexesConsistent (t : Table) : Prop :=
  ∀ (name : String) (idx : MaterializedIndex), t.indexData[name]? = some idx →
    IndexConsistent t.items idx

/-- One call of a table writer. -/
inductive TableOp where
  | putItem (now : Int) (item : Item)
  | deleteItem (now : Int) (key : Item)
  | addGsi (gsi : SecondaryIndex)
  | removeGsi (indexName : String)

def Table.apply (t : Table) : TableOp → Table
  | .putItem now item => (t.putItem now item).2
  | .deleteItem now key => (t.deleteItem now key).2
  | .addGsi gsi => t.addGsi gsi
  | .removeGsi indexName => t.removeGsi indexName

/-- The row stored at a key is filed by an index under a Boolean hash attribute. -/
def Table.FiledUnderBool (t : Table) (h s : String) (idx : MaterializedIndex) (x : Bool) : Prop :=
  ∃ old, row t.items h s = some old ∧ old[idx.hashKeyName]? = some (.bool x) ∧
    idx.carriesRange old = true

/-- A write that does not lose track of a row filed under a Boolean: a put may
only replace such a row by an item of the same bucket, and a delete may not hit
one at all. -/
def TableOp.KeepsTrack (t : Table) : TableOp → Prop
  | .putItem _ item => ∀ h s (name : String) idx x, t.extractKeyFromItem item = some (h, s) →
      t.indexData[name]? = some idx → t.FiledUnderBool h s idx x → idx.Files item (toString x)
  | .deleteItem _ key => ∀ h s (name : String) idx x, t.extractKeyFromItem key = some (h, s) →
      t.indexData[name]? = some idx → ¬ t.FiledUnderBool h s idx x
  | .addGsi _ => True
  | .removeGsi _ => True

theorem row_insert (items : StrMap (StrMap Item)) (h s h' s' : String) (item : Item) :
    row (items.insert h ((items[h]?.getD ∅).insert s item)) h' s' =
      if h = h' ∧ s = s' then some item else row items h' s' := by
  unfold row
  rw [StrMap.getElem?_insert]
  by_cases hh : h = h'
  · subst hh
    simp only [↓reduceIte, Option.bind_some, true_and, StrMap.getElem?_insert]
    split
    · rfl
    · cases items[h]? <;> simp
  · simp [hh]

theorem row_erase (items : StrMap (StrMap Item)) (part : StrMap Item) (h s h' s' : String)
    (hpart : items[h]? = some part) :
    row (items.insert h (part.erase s)) h' s' =
      if h = h' ∧ s = s' then none else row items h' s' := by
  unfold row
  rw [StrMap.getElem?_insert]
  by_cases hh : h = h'
  · subst hh
    simp [hpart, StrMap.getElem?_erase]
  · simp [hh]

@[simp] theorem Table.appendStreamRecord_items (t : Table) (now : Int) (e : String) (k : Item)
    (o n : Option Item) : (t.appendStreamRecord now e k o n).items = t.items := by
  unfold Table.appendStreamRecord; split <;> rfl

@[simp] theorem Table.appendStreamRecord_indexData (t : Table) (now : Int) (e : String) (k : Item)
    (o n : Option Item) : (t.appendStreamRecord now e k o n).indexData = t.indexData := by
  unfold Table.appendStreamRecord; split <;> rfl

@[simp] theorem MaterializedIndex.add_names (idx : MaterializedIndex) (item : Item) (h s : String) :
    (idx.add item h s).hashKeyName = idx.hashKeyName ∧
      (idx.add item h s).rangeKeyName = idx.rangeKeyName := by
  unfold MaterializedIndex.add; split
  · exact ⟨rfl, rfl⟩
  · split <;> exact ⟨rfl, rfl⟩

@[simp] theorem MaterializedIndex.remove_names (idx : MaterializedIndex) (item : Item)
    (h s : String) : (idx.remove item h s).hashKeyName = idx.hashKeyName ∧
      (idx.remove item h s).rangeKeyName = idx.rangeKeyName := by
  unfold MaterializedIndex.remove; split <;> exact ⟨rfl, rfl⟩

/-- Only the two key names decide what an index files. -/
theorem MaterializedIndex.files_congr {idx idx' : MaterializedIndex}
    (h : idx'.hashKeyName = idx.hashKeyName) (r : idx'.rangeKeyName = idx.rangeKeyName)
    (item : Item) (v : String) : idx'.Files item v ↔ idx.Files item v := by
  simp [MaterializedIndex.Files, MaterializedIndex.carriesRange, h, r]

theorem MaterializedIndex.add_represents
    {rel : String → String × String → Prop} (before : idx.data.Represents rel) (item : Item)
    (h s : String) :
    (idx.add item h s).data.Represents
      (fun v p => rel v p ∨ (idx.Files item v ∧ p = (h, s))) := by
  unfold MaterializedIndex.add
  split
  · next hnone =>
    apply before.congr
    intro v p
    simp [MaterializedIndex.Files, hnone]
  · next hv hsome =>
    split
    · next hrange =>
      apply (before.add hv (h, s)).congr
      intro v p
      simp [MaterializedIndex.Files, hsome, hrange, eq_comm]
    · next hrange =>
      apply before.congr
      intro v p
      simp [MaterializedIndex.Files, hrange]

/-- `remove` deletes the pair from the bucket it can name, and only there. -/
theorem MaterializedIndex.remove_represents
    {rel : String → String × String → Prop} (before : idx.data.Represents rel) (item : Item)
    (h s : String) :
    (idx.remove item h s).data.Represents
      (fun v p => rel v p ∧
        ¬ (item[idx.hashKeyName]?.bind avToKeyStrRef = some v ∧ p = (h, s))) := by
  unfold MaterializedIndex.remove
  split
  · next hnone =>
    apply before.congr
    intro v p
    simp [hnone]
  · next hv hsome =>
    apply (before.remove hv (h, s)).congr
    intro v p
    simp [hsome, eq_comm]

/-- A row is filed under a bucket that `remove` does not name exactly when its
hash attribute is a Boolean. -/
theorem MaterializedIndex.files_unnamed_iff (idx : MaterializedIndex) (old : Item) (v : String) :
    (idx.Files old v ∧ old[idx.hashKeyName]?.bind avToKeyStrRef ≠ some v) ↔
      ∃ x, old[idx.hashKeyName]? = some (.bool x) ∧ v = toString x ∧
        idx.carriesRange old = true := by
  unfold MaterializedIndex.Files
  cases hattr : old[idx.hashKeyName]? with
  | none => simp
  | some av =>
    simp only [Option.bind_some, Option.some.injEq]
    constructor
    · rintro ⟨⟨hkey, hrange⟩, href⟩
      rcases avToKeyStr_cases hkey with hnamed | ⟨x, hx, hv⟩
      · exact absurd hnamed href
      · exact ⟨x, hx, hv, hrange⟩
    · rintro ⟨x, rfl, rfl, hrange⟩
      exact ⟨⟨rfl, hrange⟩, by simp [avToKeyStrRef]⟩

/-- Take the replaced row, if any, out of one index. -/
def MaterializedIndex.unindex (idx : MaterializedIndex) (old : Option Item) (h s : String) :
    MaterializedIndex :=
  match old with
  | none => idx
  | some oldItem => idx.remove oldItem h s

theorem Table.getElem?_unindex (data : StrMap MaterializedIndex) (old : Option Item)
    (h s name : String) :
    (Table.unindex data old h s)[name]? = data[name]?.map (fun idx => idx.unindex old h s) := by
  cases old with
  | none => simp [Table.unindex, MaterializedIndex.unindex]
  | some oldItem => simp [Table.unindex, MaterializedIndex.unindex]

theorem MaterializedIndex.unindex_names (idx : MaterializedIndex) (old : Option Item)
    (h s : String) : (idx.unindex old h s).hashKeyName = idx.hashKeyName ∧
      (idx.unindex old h s).rangeKeyName = idx.rangeKeyName := by
  cases old with
  | none => exact ⟨rfl, rfl⟩
  | some oldItem => exact idx.remove_names oldItem h s

/-- After the removal loop an index still files every other row, and of the
removed row exactly the entry under a Boolean. -/
theorem unindex_represents (before : IndexConsistent items idx) (h s : String) :
    (idx.unindex (row items h s) h s).data.Represents (fun v p =>
      (p ≠ (h, s) ∧ ∃ item, row items p.1 p.2 = some item ∧ idx.Files item v) ∨
      (p = (h, s) ∧ ∃ old x, row items h s = some old ∧ old[idx.hashKeyName]? = some (.bool x) ∧
        v = toString x ∧ idx.carriesRange old = true)) := by
  unfold MaterializedIndex.unindex
  cases hrow : row items h s with
  | none =>
    apply before.congr
    intro v p
    by_cases hp : p = (h, s)
    · simp [hp, hrow]
    · simp [hp]
  | some old =>
    apply (idx.remove_represents before old h s).congr
    intro v p
    by_cases hp : p = (h, s)
    · have hfiled := idx.files_unnamed_iff old v
      simp only [ne_eq] at hfiled
      simp [hp, hrow, hfiled]
    · simp [hp]

/-- A put keeps an index consistent exactly when the replaced row, if it was
filed under a Boolean, is replaced by an item of the same bucket. -/
theorem put_consistent_iff (before : IndexConsistent items idx) (item : Item) (h s : String) :
    IndexConsistent (items.insert h ((items[h]?.getD ∅).insert s item))
        ((idx.unindex (row items h s) h s).add item h s) ↔
      ∀ old x, row items h s = some old → old[idx.hashKeyName]? = some (.bool x) →
        idx.carriesRange old = true → idx.Files item (toString x) := by
  have names := idx.unindex_names (row items h s) h s
  have filesMid := MaterializedIndex.files_congr names.1 names.2
  have namesAdd := (idx.unindex (row items h s) h s).add_names item h s
  have filesAfter := MaterializedIndex.files_congr namesAdd.1 namesAdd.2
  have after := (idx.unindex (row items h s) h s).add_represents
    (unindex_represents before h s) item h s
  unfold IndexConsistent
  rw [after.iff_same]
  simp only [filesMid, filesAfter, row_insert]
  constructor
  · intro same old x hrow hbool hrange
    have hmem := (same (toString x) (h, s)).mp
      (Or.inl (Or.inr ⟨rfl, old, x, hrow, hbool, rfl, hrange⟩))
    simpa using hmem
  · intro covered v p
    obtain ⟨ph, ps⟩ := p
    by_cases hp : h = ph ∧ s = ps
    · obtain ⟨rfl, rfl⟩ := hp
      simp only [ne_eq, not_true_eq_false, false_and, true_and, false_or, and_self, ↓reduceIte,
        Option.some.injEq, exists_eq_left', and_true]
      constructor
      · rintro (⟨old, x, hrow, hbool, rfl, hrange⟩ | hfiles)
        · exact covered old x hrow hbool hrange
        · exact hfiles
      · exact Or.inr
    · have hne : (ph, ps) ≠ (h, s) := by
        intro he
        simp only [Prod.mk.injEq] at he
        exact hp ⟨he.1.symm, he.2.symm⟩
      simp [hp, hne]

/-- A delete keeps an index consistent exactly when the deleted row was not filed
under a Boolean. -/
theorem delete_consistent_iff
    (before : IndexConsistent items idx) (part : StrMap Item) (h s : String)
    (hpart : items[h]? = some part) :
    IndexConsistent (items.insert h (part.erase s)) (idx.unindex (row items h s) h s) ↔
      ∀ old x, row items h s = some old → old[idx.hashKeyName]? = some (.bool x) →
        idx.carriesRange old ≠ true := by
  have names := idx.unindex_names (row items h s) h s
  have filesMid := MaterializedIndex.files_congr names.1 names.2
  unfold IndexConsistent
  rw [(unindex_represents before h s).iff_same]
  simp only [filesMid, row_erase items part h s _ _ hpart]
  constructor
  · intro same old x hrow hbool hrange
    have hmem := (same (toString x) (h, s)).mp (Or.inr ⟨rfl, old, x, hrow, hbool, rfl, hrange⟩)
    simp at hmem
  · intro covered v p
    obtain ⟨ph, ps⟩ := p
    by_cases hp : h = ph ∧ s = ps
    · obtain ⟨rfl, rfl⟩ := hp
      simp only [ne_eq, not_true_eq_false, false_and, true_and, false_or, and_self, ↓reduceIte,
        reduceCtorEq, exists_const, iff_false, not_exists, not_and]
      intro old x hrow hbool _ hrange
      exact covered old x hrow hbool hrange
    · have hne : (ph, ps) ≠ (h, s) := by
        intro he
        simp only [Prod.mk.injEq] at he
        exact hp ⟨he.1.symm, he.2.symm⟩
      simp [hp, hne]

theorem Table.mem_allRows {h s : String} {item : Item} :
    (h, s, item) ∈ Table.allRows items ↔ row items h s = some item := by
  simp only [Table.allRows, List.mem_flatMap, List.mem_map, Prod.mk.injEq, Prod.exists, row,
    Option.bind_eq_some_iff]
  constructor
  · rintro ⟨h', part, hpart, s', item', hitem, rfl, rfl, rfl⟩
    exact ⟨part, Std.ExtTreeMap.mem_toList_iff_getElem?_eq_some.mp hpart,
      Std.ExtTreeMap.mem_toList_iff_getElem?_eq_some.mp hitem⟩
  · rintro ⟨part, hpart, hitem⟩
    exact ⟨h, part, Std.ExtTreeMap.mem_toList_iff_getElem?_eq_some.mpr hpart, s, item,
      Std.ExtTreeMap.mem_toList_iff_getElem?_eq_some.mpr hitem, rfl, rfl, rfl⟩

/-- The back-fill loop over any list of rows adds exactly those rows. -/
theorem MaterializedIndex.backfill_represents (rows : List (String × String × Item))
    (idx : MaterializedIndex) (rel : String → String × String → Prop)
    (before : idx.data.Represents rel) :
    let filled := rows.foldl (fun acc r => acc.add r.2.2 r.1 r.2.1) idx
    filled.hashKeyName = idx.hashKeyName ∧ filled.rangeKeyName = idx.rangeKeyName ∧
    filled.data.Represents (fun v p =>
      rel v p ∨ ∃ item, (p.1, p.2, item) ∈ rows ∧ idx.Files item v) := by
  induction rows generalizing idx rel with
  | nil => exact ⟨rfl, rfl, before.congr (by simp)⟩
  | cons r rest ih =>
    obtain ⟨h, s, item⟩ := r
    have names := idx.add_names item h s
    obtain ⟨hash, range, filled⟩ := ih (idx.add item h s) _ (idx.add_represents before item h s)
    refine ⟨hash.trans names.1, range.trans names.2, filled.congr ?_⟩
    intro v p
    simp only [MaterializedIndex.files_congr names.1 names.2, List.mem_cons, Prod.mk.injEq]
    obtain ⟨ph, ps⟩ := p
    constructor
    · rintro ((hrel | ⟨hfiles, hp⟩) | ⟨item', hmem, hfiles⟩)
      · exact Or.inl hrel
      · simp only [Prod.mk.injEq] at hp
        exact Or.inr ⟨item, Or.inl ⟨hp.1, hp.2, rfl⟩, hfiles⟩
      · exact Or.inr ⟨item', Or.inr hmem, hfiles⟩
    · rintro (hrel | ⟨item', ⟨rfl, rfl, rfl⟩ | hmem, hfiles⟩)
      · exact Or.inl (Or.inl hrel)
      · exact Or.inl (Or.inr ⟨hfiles, rfl⟩)
      · exact Or.inr ⟨item', hmem, hfiles⟩

theorem backfill_consistent (items : StrMap (StrMap Item)) (schema : List KeySchemaElement) :
    IndexConsistent items ((Table.allRows items).foldl (fun acc r => acc.add r.2.2 r.1 r.2.1)
      (MaterializedIndex.ofSchema schema)) := by
  obtain ⟨hash, range, filled⟩ := MaterializedIndex.backfill_represents (Table.allRows items)
    (MaterializedIndex.ofSchema schema) _ Buckets.represents_empty
  apply filled.congr
  intro v p
  simp [MaterializedIndex.files_congr hash range, Table.mem_allRows]

theorem putItem_consistent_iff (t : Table) (now : Int) (item : Item)
    (before : t.IndexesConsistent) :
    (t.putItem now item).2.IndexesConsistent ↔ (TableOp.putItem now item).KeepsTrack t := by
  rw [TableOp.KeepsTrack]
  unfold Table.putItem Table.FiledUnderBool
  cases hkey : t.extractKeyFromItem item with
  | none => simpa using before
  | some key =>
    obtain ⟨h, s⟩ := key
    simp only [Table.IndexesConsistent, Table.appendStreamRecord_items,
      Table.appendStreamRecord_indexData, StrMap.getElem?_mapValues, Table.getElem?_unindex,
      Option.map_map, Option.map_eq_some_iff, Function.comp_apply, Option.some.injEq,
      Prod.mk.injEq]
    constructor
    · rintro after h' s' name idx x ⟨rfl, rfl⟩ hidx ⟨old, hrow, hbool, hrange⟩
      exact (put_consistent_iff (before name idx hidx) item h s).mp
        (after name _ ⟨idx, hidx, rfl⟩) old x hrow hbool hrange
    · rintro covered name idx' ⟨idx, hidx, rfl⟩
      refine (put_consistent_iff (before name idx hidx) item h s).mpr ?_
      intro old x hrow hbool hrange
      exact covered h s name idx x ⟨rfl, rfl⟩ hidx ⟨old, hrow, hbool, hrange⟩

theorem deleteItem_consistent_iff (t : Table) (now : Int) (key : Item)
    (before : t.IndexesConsistent) :
    (t.deleteItem now key).2.IndexesConsistent ↔ (TableOp.deleteItem now key).KeepsTrack t := by
  rw [TableOp.KeepsTrack]
  unfold Table.deleteItem Table.FiledUnderBool
  cases hkey : t.extractKeyFromItem key with
  | none => simpa using before
  | some pair =>
    obtain ⟨h, s⟩ := pair
    simp only [Option.some.injEq, Prod.mk.injEq, not_exists, not_and]
    split
    · next hnone =>
      simp only [before, true_iff]
      rintro h' s' name idx x ⟨rfl, rfl⟩ _ old hrow
      simp [row, hnone] at hrow
    · next part hpart =>
      split
      · next hnone =>
        simp only [before, true_iff]
        rintro h' s' name idx x ⟨rfl, rfl⟩ _ old hrow
        simp [row, hpart, hnone] at hrow
      · next oldItem hold =>
        have hrow : row t.items h s = some oldItem := by simp [row, hpart, hold]
        simp only [Table.IndexesConsistent, Table.appendStreamRecord_items,
          Table.appendStreamRecord_indexData, Table.getElem?_unindex, Option.map_eq_some_iff]
        rw [← hrow]
        constructor
        · rintro after h' s' name idx x ⟨rfl, rfl⟩ hidx old hrow' hbool
          exact (delete_consistent_iff (before name idx hidx) part h s hpart).mp
            (after name _ ⟨idx, hidx, rfl⟩) old x hrow' hbool
        · rintro covered name idx' ⟨idx, hidx, rfl⟩
          refine (delete_consistent_iff (before name idx hidx) part h s hpart).mpr ?_
          intro old x hrow' hbool
          exact covered h s name idx x ⟨rfl, rfl⟩ hidx old hrow' hbool

theorem addGsi_consistent (t : Table) (gsi : SecondaryIndex) (before : t.IndexesConsistent) :
    (t.addGsi gsi).IndexesConsistent := by
  intro name idx hidx
  simp only [Table.addGsi, StrMap.getElem?_insert] at hidx
  split at hidx
  · cases hidx
    exact backfill_consistent t.items gsi.keySchema
  · exact before name idx hidx

theorem removeGsi_consistent (t : Table) (indexName : String) (before : t.IndexesConsistent) :
    (t.removeGsi indexName).IndexesConsistent := by
  intro name idx hidx
  simp only [Table.removeGsi, StrMap.getElem?_erase] at hidx
  split at hidx
  · cases hidx
  · exact before name idx hidx

/-- From a consistent table, one writer call leaves every index consistent
exactly when it keeps track of the rows filed under a Boolean. -/
theorem apply_consistent_iff (t : Table) (op : TableOp) (before : t.IndexesConsistent) :
    (t.apply op).IndexesConsistent ↔ op.KeepsTrack t := by
  cases op with
  | putItem now item => exact putItem_consistent_iff t now item before
  | deleteItem now key => exact deleteItem_consistent_iff t now key before
  | addGsi gsi => exact iff_of_true (addGsi_consistent t gsi before) trivial
  | removeGsi name => exact iff_of_true (removeGsi_consistent t name before) trivial

theorem Table.insertIndexes_data (data : StrMap MaterializedIndex) (indexes : List SecondaryIndex)
    (before : ∀ (name : String) idx, data[name]? = some idx → idx.data = ∅) :
    ∀ (name : String) idx, (Table.insertIndexes data indexes)[name]? = some idx →
      idx.data = ∅ := by
  induction indexes generalizing data with
  | nil => exact before
  | cons i rest ih =>
    apply ih
    intro name idx hidx
    rw [StrMap.getElem?_insert] at hidx
    split at hidx
    · cases hidx
      rfl
    · exact before name idx hidx

theorem new_consistent (tableId : String) (now : Int) (name accountId region : String)
    (keySchema : List KeySchemaElement) (defs : List AttributeDefinition)
    (gsis lsis : List SecondaryIndex) (spec : StreamSpecification) :
    (Table.new tableId now name accountId region keySchema defs gsis lsis
      spec).IndexesConsistent := by
  intro idxName idx hidx
  have empty := Table.insertIndexes_data _ lsis
    (Table.insertIndexes_data ∅ gsis (by simp)) idxName idx hidx
  unfold IndexConsistent
  rw [empty]
  apply Buckets.represents_empty.congr
  intro v p
  simp [Table.new, row]

/-- In every run from a fresh table, all indexes are consistent in every state
reached if and only if no write loses track of a row filed under a Boolean. -/
theorem indexes_consistent_along_run_iff (tableId : String) (now : Int)
    (name accountId region : String) (keySchema : List KeySchemaElement)
    (defs : List AttributeDefinition) (gsis lsis : List SecondaryIndex)
    (spec : StreamSpecification) (ops : List TableOp) :
    Run.AllStates Table.apply Table.IndexesConsistent
        (Table.new tableId now name accountId region keySchema defs gsis lsis spec) ops ↔
      Run.AllSteps Table.apply (fun t op => op.KeepsTrack t)
        (Table.new tableId now name accountId region keySchema defs gsis lsis spec) ops :=
  Run.allStates_iff_allSteps apply_consistent_iff _ _
    (new_consistent tableId now name accountId region keySchema defs gsis lsis spec)

/-- A table with partition key `pk` and one global index on `flag`. -/
def flagTable : Table :=
  Table.new "id" 0 "t" "000000000000" "us-east-1" [⟨"pk", .hash⟩] []
    [⟨"byFlag", [⟨"flag", .hash⟩], ⟨"ALL", []⟩, 0⟩] [] ⟨false, none⟩

def flaggedItem : Item := (∅ : Item).insert "pk" (.s "1") |>.insert "flag" (.bool true)

/-- Putting a row whose index attribute is the Boolean `true` and deleting it
again leaves its primary key in bucket `"true"`. -/
theorem deleted_bool_row_stays_indexed :
    ¬ Run.AllStates Table.apply Table.IndexesConsistent flagTable
      [.putItem 0 flaggedItem, .deleteItem 0 flaggedItem] := by
  rintro ⟨_, _, final⟩
  have stale : (((flagTable.apply (.putItem 0 flaggedItem)).apply
      (.deleteItem 0 flaggedItem)).indexData["byFlag"]?.map (fun idx => idx.data.bucket "true")) =
        some [("1", "")] := by decide
  obtain ⟨idx, hidx, hbucket⟩ := Option.map_eq_some_iff.mp stale
  have gone : (row ((flagTable.apply (.putItem 0 flaggedItem)).apply
      (.deleteItem 0 flaggedItem)).items "1" "").isNone = true := by decide
  obtain ⟨item, hrow, _⟩ := ((final "byFlag" idx hidx).mem_iff "true" ("1", "")).mp
    (by simp [hbucket])
  simp [hrow] at gone

end Openstack.DynamoDb

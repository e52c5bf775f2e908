import Openstack.DynamoDb.IndexConsistency
import Openstack.DynamoDb.Query

/-!
# The three index read paths

A query through the materialized index, the full scan it replaces, and the
pruning of Scan select rows by three separately written tests. They agree on a
row exactly when the row is *regular* for the index: an index hash attribute of
type string, number or binary comes with the index range attribute, and one of
any other type comes without it.
-/
namespace Openstack.DynamoDb

variable {t : Table} {i : SecondaryIndex} {idx : MaterializedIndex} {item : Item}

namespace SecondaryIndex

def hashKey (i : SecondaryIndex) : Option String := keyName .hash i.keySchema

def rangeKey (i : SecondaryIndex) : Option String := keyName .range i.keySchema

/-- The two indexes are keyed by the same attributes. -/
def SameKeys (i j : SecondaryIndex) : Prop := i.hashKey = j.hashKey ∧ i.rangeKey = j.rangeKey

instance (i j : SecondaryIndex) : Decidable (i.SameKeys j) := inferInstanceAs (Decidable (_ ∧ _))

def carriesRange (i : SecondaryIndex) (item : Item) : Bool :=
  match i.rangeKey with
  | none => true
  | some rk => item.contains rk

/-- The item looks the same to the three read paths of this index. -/
def regular (i : SecondaryIndex) (item : Item) : Bool :=
  match item[i.hashKey.getD ""]? with
  | none => true
  | some (.s _) => i.hashKey.isSome && i.carriesRange item
  | some (.n _) => i.hashKey.isSome && i.carriesRange item
  | some (.b _) => i.hashKey.isSome && i.carriesRange item
  | some (.bool _) => !i.carriesRange item
  | some _ => !(i.hashKey.isSome && i.carriesRange item)

end SecondaryIndex

/-- Every index the table lists, global ones first. -/
def Table.listedIndexes (t : Table) : List SecondaryIndex :=
  t.globalSecondaryIndexes ++ t.localSecondaryIndexes

/-- For every listed index name, the materialized branch returns the rows of the
full scan, and Scan keeps exactly the rows some query on that index returns. -/
def Table.IndexReadsAgree (t : Table) : Prop :=
  ∀ i ∈ t.listedIndexes,
    (∀ idx, t.indexData[i.indexName]? = some idx → ∀ v rc forward,
      (t.queryMaterialized idx v rc forward).Perm (t.queryFullScan i.indexName v rc forward)) ∧
    (∀ item, item ∈ (t.scanPreFilter (some i.indexName)).getD [] ↔
      ∃ v, item ∈ t.query v none (some i.indexName) true)

/-- A write that keeps the read paths together: a stored item is regular for
every listed index, and a new index neither reuses a name for other keys nor
meets an irregular row. -/
def TableOp.KeepsReads (t : Table) : TableOp → Prop
  | .putItem _ item => (t.extractKeyFromItem item).isSome = true →
      ∀ i ∈ t.listedIndexes, i.regular item = true
  | .deleteItem _ _ => True
  | .addGsi gsi => (∀ i ∈ t.listedIndexes, i.indexName = gsi.indexName → i.SameKeys gsi) ∧
      ∀ r ∈ Table.allRows t.items, gsi.regular r.2.2 = true
  | .removeGsi _ => True

instance (t : Table) : (op : TableOp) → Decidable (op.KeepsReads t)
  | .putItem _ item => inferInstanceAs (Decidable ((t.extractKeyFromItem item).isSome = true →
      ∀ i ∈ t.listedIndexes, i.regular item = true))
  | .deleteItem _ _ => isTrue trivial
  | .addGsi gsi => inferInstanceAs (Decidable
      ((∀ i ∈ t.listedIndexes, i.indexName = gsi.indexName → i.SameKeys gsi) ∧
        ∀ r ∈ Table.allRows t.items, gsi.regular r.2.2 = true))
  | .removeGsi _ => isTrue trivial

theorem Table.allItems_eq (t : Table) : t.allItems = (Table.allRows t.items).map (·.2.2) := by
  simp only [Table.allItems, Table.allRows, StrMap.values, List.map_flatMap, List.flatMap_map,
    List.map_map, Function.comp_def]

theorem Table.mem_allItems :
    item ∈ t.allItems ↔ ∃ h s, row t.items h s = some item := by
  rw [Table.allItems_eq]
  simp [Table.mem_allRows]

theorem keys_nodup {V : Type} (m : StrMap V) : (m.toList.map Prod.fst).Nodup := by
  rw [List.Nodup, List.pairwise_map]
  have distinct := Std.ExtTreeMap.distinct_keys_toList (t := m)
  refine distinct.imp ?_
  intro a b hne heq
  exact hne (by rw [heq]; exact Std.ReflCmp.compare_self)

/-- No primary-key pair occurs twice among the rows. -/
theorem Table.allRows_pairs_nodup (items : StrMap (StrMap Item)) :
    ((Table.allRows items).map (fun r => (r.1, r.2.1))).Nodup := by
  have hkeys := keys_nodup items
  unfold Table.allRows
  generalize items.toList = parts at hkeys ⊢
  induction parts with
  | nil => simp
  | cons p rest ih =>
    simp only [List.map_cons, List.nodup_cons] at hkeys
    simp only [List.flatMap_cons, List.map_append, List.map_map, Function.comp_def,
      List.nodup_append]
    refine ⟨?_, ih hkeys.2, ?_⟩
    · have hpart := keys_nodup p.2
      rw [List.Nodup, List.pairwise_map] at hpart ⊢
      exact hpart.imp (fun hne heq => hne (Prod.mk.inj heq).2)
    · intro a ha b hb heq
      subst heq
      simp only [List.mem_map] at ha
      obtain ⟨q, _, rfl⟩ := ha
      simp only [List.map_flatMap, List.mem_flatMap, List.map_map, List.mem_map,
        Function.comp_apply, Prod.mk.injEq] at hb
      obtain ⟨p', hp', q', _, hfst, _⟩ := hb
      exact hkeys.1 (List.mem_map.mpr ⟨p', hp', hfst⟩)

/-- `idx` is the materialized form of the index definition `i`. -/
def MaterializedIndex.KeyedBy (idx : MaterializedIndex) (i : SecondaryIndex) : Prop :=
  idx.hashKeyName = i.hashKey.getD "" ∧ idx.rangeKeyName = i.rangeKey

theorem MaterializedIndex.carriesRange_keyedBy
    (keyed : idx.KeyedBy i) (item : Item) : idx.carriesRange item = i.carriesRange item := by
  cases range : i.rangeKey <;>
    simp [MaterializedIndex.carriesRange, SecondaryIndex.carriesRange, keyed.2, range]

/-- On a regular item the write-side test is the read-side test. -/
theorem files_iff_ref (keyed : idx.KeyedBy i) (regular : i.regular item = true) (v : String) :
    idx.Files item v ↔ item[i.hashKey.getD ""]?.bind avToKeyStrRef = some v := by
  unfold MaterializedIndex.Files
  rw [MaterializedIndex.carriesRange_keyedBy keyed, keyed.1]
  unfold SecondaryIndex.regular at regular
  cases hattr : item[i.hashKey.getD ""]? with
  | none => simp
  | some av =>
    rw [hattr] at regular
    cases av <;> simp_all [avToKeyStr, avToKeyStrRef]

/-- On a regular item the test of Scan says that some query returns it. -/
theorem scan_iff_ref (regular : i.regular item = true) :
    (∃ hk, i.hashKey = some hk ∧ item.contains hk = true ∧ i.carriesRange item = true) ↔
      ∃ v, item[i.hashKey.getD ""]?.bind avToKeyStrRef = some v := by
  unfold SecondaryIndex.regular at regular
  cases hattr : item[i.hashKey.getD ""]? with
  | none =>
    simp only [Option.bind_none, reduceCtorEq, exists_false, iff_false, not_exists, not_and]
    intro hk hhk hcontains
    rw [hhk, Option.getD_some] at hattr
    have habsent : hk ∉ item := by simpa using hattr
    exact absurd hcontains (by simpa using habsent)
  | some av =>
    have present : ∀ hk, i.hashKey = some hk → item.contains hk = true := by
      intro hk hhk
      rw [hhk, Option.getD_some] at hattr
      rw [Std.ExtTreeMap.contains_eq_isSome_getElem?, hattr]
      rfl
    rw [hattr] at regular
    cases hkey : i.hashKey with
    | none => cases av <;> simp_all [avToKeyStrRef]
    | some hk =>
      have hcontains := present hk hkey
      cases av <;> simp_all [avToKeyStrRef]

/-- The shape the three read paths rely on. -/
structure Table.ReadsInvariant (t : Table) : Prop where
  consistent : t.IndexesConsistent
  coherent : ∀ i ∈ t.listedIndexes, ∀ j ∈ t.listedIndexes, i.indexName = j.indexName → i.SameKeys j
  keyed : ∀ (name : String) idx, t.indexData[name]? = some idx →
    ∃ i ∈ t.listedIndexes, i.indexName = name ∧ idx.KeyedBy i
  regular : ∀ i ∈ t.listedIndexes, ∀ h s item, row t.items h s = some item → i.regular item = true

/-- Looking a listed name up finds an index with the same keys. -/
theorem Table.findIndex_sameKeys (inv : t.ReadsInvariant) (listed : i ∈ t.listedIndexes) :
    t.indexHashKey i.indexName = i.hashKey ∧ t.indexRangeKey i.indexName = i.rangeKey := by
  cases hfound : t.findIndex i.indexName with
  | none =>
    have absent := List.find?_eq_none.mp hfound i listed
    simp at absent
  | some j =>
    have hname : j.indexName = i.indexName := by simpa using List.find?_some hfound
    have same := inv.coherent j (List.mem_of_find?_eq_some hfound) i listed hname
    simp only [Table.indexHashKey, Table.indexRangeKey, hfound, Option.bind_some]
    exact same

theorem sortRows_perm (rk : Option String) (forward : Bool) (items : List Item) :
    (Table.sortRows rk forward items).Perm items := by
  unfold Table.sortRows
  split
  · exact List.Perm.refl _
  · exact List.perm_insertionSort _ _

/-- The rows behind a bucket are the rows a full scan selects. -/
theorem bucket_rows_perm (inv : t.ReadsInvariant) (listed : i ∈ t.listedIndexes)
    (hidx : t.indexData[i.indexName]? = some idx) (keyed : idx.KeyedBy i) (v : String) :
    ((idx.data.bucket v).filterMap (fun p => row t.items p.1 p.2)).Perm
      (t.allItems.filter (fun item => item[i.hashKey.getD ""]?.bind avToKeyStrRef == some v)) := by
  have consistent := inv.consistent i.indexName idx hidx
  rw [Table.allItems_eq, List.filter_map]
  -- both sides are indexed by primary-key pairs, which do not repeat
  have pairs : (idx.data.bucket v).Perm (((Table.allRows t.items).filter
      ((fun item : Item => item[i.hashKey.getD ""]?.bind avToKeyStrRef == some v) ∘ (·.2.2))).map
        (fun r => (r.1, r.2.1))) := by
    rw [List.perm_ext_iff_of_nodup (consistent.nodup v)
      (((Table.allRows_pairs_nodup t.items).of_map _).filter _ |>.map_on ?_)]
    · intro p
      obtain ⟨h, s⟩ := p
      rw [consistent.mem_iff]
      simp only [List.mem_map, List.mem_filter, Function.comp_apply, beq_iff_eq, Prod.exists,
        Prod.mk.injEq, Table.mem_allRows]
      constructor
      · intro hfiled
        obtain ⟨item, hrow, hfiles⟩ := hfiled
        exact ⟨h, s, item, ⟨hrow, (files_iff_ref keyed (inv.regular i listed h s item hrow) v).mp
          hfiles⟩, rfl, rfl⟩
      · intro hsel
        obtain ⟨h', s', item, ⟨hrow, href⟩, rfl, rfl⟩ := hsel
        exact ⟨item, hrow, (files_iff_ref keyed (inv.regular i listed h' s' item hrow) v).mpr href⟩
    · intro r hr r' hr' heq
      exact (List.inj_on_of_nodup_map (Table.allRows_pairs_nodup t.items))
        (List.mem_of_mem_filter hr) (List.mem_of_mem_filter hr') heq
  refine (pairs.filterMap _).trans ?_
  rw [List.filterMap_map, ← List.filterMap_eq_map]
  refine List.Perm.of_eq (List.filterMap_congr ?_)
  intro r hr
  exact Table.mem_allRows.mp (List.mem_of_mem_filter hr)

theorem queryMaterialized_perm_fullScan (inv : t.ReadsInvariant) (listed : i ∈ t.listedIndexes)
    (hidx : t.indexData[i.indexName]? = some idx) (v : String) (rc : Option RangeCondition)
    (forward : Bool) :
    (t.queryMaterialized idx v rc forward).Perm (t.queryFullScan i.indexName v rc forward) := by
  obtain ⟨j, hj, hname, keyedBy⟩ := inv.keyed i.indexName idx hidx
  have same := inv.coherent j hj i listed hname
  have keyed : idx.KeyedBy i := ⟨by rw [keyedBy.1, same.1], by rw [keyedBy.2, same.2]⟩
  obtain ⟨hhash, hrange⟩ := Table.findIndex_sameKeys inv listed
  unfold Table.queryMaterialized Table.queryFullScan
  rw [hhash, hrange, keyed.2]
  refine (sortRows_perm _ _ _).trans (List.Perm.trans ?_ (sortRows_perm _ _ _).symm)
  have rows := (bucket_rows_perm inv listed hidx keyed v).filter (Table.passesRange rc i.rangeKey)
  rw [List.filter_filter] at rows
  refine rows.trans (List.Perm.of_eq (List.filter_congr ?_))
  intro item _
  exact Bool.and_comm _ _

/-- Whichever branch a query takes, its unrestricted result is the selection of
the full scan. -/
theorem mem_query_iff (inv : t.ReadsInvariant)
    (listed : i ∈ t.listedIndexes) (v : String) (item : Item) :
    item ∈ t.query v none (some i.indexName) true ↔
      item ∈ t.allItems ∧ item[i.hashKey.getD ""]?.bind avToKeyStrRef = some v := by
  have full : item ∈ t.queryFullScan i.indexName v none true ↔
      item ∈ t.allItems ∧ item[i.hashKey.getD ""]?.bind avToKeyStrRef = some v := by
    obtain ⟨hhash, _⟩ := Table.findIndex_sameKeys inv listed
    unfold Table.queryFullScan
    rw [(sortRows_perm _ _ _).mem_iff, hhash]
    simp [Table.passesRange]
  simp only [Table.query]
  cases hidx : t.indexData[i.indexName]? with
  | none => exact full
  | some idx => exact (queryMaterialized_perm_fullScan inv listed hidx v none true).mem_iff.trans full

theorem Table.ReadsInvariant.reads_agree (inv : t.ReadsInvariant) :
    t.IndexReadsAgree := by
  intro i listed
  refine ⟨fun idx hidx v rc forward => queryMaterialized_perm_fullScan inv listed hidx v rc forward,
    fun item => ?_⟩
  obtain ⟨hhash, hrange⟩ := Table.findIndex_sameKeys inv listed
  simp only [mem_query_iff inv listed, exists_and_left]
  have scan : item ∈ (t.scanPreFilter (some i.indexName)).getD [] ↔ item ∈ t.allItems ∧
      ∃ hk, i.hashKey = some hk ∧ item.contains hk = true ∧ i.carriesRange item = true := by
    simp only [Table.scanPreFilter, SecondaryIndex.carriesRange, hhash, hrange]
    cases i.hashKey with
    | none => simp
    | some hk => cases i.rangeKey <;> simp
  rw [scan]
  constructor
  · intro hscan
    obtain ⟨h, s, hrow⟩ := Table.mem_allItems.mp hscan.1
    exact ⟨hscan.1, (scan_iff_ref (inv.regular i listed h s item hrow)).mp hscan.2⟩
  · intro hquery
    obtain ⟨h, s, hrow⟩ := Table.mem_allItems.mp hquery.1
    exact ⟨hquery.1, (scan_iff_ref (inv.regular i listed h s item hrow)).mpr hquery.2⟩

@[simp] theorem Table.appendStreamRecord_listed (t : Table) (now : Int) (e : String) (k : Item)
    (o n : Option Item) :
    (t.appendStreamRecord now e k o n).listedIndexes = t.listedIndexes := by
  unfold Table.appendStreamRecord
  split <;> rfl

/-- What a put does to the rows, the listed indexes and the index keys. -/
theorem putItem_effects (t : Table) (now : Int) (item : Item) :
    (t.putItem now item).2.listedIndexes = t.listedIndexes ∧
    (∀ h s stored, row (t.putItem now item).2.items h s = some stored →
      row t.items h s = some stored ∨
        (stored = item ∧ (t.extractKeyFromItem item).isSome = true)) ∧
    (∀ (name : String) idx', (t.putItem now item).2.indexData[name]? = some idx' →
      ∃ idx, t.indexData[name]? = some idx ∧ idx'.hashKeyName = idx.hashKeyName ∧
        idx'.rangeKeyName = idx.rangeKeyName) := by
  unfold Table.putItem
  cases hkey : t.extractKeyFromItem item with
  | none => exact ⟨rfl, fun h s stored hrow => Or.inl hrow, fun name idx h => ⟨idx, h, rfl, rfl⟩⟩
  | some key =>
    obtain ⟨hk, sk⟩ := key
    refine ⟨(Table.appendStreamRecord_listed _ _ _ _ _ _).trans rfl, ?_, ?_⟩
    · intro h s stored hrow
      simp only [Table.appendStreamRecord_items, row_insert] at hrow
      split at hrow
      · exact Or.inr ⟨(Option.some.inj hrow).symm, rfl⟩
      · exact Or.inl hrow
    · intro name idx' hidx'
      simp only [Table.appendStreamRecord_indexData, StrMap.getElem?_mapValues,
        Table.getElem?_unindex, Option.map_map, Option.map_eq_some_iff,
        Function.comp_apply] at hidx'
      obtain ⟨idx, hidx, rfl⟩ := hidx'
      have names := idx.unindex_names (row t.items hk sk) hk sk
      have namesAdd := (idx.unindex (row t.items hk sk) hk sk).add_names item hk sk
      exact ⟨idx, hidx, namesAdd.1.trans names.1, namesAdd.2.trans names.2⟩

/-- A delete only loses rows, and keeps the listed indexes and the index keys. -/
theorem deleteItem_effects (t : Table) (now : Int) (key : Item) :
    (t.deleteItem now key).2.listedIndexes = t.listedIndexes ∧
    (∀ h s stored, row (t.deleteItem now key).2.items h s = some stored →
      row t.items h s = some stored) ∧
    (∀ (name : String) idx', (t.deleteItem now key).2.indexData[name]? = some idx' →
      ∃ idx, t.indexData[name]? = some idx ∧ idx'.hashKeyName = idx.hashKeyName ∧
        idx'.rangeKeyName = idx.rangeKeyName) := by
  have unchanged : t.listedIndexes = t.listedIndexes ∧
      (∀ h s stored, row t.items h s = some stored → row t.items h s = some stored) ∧
      (∀ (name : String) idx', t.indexData[name]? = some idx' →
        ∃ idx, t.indexData[name]? = some idx ∧ idx'.hashKeyName = idx.hashKeyName ∧
          idx'.rangeKeyName = idx.rangeKeyName) :=
    ⟨rfl, fun _ _ _ h => h, fun name idx h => ⟨idx, h, rfl, rfl⟩⟩
  unfold Table.deleteItem
  split
  · exact unchanged
  · next hk sk _ =>
    split
    · exact unchanged
    · next part hpart =>
      split
      · exact unchanged
      · next oldItem hold =>
        refine ⟨(Table.appendStreamRecord_listed _ _ _ _ _ _).trans rfl, ?_, ?_⟩
        · intro h s stored hrow
          simp only [Table.appendStreamRecord_items, row_erase t.items part hk sk h s hpart] at hrow
          split at hrow
          · cases hrow
          · exact hrow
        · intro name idx' hidx'
          simp only [Table.appendStreamRecord_indexData, Table.getElem?_unindex,
            Option.map_eq_some_iff] at hidx'
          obtain ⟨idx, hidx, rfl⟩ := hidx'
          have names := idx.unindex_names (some oldItem) hk sk
          exact ⟨idx, hidx, names.1, names.2⟩

/-- No stored row of a well-kept table is filed under a Boolean. -/
theorem Table.ReadsInvariant.not_filedUnderBool (inv : t.ReadsInvariant)
    {name : String} (hidx : t.indexData[name]? = some idx)
    (h s : String) (x : Bool) : ¬ t.FiledUnderBool h s idx x := by
  intro hfiled
  obtain ⟨old, hrow, hbool, hrange⟩ := hfiled
  obtain ⟨i, listed, _, keyed⟩ := inv.keyed name idx hidx
  have regular := inv.regular i listed h s old hrow
  rw [keyed.1] at hbool
  rw [MaterializedIndex.carriesRange_keyedBy keyed] at hrange
  simp [SecondaryIndex.regular, hbool, hrange] at regular

theorem putItem_preserves_reads (t : Table) (now : Int) (item : Item) (inv : t.ReadsInvariant)
    (safe : (TableOp.putItem now item).KeepsReads t) :
    (t.putItem now item).2.ReadsInvariant := by
  obtain ⟨listed, rows, keys⟩ := putItem_effects t now item
  refine ⟨?_, ?_, ?_, ?_⟩
  · apply (putItem_consistent_iff t now item inv.consistent).mpr
    intro h s name idx x _ hidx hfiled
    exact absurd hfiled (inv.not_filedUnderBool hidx h s x)
  · rw [listed]
    exact inv.coherent
  · intro name idx' hidx'
    obtain ⟨idx, hidx, hash, range⟩ := keys name idx' hidx'
    obtain ⟨i, hi, hname, keyed⟩ := inv.keyed name idx hidx
    exact ⟨i, listed ▸ hi, hname, hash.trans keyed.1, range.trans keyed.2⟩
  · rw [listed]
    intro i hi h s stored hrow
    rcases rows h s stored hrow with old | ⟨rfl, hkey⟩
    · exact inv.regular i hi h s stored old
    · exact safe hkey i hi

theorem deleteItem_preserves_reads (t : Table) (now : Int) (key : Item) (inv : t.ReadsInvariant) :
    (t.deleteItem now key).2.ReadsInvariant := by
  obtain ⟨listed, rows, keys⟩ := deleteItem_effects t now key
  refine ⟨?_, ?_, ?_, ?_⟩
  · apply (deleteItem_consistent_iff t now key inv.consistent).mpr
    intro h s name idx x _ hidx
    exact inv.not_filedUnderBool hidx h s x
  · rw [listed]
    exact inv.coherent
  · intro name idx' hidx'
    obtain ⟨idx, hidx, hash, range⟩ := keys name idx' hidx'
    obtain ⟨i, hi, hname, keyed⟩ := inv.keyed name idx hidx
    exact ⟨i, listed ▸ hi, hname, hash.trans keyed.1, range.trans keyed.2⟩
  · rw [listed]
    intro i hi h s stored hrow
    exact inv.regular i hi h s stored (rows h s stored hrow)

theorem Table.mem_listedIndexes_addGsi {gsi i : SecondaryIndex} :
    i ∈ (t.addGsi gsi).listedIndexes ↔ i ∈ t.listedIndexes ∨ i = gsi := by
  simp only [Table.listedIndexes, Table.addGsi, List.mem_append, List.mem_cons, List.not_mem_nil,
    or_false]
  tauto

theorem addGsi_preserves_reads (t : Table) (gsi : SecondaryIndex) (inv : t.ReadsInvariant)
    (safe : (TableOp.addGsi gsi).KeepsReads t) : (t.addGsi gsi).ReadsInvariant := by
  obtain ⟨sameName, rows⟩ := safe
  refine ⟨addGsi_consistent t gsi inv.consistent, ?_, ?_, ?_⟩
  · intro i hi j hj hname
    rcases Table.mem_listedIndexes_addGsi.mp hi with oldI | newI
    · rcases Table.mem_listedIndexes_addGsi.mp hj with oldJ | newJ
      · exact inv.coherent i oldI j oldJ hname
      · subst newJ
        exact sameName i oldI hname
    · subst newI
      rcases Table.mem_listedIndexes_addGsi.mp hj with oldJ | newJ
      · have same := sameName j oldJ hname.symm
        exact ⟨same.1.symm, same.2.symm⟩
      · subst newJ
        exact ⟨rfl, rfl⟩
  · intro name idx hidx
    simp only [Table.addGsi, StrMap.getElem?_insert] at hidx
    split at hidx
    · next hname =>
      have keys := MaterializedIndex.backfill_represents (Table.allRows t.items)
        (MaterializedIndex.ofSchema gsi.keySchema) _ Buckets.represents_empty
      cases hidx
      exact ⟨gsi, Table.mem_listedIndexes_addGsi.mpr (Or.inr rfl), hname, keys.1, keys.2.1⟩
    · obtain ⟨i, hi, hname, keyed⟩ := inv.keyed name idx hidx
      exact ⟨i, Table.mem_listedIndexes_addGsi.mpr (Or.inl hi), hname, keyed⟩
  · intro i hi h s item hrow
    rcases Table.mem_listedIndexes_addGsi.mp hi with hi | rfl
    · exact inv.regular i hi h s item hrow
    · exact rows (h, s, item) (Table.mem_allRows.mpr hrow)

theorem removeGsi_preserves_reads (t : Table) (indexName : String) (inv : t.ReadsInvariant) :
    (t.removeGsi indexName).ReadsInvariant := by
  have fewer : ∀ i ∈ (t.removeGsi indexName).listedIndexes, i ∈ t.listedIndexes := by
    intro i hi
    simp only [Table.listedIndexes, Table.removeGsi, List.mem_append, List.mem_filter] at hi ⊢
    rcases hi with hi | hi
    · exact Or.inl hi.1
    · exact Or.inr hi
  refine ⟨removeGsi_consistent t indexName inv.consistent, ?_, ?_, ?_⟩
  · intro i hi j hj
    exact inv.coherent i (fewer i hi) j (fewer j hj)
  · intro name idx hidx
    simp only [Table.removeGsi, StrMap.getElem?_erase] at hidx
    split at hidx
    · cases hidx
    · next hne =>
      obtain ⟨i, hi, hname, keyed⟩ := inv.keyed name idx hidx
      refine ⟨i, ?_, hname, keyed⟩
      simp only [Table.listedIndexes, Table.removeGsi, List.mem_append, List.mem_filter] at hi ⊢
      rcases hi with hi | hi
      · exact Or.inl ⟨hi, by simpa using fun he => hne (he.symm.trans hname)⟩
      · exact Or.inr hi
  · intro i hi
    exact inv.regular i (fewer i hi)

theorem apply_preserves_reads (t : Table) (op : TableOp) (inv : t.ReadsInvariant)
    (safe : op.KeepsReads t) : (t.apply op).ReadsInvariant := by
  cases op with
  | putItem now item => exact putItem_preserves_reads t now item inv safe
  | deleteItem now key => exact deleteItem_preserves_reads t now key inv
  | addGsi gsi => exact addGsi_preserves_reads t gsi inv safe
  | removeGsi indexName => exact removeGsi_preserves_reads t indexName inv

theorem Table.insertIndexes_keyed (data : StrMap MaterializedIndex) (indexes : List SecondaryIndex)
    (name : String) (idx : MaterializedIndex)
    (found : (Table.insertIndexes data indexes)[name]? = some idx) :
    data[name]? = some idx ∨ ∃ i ∈ indexes, i.indexName = name ∧ idx.KeyedBy i := by
  induction indexes generalizing data with
  | nil => exact Or.inl found
  | cons i rest ih =>
    rcases ih (data.insert i.indexName (MaterializedIndex.ofSchema i.keySchema)) found with
      hdata | ⟨j, hj, hname, keyed⟩
    · rw [StrMap.getElem?_insert] at hdata
      split at hdata
      · next hname =>
        cases hdata
        exact Or.inr ⟨i, by simp, hname, rfl, rfl⟩
      · exact Or.inl hdata
    · exact Or.inr ⟨j, by simp [hj], hname, keyed⟩

/-- A fresh table whose indexes of one name share their keys is well kept. -/
theorem new_reads (tableId : String) (now : Int) (name accountId region : String)
    (keySchema : List KeySchemaElement) (defs : List AttributeDefinition)
    (gsis lsis : List SecondaryIndex) (spec : StreamSpecification)
    (coherent : ∀ i ∈ gsis ++ lsis, ∀ j ∈ gsis ++ lsis, i.indexName = j.indexName → i.SameKeys j) :
    (Table.new tableId now name accountId region keySchema defs gsis lsis spec).ReadsInvariant := by
  refine ⟨new_consistent tableId now name accountId region keySchema defs gsis lsis spec,
    coherent, ?_, ?_⟩
  · intro idxName idx hidx
    rcases Table.insertIndexes_keyed _ lsis idxName idx hidx with hgsi | ⟨i, hi, hname, keyed⟩
    · rcases Table.insertIndexes_keyed ∅ gsis idxName idx hgsi with hnone | ⟨i, hi, hname, keyed⟩
      · simp at hnone
      · exact ⟨i, List.mem_append_left _ hi, hname, keyed⟩
    · exact ⟨i, List.mem_append_right _ hi, hname, keyed⟩
  · intro i _ h s item hrow
    simp [Table.new, row] at hrow

/-- In every run from a fresh table whose index names are used for one key pair
each and whose writes keep the read paths together, the materialized branch of
`query`, its full-scan branch and Scan agree in every state reached. -/
theorem index_reads_agree_along_run (tableId : String) (now : Int)
    (name accountId region : String) (keySchema : List KeySchemaElement)
    (defs : List AttributeDefinition) (gsis lsis : List SecondaryIndex)
    (spec : StreamSpecification) (ops : List TableOp)
    (coherent : ∀ i ∈ gsis ++ lsis, ∀ j ∈ gsis ++ lsis, i.indexName = j.indexName → i.SameKeys j)
    (steps : Run.AllSteps Table.apply (fun t op => op.KeepsReads t)
      (Table.new tableId now name accountId region keySchema defs gsis lsis spec) ops) :
    Run.AllStates Table.apply Table.IndexReadsAgree
      (Table.new tableId now name accountId region keySchema defs gsis lsis spec) ops := by
  have start := new_reads tableId now name accountId region keySchema defs gsis lsis spec coherent
  have states := Run.allStates_of_allSteps apply_preserves_reads _ ops start steps
  exact Run.AllStates.imp (fun t inv => inv.reads_agree) _ ops states

/-- A global index with hash key `g` and range key `r`. -/
def rangedIndex : SecondaryIndex :=
  ⟨"byG", [⟨"g", .hash⟩, ⟨"r", .range⟩], ⟨"ALL", []⟩, 0⟩

/-- A table with partition key `pk` and that index. -/
def rangedTable : Table :=
  Table.new "id" 0 "t" "000000000000" "us-east-1" [⟨"pk", .hash⟩] [] [rangedIndex] [] ⟨false, none⟩

/-- A row with both index attributes. -/
def indexedItem : Item :=
  (∅ : Item).insert "pk" (.s "1") |>.insert "g" (.s "x") |>.insert "r" (.n "7")

/-- A row without the index range attribute. -/
def sparseItem : Item := (∅ : Item).insert "pk" (.s "2") |>.insert "g" (.s "x")

theorem index_reads_agree_indexedItem :
    Run.AllStates Table.apply Table.IndexReadsAgree rangedTable
      [.putItem 0 indexedItem, .removeGsi "byG", .addGsi rangedIndex, .deleteItem 0 indexedItem] :=
  index_reads_agree_along_run "id" 0 "t" "000000000000" "us-east-1" [⟨"pk", .hash⟩] []
    [rangedIndex] [] ⟨false, none⟩ _ (by decide) (by decide)

/-- The full scan returns a row without the index range attribute, which the
materialized index never files. -/
theorem sparse_row_splits_read_paths :
    ¬ Run.AllStates Table.apply Table.IndexReadsAgree rangedTable [.putItem 0 sparseItem] := by
  intro states
  have agree := states.2 rangedIndex (by decide)
  have materialized : ((rangedTable.apply (.putItem 0 sparseItem)).indexData["byG"]?.map
      (fun idx => ((rangedTable.apply (.putItem 0 sparseItem)).queryMaterialized idx "x" none
        true).length)) = some 0 := by decide
  have fallback : ((rangedTable.apply (.putItem 0 sparseItem)).queryFullScan "byG" "x" none
      true).length = 1 := by decide
  obtain ⟨idx, hidx, hempty⟩ := Option.map_eq_some_iff.mp materialized
  have same := (agree.1 idx hidx "x" none true).length_eq
  rw [hempty] at same
  exact absurd (same.trans fallback) (by decide)

end Openstack.DynamoDb

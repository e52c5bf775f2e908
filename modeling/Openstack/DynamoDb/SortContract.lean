import Openstack.DynamoDb.KeyIdentity
import Openstack.DynamoDb.NumberOrder

/-!
# What `sort_by` asks of the comparator of a query

The three branches of `Table::query` (`store.rs:624-734`) read a bucket, filter it by the range condition
and sort the rest by one comparator. It ignores pairs of keys without an order between them.
-/
namespace Openstack.DynamoDb

open Comparator (TotalPreorderOn OneKind AllEqual)

namespace Table

/-- The range key by which a query sorts. -/
def sortName (t : Table) (indexName : Option String) : Option String :=
  match indexName with
  | some name =>
    match t.indexData[name]? with
    | some idx => idx.rangeKeyName
    | none => t.indexRangeKey name
  | none => t.rangeKeyName

/-- The partition or the index bucket of a hash value. -/
def bucketRows (t : Table) (hashKeyVal : String) (indexName : Option String) : List Item :=
  match indexName with
  | some name =>
    match t.indexData[name]? with
    | some idx => (idx.data.bucket hashKeyVal).filterMap fun p => row t.items p.1 p.2
    | none => t.allItems.filter fun item =>
      item[(t.indexHashKey name).getD ""]?.bind avToKeyStrRef == some hashKeyVal
  | none => t.items[hashKeyVal]?.elim [] StrMap.values

def sortedRows (t : Table) (hashKeyVal : String) (rangeCondition : Option RangeCondition)
    (indexName : Option String) : List Item :=
  (t.bucketRows hashKeyVal indexName).filter (passesRange rangeCondition (t.sortName indexName))

theorem query_eq_sortRows (t : Table) (hashKeyVal : String) (rangeCondition : Option RangeCondition)
    (indexName : Option String) (scanIndexForward : Bool) :
    t.query hashKeyVal rangeCondition indexName scanIndexForward =
      sortRows (t.sortName indexName) scanIndexForward
        (t.sortedRows hashKeyVal rangeCondition indexName) := by
  unfold query sortedRows sortName bucketRows
  cases indexName with
  | none =>
    cases t.items[hashKeyVal]? with
    | none => cases range : t.rangeKeyName <;> rfl
    | some part => rfl
  | some name =>
    cases found : t.indexData[name]? with
    | some idx => simp only [found, queryMaterialized]
    | none =>
      simp only [found, queryFullScan, List.filter_filter]
      exact congrArg _ (List.filter_congr fun item _ => Bool.and_comm _ _)

/-- In every call of `sort_by` the comparator is a total preorder on the rows. -/
def SortContract (t : Table) (hashKeyVal : String) (rangeCondition : Option RangeCondition)
    (indexName : Option String) (scanIndexForward : Bool) : Prop :=
  ∀ rk, t.sortName indexName = some rk → TotalPreorderOn (rowOrder rk scanIndexForward)
    (t.sortedRows hashKeyVal rangeCondition indexName)

def sortKey (rk : String) (item : Item) : Option SortKeyValue := item[rk]?.bind avSortKey

/-- The sortable range keys are all texts (strings, binaries) or all numbers, or else all the texts are
equal and all the numbers are equal. -/
def OrderedKeys (rk : String) (rows : List Item) : Prop :=
  OneKind SortKeyValue.partialCmp (sortKey rk) rows ∨ AllEqual SortKeyValue.partialCmp (sortKey rk) rows

theorem rowOrder_forward (rk : String) :
    rowOrder rk true = Comparator.collapse SortKeyValue.partialCmp (sortKey rk) := by
  funext a b
  have same : ∀ k l, cmpOptionalKey k l = Comparator.missingFirst SortKeyValue.partialCmp k l := by
    intro k l
    cases k <;> cases l <;> rfl
  rw [rowOrder, if_pos rfl, same]
  rfl

theorem rowOrder_backward (rk : String) :
    rowOrder rk false = fun a b => (rowOrder rk true a b).swap := rfl

theorem totalPreorderOn_rowOrder_iff (rk : String) (scanIndexForward : Bool) (rows : List Item) :
    TotalPreorderOn (rowOrder rk scanIndexForward) rows ↔ OrderedKeys rk rows := by
  have forward : TotalPreorderOn (rowOrder rk true) rows ↔ OrderedKeys rk rows := by
    rw [rowOrder_forward]
    exact Comparator.totalPreorderOn_collapse_iff partialCmp_byKind
  cases scanIndexForward with
  | true => exact forward
  | false =>
    rw [rowOrder_backward, Comparator.totalPreorderOn_swap]
    exact forward

end Table

theorem comparable_of_avCompare {av bound : AttributeValue} {k : SortKeyValue} {o : Ordering}
    (keyed : avSortKey av = some k) (compared : avCompare av bound = some o) :
    ∃ l, avSortKey bound = some l ∧ (k.partialCmp l).isSome = true := by
  unfold avCompare at compared
  rw [keyed] at compared
  cases found : avSortKey bound with
  | none => simp [found] at compared
  | some l =>
    refine ⟨l, rfl, ?_⟩
    simp only [found, Option.bind_eq_bind, Option.bind_some] at compared
    rw [compared]
    rfl

/-- The bound with which every value that passes has been compared. -/
def RangeCondition.bound : RangeCondition → AttributeValue
  | .eq v | .lt v | .lte v | .gt v | .gte v => v
  | .between lo _ => lo
  | .beginsWith start => .s start

theorem RangeCondition.comparable_of_matches {rc : RangeCondition} {av : AttributeValue}
    {k : SortKeyValue} (passes : rc.matchesValue av = true) (keyed : avSortKey av = some k) :
    ∃ l, avSortKey rc.bound = some l ∧ (k.partialCmp l).isSome = true := by
  have compared : rc.matchesValue av = true → (∃ o, avCompare av rc.bound = some o) := by
    intro passes
    cases rc <;>
      simp only [RangeCondition.matchesValue, RangeCondition.bound, Bool.or_eq_true, Bool.and_eq_true,
        beq_iff_eq] at passes ⊢
    case beginsWith start =>
      cases av <;> first | exact ⟨_, rfl⟩ | cases passes
    case eq => exact ⟨_, passes⟩
    case lt => exact ⟨_, passes⟩
    case gt => exact ⟨_, passes⟩
    case lte => exact passes.elim (fun h => ⟨_, h⟩) fun h => ⟨_, h⟩
    case gte => exact passes.elim (fun h => ⟨_, h⟩) fun h => ⟨_, h⟩
    case between => exact passes.1.elim (fun h => ⟨_, h⟩) fun h => ⟨_, h⟩
  obtain ⟨o, compared⟩ := compared passes
  exact comparable_of_avCompare keyed compared

namespace Table

/-- A range condition leaves keys of one kind. -/
theorem orderedKeys_of_condition (rc : RangeCondition) (rk : String) (rows : List Item) :
    OrderedKeys rk (rows.filter (passesRange (some rc) (some rk))) := by
  have comparable : ∀ a ∈ rows.filter (passesRange (some rc) (some rk)), ∀ k, sortKey rk a = some k →
      ∃ l, avSortKey rc.bound = some l ∧ (k.partialCmp l).isSome = true := by
    intro a member k keyed
    have passes := (List.mem_filter.mp member).2
    obtain ⟨av, found, keyed⟩ := Option.bind_eq_some_iff.mp keyed
    rw [passesRange] at passes
    simp only [found] at passes
    exact RangeCondition.comparable_of_matches passes keyed
  refine .inl fun a ha b hb k l ka kb => ?_
  obtain ⟨m, bound, first⟩ := comparable a ha k ka
  obtain ⟨m', bound', second⟩ := comparable b hb l kb
  rw [bound, Option.some.injEq] at bound'
  subst bound'
  refine partialCmp_byKind.kind first ?_
  rw [partialCmp_byKind.swaps, Option.isSome_map]
  exact second

/-- The comparator of a query meets the contract of `sort_by` exactly when the query has a range
condition, or the bucket does not mix texts and numbers (of which there is more than one). -/
theorem sort_contract_iff (t : Table) (hashKeyVal : String) (rangeCondition : Option RangeCondition)
    (indexName : Option String) (scanIndexForward : Bool) :
    t.SortContract hashKeyVal rangeCondition indexName scanIndexForward ↔
      (rangeCondition = none → ∀ rk, t.sortName indexName = some rk →
        OrderedKeys rk (t.bucketRows hashKeyVal indexName)) := by
  unfold SortContract sortedRows
  simp only [totalPreorderOn_rowOrder_iff]
  cases rangeCondition with
  | none =>
    have whole : ∀ rk, (t.bucketRows hashKeyVal indexName).filter (passesRange none rk) =
      t.bucketRows hashKeyVal indexName := fun rk => List.filter_eq_self.mpr fun _ _ => rfl
    simp only [whole, forall_const]
  | some rc =>
    refine iff_of_true (fun rk named => ?_) (by simp)
    rw [named]
    exact orderedKeys_of_condition rc rk _

theorem row_putItem {t : Table} {item : Item} {key : String × String} (now : Int)
    (filed : t.extractKeyFromItem item = some key) (h s : String) :
    row (t.putItem now item).2.items h s = if (h, s) = key then some item else row t.items h s := by
  have stored := congrFun (putItem_changed now filed).rows (h, s)
  simp only [ChangeLog.Change.apply, Function.update_apply] at stored
  exact stored

theorem mem_bucketRows_primary {t : Table} {h : String} {item : Item} :
    item ∈ t.bucketRows h none ↔ ∃ s, row t.items h s = some item := by
  unfold bucketRows row
  cases t.items[h]? with
  | none => simp
  | some part => exact StrMap.mem_values

end Table

/-- A table with the hash key `pk` and the range key `sk`. -/
def tableWithSk : Table :=
  Table.new "id" 0 "orders" "000000000000" "us-east-1" [⟨"pk", .hash⟩, ⟨"sk", .range⟩]
    [⟨"pk", "S"⟩, ⟨"sk", "S"⟩] [] [] ⟨false, none⟩

def rowWithSk (sk : AttributeValue) : Item := (∅ : Item).insert "pk" (.s "p") |>.insert "sk" sk

def putsWithSk (keys : List AttributeValue) : List RowOp :=
  keys.map fun sk => .item (.putItem 0 (rowWithSk sk))

/-- The table after these puts. -/
def tableOf (keys : List AttributeValue) : Table :=
  (putsWithSk keys).foldl (Table.applyRow wholeDecimals) tableWithSk

theorem tableOf_reachable (keys : List AttributeValue) : (tableOf keys).Reachable wholeDecimals :=
  ⟨_, _, _, _, _, _, _, _, _, _, putsWithSk keys, rfl⟩

theorem tableOf_snoc (keys : List AttributeValue) (sk : AttributeValue) :
    tableOf (keys ++ [sk]) = ((tableOf keys).putItem 0 (rowWithSk sk)).2 := by
  simp [tableOf, putsWithSk, Table.applyRow, Table.applyItem]

theorem tableOf_keySchema (keys : List AttributeValue) :
    (tableOf keys).keySchema = tableWithSk.keySchema := by
  induction keys using List.reverseRecOn with
  | nil => rfl
  | append_singleton keys sk ih =>
    rw [tableOf_snoc, ← ih]
    cases filed : (tableOf keys).extractKeyFromItem (rowWithSk sk) with
    | none => simp [Table.putItem, filed]
    | some key => exact (Table.putItem_changed 0 filed).keySchema

theorem rowWithSk_pk (sk : AttributeValue) : (rowWithSk sk)["pk"]? = some (.s "p") := by
  rw [rowWithSk, StrMap.getElem?_insert, if_neg (by decide), StrMap.getElem?_insert, if_pos rfl]

theorem rowWithSk_sk (sk : AttributeValue) : (rowWithSk sk)["sk"]? = some sk := by
  rw [rowWithSk, StrMap.getElem?_insert, if_pos rfl]

theorem rowWithSk_filed (keys : List AttributeValue) {sk : AttributeValue} {s : String}
    (text : avToKeyStr sk = some s) :
    (tableOf keys).extractKeyFromItem (rowWithSk sk) = some ("p", s) := by
  rw [Table.extractKeyFromItem, Table.extractKey_congr (tableOf_keySchema keys)]
  refine (Table.extractKey_eq_some ..).mpr ⟨"pk", rfl, ?_, ?_⟩
  · rw [rowWithSk_pk]
    rfl
  · change (rowWithSk sk)["sk"]?.bind avToKeyStr = some s
    rw [rowWithSk_sk]
    exact text

/-- Rows put under different texts are all there. -/
theorem row_tableOf {keys : List AttributeValue} {sk : AttributeValue} {s : String}
    (usable : ∀ k ∈ keys, (avToKeyStr k).isSome = true) (member : sk ∈ keys)
    (text : avToKeyStr sk = some s) (only : ∀ k ∈ keys, avToKeyStr k = some s → k = sk) :
    row (tableOf keys).items "p" s = some (rowWithSk sk) := by
  induction keys using List.reverseRecOn with
  | nil => cases member
  | append_singleton keys last ih =>
    obtain ⟨s', text'⟩ := Option.isSome_iff_exists.mp (usable last (by simp))
    rw [tableOf_snoc, Table.row_putItem 0 (rowWithSk_filed keys text')]
    split
    · next same =>
      rw [Prod.mk.injEq] at same
      rw [only last (by simp) (by rw [text', same.2])]
    · next other =>
      refine ih (fun k earlier => usable k (by simp [earlier])) ?_ fun k earlier => only k (by simp [earlier])
      rcases List.mem_append.mp member with earlier | now
      · exact earlier
      · rw [List.mem_singleton.mp now, text', Option.some.injEq] at text
        exact absurd (by rw [text]) other

theorem mem_tableOf {keys : List AttributeValue} {sk : AttributeValue}
    (usable : ∀ k ∈ keys, (avToKeyStr k).isSome = true) (distinct : (keys.map avToKeyStr).Nodup)
    (member : sk ∈ keys) : rowWithSk sk ∈ (tableOf keys).sortedRows "p" none none := by
  obtain ⟨s, text⟩ := Option.isSome_iff_exists.mp (usable sk member)
  have stored := row_tableOf usable member text fun k listed same =>
    List.inj_on_of_nodup_map distinct listed member (same.trans text.symm)
  exact List.mem_filter.mpr ⟨Table.mem_bucketRows_primary.mpr ⟨s, stored⟩, rfl⟩

theorem tableOf_sortName (keys : List AttributeValue) : (tableOf keys).sortName none = some "sk" := by
  rw [Table.sortName, Table.rangeKeyName, tableOf_keySchema]
  rfl

theorem rowOrder_rowWithSk (a b : AttributeValue) : Table.rowOrder "sk" true (rowWithSk a) (rowWithSk b) =
    (Table.cmpOptionalKey (avSortKey a) (avSortKey b)).getD .eq := by
  simp [Table.rowOrder, rowWithSk_sk]

/-- A string before a number and one behind it are both equal to it, and not to each other. -/
theorem mixed_partition_breaks_contract :
    (tableOf [.s "a", .n "1", .s "b"]).Reachable wholeDecimals ∧
      ¬ (tableOf [.s "a", .n "1", .s "b"]).SortContract "p" none none true := by
  refine ⟨tableOf_reachable _, fun contract => ?_⟩
  have order := contract "sk" (tableOf_sortName _)
  have member : ∀ sk ∈ [AttributeValue.s "a", .n "1", .s "b"],
      rowWithSk sk ∈ (tableOf [.s "a", .n "1", .s "b"]).sortedRows "p" none none :=
    fun sk => mem_tableOf (by simp [avToKeyStr]) (by decide)
  have equal := order.equal_trans (member (.s "a") (by simp)) (member (.n "1") (by simp))
    (member (.s "b") (by simp)) (rowOrder_rowWithSk ..) (rowOrder_rowWithSk ..)
  rw [rowOrder_rowWithSk] at equal
  exact absurd equal (by decide)

end Openstack.DynamoDb

import Mathlib.Data.List.Sort
import Openstack.DynamoDb.Table

/-!
# Reading a table: `Table::query` and the index pruning of Scan

`store.rs:624-734` (query), `store.rs:769-857` (index key lookups and range
conditions) and `provider.rs:1318-1346` (Scan). The stable `sort_by` is a stable
insertion sort; the order it gives for an inconsistent comparator is not relied
on here.
-/
namespace Openstack.DynamoDb

inductive RangeCondition where
  | eq (v : AttributeValue)
  | lt (v : AttributeValue)
  | lte (v : AttributeValue)
  | gt (v : AttributeValue)
  | gte (v : AttributeValue)
  | between (lo hi : AttributeValue)
  | beginsWith (start : String)

namespace RangeCondition

def matchesValue (av : AttributeValue) : RangeCondition → Bool
  | .eq e => avCompare av e == some .eq
  | .lt b => avCompare av b == some .lt
  | .lte b => avCompare av b == some .lt || avCompare av b == some .eq
  | .gt b => avCompare av b == some .gt
  | .gte b => avCompare av b == some .gt || avCompare av b == some .eq
  | .between lo hi =>
    (avCompare av lo == some .gt || avCompare av lo == some .eq) &&
      (avCompare av hi == some .lt || avCompare av hi == some .eq)
  | .beginsWith start =>
    match av with
    | .s v => start.toList.isPrefixOf v.toList
    | _ => false

end RangeCondition

namespace Table

/-- The `let`-chain of the three filters: an item without the range attribute, or
an index without a range key, passes. -/
def passesRange (rangeCondition : Option RangeCondition) (rk : Option String) (item : Item) : Bool :=
  match rangeCondition, rk with
  | some rc, some name =>
    match item[name]? with
    | some rv => rc.matchesValue rv
    | none => true
  | _, _ => true

/-- `Option<SortKeyValue>::partial_cmp`: a missing key sorts first. -/
def cmpOptionalKey : Option SortKeyValue → Option SortKeyValue → Option Ordering
  | none, none => some .eq
  | none, some _ => some .lt
  | some _, none => some .gt
  | some a, some b => a.partialCmp b

/-- The comparator closure shared by the three branches of `query`. -/
def rowOrder (rk : String) (scanIndexForward : Bool) (a b : Item) : Ordering :=
  let ord := (cmpOptionalKey (a[rk]?.bind avSortKey) (b[rk]?.bind avSortKey)).getD .eq
  if scanIndexForward then ord else ord.swap

def sortRows (rk : Option String) (scanIndexForward : Bool) (items : List Item) : List Item :=
  match rk with
  | none => items
  | some name => items.insertionSort (fun a b => rowOrder name scanIndexForward a b ≠ .gt)

/-- First index of that name, global ones before local ones. -/
def findIndex (t : Table) (indexName : String) : Option SecondaryIndex :=
  (t.globalSecondaryIndexes ++ t.localSecondaryIndexes).find? (fun i => i.indexName = indexName)

def indexHashKey (t : Table) (indexName : String) : Option String :=
  (t.findIndex indexName).bind (fun i => keyName .hash i.keySchema)

def indexRangeKey (t : Table) (indexName : String) : Option String :=
  (t.findIndex indexName).bind (fun i => keyName .range i.keySchema)

/-- The materialized-index branch. -/
def queryMaterialized (t : Table) (idx : MaterializedIndex) (hashKeyVal : String)
    (rangeCondition : Option RangeCondition) (scanIndexForward : Bool) : List Item :=
  let found := (idx.data.bucket hashKeyVal).filterMap (fun p => row t.items p.1 p.2)
  sortRows idx.rangeKeyName scanIndexForward
    (found.filter (passesRange rangeCondition idx.rangeKeyName))

/-- The full-scan branch, for an index without materialized data. -/
def queryFullScan (t : Table) (indexName hashKeyVal : String)
    (rangeCondition : Option RangeCondition) (scanIndexForward : Bool) : List Item :=
  let idxHk := (t.indexHashKey indexName).getD ""
  let idxRk := t.indexRangeKey indexName
  sortRows idxRk scanIndexForward
    (t.allItems.filter (fun item =>
      item[idxHk]?.bind avToKeyStrRef == some hashKeyVal && passesRange rangeCondition idxRk item))

def query (t : Table) (hashKeyVal : String) (rangeCondition : Option RangeCondition)
    (indexName : Option String) (scanIndexForward : Bool) : List Item :=
  match indexName with
  | some name =>
    match t.indexData[name]? with
    | some idx => t.queryMaterialized idx hashKeyVal rangeCondition scanIndexForward
    | none => t.queryFullScan name hashKeyVal rangeCondition scanIndexForward
  | none =>
    match t.items[hashKeyVal]? with
    | none => []
    | some part =>
      sortRows t.rangeKeyName scanIndexForward
        (part.values.filter (passesRange rangeCondition t.rangeKeyName))

/-- The items Scan examines before `Limit` and the filter expression; `none` is
its validation error for an unknown index. -/
def scanPreFilter (t : Table) (indexName : Option String) : Option (List Item) :=
  match indexName with
  | none => some t.allItems
  | some name =>
    match t.indexHashKey name with
    | none => none
    | some hk => some (t.allItems.filter (fun item => item.contains hk &&
        match t.indexRangeKey name with
        | none => true
        | some rk => item.contains rk))

end Table
end Openstack.DynamoDb

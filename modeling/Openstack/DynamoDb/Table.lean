import Openstack.Lib.Buckets
import Openstack.Lib.RustFmt
import Openstack.DynamoDb.AttributeValue

/-!
# DynamoDB tables

`store.rs:139-273` (schemas, indexes, stream records) and `store.rs:385-618`,
`store.rs:736-809` (the table and its writers). Wall-clock time and the random
table id enter as arguments. Counters are natural numbers: neither the item count
nor the stream sequence can reach `2 ^ 64` one write at a time.
-/
namespace Openstack.DynamoDb

inductive KeyType where
  | hash | range
  deriving DecidableEq, Repr

structure KeySchemaElement where
  attributeName : String
  keyType : KeyType
  deriving DecidableEq, Repr

structure AttributeDefinition where
  attributeName : String
  attributeType : String
  deriving DecidableEq, Repr

structure Projection where
  projectionType : String
  nonKeyAttributes : List String
  deriving DecidableEq, Repr

/-- `GlobalSecondaryIndex` and `LocalSecondaryIndex` have the same four fields. -/
structure SecondaryIndex where
  indexName : String
  keySchema : List KeySchemaElement
  projection : Projection
  itemCount : Nat
  deriving DecidableEq, Repr

structure StreamSpecification where
  streamEnabled : Bool
  streamViewType : Option String
  deriving DecidableEq, Repr

structure StreamRecord where
  sequenceNumber : String
  eventName : String
  keys : Item
  newImage : Option Item
  oldImage : Option Item
  approximateCreationDateTime : Int

/-- The first element of a key schema with the given type. -/
def keyName (keyType : KeyType) (schema : List KeySchemaElement) : Option String :=
  (schema.find? (fun k => k.keyType = keyType)).map (·.attributeName)

structure MaterializedIndex where
  hashKeyName : String
  rangeKeyName : Option String
  data : Buckets (String × String)

namespace MaterializedIndex

def new (hashKeyName : String) (rangeKeyName : Option String) : MaterializedIndex :=
  ⟨hashKeyName, rangeKeyName, ∅⟩

/-- The index built from the key schema of a secondary index; a schema without a
hash element gives the empty attribute name. -/
def ofSchema (schema : List KeySchemaElement) : MaterializedIndex :=
  new ((keyName .hash schema).getD "") (keyName .range schema)

/-- The item carries the index range key, when there is one. -/
def carriesRange (idx : MaterializedIndex) (item : Item) : Bool :=
  match idx.rangeKeyName with
  | none => true
  | some rk => item.contains rk

def add (idx : MaterializedIndex) (item : Item) (pkHash pkSort : String) : MaterializedIndex :=
  match item[idx.hashKeyName]?.bind avToKeyStr with
  | none => idx
  | some hv =>
    if idx.carriesRange item then { idx with data := idx.data.add hv (pkHash, pkSort) } else idx

/-- Looks the bucket up through the borrowing extractor, unlike `add`. -/
def remove (idx : MaterializedIndex) (item : Item) (pkHash pkSort : String) : MaterializedIndex :=
  match item[idx.hashKeyName]?.bind avToKeyStrRef with
  | none => idx
  | some hv => { idx with data := idx.data.remove hv (pkHash, pkSort) }

end MaterializedIndex

inductive TableStatus where
  | active | creating | deleting | updating
  deriving DecidableEq, Repr

structure Table where
  tableName : String
  tableArn : String
  tableId : String
  status : TableStatus
  created : Int
  keySchema : List KeySchemaElement
  attributeDefinitions : List AttributeDefinition
  globalSecondaryIndexes : List SecondaryIndex
  localSecondaryIndexes : List SecondaryIndex
  streamSpecification : StreamSpecification
  streamArn : Option String
  billingMode : String
  itemCount : Nat
  tableSizeBytes : Nat
  items : StrMap (StrMap Item)
  streamRecords : List StreamRecord
  streamSequence : Nat
  indexData : StrMap MaterializedIndex

/-- `items[h][s]`. -/
def row (items : StrMap (StrMap Item)) (h s : String) : Option Item :=
  items[h]?.bind (·[s]?)

namespace Table

/-- The index loop of `Table::new`: a later index of the same name replaces an
earlier one. -/
def insertIndexes (data : StrMap MaterializedIndex) (indexes : List SecondaryIndex) :
    StrMap MaterializedIndex :=
  indexes.foldl (fun acc i => acc.insert i.indexName (MaterializedIndex.ofSchema i.keySchema)) data

def new (tableId : String) (now : Int) (name accountId region : String)
    (keySchema : List KeySchemaElement) (attributeDefinitions : List AttributeDefinition)
    (gsis lsis : List SecondaryIndex) (streamSpec : StreamSpecification) : Table :=
  let tableArn := "arn:aws:dynamodb:" ++ region ++ ":" ++ accountId ++ ":table/" ++ name
  { tableName := name
    tableArn := tableArn
    tableId := tableId
    status := .active
    created := now
    keySchema := keySchema
    attributeDefinitions := attributeDefinitions
    globalSecondaryIndexes := gsis
    localSecondaryIndexes := lsis
    streamSpecification := streamSpec
    streamArn :=
      if streamSpec.streamEnabled then some (tableArn ++ "/stream/" ++ toString now) else none
    billingMode := "PAY_PER_REQUEST"
    itemCount := 0
    tableSizeBytes := 0
    items := ∅
    streamRecords := []
    streamSequence := 0
    indexData := insertIndexes (insertIndexes ∅ gsis) lsis }

def hashKeyName (t : Table) : Option String := keyName .hash t.keySchema

def rangeKeyName (t : Table) : Option String := keyName .range t.keySchema

/-- Copy the attribute named `name`, when both exist. -/
@[grind] def copyKey (name : Option String) (item keys : Item) : Item :=
  match name with
  | none => keys
  | some n =>
    match item[n]? with
    | none => keys
    | some v => keys.insert n v

def makeKeyMap (t : Table) (item : Item) : Item :=
  copyKey t.rangeKeyName item (copyKey t.hashKeyName item ∅)

def appendStreamRecord (t : Table) (now : Int) (eventName : String) (keys : Item)
    (oldImage newImage : Option Item) : Table :=
  if ¬ t.streamSpecification.streamEnabled then t
  else
    let seq := t.streamSequence + 1
    let rec_ : StreamRecord :=
      { sequenceNumber := RustFmt.dec 20 seq
        eventName := eventName
        keys := keys
        newImage := newImage
        oldImage := oldImage
        approximateCreationDateTime := now }
    let records := t.streamRecords ++ [rec_]
    { t with
      streamSequence := seq
      streamRecords := if records.length > 1000 then records.tail else records }

/-- Key strings of an item, through one of the two extractors. -/
@[grind] def extractKey (keyStr : AttributeValue → Option String) (t : Table) (item : Item) :
    Option (String × String) := do
  let hk ← t.hashKeyName
  let hv ← item[hk]?
  let hashStr ← keyStr hv
  let sortStr ← match t.rangeKeyName with
    | some rk => do
      let rv ← item[rk]?
      keyStr rv
    | none => some ""
  some (hashStr, sortStr)

def extractKeyFromItem (t : Table) (item : Item) : Option (String × String) :=
  t.extractKey avToKeyStr item

def extractKeyRefFromItem (t : Table) (item : Item) : Option (String × String) :=
  t.extractKey avToKeyStrRef item

/-- The `values_mut` loop that takes a replaced or deleted row out of every index. -/
@[grind] def unindex (data : StrMap MaterializedIndex) (old : Option Item) (h s : String) :
    StrMap MaterializedIndex :=
  match old with
  | none => data
  | some oldItem => data.mapValues (fun idx => idx.remove oldItem h s)

/-- Returns the previous row. An item without usable key attributes is dropped:
the caller sees the same `None` as for a fresh insert. -/
def putItem (now : Int) (item : Item) (t : Table) : Option Item × Table :=
  match t.extractKeyFromItem item with
  | none => (none, t)
  | some (hk, sk) =>
    let keys := t.makeKeyMap item
    let old := row t.items hk sk
    let stored : Table :=
      { t with
        items := t.items.insert hk ((t.items[hk]?.getD ∅).insert sk item)
        itemCount := if old.isSome then t.itemCount else t.itemCount + 1
        indexData := StrMap.mapValues (fun idx => idx.add item hk sk) (unindex t.indexData old hk sk) }
    let event := if old.isSome then "MODIFY" else "INSERT"
    (old, stored.appendStreamRecord now event keys old (some item))

def getItem (t : Table) (key : Item) : Option Item :=
  match t.extractKeyRefFromItem key with
  | none => none
  | some (hk, sk) => row t.items hk sk

def deleteItem (now : Int) (key : Item) (t : Table) : Option Item × Table :=
  match t.extractKeyFromItem key with
  | none => (none, t)
  | some (hk, sk) =>
    match t.items[hk]? with
    | none => (none, t)
    | some part =>
      match part[sk]? with
      | none => (none, t)
      | some oldItem =>
        let stored : Table :=
          { t with
            items := t.items.insert hk (part.erase sk)
            itemCount := t.itemCount - 1
            indexData := unindex t.indexData (some oldItem) hk sk }
        (some oldItem, stored.appendStreamRecord now "REMOVE" (t.makeKeyMap key) (some oldItem) none)

/-- `items.values().flat_map(|m| m.values())`. -/
def allItems (t : Table) : List Item := t.items.values.flatMap StrMap.values

/-- Every stored row with its primary-key pair, in the order the back-fill of
`add_gsi` visits them. -/
def allRows (items : StrMap (StrMap Item)) : List (String × String × Item) :=
  items.toList.flatMap (fun p => p.2.toList.map (fun q => (p.1, q.1, q.2)))

def addGsi (gsi : SecondaryIndex) (t : Table) : Table :=
  let idx := (allRows t.items).foldl (fun acc r => acc.add r.2.2 r.1 r.2.1)
    (MaterializedIndex.ofSchema gsi.keySchema)
  { t with
    indexData := t.indexData.insert gsi.indexName idx
    globalSecondaryIndexes := t.globalSecondaryIndexes ++ [gsi] }

def removeGsi (indexName : String) (t : Table) : Table :=
  { t with
    indexData := t.indexData.erase indexName
    globalSecondaryIndexes := t.globalSecondaryIndexes.filter (fun g => g.indexName ≠ indexName) }

end Table
end Openstack.DynamoDb

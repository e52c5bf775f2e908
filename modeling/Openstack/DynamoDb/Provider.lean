import Openstack.Lib.Locking
import Openstack.DynamoDb.Table
import Openstack.DynamoDb.UpdateExpression
import Openstack.DynamoDb.WireFormat

/-!
# DynamoDB writers as concurrent programs

`provider.rs:24-71` (the table mutexes), `provider.rs:864-1103` (PutItem, DeleteItem,
UpdateItem), `provider.rs:1470-1501` (one table of BatchWriteItem) and
`provider.rs:1560-1720` (TransactWriteItems). A request takes the mutexes of the tables it
names and then accesses the concurrent table map; every access (`get`, `get_mut` with all
that happens under its guard, `insert`, `remove`) is one atomic step. The clock is read
once for each request. Response bodies keep what they report about items; their JSON text
is left out.
-/
namespace Openstack.DynamoDb

open Locking (Prog Process)

structure RequestContext where
  accountId : String
  region : String
  now : Int

structure TableId where
  accountId : String
  region : String
  name : String
  deriving DecidableEq, Repr

abbrev Tables := TableId → Option Table

def RequestContext.table (ctx : RequestContext) (name : String) : TableId :=
  ⟨ctx.accountId, ctx.region, name⟩

/-- The mutexes: the guard of the store of an account and region, and the table mutex
pool, which is keyed by text. -/
inductive Lock where
  | store (accountId region : String)
  | table (key : String)
  deriving DecidableEq, Repr

/-- `get_table_lock`. -/
def tableLock (id : TableId) : Lock :=
  .table (id.accountId ++ "/" ++ id.region ++ "/" ++ id.name)

/-- Where a handler can panic. -/
inductive Panic where
  /-- `tables.get(table_name).unwrap()`. -/
  | missingTable
  /-- A slice of an expression text inside a character. -/
  | expression
  /-- Overflow of a decimal addition. -/
  | decimal
  deriving DecidableEq, Repr

inductive Body where
  | empty
  | attributes (item : Option Item)
  | unprocessedItems
  | tableDescription (table : Table)

inductive Response where
  | ok (body : Body)
  | error (code message : String) (status : Nat)
  | panicked (why : Panic)

/-- A handler that panics sends nothing. -/
def Response.status : Response → Option Nat
  | .ok _ => some 200
  | .error _ _ status => some status
  | .panicked _ => none

abbrev TableProg := Prog TableId (Option Table) Response

abbrev TableProcess := Process Lock TableId (Option Table) Response

def validationException (message : String) : Response := .error "ValidationException" message 400

def resourceNotFound (message : String) : Response :=
  .error "ResourceNotFoundException" message 400

/-- A request that is answered before it takes a mutex. -/
def answerAtOnce (r : Response) : TableProcess := ⟨[], .ret r⟩

/-- One `get_mut` under the mutex of its table. -/
def underTableLock (id : TableId) (missing : Response) (f : Table → Response × Table) :
    TableProcess where
  locks := [tableLock id]
  body := .atomic id fun
    | none => (missing, none)
    | some t => ((f t).1, some (f t).2)

def stringField (field : String) (v : Json) : Option String := (v.get? field).bind Json.asStr?

/-- An item-valued field; `None` when it is not an object. -/
def itemField? (field : String) (v : Json) : Option Item :=
  ((v.get? field).bind Json.asObject?).map itemFromJsonMap

/-- An item-valued field that defaults to the empty item. -/
def itemField (field : String) (v : Json) : Item := (itemField? field v).getD ∅

/-- The fields PutItem, DeleteItem and UpdateItem read in the same way. -/
structure WriteOptions where
  condition : Option String
  attrNames : AttrNames
  attrValues : AttrValues
  returnValues : String

def writeOptions (body : Json) : WriteOptions where
  condition := stringField "ConditionExpression" body
  attrNames := parseExprNames (body.get? "ExpressionAttributeNames")
  attrValues := parseExprValues (body.get? "ExpressionAttributeValues")
  returnValues := (stringField "ReturnValues" body).getD "NONE"

/-- The answer that stops the request, when the condition does not hold. -/
def WriteOptions.refusal (o : WriteOptions) (existing : Option Item) : Option Response :=
  match o.condition with
  | none => none
  | some cond =>
    match checkCondition existing cond o.attrNames o.attrValues with
    | none => some (.panicked .expression)
    | some (.error e) => some (.error "ConditionalCheckFailedException" e 400)
    | some (.ok ()) => none

def putItemOn (now : Int) (item : Item) (o : WriteOptions) (t : Table) : Response × Table :=
  match o.refusal (t.getItem item) with
  | some r => (r, t)
  | none =>
    let old := (t.putItem now item).1
    (.ok (.attributes (if o.returnValues = "ALL_OLD" then old else none)), (t.putItem now item).2)

def deleteItemOn (now : Int) (key : Item) (o : WriteOptions) (t : Table) : Response × Table :=
  match o.refusal (t.getItem key) with
  | some r => (r, t)
  | none =>
    let old := (t.deleteItem now key).1
    (.ok (.attributes (if o.returnValues = "ALL_OLD" then old else none)),
      (t.deleteItem now key).2)

/-- The stored row or, without one, the key, with the update expression applied. -/
def updatedItem (D : DecimalOps) (base : Item) (updateExpr : Option String) (names : AttrNames)
    (values : AttrValues) : Option Item :=
  match updateExpr with
  | none => some base
  | some expr => applyUpdateExpression D base expr names values

def updateAttributes (returnValues : String) (old : Option Item) (new : Item) : Option Item :=
  if returnValues = "ALL_NEW" ∨ returnValues = "UPDATED_NEW" then some new
  else if returnValues = "ALL_OLD" ∨ returnValues = "UPDATED_OLD" then old
  else none

def updateItemOn (D : DecimalOps) (now : Int) (key : Item) (updateExpr : Option String)
    (o : WriteOptions) (t : Table) : Response × Table :=
  match o.refusal (t.getItem key) with
  | some r => (r, t)
  | none =>
    match t.extractKeyFromItem key with
    | none => (validationException "Missing key", t)
    | some (hk, sk) =>
      let oldItem := row t.items hk sk
      match updatedItem D (oldItem.getD key) updateExpr o.attrNames o.attrValues with
      | none => (.panicked .decimal, t)
      | some newItem =>
        (.ok (.attributes (updateAttributes o.returnValues oldItem newItem)),
          (t.putItem now newItem).2)

def noSuchTable : Response := resourceNotFound "Cannot do operations on a non-existent table"

/-- A writer of one item: it needs a table name and an item-valued field, and then works
on the table under its mutex. -/
def singleItemWriter (ctx : RequestContext) (body : Json) (field : String)
    (f : Item → WriteOptions → Table → Response × Table) : TableProcess :=
  match stringField "TableName" body with
  | none => answerAtOnce (validationException "TableName is required")
  | some name =>
    match itemField? field body with
    | none => answerAtOnce (validationException (field ++ " is required"))
    | some item => underTableLock (ctx.table name) noSuchTable (f item (writeOptions body))

def putItem (ctx : RequestContext) (body : Json) : TableProcess :=
  singleItemWriter ctx body "Item" (putItemOn ctx.now)

def deleteItem (ctx : RequestContext) (body : Json) : TableProcess :=
  singleItemWriter ctx body "Key" (deleteItemOn ctx.now)

def updateItem (D : DecimalOps) (ctx : RequestContext) (body : Json) : TableProcess :=
  singleItemWriter ctx body "Key" fun key =>
    updateItemOn D ctx.now key (stringField "UpdateExpression" body)

def batchWriteOne (now : Int) (t : Table) (req : Json) : Table :=
  match req.get? "PutRequest" with
  | some put =>
    match itemField? "Item" put with
    | some item => (t.putItem now item).2
    | none => t
  | none =>
    match (req.get? "DeleteRequest").bind (itemField? "Key") with
    | some key => (t.deleteItem now key).2
    | none => t

/-- One round of the loop over the tables of a batch. A round that ends without an error
lets the batch go on, and the answer after the last one is `UnprocessedItems`. -/
@[grind] def batchWriteTable (ctx : RequestContext) (tableName : String) (requests : Json) : TableProcess :=
  match requests.asArray? with
  | none => answerAtOnce (.ok .unprocessedItems)
  | some reqs =>
    underTableLock (ctx.table tableName)
      (resourceNotFound ("Table " ++ tableName ++ " not found"))
      fun t => (.ok .unprocessedItems, reqs.foldl (batchWriteOne ctx.now) t)

def opNames : List String := ["Put", "Delete", "Update", "ConditionCheck"]

/-- The operations of the entries, in the order both checking passes visit them. -/
def listedOps (transactItems : List Json) : List Json :=
  transactItems.flatMap fun ti => opNames.filterMap ti.get?

/-- `op.get("TableName").and_then(|v| v.as_str()).unwrap_or("")`. -/
def opTableName (op : Json) : String := (stringField "TableName" op).getD ""

/-- The names whose mutexes a transaction takes. An operation without a string
`TableName` adds none, although it works on the table with the empty name. -/
def tableNames (transactItems : List Json) : List String :=
  ((listedOps transactItems).filterMap (stringField "TableName")).dedup.insertionSort (· ≤ ·)

def missingTableCanceled (tableName : String) : Response :=
  .error "TransactionCanceledException"
    ("Transaction cancelled: table " ++ tableName ++
      " does not exist [ResourceNotFoundException]") 400

def conditionCanceled : Response :=
  .error "TransactionCanceledException"
    ("Transaction cancelled, please refer cancellation reasons for specific reasons " ++
      "[ConditionalCheckFailed]") 400

/-- Fail fast if any referenced table does not exist. -/
def existencePass (ctx : RequestContext) : List Json → TableProg → TableProg
  | [], next => next
  | op :: rest, next =>
    .read (ctx.table (opTableName op)) fun
      | none => .ret (missingTableCanceled (opTableName op))
      | some _ => existencePass ctx rest next

/-- `op.get("Key").or_else(|| op.get("Item"))`. -/
def conditionKey (op : Json) : Item :=
  ((((op.get? "Key").or (op.get? "Item")).bind Json.asObject?).map itemFromJsonMap).getD ∅

/-- What the condition of an operation says about its table. -/
def opCondition (op : Json) (cond : String) (t : Table) : Option (Except String Unit) :=
  checkCondition (t.getItem (conditionKey op)) cond
    (parseExprNames (op.get? "ExpressionAttributeNames"))
    (parseExprValues (op.get? "ExpressionAttributeValues"))

/-- First pass: validate all conditions. -/
def conditionPass (ctx : RequestContext) : List Json → TableProg → TableProg
  | [], next => next
  | op :: rest, next =>
    match stringField "ConditionExpression" op with
    | none => conditionPass ctx rest next
    | some cond =>
      .read (ctx.table (opTableName op)) fun
        | none => .ret (.panicked .missingTable)
        | some t =>
          match opCondition op cond t with
          | none => .ret (.panicked .expression)
          | some (.error _) => .ret conditionCanceled
          | some (.ok ()) => conditionPass ctx rest next

inductive Write where
  | put (tableName : String) (item : Item)
  | delete (tableName : String) (key : Item)
  | update (tableName : String) (key : Item) (updateExpr : Option String) (attrNames : AttrNames)
      (attrValues : AttrValues)

namespace Write

def tableName : Write → String
  | .put name _ => name
  | .delete name _ => name
  | .update name _ _ _ _ => name

def ofPut (put : Json) : Write := .put (opTableName put) (itemField "Item" put)

def ofDelete (del : Json) : Write := .delete (opTableName del) (itemField "Key" del)

def ofUpdate (upd : Json) : Write :=
  .update (opTableName upd) (itemField "Key" upd) (stringField "UpdateExpression" upd)
    (parseExprNames (upd.get? "ExpressionAttributeNames"))
    (parseExprValues (upd.get? "ExpressionAttributeValues"))

/-- What the second pass does to the table of a write; `none` is the decimal panic. -/
def applyTo (D : DecimalOps) (now : Int) : Write → Table → Option Table
  | .put _ item, t => some (t.putItem now item).2
  | .delete _ key, t => some (t.deleteItem now key).2
  | .update _ key updateExpr names values, t =>
    match t.extractKeyFromItem key with
    | none => some t
    | some (hk, sk) =>
      (updatedItem D ((row t.items hk sk).getD key) updateExpr names values).map
        fun item => (t.putItem now item).2

end Write

/-- The write of an entry: an `else if` chain, so only the first kind present counts. -/
def chosenWrite (ti : Json) : Option Write :=
  match ti.get? "Put" with
  | some put => some (.ofPut put)
  | none =>
    match ti.get? "Delete" with
    | some del => some (.ofDelete del)
    | none => (ti.get? "Update").map .ofUpdate

/-- Second pass: apply writes. -/
@[grind] def applyPass (D : DecimalOps) (ctx : RequestContext) : List Write → TableProg
  | [] => .ret (.ok .empty)
  | w :: rest =>
    .access (ctx.table w.tableName) (fun c => c.map fun t => (w.applyTo D ctx.now t).getD t) fun
      | none => applyPass D ctx rest
      | some t =>
        match w.applyTo D ctx.now t with
        | none => .ret (.panicked .decimal)
        | some _ => applyPass D ctx rest

/-- The two passes over a list of entries, after the existence check. -/
def transaction (D : DecimalOps) (ctx : RequestContext) (transactItems : List Json) : TableProg :=
  existencePass ctx (listedOps transactItems)
    (conditionPass ctx (listedOps transactItems)
      (applyPass D ctx (transactItems.filterMap chosenWrite)))

def transactWriteItems (D : DecimalOps) (ctx : RequestContext) (body : Json) : TableProcess :=
  match (body.get? "TransactItems").bind Json.asArray? with
  | none => answerAtOnce (validationException "TransactItems is required")
  | some transactItems =>
    { locks := (tableNames transactItems).map fun name => tableLock (ctx.table name)
      body := transaction D ctx transactItems }

inductive WriteRequest where
  | putItem (ctx : RequestContext) (body : Json)
  | deleteItem (ctx : RequestContext) (body : Json)
  | updateItem (ctx : RequestContext) (body : Json)
  | batchWriteTable (ctx : RequestContext) (tableName : String) (requests : Json)
  | transactWriteItems (ctx : RequestContext) (body : Json)

def WriteRequest.process (D : DecimalOps) : WriteRequest → TableProcess
  | .putItem ctx body => DynamoDb.putItem ctx body
  | .deleteItem ctx body => DynamoDb.deleteItem ctx body
  | .updateItem ctx body => DynamoDb.updateItem D ctx body
  | .batchWriteTable ctx tableName requests => DynamoDb.batchWriteTable ctx tableName requests
  | .transactWriteItems ctx body => DynamoDb.transactWriteItems D ctx body

end Openstack.DynamoDb

import Openstack.DynamoDb.Expression

/-!
# Update expressions

`store.rs:1156-1323`: `SET`, `REMOVE`, `ADD` and `DELETE` clauses in any order, each cut
off at the first clause keyword after it. Decimal arithmetic is a library of its own and
enters as a parameter; its addition panics on overflow, which is `none` here.
-/
namespace Openstack.DynamoDb

/-- `rust_decimal::Decimal`, as far as the update clauses use it. -/
structure DecimalOps where
  Decimal : Type
  fromStr : String → Option Decimal
  /-- `cur + d`; `none` is the overflow panic. -/
  add : Decimal → Decimal → Option Decimal
  normalize : Decimal → Decimal
  toStr : Decimal → String

/-- Each keyword that starts a clause, with its trailing space. -/
def clauseKeywords : List Text :=
  ["SET ".toList, "REMOVE ".toList, "ADD ".toList, "DELETE ".toList]

/-- The first position at which any clause keyword starts. -/
def clauseEnd (input : Text) : Nat :=
  clauseKeywords.foldl (fun last kw =>
    match RustStr.before kw input with
    | some front => if front.length < last then front.length else last
    | none => last) input.length

theorem clauseEnd_eq_foldl (input : Text) :
    clauseEnd input = clauseKeywords.foldl (fun last kw => (RustStr.before kw input).elim last
      fun front => if front.length < last then front.length else last) input.length := by
  unfold clauseEnd
  congr 1
  funext last kw
  cases RustStr.before kw input <;> rfl

def extractClause (input : Text) : Text × Text :=
  (RustStr.trim (input.take (clauseEnd input)), input.drop (clauseEnd input))

/-- `part.trim().splitn(2, ' ')`: the attribute and, after a space, the value reference. -/
def splitToken (part : Text) : Text × Option Text :=
  let part := RustStr.trim part
  ((RustStr.before [' '] part).getD part, RustStr.after [' '] part)

def applyAssignment (names : AttrNames) (values : AttrValues) (item : Item) (assignment : Text) :
    Item :=
  let assignment := RustStr.trim assignment
  match RustStr.before ['='] assignment, RustStr.after ['='] assignment with
  | some lhs, some rhs =>
    item.insert (resolveName (RustStr.trim lhs) names) (resolveValue (RustStr.trim rhs) values)
  | _, _ => item

def applySetClause (item : Item) (clause : Text) (names : AttrNames) (values : AttrValues) : Item :=
  (clause.splitOn ',').foldl (applyAssignment names values) item

def applyRemoveClause (item : Item) (clause : Text) (names : AttrNames) : Item :=
  (clause.splitOn ',').foldl (fun it attr => it.erase (resolveName (RustStr.trim attr) names)) item

/-- The set union loop: `if !cur.contains(v) { cur.push(v) }`. -/
def unionInto (cur delta : List String) : List String :=
  delta.foldl (fun acc v => if acc.contains v then acc else acc ++ [v]) cur

def retainOthers (cur toRemove : List String) : List String :=
  cur.filter fun v => !toRemove.contains v

/-- The new value of an attribute that exists; a type mismatch leaves it as it is. -/
def addToExisting (D : DecimalOps) : AttributeValue → AttributeValue → Option AttributeValue
  | .n cur, .n d =>
    match D.fromStr cur, D.fromStr d with
    | some x, some y => (D.add x y).map fun z => .n (D.toStr (D.normalize z))
    | _, _ => some (.n cur)
  | .ss cur, .ss delta => some (.ss (unionInto cur delta))
  | .ns cur, .ns delta => some (.ns (unionInto cur delta))
  | .bs cur, .bs delta => some (.bs (unionInto cur delta))
  | existing, _ => some existing

def applyAddPart (D : DecimalOps) (names : AttrNames) (values : AttrValues) (item : Item)
    (part : Text) : Option Item :=
  match splitToken part with
  | (_, none) => some item
  | (attr, some ref) =>
    let name := resolveName (RustStr.trim attr) names
    let delta := resolveValue (RustStr.trim ref) values
    match item[name]? with
    | some existing => (addToExisting D existing delta).map (item.insert name)
    | none => some (item.insert name delta)

def applyAddClause (D : DecimalOps) (item : Item) (clause : Text) (names : AttrNames)
    (values : AttrValues) : Option Item :=
  (clause.splitOn ',').foldlM (applyAddPart D names values) item

def deleteFromExisting : AttributeValue → AttributeValue → AttributeValue
  | .ss cur, .ss toRemove => .ss (retainOthers cur toRemove)
  | .ns cur, .ns toRemove => .ns (retainOthers cur toRemove)
  | .bs cur, .bs toRemove => .bs (retainOthers cur toRemove)
  | existing, _ => existing

def isEmptySet : AttributeValue → Bool
  | .ss v => v.isEmpty
  | .ns v => v.isEmpty
  | .bs v => v.isEmpty
  | _ => false

/-- A set that ends up empty takes its attribute with it. -/
def applyDeletePart (names : AttrNames) (values : AttrValues) (item : Item) (part : Text) : Item :=
  match splitToken part with
  | (attr, none) => item.erase (resolveName (RustStr.trim attr) names)
  | (attr, some ref) =>
    let name := resolveName (RustStr.trim attr) names
    match item[name]? with
    | none => item
    | some existing =>
      let left := deleteFromExisting existing (resolveValue (RustStr.trim ref) values)
      if isEmptySet left then item.erase name else item.insert name left

def applyDeleteClause (item : Item) (clause : Text) (names : AttrNames) (values : AttrValues) :
    Item :=
  (clause.splitOn ',').foldl (applyDeletePart names values) item

inductive Clause where
  | set
  | remove
  | add
  | delete
  deriving DecidableEq, Repr

/-- The clause a text starts with, and the text after its keyword. -/
def leadingClause (rest : Text) : Option (Clause × Text) :=
  if "SET ".toList.isPrefixOf rest then some (.set, rest.drop 4)
  else if "REMOVE ".toList.isPrefixOf rest then some (.remove, rest.drop 7)
  else if "ADD ".toList.isPrefixOf rest then some (.add, rest.drop 4)
  else if "DELETE ".toList.isPrefixOf rest then some (.delete, rest.drop 7)
  else none

def applyClause (D : DecimalOps) (names : AttrNames) (values : AttrValues) (item : Item)
    (clause : Text) : Clause → Option Item
  | .set => some (applySetClause item clause names values)
  | .remove => some (applyRemoveClause item clause names)
  | .add => applyAddClause D item clause names values
  | .delete => some (applyDeleteClause item clause names values)

/-- The clause loop. Every round drops a keyword, so the length of the text is fuel enough. -/
def applyClauses (D : DecimalOps) (names : AttrNames) (values : AttrValues) :
    (fuel : Nat) → Item → Text → Option Item
  | 0, item, _ => some item
  | fuel + 1, item, rest =>
    match leadingClause rest with
    | none => some item
    | some (kind, text) =>
      match applyClause D names values item (extractClause text).1 kind with
      | none => none
      | some item' => applyClauses D names values fuel item' (RustStr.trim (extractClause text).2)

def applyUpdateExpression (D : DecimalOps) (item : Item) (expression : String)
    (attrNames : AttrNames) (attrValues : AttrValues) : Option Item :=
  applyClauses D attrNames attrValues (expression.length + 1) item
    (RustStr.trim expression.toList)

theorem trim_length_le (s : Text) : (RustStr.trim s).length ≤ s.length := by
  have front : (s.dropWhile RustStr.isWhitespace).length ≤ s.length :=
    (List.dropWhile_suffix _).length_le
  have back := (List.rdropWhile_prefix RustStr.isWhitespace
    (s.dropWhile RustStr.isWhitespace)).length_le
  exact back.trans front

theorem drop_shorter {kw rest : Text} (here : kw.isPrefixOf rest = true) (n : Nat) (pos : 0 < n)
    (short : n ≤ kw.length) : (rest.drop n).length < rest.length := by
  have := (List.isPrefixOf_iff_prefix.mp here).length_le
  rw [List.length_drop]
  omega

theorem leadingClause_shorter {rest text : Text} {kind : Clause}
    (starts : leadingClause rest = some (kind, text)) : text.length < rest.length := by
  unfold leadingClause at starts
  split at starts
  · next here =>
    cases starts
    exact drop_shorter here 4 (by decide) (by decide)
  split at starts
  · next here =>
    cases starts
    exact drop_shorter here 7 (by decide) (by decide)
  split at starts
  · next here =>
    cases starts
    exact drop_shorter here 4 (by decide) (by decide)
  split at starts
  · next here =>
    cases starts
    exact drop_shorter here 7 (by decide) (by decide)
  · cases starts

/-- The loop never stops for want of fuel: more of it gives the same item. -/
theorem applyClauses_fuel (D : DecimalOps) (names : AttrNames) (values : AttrValues)
    (fuel more : Nat) (item : Item) (rest : Text) (enough : rest.length < fuel) :
    applyClauses D names values (fuel + more) item rest =
      applyClauses D names values fuel item rest := by
  induction fuel generalizing item rest with
  | zero => omega
  | succ fuel ih =>
    rw [Nat.succ_add, applyClauses, applyClauses]
    cases starts : leadingClause rest with
    | none => rfl
    | some found =>
      obtain ⟨kind, text⟩ := found
      cases applied : applyClause D names values item (extractClause text).1 kind with
      | none => simp [applied]
      | some item' =>
        simp only [applied]
        apply ih
        have shorter := leadingClause_shorter starts
        have left : (extractClause text).2.length ≤ text.length := by simp [extractClause]
        have := trim_length_le (extractClause text).2
        omega

end Openstack.DynamoDb

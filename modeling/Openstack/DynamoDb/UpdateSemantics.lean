import Openstack.DynamoDb.UpdateExpression

/-!
# Meaning of update expressions

The clauses of an update expression, their text and what they do to an item. The parser
(`store.rs:1156-1221`) cuts a clause at the first clause keyword with a blank behind it, which may be the
end of a name, and looks up operands that are not bound without noticing.
-/
namespace Openstack.DynamoDb

/-- A character of an operand. -/
def operandChar (c : Char) : Bool := !RustStr.isWhitespace c && c != ',' && c != '='

/-- An attribute name or a `#placeholder`. -/
structure NameOperand where
  text : Text
  nonempty : text ≠ []
  plain : ∀ c ∈ text, operandChar c = true

/-- A `:value` reference, without its colon. -/
structure ValueOperand where
  rest : Text
  plain : ∀ c ∈ rest, operandChar c = true

def ValueOperand.text (v : ValueOperand) : Text := ':' :: v.rest

inductive UpdateAction where
  | set (name : NameOperand) (value : ValueOperand)
  | remove (name : NameOperand)
  | add (name : NameOperand) (value : ValueOperand)
  | delete (name : NameOperand) (value : ValueOperand)

inductive UpdateClause where
  | set (actions : List (NameOperand × ValueOperand))
  | remove (names : List NameOperand)
  | add (actions : List (NameOperand × ValueOperand))
  | delete (actions : List (NameOperand × ValueOperand))

namespace UpdateClause

def actions : UpdateClause → List UpdateAction
  | .set actions => actions.map fun p => .set p.1 p.2
  | .remove names => names.map .remove
  | .add actions => actions.map fun p => .add p.1 p.2
  | .delete actions => actions.map fun p => .delete p.1 p.2

def kind : UpdateClause → Clause
  | .set _ => .set
  | .remove _ => .remove
  | .add _ => .add
  | .delete _ => .delete

end UpdateClause

def Clause.keyword : Clause → Text
  | .set => "SET".toList
  | .remove => "REMOVE".toList
  | .add => "ADD".toList
  | .delete => "DELETE".toList

/-- An action in front of its last operand. -/
def UpdateAction.front : UpdateAction → Text
  | .set n _ => n.text ++ ' ' :: '=' :: ' ' :: []
  | .remove _ => []
  | .add n _ | .delete n _ => n.text ++ ' ' :: []

def UpdateAction.last : UpdateAction → Text
  | .remove n => n.text
  | .set _ v | .add _ v | .delete _ v => v.text

def UpdateAction.print (a : UpdateAction) : Text := a.front ++ a.last

/-- The actions, with commas between them. -/
def printActions : List UpdateAction → Text
  | [] => []
  | [a] => a.print
  | a :: b :: rest => a.print ++ ',' :: ' ' :: printActions (b :: rest)

def UpdateClause.print (c : UpdateClause) : Text := c.kind.keyword ++ ' ' :: printActions c.actions

@[grind] def printClauses : List UpdateClause → Text
  | [] => []
  | [c] => c.print
  | c :: d :: rest => c.print ++ ' ' :: printClauses (d :: rest)

/-- A placeholder stands for the name that it is bound to, any other name for itself. -/
def NameOperand.denote (names : AttrNames) (n : NameOperand) : Option String :=
  if n.text.head? = some '#' then names[String.ofList n.text]? else some (String.ofList n.text)

def ValueOperand.denote (values : AttrValues) (v : ValueOperand) : Option AttributeValue :=
  values[String.ofList v.text]?

/-- The elements of both, those of the first in front. -/
def union (cur delta : List String) : List String :=
  cur ++ (delta.filter fun v => !cur.contains v).eraseDups

/-- The sum of numbers and the union of sets; values of other types stay as they are. Numbers have no sum
where the decimal arithmetic has none. -/
def plus (D : DecimalOps) : AttributeValue → AttributeValue → Option AttributeValue
  | .n cur, .n d => do
    let x ← D.fromStr cur
    let y ← D.fromStr d
    let z ← D.add x y
    some (.n (D.toStr (D.normalize z)))
  | .ss cur, .ss delta => some (.ss (union cur delta))
  | .ns cur, .ns delta => some (.ns (union cur delta))
  | .bs cur, .bs delta => some (.bs (union cur delta))
  | cur, _ => some cur

/-- The difference of sets. -/
def minus : AttributeValue → AttributeValue → AttributeValue
  | .ss cur, .ss others => .ss (cur.filter (· ∉ others))
  | .ns cur, .ns others => .ns (cur.filter (· ∉ others))
  | .bs cur, .bs others => .bs (cur.filter (· ∉ others))
  | cur, _ => cur

section Meaning

variable (D : DecimalOps) (names : AttrNames) (values : AttrValues)

/-- What an action does to an item. An action with an operand that is not bound does nothing. -/
@[grind] def UpdateAction.denote (item : Item) : UpdateAction → Option Item
  | .set n v =>
    match n.denote names, v.denote values with
    | some a, some x => some (item.insert a x)
    | _, _ => some item
  | .remove n =>
    match n.denote names with
    | some a => some (item.erase a)
    | none => some item
  | .add n v =>
    match n.denote names, v.denote values with
    | some a, some x =>
      match item[a]? with
      | some cur => (plus D cur x).map (item.insert a)
      | none => some (item.insert a x)
    | _, _ => some item
  | .delete n v =>
    match n.denote names, v.denote values with
    | some a, some x =>
      match item[a]? with
      | some cur => some (if isEmptySet (minus cur x) then item.erase a else item.insert a (minus cur x))
      | none => some item
    | _, _ => some item

/-- The actions in order. -/
def denoteClauses (item : Item) (clauses : List UpdateClause) : Option Item :=
  (clauses.flatMap UpdateClause.actions).foldlM (UpdateAction.denote D names values) item

/-- The values that the actions can make of an item's and the bound ones. -/
inductive Derived (item : Item) : AttributeValue → Prop where
  | old {a : String} {x : AttributeValue} : item[a]? = some x → Derived item x
  | bound {v : String} {x : AttributeValue} : values[v]? = some x → Derived item x
  | sum {x y z : AttributeValue} : Derived item x → Derived item y → plus D x y = some z → Derived item z
  | difference {x y : AttributeValue} : Derived item x → Derived item y → Derived item (minus x y)

/-- The printed expression does to the item what its actions mean, wherever they mean something. -/
def UpdateFaithful (clauses : List UpdateClause) (item : Item) : Prop :=
  ∀ m, denoteClauses D names values item clauses = some m →
    applyUpdateExpression D item (String.ofList (printClauses clauses)) names values = some m ∧
      ∀ (a : String) x, m[a]? = some x → Derived D values item x

end Meaning

/-- With a blank behind it, the text ends in what starts a clause. -/
def endsInKeyword (text : Text) : Bool :=
  [Clause.set, .remove, .add, .delete].any fun k => k.keyword.isSuffixOf text

/-- The operand with a blank behind it does not end in a keyword. -/
def UpdateAction.readable : UpdateAction → Bool
  | .remove _ => true
  | .set n _ | .add n _ | .delete n _ => !endsInKeyword n.text

/-- A clause with others behind it: its last operand has a blank behind it, too. Without actions, SET and
ADD do nothing, and REMOVE and DELETE erase the attribute with the empty name. -/
def UpdateClause.readableInside (c : UpdateClause) : Bool :=
  c.actions.all UpdateAction.readable &&
    match c.actions.getLast? with
    | some a => !endsInKeyword a.last
    | none => c.kind = .set || c.kind = .add

/-- The last clause; its keyword has a blank behind it only if there are actions. -/
def UpdateClause.readableLast (c : UpdateClause) : Bool :=
  c.actions.all UpdateAction.readable && !c.actions.isEmpty

/-- Clauses behind others. -/
def readableBehind : List UpdateClause → Bool
  | [] => true
  | [c] => c.readableLast
  | c :: d :: rest => c.readableInside && readableBehind (d :: rest)

/-- A single clause may lack actions. -/
def readable : List UpdateClause → Bool
  | [c] => c.actions.isEmpty || c.readableLast
  | clauses => readableBehind clauses

/-- A placeholder is bound, and any other name stands for itself. -/
def NameOperand.Resolves (names : AttrNames) (n : NameOperand) : Prop :=
  if n.text.head? = some '#' then names[String.ofList n.text]?.isSome = true
  else resolveName n.text names = String.ofList n.text

instance (names : AttrNames) (n : NameOperand) : Decidable (n.Resolves names) :=
  inferInstanceAs (Decidable (if n.text.head? = some '#' then names[String.ofList n.text]?.isSome = true
    else resolveName n.text names = String.ofList n.text))

def ValueOperand.Resolves (values : AttrValues) (v : ValueOperand) : Prop :=
  values[String.ofList v.text]?.isSome = true

def UpdateAction.Resolves (names : AttrNames) (values : AttrValues) : UpdateAction → Prop
  | .remove n => n.Resolves names
  | .set n v | .add n v | .delete n v => n.Resolves names ∧ v.Resolves values

instance (values : AttrValues) (v : ValueOperand) : Decidable (v.Resolves values) :=
  inferInstanceAs (Decidable (_ = true))

instance (names : AttrNames) (values : AttrValues) : (a : UpdateAction) →
    Decidable (a.Resolves names values)
  | .remove n => inferInstanceAs (Decidable (n.Resolves names))
  | .set n v | .add n v | .delete n v =>
    inferInstanceAs (Decidable (n.Resolves names ∧ v.Resolves values))

end Openstack.DynamoDb

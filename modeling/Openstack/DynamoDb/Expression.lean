import Mathlib
import Openstack.DynamoDb.AttributeValue
import Openstack.Lib.RustStr

/-!
# Condition and filter expressions

`store.rs:1001-1150` and `store.rs:1329-1342`: the evaluator splits the text at the
first top-level `AND`, then at the first top-level `OR`, and reads what is left as a
negation, a function call or a comparison. A text is a list of characters. Slicing a
text inside a character panics, which is `none` here.
-/
namespace Openstack.DynamoDb

abbrev AttrNames := StrMap String

abbrev AttrValues := StrMap AttributeValue

abbrev Text := List Char

/-- Length in bytes. -/
def byteLen (text : Text) : Nat := (text.map Char.utf8Size).sum

/-- The byte index `n` lies between two characters or at the end. -/
def isCharBoundary : Nat → Text → Bool
  | 0, _ => true
  | _ + 1, [] => false
  | n + 1, c :: rest => decide (c.utf8Size ≤ n + 1) && isCharBoundary (n + 1 - c.utf8Size) rest

@[grind] def depthAfter (depth : Int) (c : Char) : Int :=
  if c = '(' then depth + 1 else if c = ')' then depth - 1 else depth

/-- Put `seg` in front of the text before the occurrence. -/
def prepend (seg : Text) (found : Option (Option (Text × Text))) : Option (Option (Text × Text)) :=
  found.map (Option.map fun p => (seg ++ p.1, p.2))

/-- The text before and after the first occurrence of the keyword outside
parentheses. The loop runs over bytes: at depth zero it slices as many bytes as the
(ASCII) keyword has, which panics when either end is inside a character. -/
@[grind] def findTopLevel (keyword : Text) : (depth : Int) → Text → Option (Option (Text × Text))
  | _, [] => some none
  | depth, c :: rest =>
    let depth := depthAfter depth c
    let next := prepend [c] (findTopLevel keyword depth rest)
    if depth = 0 ∧ keyword.length ≤ byteLen (c :: rest) then
      if isCharBoundary keyword.length (c :: rest) then
        if keyword.isPrefixOf (c :: rest) then some (some ([], (c :: rest).drop keyword.length))
        else if 1 < c.utf8Size ∧ keyword.length < byteLen (c :: rest) then none
        else next
      else none
    else next

def resolveName (name : Text) (names : AttrNames) : String :=
  names[String.ofList name]?.getD (String.ofList name)

def resolveValue (val : Text) (values : AttrValues) : AttributeValue :=
  values[String.ofList val]?.getD .null

def resolveItemValue (item : Item) (attr : Text) (names : AttrNames) : AttributeValue :=
  item[resolveName attr names]?.getD .null

inductive CmpOp where
  | ne
  | le
  | ge
  | lt
  | gt
  | eq
  deriving DecidableEq, Repr

namespace CmpOp

def symbol : CmpOp → Text
  | ne => ['<', '>']
  | le => ['<', '=']
  | ge => ['>', '=']
  | lt => ['<']
  | gt => ['>']
  | eq => ['=']

/-- The order in which the operators are looked for. -/
def all : List CmpOp := [ne, le, ge, lt, gt, eq]

def holds (op : CmpOp) (ord : Option Ordering) : Bool :=
  match op with
  | eq => ord = some .eq
  | ne => ord ≠ some .eq
  | lt => ord = some .lt
  | le => ord = some .lt ∨ ord = some .eq
  | gt => ord = some .gt
  | ge => ord = some .gt ∨ ord = some .eq

end CmpOp

/-- The string of a string value, and the empty one otherwise. -/
def stringOr : AttributeValue → Text
  | .s v => v.toList
  | _ => []

/-- Both string tests of the function calls `name, value`. -/
def stringTest (test : Text → Text → Bool) (item : Item) (inner : Text) (names : AttrNames)
    (values : AttrValues) : Bool :=
  match RustStr.before [','] inner, RustStr.after [','] inner with
  | some first, some second =>
    match item[resolveName (RustStr.trim first) names]? with
    | some iv => test (stringOr iv) (stringOr (resolveValue (RustStr.trim second) values))
    | none => false
  | _, _ => false

def beginsWithTest (s p : Text) : Bool := p.isPrefixOf s

def containsTest (s sub : Text) : Bool := (RustStr.before sub s).isSome

/-- The argument text of `function(...)`. -/
def callArguments (function : String) (expr : Text) : Option Text :=
  let front := function.toList ++ ['(']
  if front.isPrefixOf expr ∧ expr.getLast? = some ')' then
    some ((expr.drop front.length).dropLast)
  else none

/-- The first operator of the list that occurs in the text decides. -/
def evaluateComparison (item : Item) (expr : Text) (names : AttrNames) (values : AttrValues) :
    List CmpOp → Bool
  | [] => true
  | op :: rest =>
    match RustStr.before op.symbol expr, RustStr.after op.symbol expr with
    | some lhs, some rhs =>
      op.holds (avCompare (resolveItemValue item (RustStr.trim lhs) names)
        (resolveValue (RustStr.trim rhs) values))
    | _, _ => evaluateComparison item expr names values rest

/-- What is left when the text has no top-level connective and no leading `NOT`. -/
def evaluateAtom (item : Item) (expr : Text) (names : AttrNames) (values : AttrValues) : Bool :=
  match callArguments "attribute_exists" expr with
  | some inner => item.contains (resolveName (RustStr.trim inner) names)
  | none =>
    match callArguments "attribute_not_exists" expr with
    | some inner => !item.contains (resolveName (RustStr.trim inner) names)
    | none =>
      match callArguments "begins_with" expr with
      | some inner => stringTest beginsWithTest item inner names values
      | none =>
        match callArguments "contains" expr with
        | some inner => stringTest containsTest item inner names values
        | none => evaluateComparison item expr names values CmpOp.all

def andKeyword : Text := " AND ".toList

def orKeyword : Text := " OR ".toList

def notKeyword : Text := "NOT ".toList

/-- `&&` and `||`, which evaluate the right side only when it matters. -/
def shortCircuit (decisive : Bool) (left : Option Bool) (right : Option Bool) : Option Bool :=
  left.bind fun l => if l = decisive then some decisive else right

/-- Every call is on a shorter text, so the length of the text is fuel enough. -/
@[grind] def evaluateExpr (item : Item) (names : AttrNames) (values : AttrValues) :
    (fuel : Nat) → Text → Option Bool
  | 0, _ => none
  | fuel + 1, expr =>
    let expr := RustStr.trim expr
    match findTopLevel andKeyword 0 expr with
    | none => none
    | some (some (left, right)) =>
      shortCircuit false (evaluateExpr item names values fuel left)
        (evaluateExpr item names values fuel right)
    | some none =>
      match findTopLevel orKeyword 0 expr with
      | none => none
      | some (some (left, right)) =>
        shortCircuit true (evaluateExpr item names values fuel left)
          (evaluateExpr item names values fuel right)
      | some none =>
        if notKeyword.isPrefixOf expr then
          (evaluateExpr item names values fuel (expr.drop notKeyword.length)).map (!·)
        else some (evaluateAtom item expr names values)

def evaluateFilter (item : Item) (expression : String) (attrNames : AttrNames)
    (attrValues : AttrValues) : Option Bool :=
  evaluateExpr item attrNames attrValues (expression.length + 1) (RustStr.trim expression.toList)

/-- `none` is the panic of the evaluator. -/
def checkCondition (item : Option Item) (condition : String) (attrNames : AttrNames)
    (attrValues : AttrValues) : Option (Except String Unit) :=
  (evaluateFilter (item.getD ∅) condition attrNames attrValues).map fun holds =>
    if holds then .ok () else .error "ConditionalCheckFailedException"

end Openstack.DynamoDb

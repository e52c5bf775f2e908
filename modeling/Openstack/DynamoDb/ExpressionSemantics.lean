import Openstack.DynamoDb.Expression

/-!
# Meaning of condition expressions

The syntax trees that the evaluator's grammar generates, their text, in which
parentheses stand where precedence needs them, and their Boolean meaning. The
evaluator splits at `AND` before it splits at `OR` and never opens a parenthesis, so
it is right about the expressions without parentheses that use one connective.
-/
namespace Openstack.DynamoDb

/-- A character of a name or of a value reference. -/
def plainChar (c : Char) : Bool := !RustStr.isWhitespace c && !("(),<>=".toList.contains c)

/-- An attribute name or a `#placeholder`. -/
structure NameToken where
  text : Text
  nonempty : text ≠ []
  plain : ∀ c ∈ text, plainChar c = true
  unreserved : text ≠ "AND".toList ∧ text ≠ "OR".toList ∧ text ≠ "NOT".toList

/-- A `:value` reference, without its colon. -/
structure ValueToken where
  rest : Text
  plain : ∀ c ∈ rest, plainChar c = true

def ValueToken.text (v : ValueToken) : Text := ':' :: v.rest

inductive Atom where
  | compare (name : NameToken) (op : CmpOp) (value : ValueToken)
  | attributeExists (name : NameToken)
  | attributeNotExists (name : NameToken)
  | beginsWith (name : NameToken) (value : ValueToken)
  | contains (name : NameToken) (value : ValueToken)

inductive Expr where
  | atom (a : Atom)
  | not (e : Expr)
  | and (l r : Expr)
  | or (l r : Expr)
  /-- Parentheses that precedence does not ask for. -/
  | paren (e : Expr)

/-- `function(args)`. -/
def call (function : String) (args : Text) : Text := function.toList ++ '(' :: (args ++ [')'])

def twoArgs (name : NameToken) (value : ValueToken) : Text := name.text ++ ',' :: ' ' :: value.text

def Atom.print : Atom → Text
  | .compare name op value => name.text ++ ' ' :: (op.symbol ++ ' ' :: value.text)
  | .attributeExists name => call "attribute_exists" name.text
  | .attributeNotExists name => call "attribute_not_exists" name.text
  | .beginsWith name value => call "begins_with" (twoArgs name value)
  | .contains name value => call "contains" (twoArgs name value)

def parens (text : Text) : Text := '(' :: (text ++ [')'])

/-- The text of an operand of a connective that binds with strength `p`: `OR` is 0,
`AND` is 1 and `NOT` is 2. -/
@[grind] def Expr.printAt : Expr → (p : Nat) → Text
  | .atom a, _ => a.print
  | .not e, _ => notKeyword ++ e.printAt 2
  | .and l r, p =>
    let text := l.printAt 1 ++ andKeyword ++ r.printAt 1
    if 1 < p then parens text else text
  | .or l r, p =>
    let text := l.printAt 0 ++ orKeyword ++ r.printAt 0
    if 0 < p then parens text else text
  | .paren e, _ => parens (e.printAt 0)

def Expr.print (e : Expr) : String := String.ofList (e.printAt 0)

/-- The string tests hold of a present attribute only. -/
def denoteTest (test : Text → Text → Bool) (item : Item) (names : AttrNames) (values : AttrValues)
    (name : NameToken) (value : ValueToken) : Bool :=
  match item[resolveName name.text names]? with
  | some iv => test (stringOr iv) (stringOr (resolveValue value.text values))
  | none => false

def Atom.denote (item : Item) (names : AttrNames) (values : AttrValues) : Atom → Bool
  | .compare name op value =>
    op.holds (avCompare (resolveItemValue item name.text names) (resolveValue value.text values))
  | .attributeExists name => item.contains (resolveName name.text names)
  | .attributeNotExists name => !item.contains (resolveName name.text names)
  | .beginsWith name value => denoteTest beginsWithTest item names values name value
  | .contains name value => denoteTest containsTest item names values name value

def Expr.denote (item : Item) (names : AttrNames) (values : AttrValues) : Expr → Bool
  | .atom a => a.denote item names values
  | .not e => !e.denote item names values
  | .and l r => l.denote item names values && r.denote item names values
  | .or l r => l.denote item names values || r.denote item names values
  | .paren e => e.denote item names values

def isAscii (c : Char) : Bool := c.utf8Size == 1

/-- No scan slices a character of the atom: a comparison is in ASCII, and a call in
its first three characters after the parenthesis. -/
def Atom.readable : Atom → Bool
  | .compare name _ value => name.text.all isAscii && value.rest.all isAscii
  | .attributeExists name | .attributeNotExists name => (name.text.take 3).all isAscii
  | .beginsWith name value | .contains name value => ((twoArgs name value).take 3).all isAscii

/-- A readable atom under any number of `NOT`s. -/
@[grind] def Expr.isLiteral : Expr → Bool
  | .atom a => a.readable
  | .not e => e.isLiteral
  | .and _ _ | .or _ _ | .paren _ => false

def Expr.isConjunction : Expr → Bool
  | .and l r => l.isConjunction && r.isConjunction
  | e => e.isLiteral

def Expr.isDisjunction : Expr → Bool
  | .or l r => l.isDisjunction && r.isDisjunction
  | e => e.isLiteral

/-- No parentheses, not both connectives, and readable atoms. -/
def Expr.isPlain (e : Expr) : Bool := e.isConjunction || e.isDisjunction

end Openstack.DynamoDb

import Openstack.DynamoDb.Expression
import Openstack.DynamoDb.Query

/-!
# Key conditions of a query

`provider.rs:282-442`. The text is cut at every top-level `AND`, and each part is read on its own: as a call
of `begins_with`, as a `BETWEEN`, or by the first operator of a list that it holds. Slices are taken by byte
positions; a slice that starts or ends inside a character panics, which is `none` here. `resolve_attr_name`
and `resolve_attr_value` are `resolveName` and `resolveValue`.
-/
namespace Openstack.DynamoDb

/-- `(&s[..n], &s[n..])`. -/
def splitAtByte : (n : Nat) → Text → Option (Text × Text)
  | 0, text => some ([], text)
  | _ + 1, [] => none
  | n + 1, c :: rest =>
    if c.utf8Size ≤ n + 1 then
      (splitAtByte (n + 1 - c.utf8Size) rest).map fun p => (c :: p.1, p.2)
    else none

/-- `&s[n..]`. -/
def sliceFrom (n : Nat) (text : Text) : Option Text := (splitAtByte n text).map (·.2)

/-- `&s[..n]`. -/
def sliceTo (n : Nat) (text : Text) : Option Text := (splitAtByte n text).map (·.1)

/-- `&s[lo..hi]`. -/
def slice (lo hi : Nat) (text : Text) : Option Text :=
  if lo ≤ hi then (sliceTo hi text).bind (sliceFrom lo) else none

/-- `str::to_lowercase` and `str::to_uppercase`, with what they do to text in ASCII. -/
structure CaseMapping where
  toLowercase : Text → Text
  toUppercase : Text → Text
  /-- Text in ASCII is mapped character by character, whatever stands behind it. -/
  lowercase_front : ∀ front rest : Text, front.all (fun c => c.utf8Size == 1) = true →
    front.map Char.toLower <+: toLowercase (front ++ rest)
  lowercase_ascii : ∀ text : Text, text.all (fun c => c.utf8Size == 1) = true →
    toLowercase text = text.map Char.toLower
  uppercase_ascii : ∀ text : Text, text.all (fun c => c.utf8Size == 1) = true →
    toUppercase text = text.map Char.toUpper

/-- `candidate.eq_ignore_ascii_case(" AND ")` for the first five bytes. -/
def startsWithAnd (text : Text) : Bool := andKeyword.map Char.toLower == (text.take 5).map Char.toLower

/-- Neither slice that is taken at a position outside parentheses is cut inside a character: `&expr[i..]`,
which is also taken at the later bytes of the character there, and its first five bytes. -/
@[grind] def sliceable : Text → Bool
  | [] => true
  | c :: rest => c.utf8Size == 1 && (decide (byteLen (c :: rest) < 5) || isCharBoundary 5 (c :: rest))

/-- Put `seg` in front of the first part. -/
def prependPart (seg : Text) : List Text → List Text
  | [] => []
  | part :: parts => (seg ++ part) :: parts

/-- The loop over the bytes; `skip` is what is left of an `AND` that was found. -/
@[grind] def splitFromDepth : (depth : Int) → (skip : Nat) → Text → Option (List Text)
  | _, _, [] => some [[]]
  | depth, skip + 1, _ :: rest => splitFromDepth depth skip rest
  | depth, 0, c :: rest =>
    let depth := depthAfter depth c
    if depth = 0 then
      if sliceable (c :: rest) then
        if startsWithAnd (c :: rest) then (splitFromDepth depth 4 rest).map ([] :: ·)
        else (splitFromDepth depth 0 rest).map (prependPart [c])
      else none
    else (splitFromDepth depth 0 rest).map (prependPart [c])

def splitTopLevelAnd (expr : Text) : Option (List Text) := splitFromDepth 0 0 expr

def betweenKeyword : Text := " BETWEEN ".toList

/-- The byte position of the first top-level occurrence; the loop is that of `findTopLevel`. -/
def findKeywordPos (haystack keyword : Text) : Option (Option Nat) :=
  (findTopLevel keyword 0 haystack).map (Option.map fun p => byteLen p.1)

def avToString : AttributeValue → Option String
  | .s s => some s
  | .n n => some n
  | .b b => some b
  | _ => none

/-- The key string of the partition and the condition on the sort key. -/
abbrev KeyRead := Option String × Option RangeCondition

section Parts

variable (C : CaseMapping) (rangeKeyName : String) (attrNames : AttrNames) (attrValues : AttrValues)

/-- The argument text of a part that is a call of `begins_with`; the inner `none` is any other part. -/
def beginsWithArguments (part : Text) : Option (Option Text) :=
  if "begins_with(".toList.isPrefixOf (C.toLowercase part) ∧ part.getLast? = some ')' then
    (slice 12 (byteLen part - 1) part).map some
  else some none

def readBeginsWith (inner : Text) (read : KeyRead) : KeyRead :=
  match RustStr.splitn ',' 2 inner with
  | [first, second] =>
    let name := resolveName (RustStr.trim first) attrNames
    let start := match resolveValue (RustStr.trim second) attrValues with
      | .s s => s
      | _ => ""
    if name = rangeKeyName then (read.1, some (.beginsWith start)) else read
  | _ => read

/-- A part that has a `BETWEEN` at byte `pos`; its two bounds stand around an `AND`. -/
def readBetween (pos : Nat) (part : Text) (read : KeyRead) : Option KeyRead := do
  let lhs ← sliceTo pos part
  let rest ← sliceFrom (pos + 9) part
  match ← findKeywordPos (C.toUppercase rest) andKeyword with
  | none => pure read
  | some ap =>
    let lo ← sliceTo ap rest
    let hi ← sliceFrom (ap + 5) rest
    if resolveName (RustStr.trim lhs) attrNames = rangeKeyName then
      pure (read.1, some (.between (resolveValue (RustStr.trim lo) attrValues)
        (resolveValue (RustStr.trim hi) attrValues)))
    else pure read

/-- An equality on any other name than the range key is the hash condition. -/
def readOperator (op : CmpOp) (lhs : String) (rhs : AttributeValue) (read : KeyRead) : KeyRead :=
  match op with
  | .eq => if lhs = rangeKeyName then (read.1, some (.eq rhs)) else (avToString rhs, read.2)
  | .lt => if lhs = rangeKeyName then (read.1, some (.lt rhs)) else read
  | .le => if lhs = rangeKeyName then (read.1, some (.lte rhs)) else read
  | .gt => if lhs = rangeKeyName then (read.1, some (.gt rhs)) else read
  | .ge => if lhs = rangeKeyName then (read.1, some (.gte rhs)) else read
  | .ne => read

/-- The order in which a part is searched for an operator. -/
def keyOperators : List CmpOp := [.le, .ge, .ne, .lt, .gt, .eq]

def readComparison (part : Text) (read : KeyRead) : List CmpOp → KeyRead
  | [] => read
  | op :: rest =>
    match RustStr.before op.symbol part, RustStr.after op.symbol part with
    | some lhs, some rhs =>
      readOperator rangeKeyName op (resolveName (RustStr.trim lhs) attrNames)
        (resolveValue (RustStr.trim rhs) attrValues) read
    | _, _ => readComparison part read rest

/-- The body of the loop over the parts. -/
def readPart (read : KeyRead) (part : Text) : Option KeyRead := do
  let part := RustStr.trim part
  match ← beginsWithArguments C part with
  | some inner => pure (readBeginsWith rangeKeyName attrNames attrValues inner read)
  | none =>
    match ← findKeywordPos (C.toUppercase part) betweenKeyword with
    | some pos => readBetween C rangeKeyName attrNames attrValues pos part read
    | none => pure (readComparison rangeKeyName attrNames attrValues part read keyOperators)

def parseKeyCondition (expr : String) : Option KeyRead :=
  (splitTopLevelAnd (RustStr.trim expr.toList)).bind fun parts =>
    parts.foldlM (readPart C rangeKeyName attrNames attrValues) (none, none)

end Parts

end Openstack.DynamoDb

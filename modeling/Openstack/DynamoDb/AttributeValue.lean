import Mathlib.Data.List.DropRight
import Openstack.Lib.StrMap

/-!
# DynamoDB attribute values and key strings

`store.rs:26-48` (the value enum), `store.rs:281-379` (sort keys and numeric
comparison) and `store.rs:963-1000` (key strings). A map value keeps its entries
as a list, since a nested inductive type cannot go through a map quotient; no
function of this module looks inside one.
-/
namespace Openstack.DynamoDb

inductive AttributeValue where
  | s (v : String)
  | n (v : String)
  | b (v : String)
  | bool (v : Bool)
  | null
  | ss (v : List String)
  | ns (v : List String)
  | bs (v : List String)
  | l (v : List AttributeValue)
  | m (v : List (String × AttributeValue))

abbrev Item := StrMap AttributeValue

/-- `av_to_key_str`: the key string used when a row or an index entry is written. -/
def avToKeyStr : AttributeValue → Option String
  | .s v => some v
  | .n v => some v
  | .b v => some v
  | .bool v => some (toString v)
  | _ => none

/-- `av_to_key_str_ref`: the borrowing twin. It has no string to borrow for a
Boolean, so the two extractors differ exactly there. -/
def avToKeyStrRef : AttributeValue → Option String
  | .s v => some v
  | .n v => some v
  | .b v => some v
  | _ => none

theorem avToKeyStrRef_some {v : AttributeValue} {k : String} (h : avToKeyStrRef v = some k) :
    avToKeyStr v = some k := by
  cases v <;> simp_all [avToKeyStrRef, avToKeyStr]

theorem avToKeyStr_cases {v : AttributeValue} {k : String} (h : avToKeyStr v = some k) :
    avToKeyStrRef v = some k ∨ ∃ x, v = .bool x ∧ k = toString x := by
  cases v <;> simp_all [avToKeyStrRef, avToKeyStr]

/-- A string's UTF-8 bytes; Rust's string order and `len` are those of the bytes. -/
def utf8Bytes (s : List Char) : List UInt8 := s.flatMap String.utf8EncodeChar

/-- Text before and after the first decimal point. -/
def splitDecimal (s : List Char) : List Char × List Char :=
  (s.takeWhile (· ≠ '.'), (s.dropWhile (· ≠ '.')).tail)

/-- The byte loop over two fractional parts, the shorter padded with `'0'`. -/
def cmpFraction : List UInt8 → List UInt8 → Ordering
  | [], [] => .eq
  | a :: as, [] => (compare a 48).then (cmpFraction as [])
  | [], b :: bs => (compare 48 b).then (cmpFraction [] bs)
  | a :: as, b :: bs => (compare a b).then (cmpFraction as bs)

def cmpMagnitude (a b : List Char) : Ordering :=
  let aInt := utf8Bytes ((splitDecimal a).1.dropWhile (· = '0'))
  let bInt := utf8Bytes ((splitDecimal b).1.dropWhile (· = '0'))
  let aFrac := utf8Bytes ((splitDecimal a).2.rdropWhile (· = '0'))
  let bFrac := utf8Bytes ((splitDecimal b).2.rdropWhile (· = '0'))
  (compare aInt.length bInt.length).then ((compare aInt bInt).then (cmpFraction aFrac bFrac))

def cmpNumericStr (a b : String) : Ordering :=
  match a.toList, b.toList with
  | '-' :: aMag, '-' :: bMag => (cmpMagnitude aMag bMag).swap
  | '-' :: _, _ => .lt
  | _, '-' :: _ => .gt
  | aMag, bMag => cmpMagnitude aMag bMag

inductive SortKeyValue where
  | s (v : String)
  | n (v : String)
  deriving DecidableEq, Repr

def SortKeyValue.partialCmp : SortKeyValue → SortKeyValue → Option Ordering
  | .s a, .s b => some (compare a b)
  | .n a, .n b => some (cmpNumericStr a b)
  | _, _ => none

def avSortKey : AttributeValue → Option SortKeyValue
  | .s v => some (.s v)
  | .n v => some (.n v)
  | .b v => some (.s v)
  | _ => none

def avCompare (a b : AttributeValue) : Option Ordering := do
  let ak ← avSortKey a
  let bk ← avSortKey b
  ak.partialCmp bk

end Openstack.DynamoDb

import Openstack.DynamoDb.AttributeValue
import Openstack.Lib.Comparator

/-!
# The order of sort keys

`cmp_numeric_str` and `cmp_magnitude` (`store.rs:301-366`) put all texts in a total preorder, whether
they are numbers or not, and `SortKeyValue::partial_cmp` (`store.rs:283-291`) orders the keys of each
kind.
-/
namespace Openstack.DynamoDb

open Std (TransCmp OrientedCmp)

/-- A fraction to `n` places. -/
def padFraction (n : Nat) (frac : List UInt8) : List UInt8 := frac ++ List.replicate (n - frac.length) 48

theorem padFraction_nil (n : Nat) : padFraction (n + 1) [] = 48 :: padFraction n [] := by
  simp [padFraction, List.replicate_succ]

theorem padFraction_cons (n : Nat) (a : UInt8) (as : List UInt8) :
    padFraction (n + 1) (a :: as) = a :: padFraction n as := by
  simp [padFraction]

theorem cmpFraction_nil : cmpFraction [] [] = .eq := by rw [cmpFraction]

/-- The loop compares the fractions to as many places as either has. -/
theorem cmpFraction_eq_compare (n : Nat) (a b : List UInt8) (ha : a.length ≤ n) (hb : b.length ≤ n) :
    cmpFraction a b = compare (padFraction n a) (padFraction n b) := by
  induction n generalizing a b with
  | zero =>
    rw [List.length_eq_zero_iff.mp (Nat.le_zero.mp ha), List.length_eq_zero_iff.mp (Nat.le_zero.mp hb)]
    exact cmpFraction_nil.trans (Eq.symm Std.ReflCmp.compare_self)
  | succ n ih =>
    cases a with
    | nil =>
      cases b with
      | nil => exact cmpFraction_nil.trans (Eq.symm Std.ReflCmp.compare_self)
      | cons y bs =>
        rw [cmpFraction, ih [] bs (by simp) (by simpa using hb), padFraction_nil, padFraction_cons,
          List.compare_cons_cons]
    | cons x as =>
      cases b with
      | nil =>
        rw [cmpFraction, ih as [] (by simpa using ha) (by simp), padFraction_nil, padFraction_cons,
          List.compare_cons_cons]
      | cons y bs =>
        rw [cmpFraction, ih as bs (by simpa using ha) (by simpa using hb), padFraction_cons,
          padFraction_cons, List.compare_cons_cons]

instance : TransCmp cmpFraction where
  eq_swap {a b} := by
    have ha : a.length ≤ max a.length b.length := by omega
    have hb : b.length ≤ max a.length b.length := by omega
    rw [cmpFraction_eq_compare _ a b ha hb, cmpFraction_eq_compare _ b a hb ha]
    exact OrientedCmp.eq_swap
  isLE_trans {a b c} first second := by
    have ha : a.length ≤ max a.length (max b.length c.length) := by omega
    have hb : b.length ≤ max a.length (max b.length c.length) := by omega
    have hc : c.length ≤ max a.length (max b.length c.length) := by omega
    rw [cmpFraction_eq_compare _ a b ha hb] at first
    rw [cmpFraction_eq_compare _ b c hb hc] at second
    rw [cmpFraction_eq_compare _ a c ha hc]
    exact TransCmp.isLE_trans first second

/-- The integer part as compared. -/
def intBytes (s : List Char) : List UInt8 := utf8Bytes ((splitDecimal s).1.dropWhile (· = '0'))

/-- The fractional part as compared. -/
def fracBytes (s : List Char) : List UInt8 := utf8Bytes ((splitDecimal s).2.rdropWhile (· = '0'))

instance cmpFraction_on {α : Type} (f : α → List UInt8) : TransCmp fun a b => cmpFraction (f a) (f b) :=
  have fraction : TransCmp cmpFraction := inferInstance
  { eq_swap := fraction.eq_swap
    isLE_trans := fraction.isLE_trans }

theorem cmpMagnitude_eq : cmpMagnitude = compareLex (compareOn fun s => (intBytes s).length)
    (compareLex (compareOn intBytes) fun a b => cmpFraction (fracBytes a) (fracBytes b)) := rfl

instance : TransCmp cmpMagnitude := by
  rw [cmpMagnitude_eq]
  infer_instance

def isNegative (s : String) : Bool := s.toList.head? == some '-'

def magnitude (s : String) : List Char := if isNegative s then s.toList.tail else s.toList

/-- The sign decides first. -/
theorem cmpNumericStr_eq (a b : String) : cmpNumericStr a b =
    match isNegative a, isNegative b with
    | true, true => (cmpMagnitude (magnitude a) (magnitude b)).swap
    | true, false => .lt
    | false, true => .gt
    | false, false => cmpMagnitude (magnitude a) (magnitude b) := by
  have dash : ∀ s : String, (isNegative s = true ∧ s.toList = '-' :: magnitude s) ∨
      (isNegative s = false ∧ s.toList = magnitude s ∧ s.toList.head? ≠ some '-') := by
    intro s
    unfold magnitude isNegative
    cases s.toList with
    | nil => exact .inr ⟨rfl, rfl, by simp⟩
    | cons c rest =>
      by_cases sign : c = '-'
      · subst sign
        exact .inl ⟨rfl, rfl⟩
      · exact .inr (by simp [sign])
  unfold cmpNumericStr
  rcases dash a with ⟨na, ta⟩ | ⟨na, ta, ha⟩ <;> rcases dash b with ⟨nb, tb⟩ | ⟨nb, tb, hb⟩ <;>
    simp only [na, nb, ta, tb] <;> split <;> simp_all

instance : TransCmp cmpNumericStr where
  eq_swap {a b} := by
    rw [cmpNumericStr_eq a b, cmpNumericStr_eq b a]
    have swapped : cmpMagnitude (magnitude a) (magnitude b) = _ := OrientedCmp.eq_swap
    cases isNegative a <;> cases isNegative b
    · exact swapped
    · rfl
    · rfl
    · exact congrArg Ordering.swap swapped
  isLE_trans {a b c} first second := by
    rw [cmpNumericStr_eq] at first second ⊢
    cases na : isNegative a <;> cases nb : isNegative b <;> cases nc : isNegative c <;>
      simp only [na, nb, nc] at first second ⊢
    · exact TransCmp.isLE_trans first second
    · cases second
    · cases first
    · cases first
    · rfl
    · cases second
    · rfl
    · rw [← OrientedCmp.eq_swap] at first second ⊢
      exact TransCmp.isLE_trans second first

theorem partialCmp_byKind : Comparator.ByKind SortKeyValue.partialCmp where
  refl k := by cases k <;> exact congrArg some Std.ReflCmp.compare_self
  swaps k l := by
    cases k <;> cases l <;> first | rfl | exact congrArg some OrientedCmp.eq_swap
  transitive {k l m o p} first second le le' := by
    cases k <;> cases l <;> cases m <;> simp only [SortKeyValue.partialCmp, reduceCtorEq] at first second
    · cases first
      cases second
      exact ⟨_, rfl, TransCmp.isLE_trans le le'⟩
    · cases first
      cases second
      exact ⟨_, rfl, TransCmp.isLE_trans le le'⟩
  kind {k l m} first second := by
    cases k <;> cases l <;> cases m <;> simp_all [SortKeyValue.partialCmp]

end Openstack.DynamoDb

import Openstack.DynamoDb.NumberValues
import Openstack.DynamoDb.SortContract

/-!
# What a query on the primary key returns

The primary branch of `Table::query` (`store.rs:704-734`) against the order of typed values: strings by
their bytes, numbers by their value. `av_compare` (`store.rs:995-999`) reads a binary as a string, and
tells a zero from a negative zero.
-/
namespace Openstack.DynamoDb

/-- The order of two numbers, if both texts are numbers. -/
def compareNumbers (x y : String) : Option Ordering := do
  let p ← numericValue x
  let q ← numericValue y
  some (compare p q)

namespace AttributeValue

/-- Strings by their bytes, numbers by their value; values of different types have no order. -/
def typedCompare : AttributeValue → AttributeValue → Option Ordering
  | .s x, .s y => some (compare x y)
  | .n x, .n y => compareNumbers x y
  | _, _ => none

end AttributeValue

/-- The value satisfies the range condition. -/
def RangeCondition.Holds (v : AttributeValue) : RangeCondition → Prop
  | .eq b => v.typedCompare b = some .eq
  | .lt b => v.typedCompare b = some .lt
  | .lte b => ∃ o, v.typedCompare b = some o ∧ o ≠ .gt
  | .gt b => v.typedCompare b = some .gt
  | .gte b => ∃ o, v.typedCompare b = some o ∧ o ≠ .lt
  | .between lo hi => (∃ o, v.typedCompare lo = some o ∧ o ≠ .lt) ∧
      ∃ o, v.typedCompare hi = some o ∧ o ≠ .gt
  | .beginsWith start => ∃ x, v = .s x ∧ start.toList <+: x.toList

namespace Table

/-- The item lies under the hash value. -/
def StoredUnder (t : Table) (h : String) (i : Item) : Prop := ∃ s, t.extractKeyFromItem i = some (h, s)

/-- All range keys are strings, or all are plain numbers. -/
def OneTypeOfKey (t : Table) (rk : String) : Prop :=
  (∀ i ∈ t.allItems, ∃ x, i[rk]? = some (.s x)) ∨
    ∀ i ∈ t.allItems, ∃ x, i[rk]? = some (.n x) ∧ PlainNumber x

/-- The range key of `a` is not greater than that of `b`. -/
def KeyLE (rk : String) (a b : Item) : Prop :=
  ∃ v w o, a[rk]? = some v ∧ b[rk]? = some w ∧ v.typedCompare w = some o ∧ o ≠ .gt

/-- The item lies under the hash value and its range key satisfies the condition. -/
def Selected (t : Table) (rk h : String) (rc : Option RangeCondition) (i : Item) : Prop :=
  t.StoredUnder h i ∧ ∀ c, rc = some c → ∃ v, i[rk]? = some v ∧ c.Holds v

open Classical in
/-- The result consists of the selected items, sorted by the range key. -/
structure QueryExact (t : Table) (rk h : String) (rc : Option RangeCondition) (forward : Bool) : Prop where
  rows : (t.query h rc none forward).Perm (t.allItems.filter fun i => t.Selected rk h rc i)
  sorted : (t.query h rc none forward).Pairwise fun a b => if forward then KeyLE rk a b else KeyLE rk b a

end Table

/-- A test of the comparison with a bound of which the code gets the result wrong: the bound is a binary,
read as a string; both are zeros, of which one is negative; or the bound is no plain number, and comparing
its text with the key is not comparing the numbers. -/
def Misread (p : Ordering → Bool) : AttributeValue → AttributeValue → Prop
  | .s x, .b y => p (compare x y) = true
  | .n x, .n y =>
    if PlainNumber y then ZerosApart x y ∧ p (if isNegative x then .lt else .gt) ≠ p .eq
    else p (cmpNumericStr x y) ≠ (compareNumbers x y).any p
  | _, _ => False

/-- A misreading of a bound that makes a difference. -/
def RangeCondition.Misjudges (v : AttributeValue) : RangeCondition → Prop
  | .eq b => Misread (· == .eq) v b
  | .lt b => Misread (· == .lt) v b
  | .lte b => Misread (· != .gt) v b
  | .gt b => Misread (· == .gt) v b
  | .gte b => Misread (· != .lt) v b
  | .between lo hi => (Misread (· != .lt) v lo ∨ Misread (· != .gt) v hi) ∧
      ((RangeCondition.between lo hi).matchesValue v = true ∨ (RangeCondition.between lo hi).Holds v)
  | .beginsWith _ => False

/-- A string or a plain number. -/
def AttributeValue.Typed (v : AttributeValue) : Prop :=
  (∃ x, v = .s x) ∨ ∃ x, v = .n x ∧ PlainNumber x

theorem compareNumbers_plain {x y : String} (hx : PlainNumber x) (hy : PlainNumber y) :
    compareNumbers x y = some (compare (plainValue x) (plainValue y)) := by
  rw [compareNumbers, numericValue_plain hx, numericValue_plain hy]
  rfl

/-- The test comes out as it should exactly if the bound is not misread. -/
theorem misread_iff (p : Ordering → Bool) {v : AttributeValue} (typed : v.Typed) (b : AttributeValue) :
    Misread p v b ↔ (avCompare v b).any p ≠ (v.typedCompare b).any p := by
  rcases typed with ⟨x, rfl⟩ | ⟨x, rfl, plain⟩
  · cases b <;> simp [Misread, avCompare, avSortKey, SortKeyValue.partialCmp, AttributeValue.typedCompare]
  · cases b with
    | n y =>
      have compared : avCompare (.n x) (.n y) = some (cmpNumericStr x y) := rfl
      rw [compared, Option.any_some, Misread, AttributeValue.typedCompare]
      split
      · next plain' =>
        rw [compareNumbers_plain plain plain', cmpNumericStr_value plain plain', Option.any_some]
        by_cases apart : ZerosApart x y
        · rw [if_pos apart, compare_eq_iff_eq.mpr (apart.1.trans apart.2.1.symm)]
          exact and_iff_right apart
        · rw [if_neg apart]
          exact iff_of_false (fun misread => apart misread.1) fun differ => differ rfl
      · rfl
    | _ => simp [Misread, avCompare, avSortKey, SortKeyValue.partialCmp, AttributeValue.typedCompare]

theorem any_eq {o : Option Ordering} {a : Ordering} : o.any (· == a) = true ↔ o = some a := by
  cases o <;> simp

theorem any_ne {o : Option Ordering} {a : Ordering} :
    o.any (· != a) = true ↔ ∃ b, o = some b ∧ b ≠ a := by
  cases o <;> simp

theorem beq_some (o : Option Ordering) (a : Ordering) : (o == some a) = o.any (· == a) := by
  cases o <;> rfl

theorem le_or (o : Option Ordering) : (o == some .lt || o == some .eq) = o.any (· != .gt) := by
  rcases o with _ | o
  · rfl
  · cases o <;> rfl

theorem ge_or (o : Option Ordering) : (o == some .gt || o == some .eq) = o.any (· != .lt) := by
  rcases o with _ | o
  · rfl
  · cases o <;> rfl

/-- One test of a range condition. -/
theorem misread_test {v : AttributeValue} (typed : v.Typed) {b : AttributeValue} {p : Ordering → Bool}
    {passes : Bool} {holds : Prop} (code : passes = (avCompare v b).any p)
    (meaning : (v.typedCompare b).any p = true ↔ holds) :
    Misread p v b ↔ ¬ (passes = true ↔ holds) := by
  rw [misread_iff p typed b, code, ← meaning, ne_eq, Bool.eq_iff_iff]

theorem conjunctions_differ {a b c d : Prop} :
    (¬ (a ↔ c) ∨ ¬ (b ↔ d)) ∧ (a ∧ b ∨ c ∧ d) ↔ ¬ (a ∧ b ↔ c ∧ d) := by
  by_cases ha : a <;> by_cases hb : b <;> simp [ha, hb] <;> tauto

/-- A misjudged value passes and does not satisfy the condition, or the other way round. -/
theorem RangeCondition.misjudges_iff {v : AttributeValue} (typed : v.Typed) (c : RangeCondition) :
    c.Misjudges v ↔ ¬ (c.matchesValue v = true ↔ c.Holds v) := by
  cases c with
  | eq b => exact misread_test typed (beq_some _ _) any_eq
  | lt b => exact misread_test typed (beq_some _ _) any_eq
  | lte b => exact misread_test typed (le_or _) any_ne
  | gt b => exact misread_test typed (beq_some _ _) any_eq
  | gte b => exact misread_test typed (ge_or _) any_ne
  | between lo hi =>
    have above := misread_test typed (b := lo) (ge_or _) any_ne
    have below := misread_test typed (b := hi) (le_or _) any_ne
    rw [RangeCondition.Misjudges, above, below, RangeCondition.matchesValue, Bool.and_eq_true]
    exact conjunctions_differ
  | beginsWith start =>
    refine iff_of_false id (not_not.mpr ?_)
    rcases typed with ⟨x, rfl⟩ | ⟨x, rfl, -⟩
    · simp [RangeCondition.matchesValue, RangeCondition.Holds, List.isPrefixOf_iff_prefix]
    · simp [RangeCondition.matchesValue, RangeCondition.Holds]

namespace Table

/-- The rows of a partition as they are listed. -/
def partitionRows (t : Table) (h : String) : List (String × String × Item) :=
  t.items[h]?.elim [] fun part => part.toList.map fun q => (h, q.1, q.2)

theorem partitionRows_items (t : Table) (h : String) :
    (t.partitionRows h).map (·.2.2) = t.bucketRows h none := by
  unfold partitionRows bucketRows
  cases t.items[h]? with
  | none => rfl
  | some part => simp [StrMap.values]

theorem mem_partitionRows {t : Table} {h : String} {r : String × String × Item} :
    r ∈ t.partitionRows h ↔ r.1 = h ∧ row t.items r.1 r.2.1 = some r.2.2 := by
  obtain ⟨h', s, item⟩ := r
  unfold partitionRows row
  cases part : t.items[h]? with
  | none =>
    simp only [Option.elim_none, List.not_mem_nil, false_iff, not_and]
    rintro rfl
    simp [part]
  | some part' =>
    simp only [Option.elim_some, List.mem_map, Prod.exists, Prod.mk.injEq]
    constructor
    · rintro ⟨s', item', listed, rfl, rfl, rfl⟩
      exact ⟨rfl, by rw [part]; exact Std.ExtTreeMap.mem_toList_iff_getElem?_eq_some.mp listed⟩
    · rintro ⟨rfl, found⟩
      rw [part] at found
      exact ⟨s, item, Std.ExtTreeMap.mem_toList_iff_getElem?_eq_some.mpr found, rfl, rfl, rfl⟩

theorem partitionRows_nodup (t : Table) (h : String) : (t.partitionRows h).Nodup := by
  unfold partitionRows
  cases t.items[h]? with
  | none => exact List.nodup_nil
  | some part =>
    refine List.Nodup.map (fun p q same => ?_) (keys_nodup part).of_map
    rw [Prod.mk.injEq] at same
    exact same.2

open Classical in
/-- The items stored under a hash value are those of its partition. -/
theorem bucketRows_perm {t : Table} (invariant : t.RowInvariant) (h : String) :
    (t.bucketRows h none).Perm (t.allItems.filter fun i => t.StoredUnder h i) := by
  have under : ∀ r ∈ allRows t.items, t.StoredUnder h r.2.2 ↔ r.1 = h := by
    rintro ⟨h', s, item⟩ listed
    have filed := invariant.keyed h' s item (mem_allRows.mp listed)
    simp [StoredUnder, filed]
  have rows : (t.partitionRows h).Perm
      ((allRows t.items).filter fun r => t.StoredUnder h r.2.2) := by
    rw [List.perm_ext_iff_of_nodup (t.partitionRows_nodup h)
      ((allRows_pairs_nodup t.items).of_map.filter _)]
    rintro ⟨h', s, item⟩
    rw [mem_partitionRows, List.mem_filter, ← mem_allRows, decide_eq_true_eq]
    constructor
    · rintro ⟨same, listed⟩
      exact ⟨listed, (under _ listed).mpr same⟩
    · rintro ⟨listed, stored⟩
      exact ⟨(under _ listed).mp stored, listed⟩
  have items := rows.map (·.2.2)
  rw [partitionRows_items] at items
  refine items.trans (List.Perm.of_eq ?_)
  rw [allItems_eq, List.filter_map]
  rfl

/-- The text of the range key. -/
def keyText (rk : String) (i : Item) : String :=
  match i[rk]? with
  | some (.s x) | some (.n x) => x
  | _ => ""

/-- Rows whose keys a comparator of texts compares come out in its order. -/
theorem sortRows_pairwise {cmp : String → String → Ordering} (order : Std.TransCmp cmp) (rk : String)
    (forward : Bool) (rows : List Item) (compared : ∀ a ∈ rows, ∀ b ∈ rows,
      rowOrder rk true a b = cmp (keyText rk a) (keyText rk b)) :
    (sortRows (some rk) forward rows).Pairwise fun a b =>
      (if forward then cmp (keyText rk a) (keyText rk b) else cmp (keyText rk b) (keyText rk a)) ≠ .gt := by
  cases forward with
  | true => exact Comparator.pairwise_insertionSort order (keyText rk) _ rows compared
  | false =>
    have turned : Std.TransCmp fun k l => cmp l k := Std.TransCmp.opposite
    refine Comparator.pairwise_insertionSort turned (keyText rk) _ rows fun a ha b hb => ?_
    change (rowOrder rk true a b).swap = _
    rw [compared a ha b hb, ← order.eq_swap]

theorem keyText_s {rk : String} {i : Item} {x : String} (key : i[rk]? = some (.s x)) :
    keyText rk i = x := by rw [keyText, key]

theorem keyText_n {rk : String} {i : Item} {x : String} (key : i[rk]? = some (.n x)) :
    keyText rk i = x := by rw [keyText, key]

/-- A comparator whose order is that of the keys sorts the rows by them. -/
theorem sortRows_keyLE {cmp : String → String → Ordering} (order : Std.TransCmp cmp) {rk : String}
    {rows : List Item} (forward : Bool) (compared : ∀ a ∈ rows, ∀ b ∈ rows,
      rowOrder rk true a b = cmp (keyText rk a) (keyText rk b))
    (meaning : ∀ a ∈ rows, ∀ b ∈ rows, cmp (keyText rk a) (keyText rk b) ≠ .gt → KeyLE rk a b) :
    (sortRows (some rk) forward rows).Pairwise fun a b =>
      if forward then KeyLE rk a b else KeyLE rk b a := by
  have listed : ∀ {a}, a ∈ sortRows (some rk) forward rows → a ∈ rows := fun member =>
    (sortRows_perm _ _ _).mem_iff.mp member
  refine (sortRows_pairwise order rk forward rows compared).imp_of_mem fun {a b} ha hb le => ?_
  cases forward with
  | true => exact meaning a (listed ha) b (listed hb) le
  | false => exact meaning b (listed hb) a (listed ha) le

theorem sortRows_sorted {rk : String} {rows : List Item} (forward : Bool)
    (typed : (∀ i ∈ rows, ∃ x, i[rk]? = some (.s x)) ∨
      ∀ i ∈ rows, ∃ x, i[rk]? = some (.n x) ∧ PlainNumber x) :
    (sortRows (some rk) forward rows).Pairwise fun a b =>
      if forward then KeyLE rk a b else KeyLE rk b a := by
  have texts : Std.TransCmp (compare : String → String → Ordering) := inferInstance
  have digits : Std.TransCmp cmpNumericStr := inferInstance
  rcases typed with strings | numbers
  · refine sortRows_keyLE texts forward ?_ ?_
    · intro a ha b hb
      obtain ⟨x, ka⟩ := strings a ha
      obtain ⟨y, kb⟩ := strings b hb
      rw [keyText_s ka, keyText_s kb]
      simp [rowOrder, ka, kb, avSortKey, cmpOptionalKey, SortKeyValue.partialCmp]
    · intro a ha b hb le
      obtain ⟨x, ka⟩ := strings a ha
      obtain ⟨y, kb⟩ := strings b hb
      rw [keyText_s ka, keyText_s kb] at le
      exact ⟨_, _, _, ka, kb, rfl, le⟩
  · refine sortRows_keyLE digits forward ?_ ?_
    · intro a ha b hb
      obtain ⟨x, ka, -⟩ := numbers a ha
      obtain ⟨y, kb, -⟩ := numbers b hb
      rw [keyText_n ka, keyText_n kb]
      simp [rowOrder, ka, kb, avSortKey, cmpOptionalKey, SortKeyValue.partialCmp]
    · intro a ha b hb le
      obtain ⟨x, ka, plain⟩ := numbers a ha
      obtain ⟨y, kb, plain'⟩ := numbers b hb
      rw [keyText_n ka, keyText_n kb, cmpNumericStr_value plain plain'] at le
      refine ⟨_, _, _, ka, kb, compareNumbers_plain plain plain', ?_⟩
      by_cases apart : ZerosApart x y
      · rw [compare_eq_iff_eq.mpr (apart.1.trans apart.2.1.symm)]
        decide
      · rwa [if_neg apart] at le

theorem perm_filter_iff {α : Type} {l : List α} {p q : α → Bool} :
    (l.filter p).Perm (l.filter q) ↔ ∀ a ∈ l, p a = q a := by
  refine ⟨fun perm a member => ?_, fun same => .of_eq (List.filter_congr same)⟩
  have kept := perm.mem_iff (a := a)
  simp only [List.mem_filter, member, true_and] at kept
  exact Bool.eq_iff_iff.mpr kept

open Classical in
/-- A query on the primary key of a table with keys of one type returns exactly the selected items, in
order, if and only if the range condition misjudges no range key stored under the hash value. -/
theorem query_exact_iff (D : DecimalOps) (t : Table) (reachable : t.Reachable D) (rk : String)
    (ranged : t.rangeKeyName = some rk) (oneType : t.OneTypeOfKey rk) (h : String)
    (rc : Option RangeCondition) (forward : Bool) :
    t.QueryExact rk h rc forward ↔ ∀ c, rc = some c → ∀ i ∈ t.allItems, t.StoredUnder h i →
      ∀ v, i[rk]? = some v → ¬ c.Misjudges v := by
  have keyed : ∀ i ∈ t.allItems, ∃ v, i[rk]? = some v ∧ v.Typed := by
    intro i member
    rcases oneType with strings | numbers
    · obtain ⟨x, key⟩ := strings i member
      exact ⟨_, key, .inl ⟨x, rfl⟩⟩
    · obtain ⟨x, key, plain⟩ := numbers i member
      exact ⟨_, key, .inr ⟨x, rfl, plain⟩⟩
  have listed : ∀ i ∈ t.sortedRows h rc none, i ∈ t.allItems := fun i member =>
    List.mem_of_mem_filter ((bucketRows_perm reachable.invariant h).mem_iff.mp
      (List.mem_of_mem_filter member))
  have sorted : (t.query h rc none forward).Pairwise fun a b =>
      if forward then KeyLE rk a b else KeyLE rk b a := by
    rw [query_eq_sortRows, sortName, ranged]
    exact sortRows_sorted forward (oneType.imp (fun all i member => all i (listed i member))
      fun all i member => all i (listed i member))
  have rows : (t.query h rc none forward).Perm (t.allItems.filter fun i =>
      t.StoredUnder h i ∧ passesRange rc (some rk) i = true) := by
    rw [query_eq_sortRows, sortedRows, sortName, ranged]
    refine (sortRows_perm _ _ _).trans (((bucketRows_perm reachable.invariant h).filter _).trans
      (.of_eq ?_))
    rw [List.filter_filter]
    refine List.filter_congr fun i _ => ?_
    simp [Bool.and_comm]
  have exact' : t.QueryExact rk h rc forward ↔ ∀ i ∈ t.allItems, t.StoredUnder h i →
      (passesRange rc (some rk) i = true ↔ ∀ c, rc = some c → ∃ v, i[rk]? = some v ∧ c.Holds v) := by
    have judged : t.QueryExact rk h rc forward ↔ (t.query h rc none forward).Perm
        (t.allItems.filter fun i => t.Selected rk h rc i) := ⟨fun e => e.rows, fun r => ⟨r, sorted⟩⟩
    rw [judged, rows.congr_left, perm_filter_iff]
    refine forall₂_congr fun i _ => ?_
    rw [decide_eq_decide, Selected, and_congr_right_iff]
  rw [exact']
  cases rc with
  | none => exact iff_of_true (fun i _ _ => iff_of_true rfl (by simp)) (by simp)
  | some c =>
    have judged : ∀ i ∈ t.allItems, ((passesRange (some c) (some rk) i = true ↔
        ∀ c', some c = some c' → ∃ v, i[rk]? = some v ∧ c'.Holds v) ↔
          ∀ v, i[rk]? = some v → ¬ c.Misjudges v) := by
      intro i member
      obtain ⟨v, key, typed⟩ := keyed i member
      simp only [passesRange, key, Option.some.injEq, forall_eq', exists_eq_left', c.misjudges_iff typed,
        not_not]
    simp only [Option.some.injEq, forall_eq'] at judged ⊢
    exact forall₂_congr fun i member => forall_congr' fun _ => judged i member

end Table

theorem tableOf_items {keys : List AttributeValue} (usable : ∀ k ∈ keys, (avToKeyStr k).isSome = true)
    {i : Item} (member : i ∈ (tableOf keys).allItems) : ∃ k ∈ keys, i = rowWithSk k := by
  induction keys using List.reverseRecOn generalizing i with
  | nil =>
    obtain ⟨h, s, found⟩ := Table.mem_allItems.mp member
    simp [tableOf, putsWithSk, tableWithSk, Table.new, row] at found
  | append_singleton keys last ih =>
    obtain ⟨s', text⟩ := Option.isSome_iff_exists.mp (usable last (by simp))
    obtain ⟨h, s, found⟩ := Table.mem_allItems.mp member
    rw [tableOf_snoc, Table.row_putItem 0 (rowWithSk_filed keys text)] at found
    split at found
    · exact ⟨last, by simp, (Option.some.inj found).symm⟩
    · obtain ⟨k, listed, same⟩ := ih (fun k earlier => usable k (by simp [earlier]))
        (Table.mem_allItems.mpr ⟨h, s, found⟩)
      exact ⟨k, by simp [listed], same⟩

/-- A table with one partition and these range keys. -/
def tableOfNumbers (texts : List String) : Table := tableOf (texts.map .n)

theorem tableOfNumbers_reachable (texts : List String) :
    (tableOfNumbers texts).Reachable wholeDecimals := tableOf_reachable _

theorem tableOfNumbers_ranged (texts : List String) : (tableOfNumbers texts).rangeKeyName = some "sk" :=
  tableOf_sortName _

theorem tableOfNumbers_oneType {texts : List String} (plain : ∀ x ∈ texts, PlainNumber x) :
    (tableOfNumbers texts).OneTypeOfKey "sk" := by
  refine .inr fun i member => ?_
  obtain ⟨k, listed, rfl⟩ := tableOf_items (by simp [avToKeyStr]) member
  obtain ⟨x, number, rfl⟩ := List.mem_map.mp listed
  exact ⟨x, rowWithSk_sk _, plain x number⟩

theorem query_exact_iff_two :
    (tableOfNumbers ["1", "2"]).QueryExact "sk" "p" (some (.lt (.n "2"))) false ↔
      ∀ c, some (RangeCondition.lt (.n "2")) = some c → ∀ i ∈ (tableOfNumbers ["1", "2"]).allItems,
        (tableOfNumbers ["1", "2"]).StoredUnder "p" i → ∀ v, i["sk"]? = some v → ¬ c.Misjudges v :=
  Table.query_exact_iff wholeDecimals (tableOfNumbers ["1", "2"]) (tableOfNumbers_reachable _) "sk"
    (tableOfNumbers_ranged _) (tableOfNumbers_oneType (by decide +kernel)) "p" (some (.lt (.n "2"))) false

/-- A query for the range key 0 misses the item whose range key is written `-0`. -/
theorem zero_misses_negative_zero :
    (tableOfNumbers ["-0"]).Reachable wholeDecimals ∧
      (tableOfNumbers ["-0"]).OneTypeOfKey "sk" ∧
        ¬ (tableOfNumbers ["-0"]).QueryExact "sk" "p" (some (.eq (.n "0"))) true := by
  refine ⟨tableOfNumbers_reachable _, tableOfNumbers_oneType (by decide +kernel), fun promised => ?_⟩
  have equal : (AttributeValue.n "-0").typedCompare (.n "0") = some .eq := by
    decide +kernel
  have stored : row (tableOfNumbers ["-0"]).items "p" "-0" = some (rowWithSk (.n "-0")) :=
    row_tableOf (by simp [avToKeyStr]) (by simp) rfl (by simp)
  have listed : rowWithSk (.n "-0") ∈ (tableOfNumbers ["-0"]).allItems :=
    Table.mem_allItems.mpr ⟨"p", "-0", stored⟩
  have selected : (tableOfNumbers ["-0"]).Selected "sk" "p" (some (.eq (.n "0"))) (rowWithSk (.n "-0")) :=
    ⟨⟨"-0", rowWithSk_filed _ rfl⟩, fun c same => ⟨_, rowWithSk_sk _, by cases same; exact equal⟩⟩
  have returned := promised.rows.mem_iff.mpr
    (List.mem_filter.mpr ⟨listed, @decide_eq_true _ (Classical.propDecidable _) selected⟩)
  rw [Table.query_eq_sortRows, (sortRows_perm _ _ _).mem_iff] at returned
  have passes := (List.mem_filter.mp returned).2
  have ranged : (tableOfNumbers ["-0"]).sortName none = some "sk" := tableOf_sortName _
  rw [ranged, Table.passesRange] at passes
  simp only [rowWithSk_sk] at passes
  exact absurd passes (by decide)

end Openstack.DynamoDb

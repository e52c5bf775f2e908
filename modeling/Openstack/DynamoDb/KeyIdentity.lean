import Openstack.DynamoDb.RowStore
import Openstack.DynamoDb.TransactWrite

/-!
# Which row a key names

`put_item` files a row under the texts of its key attributes and `get_item` looks it up by
the texts of the key it is given (`store.rs:541-601`, `store.rs:963-984`). The texts carry no
type, a number keeps its spelling, and only the writing side has a text for a Boolean. Against
that stands the identity of typed values: numbers by their value, other types by their text,
and no two types equal.
-/
namespace Openstack.DynamoDb

/-- Sign and magnitude of a number text. -/
def splitSign : List Char → Int × List Char
  | '-' :: rest => (-1, rest)
  | '+' :: rest => (1, rest)
  | text => (1, text)

def digits? (text : List Char) : Option Nat :=
  if text ≠ [] ∧ text.all Char.isDigit then some (RustFmt.digitsValue text) else none

def isExponentMark (c : Char) : Bool := c = 'e' || c = 'E'

def exponentValue (text : List Char) : Option Int :=
  match text.dropWhile (fun c => !isExponentMark c) with
  | [] => some 0
  | _ :: rest => (digits? (splitSign rest).2).map fun n => (splitSign rest).1 * n

/-- The value of a decimal text with an optional sign, fraction and exponent. -/
def numericValue (text : String) : Option ℚ := do
  let magnitude := (splitSign text.toList).2
  let parts := splitDecimal (magnitude.takeWhile fun c => !isExponentMark c)
  let digits ← digits? (parts.1 ++ parts.2)
  let exponent ← exponentValue magnitude
  some ((splitSign text.toList).1 * digits * (10 : ℚ) ^ (exponent - parts.2.length))

/-- Equal numbers; a text that is no number equals only itself. -/
def SameNumber (x y : String) : Prop :=
  ((numericValue x).isSome = true ∧ numericValue x = numericValue y) ∨ x = y

instance (x y : String) : Decidable (SameNumber x y) := inferInstanceAs (Decidable (_ ∨ _))

/-- Equality of key attributes as typed values. -/
def AttributeValue.SameValue : AttributeValue → AttributeValue → Prop
  | .s x, .s y => x = y
  | .n x, .n y => SameNumber x y
  | .b x, .b y => x = y
  | .bool x, .bool y => x = y
  | _, _ => False

/-- The names of the key attributes. -/
def Table.keyNames (t : Table) : List String := t.hashKeyName.toList ++ t.rangeKeyName.toList

/-- Both items carry every key attribute, and `P` relates the two values. -/
def Table.OnKeys (t : Table) (P : AttributeValue → AttributeValue → Prop) (i k : Item) : Prop :=
  ∀ n ∈ t.keyNames, ∃ a b, i[n]? = some a ∧ k[n]? = some b ∧ P a b

def Table.KeysEqual (t : Table) (i k : Item) : Prop := t.OnKeys AttributeValue.SameValue i k

/-- The text of the asked key attribute is the text the stored one was filed under. -/
def SameText (stored asked : AttributeValue) : Prop :=
  (avToKeyStrRef asked).isSome = true ∧ avToKeyStrRef asked = avToKeyStr stored

/-- A Boolean, or a number in another spelling. -/
def Respelled (stored asked : AttributeValue) : Prop :=
  (∃ x, asked = .bool x) ∨ ∃ x y, stored = .n x ∧ asked = .n y ∧ x ≠ y

/-- Equal keys of which the asked one is not found: some attribute is a Boolean or a number
in another spelling. -/
def Table.Missed (t : Table) (i k : Item) : Prop :=
  t.KeysEqual i k ∧ ∃ n ∈ t.keyNames, ∃ a b, i[n]? = some a ∧ k[n]? = some b ∧ Respelled a b

/-- Different keys with the same texts. -/
def Table.Confused (t : Table) (i k : Item) : Prop :=
  ¬ t.KeysEqual i k ∧ t.OnKeys SameText i k

/-- After the put of `i`, a get of `k` returns `i` exactly when the keys are equal as typed
values, and otherwise what it returned before. -/
def Table.KeyIdentity (t : Table) (now : Int) (i k : Item) : Prop :=
  ((t.putItem now i).2.getItem k = some i ↔ t.KeysEqual i k) ∧
    (¬ t.KeysEqual i k → (t.putItem now i).2.getItem k = t.getItem k)

/-- The table came about through the writers of rows. -/
def Table.Reachable (D : DecimalOps) (t : Table) : Prop :=
  ∃ tableId now name accountId region keySchema defs gsis lsis spec ops,
    t = List.foldl (Table.applyRow D)
      (Table.new tableId now name accountId region keySchema defs gsis lsis spec) ops

theorem Table.Reachable.invariant {D : DecimalOps} {t : Table} (reachable : t.Reachable D) :
    t.RowInvariant := by
  obtain ⟨tableId, now, name, accountId, region, keySchema, defs, gsis, lsis, spec, ops, rfl⟩ :=
    reachable
  have start := Table.new_invariant tableId now name accountId region keySchema defs gsis lsis spec
  generalize Table.new tableId now name accountId region keySchema defs gsis lsis spec = t at start
  induction ops generalizing t with
  | nil => exact start
  | cons op rest ih => exact ih _ (t.applyRow_invariant D op start)

/-- Of two equal values the texts differ exactly for a Boolean and for a number in another
spelling. -/
theorem AttributeValue.SameValue.respelled_iff {a b : AttributeValue} (same : a.SameValue b) :
    Respelled a b ↔ ¬ SameText a b := by
  cases a <;> cases b <;>
    simp_all [AttributeValue.SameValue, Respelled, SameText, avToKeyStr, avToKeyStrRef, eq_comm]

theorem Table.missed_iff (t : Table) (i k : Item) :
    t.Missed i k ↔ t.KeysEqual i k ∧ ¬ t.OnKeys SameText i k := by
  constructor
  · rintro ⟨equal, n, listed, a, b, ia, kb, respelled⟩
    refine ⟨equal, fun texts => ?_⟩
    obtain ⟨a', b', ia', kb', text⟩ := texts n listed
    obtain ⟨a'', b'', ia'', kb'', same⟩ := equal n listed
    rw [ia] at ia' ia''
    rw [kb] at kb' kb''
    cases ia'; cases ia''; cases kb'; cases kb''
    exact same.respelled_iff.mp respelled text
  · rintro ⟨equal, differ⟩
    refine ⟨equal, ?_⟩
    by_contra none_respelled
    apply differ
    intro n listed
    obtain ⟨a, b, ia, kb, same⟩ := equal n listed
    refine ⟨a, b, ia, kb, ?_⟩
    by_contra text
    exact none_respelled ⟨n, listed, a, b, ia, kb, same.respelled_iff.mpr text⟩

theorem sameText_iff {i k : Item} {n v : String} (filed : i[n]?.bind avToKeyStr = some v) :
    k[n]?.bind avToKeyStrRef = some v ↔
      ∃ a b, i[n]? = some a ∧ k[n]? = some b ∧ SameText a b := by
  obtain ⟨a, ia, text⟩ := Option.bind_eq_some_iff.mp filed
  rw [Option.bind_eq_some_iff]
  constructor
  · rintro ⟨b, kb, asked⟩
    exact ⟨a, b, ia, kb, by simp [asked], by rw [asked, text]⟩
  · rintro ⟨a', b, ia', kb, _, asked⟩
    rw [ia, Option.some.injEq] at ia'
    subst ia'
    exact ⟨b, kb, by rw [asked, text]⟩

/-- The lookup finds the row of `i` exactly when every key attribute has its text. -/
theorem Table.extractKeyRef_iff {t : Table} {i k : Item} {h s : String}
    (filed : t.extractKeyFromItem i = some (h, s)) :
    t.extractKeyRefFromItem k = some (h, s) ↔ t.OnKeys SameText i k := by
  obtain ⟨hk, hash, hashText, rangeText⟩ := (Table.extractKey_eq_some _ _ _ _ _).mp filed
  rw [Table.extractKeyRefFromItem, Table.extractKey_eq_some, Table.OnKeys, Table.keyNames, hash]
  simp only [Option.some.injEq, exists_eq_left', sameText_iff hashText]
  cases range : t.rangeKeyName with
  | none =>
    simp only [range, Option.elim_none, Option.some.injEq] at rangeText
    subst rangeText
    simp
  | some rk =>
    simp only [range, Option.elim_some] at rangeText ⊢
    rw [sameText_iff rangeText]
    simp

theorem Table.getItem_putItem {t : Table} {i : Item} {key : String × String} (now : Int)
    (filed : t.extractKeyFromItem i = some key) (k : Item) :
    (t.putItem now i).2.getItem k =
      if t.extractKeyRefFromItem k = some key then some i else t.getItem k := by
  have changed := Table.putItem_changed now filed
  unfold Table.getItem
  rw [Table.extractKeyRefFromItem, Table.extractKey_congr changed.keySchema,
    ← Table.extractKeyRefFromItem]
  cases asked : t.extractKeyRefFromItem k with
  | none => simp
  | some key' =>
    have stored := congrFun changed.rows key'
    simp only [ChangeLog.Change.apply, Function.update_apply] at stored
    simpa [Table.rows, Prod.ext_iff] using stored

/-- A get returns the item just put exactly when its texts name the row. -/
theorem Table.RowInvariant.get_put_iff {t : Table} (invariant : t.RowInvariant) (now : Int)
    {i : Item} {h s : String} (filed : t.extractKeyFromItem i = some (h, s)) (k : Item) :
    (t.putItem now i).2.getItem k = some i ↔ t.extractKeyRefFromItem k = some (h, s) := by
  rw [Table.getItem_putItem now filed]
  constructor
  · intro returned
    by_contra elsewhere
    rw [if_neg elsewhere, Table.getItem] at returned
    -- the same item in another row would have that row's key
    cases asked : t.extractKeyRefFromItem k with
    | none => simp [asked] at returned
    | some key' =>
      obtain ⟨h', s'⟩ := key'
      rw [asked] at returned
      have own := invariant.keyed h' s' i returned
      rw [filed] at own
      exact elsewhere (by rw [asked, own])
  · intro named
    rw [if_pos named]

theorem Table.RowInvariant.keyIdentity_iff {t : Table} (invariant : t.RowInvariant) (now : Int)
    {i : Item} {h s : String} (filed : t.extractKeyFromItem i = some (h, s)) (k : Item) :
    t.KeyIdentity now i k ↔ ¬ t.Missed i k ∧ ¬ t.Confused i k := by
  have returned := invariant.get_put_iff now filed k
  rw [Table.extractKeyRef_iff filed] at returned
  rw [Table.KeyIdentity, Table.missed_iff, Table.Confused, returned]
  constructor
  · rintro ⟨texts_iff, _⟩
    tauto
  · rintro ⟨missed, confused⟩
    have texts_iff : t.OnKeys SameText i k ↔ t.KeysEqual i k := by tauto
    refine ⟨texts_iff, fun different => ?_⟩
    rw [Table.getItem_putItem now filed, if_neg]
    rw [Table.extractKeyRef_iff filed, texts_iff]
    exact different

/-- In every reachable table, a put and a get agree on the identity of keys exactly when the
get neither misses an equal key nor takes a different key for the same. -/
theorem key_identity_iff (D : DecimalOps) (t : Table) (reachable : t.Reachable D) (now : Int)
    (i k : Item) (accepted : (t.extractKeyFromItem i).isSome = true) :
    t.KeyIdentity now i k ↔ ¬ t.Missed i k ∧ ¬ t.Confused i k := by
  obtain ⟨⟨h, s⟩, filed⟩ := Option.isSome_iff_exists.mp accepted
  exact reachable.invariant.keyIdentity_iff now filed k

theorem tableWithPk_reachable (name : String) : (tableWithPk name).Reachable wholeDecimals :=
  ⟨_, _, _, _, _, _, _, _, _, _, [], rfl⟩

def stringPk (v : String) : Item := (∅ : Item).insert "pk" (.s v)

def numberPk (v : String) : Item := (∅ : Item).insert "pk" (.n v)

theorem key_identity_iff_strings :
    (tableWithPk "orders").KeyIdentity 0 (stringPk "1") (stringPk "2") ↔
      ¬ (tableWithPk "orders").Missed (stringPk "1") (stringPk "2") ∧
        ¬ (tableWithPk "orders").Confused (stringPk "1") (stringPk "2") :=
  key_identity_iff wholeDecimals (tableWithPk "orders") (tableWithPk_reachable "orders") 0
    (stringPk "1") (stringPk "2") (by decide +kernel)

/-- A number finds the row filed under a string of the same text. -/
theorem number_finds_string_row :
    (tableWithPk "orders").Reachable wholeDecimals ∧
    ((tableWithPk "orders").extractKeyFromItem (stringPk "1")).isSome = true ∧
    ((tableWithPk "orders").extractKeyFromItem (numberPk "1")).isSome = true ∧
    ¬ (tableWithPk "orders").KeyIdentity 0 (stringPk "1") (numberPk "1") := by
  refine ⟨tableWithPk_reachable "orders", by decide +kernel, by decide +kernel, ?_⟩
  rintro ⟨identity, _⟩
  have filed : (tableWithPk "orders").extractKeyFromItem (stringPk "1") = some ("1", "") := by
    decide +kernel
  have found : (tableWithPk "orders").extractKeyRefFromItem (numberPk "1") = some ("1", "") := by
    decide +kernel
  rw [Table.getItem_putItem 0 filed, if_pos found] at identity
  obtain ⟨a, b, ia, kb, same⟩ := identity.mp rfl "pk" (by decide)
  simp only [stringPk, numberPk, Std.ExtTreeMap.getElem?_insert_self, Option.some.injEq] at ia kb
  subst ia kb
  exact same

end Openstack.DynamoDb

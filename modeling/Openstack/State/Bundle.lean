import Openstack.Lib.RustStr
import Openstack.Lib.StrMap
import Openstack.Lib.Utf8

/-!
# Stores of accounts and regions

`crates/state/src/bundle.rs`, lines 11-118, and `crates/state/src/scoping.rs`, lines 14-56: the
stores of a service, one for each account and region, in one map under a combined key. `get` and
`get_mut` build the combined key in a buffer on the stack while it fits there. What a caller does
with a store it holds is a function on the store; the map's guards are left out.
-/
namespace Openstack.State

def nul : Char := Char.ofNat 0

/-- `"account_id\0region"`. -/
structure AccountRegionKey where
  text : String
  deriving DecidableEq, Repr

namespace AccountRegionKey

def new (accountId region : String) : AccountRegionKey :=
  ⟨accountId ++ String.singleton nul ++ region⟩

def accountId (key : AccountRegionKey) : String :=
  ((RustStr.before [nul] key.text.toList).map String.ofList).getD key.text

def region (key : AccountRegionKey) : String :=
  ((RustStr.after [nul] key.text.toList).map String.ofList).getD ""

end AccountRegionKey

/-- `buf[start..start + src.len()].copy_from_slice(src)`. -/
def copyFromSlice (buf : List UInt8) (start : Nat) (src : List UInt8) : List UInt8 :=
  buf.take start ++ src ++ buf.drop (start + src.length)

/-- The combined key in a buffer of 64 bytes. -/
def stackKey (a r : List UInt8) : List UInt8 :=
  let total := a.length + 1 + r.length
  let buf := copyFromSlice (List.replicate 64 0) 0 a
  let buf := buf.set a.length 0
  let buf := copyFromSlice buf (a.length + 1) r
  buf.take total

/-- `from_utf8_unchecked`, on bytes that are valid. -/
def fromUtf8Unchecked (bytes : List UInt8) : String :=
  (String.fromUTF8? ⟨bytes.toArray⟩).getD ""

/-- The key that `get` and `get_mut` look up. -/
def lookupKey (accountId region : String) : String :=
  let a := accountId.toUTF8.data.toList
  let r := region.toUTF8.data.toList
  if a.length + 1 + r.length ≤ 63 then fromUtf8Unchecked (stackKey a r)
  else (AccountRegionKey.new accountId region).text

/-- The map is read through the text of its keys. -/
structure AccountRegionBundle (S : Type) where
  stores : StrMap S

namespace AccountRegionBundle

variable {S : Type}

def new : AccountRegionBundle S := ⟨∅⟩

/-- `get_or_create`, with what the caller makes of the store. -/
def getOrCreate [Inhabited S] (b : AccountRegionBundle S) (accountId region : String)
    (use : S → S) : AccountRegionBundle S :=
  let key := (AccountRegionKey.new accountId region).text
  ⟨b.stores.insert key (use (b.stores[key]?.getD default))⟩

def get (b : AccountRegionBundle S) (accountId region : String) : Option S :=
  b.stores[lookupKey accountId region]?

/-- `get_mut`: the store it finds, and the bundle after the caller has used it. -/
def getMut (b : AccountRegionBundle S) (accountId region : String) (use : S → S) :
    Option S × AccountRegionBundle S :=
  match b.stores[lookupKey accountId region]? with
  | some store => (some store, ⟨b.stores.insert (lookupKey accountId region) (use store)⟩)
  | none => (none, b)

def iter (b : AccountRegionBundle S) : List (AccountRegionKey × S) :=
  b.stores.toList.map fun entry => (⟨entry.1⟩, entry.2)

def clear (_ : AccountRegionBundle S) : AccountRegionBundle S := ⟨∅⟩

end AccountRegionBundle

theorem stackKey_eq {a r : List UInt8} (fits : a.length + 1 + r.length ≤ 63) :
    stackKey a r = a ++ 0 :: r := by
  -- behind the account id the buffer still holds zeros, the separator among them
  obtain ⟨n, left⟩ : ∃ n, 64 - a.length = n + 1 := ⟨63 - a.length, by omega⟩
  have separated : (a ++ (List.replicate 64 0).drop a.length).set a.length 0 =
      a ++ 0 :: List.replicate n (0 : UInt8) := by
    rw [List.drop_replicate, List.set_append_right _ _ (Nat.le_refl _), Nat.sub_self, left,
      List.replicate_succ, List.set_cons_zero]
  have front : (a ++ 0 :: List.replicate n (0 : UInt8)).take (a.length + 1) = a ++ [0] := by
    rw [List.take_append, List.take_of_length_le (by omega)]
    simp
  have built : stackKey a r = ((a ++ 0 :: r) ++
      (a ++ 0 :: List.replicate n 0).drop (a.length + 1 + r.length)).take (a.length + 1 + r.length) := by
    simp only [stackKey, copyFromSlice, List.take_zero, List.nil_append, Nat.zero_add, separated, front]
    simp
  rw [built]
  exact List.take_left' (by simp; omega)

theorem fromUtf8Unchecked_toUTF8 (s : String) : fromUtf8Unchecked s.toUTF8.data.toList = s := by
  rw [fromUtf8Unchecked, Utf8.fromUTF8?_toUTF8, Option.getD_some]

theorem toUTF8_key (accountId region : String) :
    (AccountRegionKey.new accountId region).text.toUTF8.data.toList =
      accountId.toUTF8.data.toList ++ 0 :: region.toUTF8.data.toList := by
  have separator : [nul].utf8Encode.data.toList = [0] := by decide
  simp [AccountRegionKey.new, String.toUTF8, separator]

/-- The buffer holds the key that `AccountRegionKey::new` builds. -/
theorem lookupKey_eq (accountId region : String) :
    lookupKey accountId region = (AccountRegionKey.new accountId region).text := by
  unfold lookupKey
  simp only
  split
  · next fits => rw [stackKey_eq fits, ← toUTF8_key, fromUtf8Unchecked_toUTF8]
  · rfl

def NulFree (s : String) : Prop := nul ∉ s.toList

theorem before_nul {a r : List Char} (free : nul ∉ a) :
    RustStr.before [nul] (a ++ nul :: r) = some a := by
  induction a with
  | nil => simp [RustStr.before]
  | cons c rest ih =>
    have other : nul ≠ c := fun same => free (by simp [same])
    have later := ih fun member => free (List.mem_cons_of_mem _ member)
    simp [RustStr.before, other, later]

theorem toList_key (accountId region : String) :
    (AccountRegionKey.new accountId region).text.toList = accountId.toList ++ nul :: region.toList := by
  simp [AccountRegionKey.new]

theorem AccountRegionKey.accountId_new {accountId : String} (free : NulFree accountId)
    (region : String) : (AccountRegionKey.new accountId region).accountId = accountId := by
  rw [AccountRegionKey.accountId, toList_key, before_nul free]
  simp

theorem AccountRegionKey.region_new {accountId : String} (free : NulFree accountId)
    (region : String) : (AccountRegionKey.new accountId region).region = region := by
  rw [AccountRegionKey.region, RustStr.after, toList_key, before_nul free]
  simp

theorem key_eq_iff {a r a' r' : String} (free : NulFree a) (free' : NulFree a') :
    (AccountRegionKey.new a r).text = (AccountRegionKey.new a' r').text ↔ a = a' ∧ r = r' := by
  constructor
  · intro same
    have key : AccountRegionKey.new a r = AccountRegionKey.new a' r' := by
      rw [AccountRegionKey.mk.injEq]
      exact same
    constructor
    · rw [← AccountRegionKey.accountId_new free r, key, AccountRegionKey.accountId_new free' r']
    · rw [← AccountRegionKey.region_new free r, key, AccountRegionKey.region_new free' r']
  · rintro ⟨rfl, rfl⟩
    rfl

section Operations

variable {S : Type} [Inhabited S]

inductive Operation (S : Type) where
  | getOrCreate (accountId region : String) (use : S → S)
  | get (accountId region : String)
  | getMut (accountId region : String) (use : S → S)
  | clear

namespace Operation

def apply (b : AccountRegionBundle S) : Operation S → AccountRegionBundle S
  | .getOrCreate accountId region use => b.getOrCreate accountId region use
  | .get _ _ => b
  | .getMut accountId region use => (b.getMut accountId region use).2
  | .clear => b.clear

def NulFree : Operation S → Prop
  | .getOrCreate accountId region _ => State.NulFree accountId ∧ State.NulFree region
  | .get accountId region => State.NulFree accountId ∧ State.NulFree region
  | .getMut accountId region _ => State.NulFree accountId ∧ State.NulFree region
  | .clear => True

/-- What the operation makes of the store of one account and region. Operations of another account
or region make nothing of it. -/
def seenBy (accountId region : String) (store : Option S) : Operation S → Option S
  | .getOrCreate a r use =>
    if a = accountId ∧ r = region then some (use (store.getD default)) else store
  | .get _ _ => store
  | .getMut a r use => if a = accountId ∧ r = region then store.map use else store
  | .clear => none

end Operation

/-- The store of one account and region after the operations. -/
def seen (ops : List (Operation S)) (accountId region : String) : Option S :=
  ops.foldl (Operation.seenBy accountId region) none

/-- Some `get_or_create` of the account and region is not followed by a `clear`. -/
def CreatedSinceClear (ops : List (Operation S)) (accountId region : String) : Prop :=
  ∃ before use after, ops = before ++ .getOrCreate accountId region use :: after ∧
    Operation.clear ∉ after

omit [Inhabited S] in
theorem createdSinceClear_concat (ops : List (Operation S)) (op : Operation S)
    (accountId region : String) : CreatedSinceClear (ops ++ [op]) accountId region ↔
      (∃ use, op = .getOrCreate accountId region use) ∨
        op ≠ .clear ∧ CreatedSinceClear ops accountId region := by
  constructor
  · rintro ⟨before, use, after, same, kept⟩
    rcases after.eq_nil_or_concat with rfl | ⟨rest, last, rfl⟩
    · obtain ⟨_, last⟩ := List.append_inj' same rfl
      exact .inl ⟨use, List.head_eq_of_cons_eq last⟩
    · rw [List.concat_eq_append] at same kept
      rw [← List.cons_append, ← List.append_assoc] at same
      obtain ⟨front, back⟩ := List.append_inj' same rfl
      obtain rfl := List.head_eq_of_cons_eq back
      refine .inr ⟨?_, before, use, rest, front, fun member => kept (List.mem_append_left _ member)⟩
      rintro rfl
      exact kept (by simp)
  · rintro (⟨use, rfl⟩ | ⟨other, before, use, after, rfl, kept⟩)
    · exact ⟨ops, use, [], rfl, by simp⟩
    · refine ⟨before, use, after ++ [op], by simp, ?_⟩
      simp only [List.mem_append, List.mem_singleton, not_or]
      exact ⟨kept, fun same => other same.symm⟩

theorem isSome_seen_iff (ops : List (Operation S)) (accountId region : String) :
    (seen ops accountId region).isSome ↔ CreatedSinceClear ops accountId region := by
  induction ops using List.reverseRecOn with
  | nil => simp [seen, CreatedSinceClear]
  | append_singleton ops op ih =>
    rw [createdSinceClear_concat, ← ih, seen, List.foldl_append, List.foldl_cons, List.foldl_nil,
      ← seen]
    cases op with
    | getOrCreate a r use =>
      simp only [Operation.seenBy]
      split
      · next same => simp [same.1, same.2]
      · next other =>
        have apart : a = accountId → ¬ r = region := fun same here => other ⟨same, here⟩
        simp +contextual [apart]
    | get a r => simp [Operation.seenBy]
    | getMut a r use =>
      simp only [Operation.seenBy]
      split <;> simp
    | clear => simp [Operation.seenBy]

/-- The bundle holds, under keys of accounts and regions only, what each of them has seen. -/
structure Holds (b : AccountRegionBundle S) (view : String → String → Option S) : Prop where
  stores : ∀ a r, NulFree a → NulFree r → b.stores[(AccountRegionKey.new a r).text]? = view a r
  keys : ∀ (text : String) store, b.stores[text]? = some store →
    ∃ a r, NulFree a ∧ NulFree r ∧ text = (AccountRegionKey.new a r).text

omit [Inhabited S] in
theorem holds_new : Holds (AccountRegionBundle.new : AccountRegionBundle S) fun _ _ => none := by
  constructor
  · intro a r _ _
    simp [AccountRegionBundle.new]
  · intro text store found
    simp [AccountRegionBundle.new] at found

omit [Inhabited S] in
/-- A store put under the key of one account and region is seen there and nowhere else. -/
theorem Holds.insert {b : AccountRegionBundle S} {view : String → String → Option S}
    (holds : Holds b view) {a r : String} (freeA : NulFree a) (freeR : NulFree r) (store : S) :
    Holds ⟨b.stores.insert (AccountRegionKey.new a r).text store⟩
      fun a' r' => if a = a' ∧ r = r' then some store else view a' r' := by
  constructor
  · intro a' r' freeA' freeR'
    simp only [StrMap.getElem?_insert, key_eq_iff freeA freeA', holds.stores a' r' freeA' freeR']
  · intro text stored found
    rw [StrMap.getElem?_insert] at found
    split at found
    · next same => exact ⟨a, r, freeA, freeR, same.symm⟩
    · exact holds.keys text stored found

theorem Holds.apply {b : AccountRegionBundle S} {view : String → String → Option S}
    (holds : Holds b view) (op : Operation S) (free : op.NulFree) :
    Holds (op.apply b) fun a r => op.seenBy a r (view a r) := by
  cases op with
  | getOrCreate a r use =>
    have inserted := holds.insert free.1 free.2 (use ((view a r).getD default))
    simp only [Operation.apply, AccountRegionBundle.getOrCreate, holds.stores a r free.1 free.2]
    refine ⟨?_, inserted.keys⟩
    intro a' r' freeA' freeR'
    rw [inserted.stores a' r' freeA' freeR']
    simp only [Operation.seenBy]
    split
    · next same => rw [same.1, same.2]
    · rfl
  | get a r => exact holds
  | getMut a r use =>
    simp only [Operation.apply, AccountRegionBundle.getMut, lookupKey_eq,
      holds.stores a r free.1 free.2]
    cases seen : view a r with
    | none =>
      refine ⟨?_, holds.keys⟩
      intro a' r' freeA' freeR'
      rw [holds.stores a' r' freeA' freeR']
      simp only [Operation.seenBy]
      split
      · next same => rw [← same.1, ← same.2, seen]; rfl
      · rfl
    | some store =>
      have inserted := holds.insert free.1 free.2 (use store)
      refine ⟨?_, inserted.keys⟩
      intro a' r' freeA' freeR'
      rw [inserted.stores a' r' freeA' freeR']
      simp only [Operation.seenBy]
      split
      · next same => rw [← same.1, ← same.2, seen]; rfl
      · rfl
  | clear => exact holds_new

theorem holds_run (ops : List (Operation S)) (free : ∀ op ∈ ops, op.NulFree) :
    Holds (ops.foldl Operation.apply .new) (seen ops) := by
  induction ops using List.reverseRecOn with
  | nil => exact holds_new
  | append_singleton ops op ih =>
    have before := ih fun o member => free o (List.mem_append_left _ member)
    have step := before.apply op (free op (by simp))
    have view : seen (ops ++ [op]) = fun a r => op.seenBy a r (seen ops a r) := by
      funext a r
      simp [seen]
    rw [view, List.foldl_append]
    exact step

/-- After any operations with names free of NUL: the key looked up says whose store it is, `get` and
`get_mut` reach what the account and region's own operations have made of their store, which exists
exactly if it was created since the last `clear`, and every key in the bundle gives back its account
and region. -/
theorem tenants_isolated (ops : List (Operation S)) (free : ∀ op ∈ ops, op.NulFree) :
    (∀ a r a' r', NulFree a → NulFree r → NulFree a' → NulFree r' →
      (lookupKey a r = lookupKey a' r' ↔ a = a' ∧ r = r')) ∧
    (∀ a r, NulFree a → NulFree r →
      (ops.foldl Operation.apply .new).get a r = seen ops a r ∧
      (∀ use, ((ops.foldl Operation.apply .new).getMut a r use).1 = seen ops a r) ∧
      (((ops.foldl Operation.apply .new).get a r).isSome ↔ CreatedSinceClear ops a r)) ∧
    ∀ key store, (key, store) ∈ (ops.foldl Operation.apply (.new : AccountRegionBundle S)).iter →
      ∃ a r, NulFree a ∧ NulFree r ∧ key = .new a r ∧ key.accountId = a ∧ key.region = r ∧
        seen ops a r = some store := by
  have holds := holds_run ops free
  have found : ∀ a r, NulFree a → NulFree r →
      (ops.foldl Operation.apply .new).get a r = seen ops a r := by
    intro a r freeA freeR
    rw [AccountRegionBundle.get, lookupKey_eq, holds.stores a r freeA freeR]
  refine ⟨?_, ?_, ?_⟩
  · intro a r a' r' freeA _ freeA' _
    rw [lookupKey_eq, lookupKey_eq, key_eq_iff freeA freeA']
  · intro a r freeA freeR
    refine ⟨found a r freeA freeR, ?_, ?_⟩
    · intro use
      rw [AccountRegionBundle.getMut, lookupKey_eq, holds.stores a r freeA freeR]
      cases seen ops a r <;> rfl
    · rw [found a r freeA freeR, isSome_seen_iff]
  · intro key store member
    obtain ⟨⟨text, _⟩, listed, ⟨⟩⟩ := List.mem_map.mp member
    have stored := Std.ExtTreeMap.mem_toList_iff_getElem?_eq_some.mp listed
    obtain ⟨a, r, freeA, freeR, rfl⟩ := holds.keys text _ stored
    refine ⟨a, r, freeA, freeR, rfl, AccountRegionKey.accountId_new freeA r,
      AccountRegionKey.region_new freeA r, ?_⟩
    rw [← holds.stores a r freeA freeR]
    exact stored

end Operations

/-- Two tenants of one account, and a long account id that is looked up on the heap. -/
def threeTenants : List (Operation Nat) :=
  [.getOrCreate "000000000000" "us-east-1" (· + 1), .getOrCreate "000000000000" "eu-west-1" (· + 2),
    .getMut "000000000000" "us-east-1" (· + 4),
    .getOrCreate "12345678901234567890123456789012345678901234567890123456789012" "us-east-1" id]

theorem threeTenants_isolated :
    (threeTenants.foldl Operation.apply .new).get "000000000000" "us-east-1" = some 5 ∧
      (threeTenants.foldl Operation.apply .new).get "000000000000" "eu-west-1" = some 2 := by
  have free : ∀ op ∈ threeTenants, op.NulFree := by
    simp [threeTenants, Operation.NulFree, NulFree, nul]
  obtain ⟨_, views, _⟩ := tenants_isolated threeTenants free
  constructor
  · rw [(views "000000000000" "us-east-1" (by simp [NulFree, nul]) (by simp [NulFree, nul])).1]
    decide
  · rw [(views "000000000000" "eu-west-1" (by simp [NulFree, nul]) (by simp [NulFree, nul])).1]
    decide

end Openstack.State

import Openstack.Framework.JsonService
import Openstack.Lib.Base64
import Openstack.Lib.RustFmt
import Openstack.Lib.RustStr
import Openstack.Lib.SipHash
import Openstack.Lib.StrMap
import Openstack.Lib.Utf8

/-!
# Keys

`crates/services/kms/src/store.rs` and `provider.rs` without tags and `GenerateRandom`, for one account
and region. The store of an account that has none behaves like an empty one. The uuids and the time of a
request are arguments; times are in seconds. HMAC-SHA256 is a parameter.
-/
namespace Openstack.Kms

open JsonService (Answer Uuid strParam required int asI64?)

inductive KeyState where
  | enabled
  | disabled
  | pendingDeletion
  deriving DecidableEq, Repr

/-- `Display` of the state. -/
def KeyState.text : KeyState → String
  | .enabled => "Enabled"
  | .disabled => "Disabled"
  | .pendingDeletion => "PendingDeletion"

structure KmsKey where
  keyId : String
  arn : String
  description : String
  keyState : KeyState
  created : Int
  /-- In hexadecimal. -/
  keyMaterial : String
  aliases : List String
  deriving DecidableEq, Repr

/-- Keys by id, and key ids by alias name. -/
structure KmsStore where
  keys : StrMap KmsKey := ∅
  aliasToKey : StrMap String := ∅

/-- `resolve_key`: a key id, a key ARN or an alias name. -/
def KmsStore.resolveKey (store : KmsStore) (id : String) : Option KmsKey :=
  match store.keys[id]? with
  | some k => some k
  | none =>
    if RustStr.startsWith id "arn:" then store.keys[RustStr.rsplitFirst '/' id]?
    else if RustStr.startsWith id "alias/" then
      store.aliasToKey[id]?.bind fun keyId => store.keys[keyId]?
    else none

/-- The place that a map key leads to. -/
def KmsStore.entry (store : KmsStore) (keyId : String) : Option (String × KmsKey) :=
  store.keys[keyId]?.map fun k => (keyId, k)

/-- `resolve_key_mut`: the place of the key, and the key. -/
def KmsStore.resolveKeyMut (store : KmsStore) (id : String) : Option (String × KmsKey) :=
  if store.keys.contains id then store.entry id
  else if RustStr.startsWith id "arn:" then store.entry (RustStr.rsplitFirst '/' id)
  else if RustStr.startsWith id "alias/" then store.aliasToKey[id]?.bind store.entry
  else none

/-! ## Times -/

/-- `Duration::days`, in seconds; `none` where it panics. -/
def durationDays (days : Int) : Option Int :=
  if (days * 86400).natAbs ≤ 9223372036854775 then some (days * 86400) else none

/-- `DateTime + Duration`, in seconds, from the year -262143 to 262142; `none` where it panics. -/
def dateTimeAdd (time duration : Int) : Option Int :=
  if -8334601228800 ≤ time + duration ∧ time + duration ≤ 8210266876799 then some (time + duration)
  else none

/-! ## Random texts -/

/-- The rounds of `rand_hex`: the hash of the text before, eight bytes at a time. -/
def randHexFrom : (rounds remaining : Nat) → (s : String) → String
  | 0, _, _ => ""
  | rounds + 1, remaining, s =>
    if remaining = 0 then ""
    else
      let chunk := RustFmt.hex 16 (SipHash.hashString s)
      let take := min remaining 8
      String.ofList (chunk.toList.take (take * 2)) ++ randHexFrom rounds (remaining - take) chunk

def randHex (seed : Uuid) (bytes : Nat) : String := randHexFrom bytes bytes seed.text

def hexByte (a b : Char) : Option UInt8 :=
  let digit (c : Char) : Option Nat :=
    if c.isDigit then some (c.toNat - 48)
    else if 'a' ≤ c ∧ c ≤ 'f' then some (c.toNat - 87)
    else if 'A' ≤ c ∧ c ≤ 'F' then some (c.toNat - 55)
    else none
  (digit a).bind fun x => (digit b).map fun y => UInt8.ofNat (x * 16 + y)

/-- `hex::decode`. -/
def hexDecode : List Char → Option (List UInt8)
  | [] => some []
  | [_] => none
  | a :: b :: rest => (hexByte a b).bind fun byte => (hexDecode rest).map (byte :: ·)

/-! ## Requests -/

inductive Operation where
  | createKey
  | describeKey
  | enableKey
  | disableKey
  | scheduleKeyDeletion
  | cancelKeyDeletion
  | createAlias
  | listAliases
  | deleteAlias
  | encrypt
  | decrypt
  | generateDataKey
  | generateDataKeyWithoutPlaintext
  | sign
  | verify
  deriving DecidableEq, Repr

structure Act where
  operation : Operation
  body : Json
  now : Int
  keyUuid : Uuid
  seedUuid : Uuid

structure Env where
  accountId : String
  region : String
  /-- `Hmac::<Sha256>` of a key and a message; `none` where `new_from_slice` fails. -/
  hmacSha256 : List UInt8 → Option (List UInt8 → List UInt8)

section Operations

variable (env : Env) (act : Act) (store : KmsStore)

def keyArn (keyId : String) : String :=
  "arn:aws:kms:" ++ env.region ++ ":" ++ env.accountId ++ ":key/" ++ keyId

def aliasArn (aliasName : String) : String :=
  "arn:aws:kms:" ++ env.region ++ ":" ++ env.accountId ++ ":alias/" ++
    String.ofList (RustStr.trimStartMatches "alias/".toList aliasName.toList)

def keyArnForError (keyId : String) : String :=
  if RustStr.startsWith keyId "arn:aws:kms:" then keyId else keyArn env keyId

def keyMetadata (k : KmsKey) : Json :=
  .obj [("Arn", .str k.arn), ("CreationDate", int k.created), ("Description", .str k.description),
    ("Enabled", .bool (k.keyState = .enabled)), ("KeyId", .str k.keyId),
    ("KeySpec", .str "SYMMETRIC_DEFAULT"), ("KeyState", .str k.keyState.text),
    ("KeyUsage", .str "ENCRYPT_DECRYPT"), ("MultiRegion", .bool false), ("Origin", .str "AWS_KMS")]

def done : Answer := .ok (.obj [])

def invalidKeyId (keyId : String) : Answer := .error "NotFoundException" ("Invalid keyId " ++ keyId) 404

/-! ### Keys -/

def newKey : KmsKey where
  keyId := act.keyUuid.text
  arn := keyArn env act.keyUuid.text
  description := (strParam act.body "Description").getD ""
  keyState := .enabled
  created := act.now
  keyMaterial := randHex act.seedUuid 32
  aliases := []

def createKey : Answer × KmsStore :=
  (.ok (.obj [("KeyMetadata", keyMetadata (newKey env act))]),
    { store with keys := store.keys.insert act.keyUuid.text (newKey env act) })

def describeKey : Answer :=
  match strParam act.body "KeyId" with
  | none => required "KeyId"
  | some keyId =>
    match store.resolveKey keyId with
    | none => .error "NotFoundException" ("Key '" ++ keyArnForError env keyId ++ "' does not exist") 400
    | some k => .ok (.obj [("KeyMetadata", keyMetadata k)])

def KmsStore.setState (store : KmsStore) (place : String) (k : KmsKey) (state : KeyState) : KmsStore :=
  { store with keys := store.keys.insert place { k with keyState := state } }

/-- The key that `KeyId` names, to be changed. -/
def withKey (found : String → KmsKey → Answer × KmsStore) : Answer × KmsStore :=
  match strParam act.body "KeyId" with
  | none => (required "KeyId", store)
  | some keyId =>
    match store.resolveKeyMut keyId with
    | none => (invalidKeyId keyId, store)
    | some (place, k) => found place k

def enableKey : Answer × KmsStore :=
  withKey act store fun place k => (done, store.setState place k .enabled)

def disableKey : Answer × KmsStore :=
  withKey act store fun place k => (done, store.setState place k .disabled)

def pendingWindow : Int := ((act.body.get? "PendingWindowInDays").bind asI64?).getD 30

/-- `Utc::now() + chrono::Duration::days(pending_window)`. -/
def deletionDate : Option Int := (durationDays (pendingWindow act)).bind (dateTimeAdd act.now)

/-- The date is computed before the key is looked up; `none` where that panics. -/
def scheduleKeyDeletion : Option (Answer × KmsStore) :=
  match strParam act.body "KeyId" with
  | none => some (required "KeyId", store)
  | some _ =>
    (deletionDate act).map fun date =>
      withKey act store fun place k =>
        (.ok (.obj [("DeletionDate", int date), ("KeyId", .str k.keyId)]),
          store.setState place k .pendingDeletion)

def cancelKeyDeletion : Answer × KmsStore :=
  withKey act store fun place k =>
    if k.keyState ≠ .pendingDeletion then
      (.error "KMSInvalidStateException" "Key is not pending deletion" 400, store)
    else (.ok (.obj [("KeyId", .str k.keyId)]), store.setState place k .disabled)

/-! ### Aliases -/

def KmsStore.addAlias (store : KmsStore) (aliasName keyId : String) : KmsStore where
  aliasToKey := store.aliasToKey.insert aliasName keyId
  keys :=
    match store.keys[keyId]? with
    | none => store.keys
    | some k =>
      if aliasName ∈ k.aliases then store.keys
      else store.keys.insert keyId { k with aliases := k.aliases ++ [aliasName] }

def createAlias : Answer × KmsStore :=
  match strParam act.body "AliasName", strParam act.body "TargetKeyId" with
  | none, _ => (required "AliasName", store)
  | some _, none => (required "TargetKeyId", store)
  | some aliasName, some targetKeyId =>
    match store.resolveKey targetKeyId with
    | none => (invalidKeyId targetKeyId, store)
    | some k => (done, store.addAlias aliasName k.keyId)

/-- The ARN that `ListAliases` gives for an alias. -/
def reportedArn (aliasName keyId : String) : String :=
  (store.keys[keyId]?.map fun _ => aliasArn env aliasName).getD ""

def listAliases : Answer :=
  .ok (.obj [("Aliases", .arr (store.aliasToKey.toList.map fun (aliasName, keyId) =>
      .obj [("AliasArn", .str (reportedArn env store aliasName keyId)), ("AliasName", .str aliasName),
        ("TargetKeyId", .str keyId)])), ("Truncated", .bool false)])

def KmsStore.dropAlias (store : KmsStore) (aliasName : String) : KmsStore where
  aliasToKey := store.aliasToKey.erase aliasName
  keys :=
    match store.aliasToKey[aliasName]?.bind store.entry with
    | none => store.keys
    | some (keyId, k) =>
      store.keys.insert keyId { k with aliases := k.aliases.filter (· ≠ aliasName) }

def deleteAlias : Answer × KmsStore :=
  match strParam act.body "AliasName" with
  | none => (required "AliasName", store)
  | some aliasName => (done, store.dropAlias aliasName)

/-! ### Cryptographic operations -/

/-- The key of a cryptographic operation, which has to be enabled. -/
def enabledKey (id : String) (missing disabled : Answer) : Except Answer KmsKey :=
  match store.resolveKey id with
  | none => .error missing
  | some k => if k.keyState ≠ .enabled then .error disabled else .ok k

def keyDisabled : Answer := .error "DisabledException" "Key is disabled" 400

def orElse {α : Type} (value : Option α) (answer : Answer) : Except Answer α :=
  (value.map Except.ok).getD (.error answer)

/-- `base64(key_id + ":" + plaintext_b64)`. -/
def envelope (k : KmsKey) (plaintext : String) : String :=
  String.ofList (Base64.encode (k.keyId ++ ":" ++ plaintext).toUTF8.data.toList)

def encrypt : Except Answer Answer := do
  let keyId ← orElse (strParam act.body "KeyId") (required "KeyId")
  let plaintext ← orElse (strParam act.body "Plaintext") (required "Plaintext")
  let k ← enabledKey store keyId (invalidKeyId keyId) keyDisabled
  return .ok (.obj [("CiphertextBlob", .str (envelope k plaintext)),
    ("EncryptionAlgorithm", .str "SYMMETRIC_DEFAULT"), ("KeyId", .str k.arn)])

/-- Key id and plaintext of an envelope. -/
def openEnvelope (bytes : List UInt8) : String × String :=
  let parts := RustStr.splitn ':' 2 (Utf8.lossy bytes).toList
  (String.ofList (parts.getD 0 []), String.ofList (parts.getD 1 []))

def decrypt : Except Answer Answer := do
  let ciphertext ← orElse (strParam act.body "CiphertextBlob") (required "CiphertextBlob")
  let decoded ← orElse (Base64.decode ciphertext.toList)
    (.error "InvalidCiphertextException" "Invalid ciphertext" 400)
  let (keyId, plaintext) := openEnvelope decoded
  let k ← enabledKey store keyId (invalidKeyId keyId) keyDisabled
  return .ok (.obj [("EncryptionAlgorithm", .str "SYMMETRIC_DEFAULT"), ("KeyId", .str k.arn),
    ("Plaintext", .str plaintext)])

/-- The plaintext key is in hexadecimal when it is encoded. -/
def generateDataKey (withPlaintext : Bool) : Except Answer Answer := do
  let keyId ← orElse (strParam act.body "KeyId") (required "KeyId")
  let k ← enabledKey store keyId (invalidKeyId keyId) keyDisabled
  let plaintext := String.ofList (Base64.encode (randHex act.seedUuid 32).toUTF8.data.toList)
  return .ok (.obj ([("CiphertextBlob", .str (envelope k plaintext)), ("KeyId", .str k.arn)] ++
    if withPlaintext then [("Plaintext", .str plaintext)] else []))

def nonempty (key : String) : Except Answer String :=
  orElse ((strParam act.body key).filter (· ≠ "")) (required key)

def signingAlgorithm : Except Answer String :=
  match strParam act.body "SigningAlgorithm" with
  | none => .error (required "SigningAlgorithm")
  | some name =>
    if name = "HMAC_SHA_256" ∨ name = "HMAC_SHA256" then .ok "HMAC_SHA_256"
    else .error (.error "ValidationException" "SigningAlgorithm must be HMAC_SHA_256" 400)

/-- The key of `Sign` and `Verify`. -/
def macKey (keyId : String) : Except Answer KmsKey :=
  enabledKey store keyId (.error "NotFoundException" ("Key '" ++ keyId ++ "' not found") 400)
    (.error "DisabledException" "Key is disabled or pending deletion" 400)

def fromBase64 (text name : String) : Except Answer (List UInt8) :=
  orElse (Base64.decode text.toList)
    (.error "ValidationException" (name ++ " must be valid base64") 400)

def keyBytes (k : KmsKey) : Except Answer (List UInt8) :=
  orElse (hexDecode k.keyMaterial.toList) (.error "ValidationException" "Invalid key material" 400)

def mac (key : List UInt8) : Except Answer (List UInt8 → List UInt8) :=
  orElse (env.hmacSha256 key) (.error "KMSInternalException" "Failed to initialize HMAC" 500)

def invalidSignature : Answer :=
  .error "KMSInvalidSignatureException" ("The request was rejected because the specified signing " ++
    "algorithm is not supported for the given key type, or the signature does not match the message.") 400

def sign : Except Answer Answer := do
  let keyId ← nonempty act "KeyId"
  let message ← nonempty act "Message"
  let algorithm ← signingAlgorithm act
  let k ← macKey store keyId
  let key ← keyBytes k
  let message ← fromBase64 message "Message"
  let mac ← mac env key
  return .ok (.obj [("KeyId", .str k.arn), ("Signature", .str (String.ofList (Base64.encode (mac message)))),
    ("SigningAlgorithm", .str algorithm)])

def verify : Except Answer Answer := do
  let keyId ← nonempty act "KeyId"
  let message ← nonempty act "Message"
  let signature ← nonempty act "Signature"
  let algorithm ← signingAlgorithm act
  let k ← macKey store keyId
  let key ← keyBytes k
  let message ← fromBase64 message "Message"
  let provided ← fromBase64 signature "Signature"
  let mac ← mac env key
  if mac message = provided then
    return .ok (.obj [("KeyId", .str k.arn), ("SignatureValid", .bool true),
      ("SigningAlgorithm", .str algorithm)])
  else
    throw invalidSignature

end Operations

def answered (result : Except Answer Answer) : Answer :=
  match result with
  | .ok answer => answer
  | .error answer => answer

/-- `dispatch`; `none` where it panics. -/
def dispatch (env : Env) (store : KmsStore) (act : Act) : Option (Answer × KmsStore) :=
  match act.operation with
  | .createKey => some (createKey env act store)
  | .describeKey => some (describeKey env act store, store)
  | .enableKey => some (enableKey act store)
  | .disableKey => some (disableKey act store)
  | .scheduleKeyDeletion => scheduleKeyDeletion act store
  | .cancelKeyDeletion => some (cancelKeyDeletion act store)
  | .createAlias => some (createAlias act store)
  | .listAliases => some (listAliases env store, store)
  | .deleteAlias => some (deleteAlias act store)
  | .encrypt => some (answered (encrypt act store), store)
  | .decrypt => some (answered (decrypt act store), store)
  | .generateDataKey => some (answered (generateDataKey act store true), store)
  | .generateDataKeyWithoutPlaintext => some (answered (generateDataKey act store false), store)
  | .sign => some (answered (sign env act store), store)
  | .verify => some (answered (verify env act store), store)

/-- A panic leaves the store as it is. -/
def step (env : Env) (store : KmsStore) (act : Act) : KmsStore :=
  ((dispatch env store act).map Prod.snd).getD store

/-! ## What an act does -/

/-- The uuid that `CreateKey` draws names no key. -/
def FreshKey (store : KmsStore) (act : Act) : Prop :=
  act.operation = .createKey → store.keys[act.keyUuid.text]? = none

instance (store : KmsStore) (act : Act) : Decidable (FreshKey store act) :=
  inferInstanceAs (Decidable (_ → _))

/-- How a request names its key. -/
def keyReference (act : Act) : Option String :=
  match act.operation with
  | .decrypt => ((strParam act.body "CiphertextBlob").bind fun text => Base64.decode text.toList).map
      fun bytes => (openEnvelope bytes).1
  | _ => strParam act.body "KeyId"

/-- The place of the key that a request names, and the key. -/
def aim (store : KmsStore) (act : Act) : Option (String × KmsKey) :=
  (keyReference act).bind store.resolveKeyMut

section Resolving

variable {store : KmsStore} {id place : String} {k : KmsKey}

theorem entry_eq_some : store.entry id = some (place, k) ↔ place = id ∧ store.keys[id]? = some k := by
  rw [KmsStore.entry, Option.map_eq_some_iff]
  constructor
  · rintro ⟨found, stored, same⟩
    cases same
    exact ⟨rfl, stored⟩
  · rintro ⟨rfl, stored⟩
    exact ⟨k, stored, rfl⟩

theorem stored_of_resolveKeyMut (found : store.resolveKeyMut id = some (place, k)) :
    store.keys[place]? = some k := by
  rw [KmsStore.resolveKeyMut] at found
  split at found
  · obtain ⟨rfl, stored⟩ := entry_eq_some.mp found
    exact stored
  · split at found
    · obtain ⟨rfl, stored⟩ := entry_eq_some.mp found
      exact stored
    · split at found
      · obtain ⟨keyId, -, there⟩ := Option.bind_eq_some_iff.mp found
        obtain ⟨rfl, stored⟩ := entry_eq_some.mp there
        exact stored
      · cases found

theorem map_entry (store : KmsStore) (id : String) : (store.entry id).map Prod.snd = store.keys[id]? := by
  simp [KmsStore.entry]

/-- The two ways to resolve agree. -/
theorem map_resolveKeyMut (store : KmsStore) (id : String) :
    (store.resolveKeyMut id).map Prod.snd = store.resolveKey id := by
  rw [KmsStore.resolveKeyMut, KmsStore.resolveKey]
  cases direct : store.keys[id]? with
  | some k =>
    have present : store.keys.contains id = true := by
      rw [Std.ExtTreeMap.contains_eq_isSome_getElem?, direct, Option.isSome_some]
    rw [if_pos present, map_entry, direct]
  | none =>
    have absent : ¬ store.keys.contains id = true := by
      rw [Std.ExtTreeMap.contains_eq_isSome_getElem?, direct]
      simp
    rw [if_neg absent]
    dsimp only
    split
    · exact map_entry store _
    · split
      · rw [Option.map_bind]
        congr 1
        funext keyId
        exact map_entry store keyId
      · rfl

end Resolving

section Effects

variable {env : Env} {store : KmsStore} {act : Act}

theorem keyReference_of_ne (other : act.operation ≠ .decrypt) :
    keyReference act = JsonService.strParam act.body "KeyId" := by
  unfold keyReference
  split
  · next decrypt => exact absurd decrypt other
  · rfl

theorem stored_of_aim {place : String} {k : KmsKey} (aimed : aim store act = some (place, k)) :
    store.keys[place]? = some k := by
  obtain ⟨id, -, found⟩ := Option.bind_eq_some_iff.mp aimed
  exact stored_of_resolveKeyMut found

/-- A request that names no key answers an error and changes nothing. -/
theorem withKey_cases (other : act.operation ≠ .decrypt)
    (found : String → KmsKey → JsonService.Answer × KmsStore) :
    (aim store act = none ∧ (withKey act store found).1.succeeds = false ∧
      (withKey act store found).2 = store) ∨
    ∃ place k, aim store act = some (place, k) ∧ withKey act store found = found place k := by
  rw [withKey, aim, keyReference_of_ne other]
  cases given : JsonService.strParam act.body "KeyId" with
  | none => exact Or.inl ⟨rfl, rfl, rfl⟩
  | some keyId =>
    rw [Option.bind_some]
    cases resolved : store.resolveKeyMut keyId with
    | none => exact Or.inl ⟨rfl, by simp only [resolved]; rfl, by simp only [resolved]⟩
    | some pair => exact Or.inr ⟨pair.1, pair.2, rfl, by simp only [resolved]⟩

theorem getElem?_setState (store : KmsStore) (place : String) (k : KmsKey) (state : KeyState)
    (other : String) : (store.setState place k state).keys[other]? =
      if place = other then some { k with keyState := state } else store.keys[other]? :=
  StrMap.getElem?_insert ..

theorem getElem?_createKey (env : Env) (act : Act) (store : KmsStore) (keyId : String) :
    (createKey env act store).2.keys[keyId]? =
      if act.keyUuid.text = keyId then some (newKey env act) else store.keys[keyId]? :=
  StrMap.getElem?_insert ..

/-- The list of a key with the alias, once. -/
def KmsKey.withAlias (k : KmsKey) (aliasName : String) : KmsKey :=
  { k with aliases := if aliasName ∈ k.aliases then k.aliases else k.aliases ++ [aliasName] }

theorem getElem?_addAlias (store : KmsStore) (aliasName keyId other : String) :
    (store.addAlias aliasName keyId).keys[other]? =
      store.keys[other]?.map fun k => if keyId = other then k.withAlias aliasName else k := by
  rw [KmsStore.addAlias]
  by_cases same : keyId = other
  · subst same
    cases there : store.keys[keyId]? with
    | none => exact there
    | some k =>
      dsimp only
      rw [Option.map_some, if_pos rfl, KmsKey.withAlias]
      split
      · exact there
      · rw [StrMap.getElem?_insert, if_pos rfl]
  · simp only [if_neg same, Option.map_id']
    cases store.keys[keyId]? with
    | none => rfl
    | some k =>
      dsimp only
      split
      · rfl
      · rw [StrMap.getElem?_insert, if_neg same]

theorem getElem?_dropAlias (store : KmsStore) (aliasName keyId : String) :
    (store.dropAlias aliasName).keys[keyId]? = store.keys[keyId]?.map fun k =>
      if store.aliasToKey[aliasName]? = some keyId then
        { k with aliases := k.aliases.filter (· ≠ aliasName) } else k := by
  rw [KmsStore.dropAlias]
  cases target : store.aliasToKey[aliasName]? with
  | none => simp
  | some place =>
    rw [Option.bind_some]
    cases there : store.entry place with
    | none =>
      have absent : store.keys[place]? = none := by
        rw [KmsStore.entry, Option.map_eq_none_iff] at there
        exact there
      by_cases same : place = keyId
      · subst same
        rw [absent, Option.map_none]
      · simp [same]
    | some pair =>
      obtain ⟨here, stored⟩ := entry_eq_some.mp (there : store.entry place = some (pair.1, pair.2))
      dsimp only
      rw [StrMap.getElem?_insert, here]
      by_cases same : place = keyId
      · subst same
        rw [if_pos rfl, stored, Option.map_some, if_pos rfl]
      · simp [same]

/-- What a request may do to the store. -/
inductive Effect (env : Env) (store : KmsStore) (act : Act) : KmsStore → Prop
  | unchanged : Effect env store act store
  | created (operation : act.operation = .createKey) : Effect env store act (createKey env act store).2
  | state {place : String} {k : KmsKey} (there : store.keys[place]? = some k) (state : KeyState)
      (operation : act.operation = .enableKey ∨ act.operation = .disableKey ∨
        act.operation = .scheduleKeyDeletion ∨ act.operation = .cancelKeyDeletion) :
      Effect env store act (store.setState place k state)
  | aliased (operation : act.operation = .createAlias) (aliasName : String) (k : KmsKey) :
      Effect env store act (store.addAlias aliasName k.keyId)
  | unaliased (aliasName : String) : Effect env store act (store.dropAlias aliasName)

theorem state_effect (plain : act.operation ≠ .decrypt)
    (operation : act.operation = .enableKey ∨ act.operation = .disableKey ∨
      act.operation = .scheduleKeyDeletion ∨ act.operation = .cancelKeyDeletion)
    {answer : KmsKey → Answer} {state : KeyState} :
    Effect env store act (withKey act store fun place k => (answer k, store.setState place k state)).2 := by
  rcases withKey_cases plain fun place k => (answer k, store.setState place k state) with
    ⟨-, -, same⟩ | ⟨place, k, aimed, made⟩
  · rw [same]
    exact .unchanged
  · rw [made]
    exact .state (stored_of_aim aimed) state operation

theorem step_effect (env : Env) (store : KmsStore) (act : Act) :
    Effect env store act (step env store act) := by
  cases operation : act.operation with
  | createKey =>
    rw [step, dispatch, operation]
    exact .created operation
  | enableKey =>
    rw [step, dispatch, operation]
    exact state_effect (by simp [operation]) (by simp [operation])
  | disableKey =>
    rw [step, dispatch, operation]
    exact state_effect (by simp [operation]) (by simp [operation])
  | scheduleKeyDeletion =>
    rw [step, dispatch, operation]
    dsimp only
    rw [scheduleKeyDeletion]
    split
    · exact .unchanged
    · cases deletionDate act with
      | none => exact .unchanged
      | some date => exact state_effect (by simp [operation]) (by simp [operation])
  | cancelKeyDeletion =>
    rw [step, dispatch, operation]
    dsimp only [Option.map_some, Option.getD_some]
    rw [cancelKeyDeletion]
    have plain : act.operation ≠ .decrypt := by simp [operation]
    rcases withKey_cases plain fun place k =>
        if k.keyState ≠ .pendingDeletion then
          (.error "KMSInvalidStateException" "Key is not pending deletion" 400, store)
        else (.ok (.obj [("KeyId", .str k.keyId)]), store.setState place k .disabled) with
      ⟨-, -, same⟩ | ⟨place, k, aimed, made⟩
    · rw [same]
      exact .unchanged
    · rw [made]
      split
      · exact .unchanged
      · exact .state (stored_of_aim aimed) _ (by simp [operation])
  | createAlias =>
    rw [step, dispatch, operation]
    dsimp only [Option.map_some, Option.getD_some]
    rw [createAlias]
    split
    · exact .unchanged
    · exact .unchanged
    · split
      · exact .unchanged
      · exact .aliased operation _ _
  | deleteAlias =>
    rw [step, dispatch, operation]
    dsimp only [Option.map_some, Option.getD_some]
    rw [deleteAlias]
    split
    · exact .unchanged
    · exact .unaliased _
  | describeKey | listAliases | encrypt | decrypt | generateDataKey | generateDataKeyWithoutPlaintext
  | sign | verify =>
    rw [step, dispatch, operation]
    exact .unchanged

end Effects

section Example

def localEnv : Env where
  accountId := "000000000000"
  region := "us-east-1"
  hmacSha256 _ := none

end Example

end Openstack.Kms

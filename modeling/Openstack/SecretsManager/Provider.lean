import Openstack.Framework.JsonService
import Openstack.Lib.JsonText
import Openstack.Lib.StrMap

/-!
# Secrets

`crates/services/secretsmanager/src/store.rs` and `provider.rs`, for one account and region. Binary
values and tags, which no operation reads, are left out. The store of an account that has none behaves
like an empty one. The uuids and the time of a request are arguments; times are in seconds.
-/
namespace Openstack.SecretsManager

open JsonService (Answer Uuid strParam required int)

structure SecretVersion where
  versionId : String
  secretString : Option String
  created : Int
  versionStages : List String
  deriving DecidableEq, Repr

structure Secret where
  arn : String
  name : String
  description : String
  created : Int
  lastChanged : Int
  deleted : Bool := false
  deletionDate : Option Int := none
  versions : List SecretVersion
  deriving DecidableEq, Repr

/-- Secrets by name, names by ARN, and the text of the last list. -/
structure SecretsManagerStore where
  secrets : StrMap Secret := ∅
  arnIndex : StrMap String := ∅
  listCache : Option String := none

def SecretVersion.isCurrent (v : SecretVersion) : Bool := v.versionStages.any (· == "AWSCURRENT")

def Secret.currentVersion (s : Secret) : Option SecretVersion := s.versions.find? (·.isCurrent)

structure SecretSummary where
  arn : String
  name : String
  description : String
  createdDate : Int
  lastChangedDate : Int
  deletedDate : Option Int

def SecretSummary.fromSecret (s : Secret) : SecretSummary where
  arn := s.arn
  name := s.name
  description := s.description
  createdDate := s.created
  lastChangedDate := s.lastChanged
  deletedDate := s.deletionDate

def quoted (s : String) : String := String.ofList (JsonText.printString s.toList)

def SecretSummary.text (s : SecretSummary) : String :=
  "\x7b\"ARN\":" ++ quoted s.arn ++ ",\"Name\":" ++ quoted s.name ++ ",\"Description\":" ++
    quoted s.description ++ ",\"CreatedDate\":" ++ toString s.createdDate ++ ",\"LastChangedDate\":" ++
    toString s.lastChangedDate ++
    (s.deletedDate.map fun date => ",\"DeletedDate\":" ++ toString date).getD "" ++ "\x7d"

/-- The text of a `ListSecretsResponse`. -/
def listText (secrets : StrMap Secret) : String :=
  "\x7b\"SecretList\":[" ++
    ",".intercalate (((StrMap.values secrets).filter (!·.deleted)).map fun s =>
      (SecretSummary.fromSecret s).text) ++ "]\x7d"

def rebuildListCache (store : SecretsManagerStore) : SecretsManagerStore :=
  { store with listCache := some (listText store.secrets) }

def resolveSecretName (store : SecretsManagerStore) (secretId : String) : Option String :=
  if store.secrets.contains secretId then some secretId
  else store.arnIndex[secretId]?.or
    (((StrMap.values store.secrets).find? (·.arn == secretId)).map (·.name))

/-- `PutSecretValue`: the stage moves on. -/
def SecretVersion.demote (v : SecretVersion) : SecretVersion :=
  if v.isCurrent then
    { v with versionStages := v.versionStages.filter (· ≠ "AWSCURRENT") ++ ["AWSPREVIOUS"] }
  else v

/-- `UpdateSecret`: the stage is taken away. -/
def SecretVersion.strip (v : SecretVersion) : SecretVersion :=
  { v with versionStages := v.versionStages.filter (· ≠ "AWSCURRENT") }

def Secret.put (s : Secret) (v : SecretVersion) (now : Int) : Secret :=
  { s with versions := s.versions.map (·.demote) ++ [v], lastChanged := now }

def Secret.update (s : Secret) (description : Option String) (v : Option SecretVersion) (now : Int) :
    Secret :=
  { s with
    description := description.getD s.description
    versions := (v.map fun v => s.versions.map (·.strip) ++ [v]).getD s.versions
    lastChanged := now }

/-- `DeleteSecret` without force. -/
def Secret.scheduleDeletion (s : Secret) (deletionDate : Int) : Secret :=
  { s with deleted := true, deletionDate := some deletionDate }

def Secret.restore (s : Secret) : Secret := { s with deleted := false, deletionDate := none }

/-- A new secret, in the place of a deleted one whose ARN goes. -/
def SecretsManagerStore.create (store : SecretsManagerStore) (name : String) (secret : Secret) :
    SecretsManagerStore where
  secrets := store.secrets.insert name secret
  arnIndex := ((store.secrets[name]?.map fun old => store.arnIndex.erase old.arn).getD
    store.arnIndex).insert secret.arn name
  listCache := none

def SecretsManagerStore.remove (store : SecretsManagerStore) (name : String) (s : Secret) :
    SecretsManagerStore where
  secrets := store.secrets.erase name
  arnIndex := store.arnIndex.erase s.arn
  listCache := none

/-- Write the secret back; every such write empties the cache. -/
def SecretsManagerStore.write (store : SecretsManagerStore) (name : String) (s : Secret) :
    SecretsManagerStore :=
  { store with secrets := store.secrets.insert name s, listCache := none }

inductive Operation where
  | createSecret
  | getSecretValue
  | putSecretValue
  | updateSecret
  | describeSecret
  | listSecrets
  | deleteSecret
  | restoreSecret
  deriving DecidableEq, Repr

structure Act where
  operation : Operation
  body : Json
  now : Int
  arnUuid : Uuid
  versionUuid : Uuid

structure Tenant where
  accountId : String
  region : String

def Tenant.arn (tenant : Tenant) (name : String) (uuid : Uuid) : String :=
  "arn:aws:secretsmanager:" ++ tenant.region ++ ":" ++ tenant.accountId ++ ":secret:" ++ name ++ "-" ++
    String.ofList (uuid.text.toList.take 6)

section Operations

variable (tenant : Tenant) (act : Act) (store : SecretsManagerStore)

def newVersion (secretString : Option String) : SecretVersion where
  versionId := act.versionUuid.text
  secretString := secretString
  created := act.now
  versionStages := ["AWSCURRENT"]

def newSecret (name : String) : Secret where
  arn := tenant.arn name act.arnUuid
  name := name
  description := (strParam act.body "Description").getD ""
  created := act.now
  lastChanged := act.now
  versions := [newVersion act (strParam act.body "SecretString")]

def createSecret : Answer × SecretsManagerStore :=
  match strParam act.body "Name" with
  | none => (required "Name", store)
  | some name =>
    if (store.secrets[name]?.map (!·.deleted)).getD false then
      (.error "ResourceExistsException" ("Secret " ++ name ++ " already exists") 400, store)
    else
      let secret := newSecret tenant act name
      (.ok (.obj [("ARN", .str secret.arn), ("Name", .str name),
          ("VersionId", .str act.versionUuid.text)]), store.create name secret)

def notFound (secretId : String) : Answer :=
  .error "ResourceNotFoundException" ("Secret " ++ secretId ++ " not found") 400

def findSecret (secretId : String) : Option (String × Secret) :=
  (resolveSecretName store secretId).bind fun name => store.secrets[name]?.map fun s => (name, s)

/-- The secret that `SecretId` names, by name or ARN. -/
def withSecret (found : String → Secret → Answer × SecretsManagerStore) :
    Answer × SecretsManagerStore :=
  match strParam act.body "SecretId" with
  | none => (required "SecretId", store)
  | some secretId =>
    match findSecret store secretId with
    | none => (notFound secretId, store)
    | some (name, s) => found name s

def identified (s : Secret) : List (String × Json) := [("ARN", .str s.arn), ("Name", .str s.name)]

def getSecretValue : Answer × SecretsManagerStore :=
  match strParam act.body "SecretId" with
  | none => (required "SecretId", store)
  | some secretId =>
    match findSecret store secretId with
    | none =>
      (.error "ResourceNotFoundException" "Secrets Manager can't find the specified secret." 400, store)
    | some (_, s) =>
      if s.deleted then
        (.error "InvalidRequestException" "Secret is scheduled for deletion" 400, store)
      else
        match s.currentVersion with
        | none => (.error "ResourceNotFoundException" "No current version" 400, store)
        | some v =>
          (.ok (.obj ([("ARN", .str s.arn), ("CreatedDate", int v.created), ("Name", .str s.name)] ++
            (v.secretString.map fun text => ("SecretString", Json.str text)).toList ++
            [("VersionId", .str v.versionId), ("VersionStages", .arr (v.versionStages.map .str))])),
            store)

def putSecretValue : Answer × SecretsManagerStore :=
  withSecret act store fun name s =>
    (.ok (.obj (identified s ++ [("VersionId", .str act.versionUuid.text),
        ("VersionStages", .arr [.str "AWSCURRENT"])])),
      store.write name (s.put (newVersion act (strParam act.body "SecretString")) act.now))

def updateSecret : Answer × SecretsManagerStore :=
  withSecret act store fun name s =>
    (.ok (.obj (identified s)),
      store.write name (s.update (strParam act.body "Description")
        ((strParam act.body "SecretString").map fun text => newVersion act (some text)) act.now))

def describeSecret : Answer × SecretsManagerStore :=
  withSecret act store fun _ s => (.okText (SecretSummary.fromSecret s).text, store)

def listSecrets : Answer × SecretsManagerStore :=
  match store.listCache with
  | some cached => (.okText cached, store)
  | none => (.okText (listText store.secrets), rebuildListCache store)

def deleteSecret : Answer × SecretsManagerStore :=
  withSecret act store fun name s =>
    if ((act.body.get? "ForceDeleteWithoutRecovery").bind Json.asBool?).getD false then
      (.ok (.obj (identified s)),
        store.remove name s)
    else
      let deletionDate := act.now + 30 * 86400
      (.ok (.obj [("ARN", .str s.arn), ("DeletionDate", int deletionDate), ("Name", .str s.name)]),
        store.write name (s.scheduleDeletion deletionDate))

def restoreSecret : Answer × SecretsManagerStore :=
  withSecret act store fun name s => (.ok (.obj (identified s)), store.write name s.restore)

end Operations

def dispatch (tenant : Tenant) (store : SecretsManagerStore) (act : Act) : Answer × SecretsManagerStore :=
  match act.operation with
  | .createSecret => createSecret tenant act store
  | .getSecretValue => getSecretValue act store
  | .putSecretValue => putSecretValue act store
  | .updateSecret => updateSecret act store
  | .describeSecret => describeSecret act store
  | .listSecrets => listSecrets store
  | .deleteSecret => deleteSecret act store
  | .restoreSecret => restoreSecret act store

def step (tenant : Tenant) (store : SecretsManagerStore) (act : Act) : SecretsManagerStore :=
  (dispatch tenant store act).2

/-- The secret that an act is about. -/
def target (store : SecretsManagerStore) (act : Act) : Option (String × Secret) :=
  (strParam act.body "SecretId").bind (findSecret store)

/-- The requests that write a new version. -/
def Act.writesValue (act : Act) : Bool :=
  match act.operation with
  | .putSecretValue => true
  | .updateSecret => (strParam act.body "SecretString").isSome
  | _ => false

/-- What an act that writes a secret back makes of it. -/
def Act.change (act : Act) (s : Secret) : Secret :=
  match act.operation with
  | .putSecretValue => s.put (newVersion act (strParam act.body "SecretString")) act.now
  | .updateSecret => s.update (strParam act.body "Description")
      ((strParam act.body "SecretString").map fun text => newVersion act (some text)) act.now
  | .deleteSecret => s.scheduleDeletion (act.now + 30 * 86400)
  | .restoreSecret => s.restore
  | _ => s

inductive Effect (tenant : Tenant) (store : SecretsManagerStore) (act : Act) :
    SecretsManagerStore → Prop
  | unchanged (aimless : act.writesValue = true → target store act = none) : Effect tenant store act store
  | listed (plain : act.writesValue = false) (empty : store.listCache = none) :
      Effect tenant store act (rebuildListCache store)
  | created (name : String) (plain : act.writesValue = false)
      (vacant : ∀ s, store.secrets[name]? = some s → s.deleted = true) :
      Effect tenant store act (store.create name (newSecret tenant act name))
  | wrote (name : String) (s : Secret) (aimed : target store act = some (name, s)) :
      Effect tenant store act (store.write name (act.change s))
  | removed (name : String) (s : Secret) (plain : act.writesValue = false)
      (aimed : target store act = some (name, s)) : Effect tenant store act (store.remove name s)

theorem stored_of_findSecret {store : SecretsManagerStore} {secretId name : String} {s : Secret}
    (found : findSecret store secretId = some (name, s)) : store.secrets[name]? = some s := by
  obtain ⟨resolved, -, stored⟩ := Option.bind_eq_some_iff.mp found
  obtain ⟨s', member, same⟩ := Option.map_eq_some_iff.mp stored
  cases same
  exact member

theorem stored_of_target {store : SecretsManagerStore} {act : Act} {name : String} {s : Secret}
    (aimed : target store act = some (name, s)) : store.secrets[name]? = some s := by
  obtain ⟨secretId, -, found⟩ := Option.bind_eq_some_iff.mp aimed
  exact stored_of_findSecret found

/-- A request that names no secret answers an error and changes nothing. -/
theorem withSecret_cases (act : Act) (store : SecretsManagerStore)
    (found : String → Secret → Answer × SecretsManagerStore) :
    (target store act = none ∧ (withSecret act store found).2 = store) ∨
      ∃ name s, target store act = some (name, s) ∧ withSecret act store found = found name s := by
  rw [withSecret, target]
  cases given : strParam act.body "SecretId" with
  | none => exact Or.inl ⟨rfl, rfl⟩
  | some secretId =>
    cases aimed : findSecret store secretId with
    | none => exact Or.inl ⟨aimed, by simp only [aimed]⟩
    | some pair => exact Or.inr ⟨pair.1, pair.2, aimed, by simp only [aimed]⟩

theorem step_effect (tenant : Tenant) (store : SecretsManagerStore) (act : Act) :
    Effect tenant store act (step tenant store act) := by
  cases operation : act.operation with
  | createSecret =>
    have plain : act.writesValue = false := by simp [Act.writesValue, operation]
    rw [step, dispatch, operation]
    dsimp only
    rw [createSecret]
    cases strParam act.body "Name" with
    | none => exact .unchanged (by simp [plain])
    | some name =>
      dsimp only
      split
      · exact .unchanged (by simp [plain])
      · next vacant =>
        refine .created name plain fun s stored => ?_
        simpa [stored] using vacant
  | getSecretValue =>
    have plain : act.writesValue = false := by simp [Act.writesValue, operation]
    have same : (getSecretValue act store).2 = store := by
      unfold getSecretValue
      repeat' split
      all_goals rfl
    rw [step, dispatch, operation]
    dsimp only
    rw [same]
    exact .unchanged (by simp [plain])
  | describeSecret =>
    have plain : act.writesValue = false := by simp [Act.writesValue, operation]
    rw [step, dispatch, operation]
    dsimp only
    rw [describeSecret]
    rcases withSecret_cases act store fun _ s => (.okText (SecretSummary.fromSecret s).text, store) with
      ⟨-, same⟩ | ⟨name, s, -, made⟩
    · rw [same]
      exact .unchanged (by simp [plain])
    · rw [made]
      exact .unchanged (by simp [plain])
  | listSecrets =>
    have plain : act.writesValue = false := by simp [Act.writesValue, operation]
    rw [step, dispatch, operation]
    dsimp only
    rw [listSecrets]
    cases cache : store.listCache with
    | none => exact .listed plain cache
    | some cached => exact .unchanged (by simp [plain])
  | putSecretValue =>
    have change s : act.change s = s.put (newVersion act (strParam act.body "SecretString")) act.now := by
      rw [Act.change, operation]
    rw [step, dispatch, operation]
    dsimp only
    rw [putSecretValue]
    rcases withSecret_cases act store _ with ⟨absent, same⟩ | ⟨name, s, aimed, made⟩
    · rw [same]
      exact .unchanged fun _ => absent
    · rw [made, ← change]
      exact .wrote name s aimed
  | updateSecret =>
    have change s : act.change s = s.update (strParam act.body "Description")
        ((strParam act.body "SecretString").map fun text => newVersion act (some text)) act.now := by
      rw [Act.change, operation]
    rw [step, dispatch, operation]
    dsimp only
    rw [updateSecret]
    rcases withSecret_cases act store _ with ⟨absent, same⟩ | ⟨name, s, aimed, made⟩
    · rw [same]
      exact .unchanged fun _ => absent
    · rw [made, ← change]
      exact .wrote name s aimed
  | restoreSecret =>
    have change s : act.change s = s.restore := by rw [Act.change, operation]
    rw [step, dispatch, operation]
    dsimp only
    rw [restoreSecret]
    rcases withSecret_cases act store _ with ⟨absent, same⟩ | ⟨name, s, aimed, made⟩
    · rw [same]
      exact .unchanged fun _ => absent
    · rw [made, ← change]
      exact .wrote name s aimed
  | deleteSecret =>
    have plain : act.writesValue = false := by simp [Act.writesValue, operation]
    have change s : act.change s = s.scheduleDeletion (act.now + 30 * 86400) := by
      rw [Act.change, operation]
    rw [step, dispatch, operation]
    dsimp only
    rw [deleteSecret]
    rcases withSecret_cases act store _ with ⟨absent, same⟩ | ⟨name, s, aimed, made⟩
    · rw [same]
      exact .unchanged fun _ => absent
    · rw [made]
      split
      · exact .removed name s plain aimed
      · dsimp only
        rw [← change]
        exact .wrote name s aimed

end Openstack.SecretsManager

import Openstack.Kms.Provider
import Openstack.Lib.Run

/-!
# Keys pending deletion

What happens to a key between a `ScheduleKeyDeletion` and a `CancelKeyDeletion` of it (`provider.rs`,
lines 191-283 and 467-675). `EnableKey` and `DisableKey` do not look at the state they replace, and the
window of `ScheduleKeyDeletion` is added to the present time unchecked.
-/
namespace Openstack.Kms

open JsonService (firstUuid)

def succeeded (env : Env) (store : KmsStore) (act : Act) : Bool :=
  (dispatch env store act).any (·.1.succeeds)

def Operation.isCryptographic : Operation → Bool
  | .encrypt | .decrypt | .generateDataKey | .generateDataKeyWithoutPlaintext | .sign | .verify => true
  | _ => false

/-- A store, and the places of the keys whose deletion was scheduled and not cancelled since. -/
structure Watched where
  store : KmsStore
  scheduled : String → Bool

/-- What a successful request on a key does to its deletion. -/
def Operation.schedules : Operation → Bool → Bool
  | .scheduleKeyDeletion, _ => true
  | .cancelKeyDeletion, _ => false
  | _, before => before

def Watched.step (env : Env) (w : Watched) (act : Act) : Watched where
  store := Kms.step env w.store act
  scheduled place :=
    if succeeded env w.store act ∧ (aim w.store act).any (·.1 == place) then
      act.operation.schedules (w.scheduled place)
    else w.scheduled place

def Watched.start (store : KmsStore) : Watched := ⟨store, fun _ => false⟩

def PendingKept (w : Watched) : Prop :=
  ∀ place, w.scheduled place = true →
    ∃ k, w.store.keys[place]? = some k ∧ k.keyState = .pendingDeletion

structure HandledSafely (env : Env) (w : Watched) (act : Act) : Prop where
  no_panic : (dispatch env w.store act).isSome
  refused : act.operation.isCryptographic = true → ∀ place k, aim w.store act = some (place, k) →
    w.scheduled place = true → succeeded env w.store act = false

/-- `EnableKey` and `DisableKey` name no key whose deletion is scheduled, and the date of every
`ScheduleKeyDeletion` with a `KeyId` is in range. -/
structure LeavesPending (w : Watched) (act : Act) : Prop where
  state : act.operation = .enableKey ∨ act.operation = .disableKey →
    ∀ place k, aim w.store act = some (place, k) → w.scheduled place = false
  window : act.operation = .scheduleKeyDeletion →
    (JsonService.strParam act.body "KeyId").isSome → (deletionDate act).isSome

/-- The handler stops at an error. -/
def Fails {α : Type} (result : Except JsonService.Answer α) : Prop :=
  ∃ answer, result = .error answer ∧ answer.succeeds = false

section Failing

variable {α β : Type} {f : α → Except JsonService.Answer β} {answer : JsonService.Answer}

theorem orElse_bind_fails {value : Option α} (plain : answer.succeeds = false)
    (rest : ∀ x, value = some x → Fails (f x)) : Fails (orElse value answer >>= f) := by
  cases value with
  | none => exact ⟨answer, rfl, plain⟩
  | some x => exact rest x rfl

theorem enabledKey_bind_fails {store : KmsStore} {id : String} {missing disabled : JsonService.Answer}
    {f : KmsKey → Except JsonService.Answer β} (missing_plain : missing.succeeds = false)
    (disabled_plain : disabled.succeeds = false)
    (locked : ∀ k, store.resolveKey id = some k → k.keyState ≠ .enabled) :
    Fails (enabledKey store id missing disabled >>= f) := by
  rw [enabledKey]
  cases found : store.resolveKey id with
  | none => exact ⟨missing, rfl, missing_plain⟩
  | some k =>
    dsimp only
    rw [if_pos (locked k found)]
    exact ⟨disabled, rfl, disabled_plain⟩

theorem signingAlgorithm_bind_fails {act : Act} {f : String → Except JsonService.Answer β}
    (rest : ∀ name, Fails (f name)) : Fails (signingAlgorithm act >>= f) := by
  rw [signingAlgorithm]
  cases JsonService.strParam act.body "SigningAlgorithm" with
  | none => exact ⟨_, rfl, rfl⟩
  | some name =>
    dsimp only
    split
    · exact rest _
    · exact ⟨_, rfl, rfl⟩

end Failing

section Locked

variable {env : Env} {store : KmsStore} {act : Act}

/-- The key that the request names is not enabled. -/
def Locked (store : KmsStore) (act : Act) : Prop :=
  ∀ id, keyReference act = some id → ∀ k, store.resolveKey id = some k → k.keyState ≠ .enabled

theorem succeeded_of_fails {result : Except JsonService.Answer JsonService.Answer}
    (handled : dispatch env store act = some (answered result, store)) (fails : Fails result) :
    succeeded env store act = false := by
  obtain ⟨answer, rfl, plain⟩ := fails
  rw [succeeded, handled]
  exact plain

/-- No cryptographic operation succeeds with a key that is not enabled. -/
theorem refused_of_locked (crypto : act.operation.isCryptographic = true) (locked : Locked store act) :
    succeeded env store act = false := by
  cases operation : act.operation with
  | encrypt =>
    have reference := @keyReference_of_ne act (by simp [operation])
    refine succeeded_of_fails (by rw [dispatch, operation]) ?_
    refine orElse_bind_fails rfl fun keyId given => orElse_bind_fails rfl fun plaintext _ => ?_
    exact enabledKey_bind_fails rfl rfl (locked keyId (reference.trans given))
  | decrypt =>
    refine succeeded_of_fails (by rw [dispatch, operation]) ?_
    refine orElse_bind_fails rfl fun text given => orElse_bind_fails rfl fun bytes decoded => ?_
    refine enabledKey_bind_fails rfl rfl (locked _ ?_)
    rw [keyReference, operation]
    dsimp only
    rw [given, Option.bind_some, decoded, Option.map_some]
    rfl
  | generateDataKey | generateDataKeyWithoutPlaintext =>
    have reference := @keyReference_of_ne act (by simp [operation])
    refine succeeded_of_fails (by rw [dispatch, operation]) ?_
    refine orElse_bind_fails rfl fun keyId given => ?_
    exact enabledKey_bind_fails rfl rfl (locked keyId (reference.trans given))
  | sign =>
    have reference := @keyReference_of_ne act (by simp [operation])
    refine succeeded_of_fails (by rw [dispatch, operation]) ?_
    refine orElse_bind_fails rfl fun keyId given => orElse_bind_fails rfl fun message _ => ?_
    refine signingAlgorithm_bind_fails fun algorithm => ?_
    exact enabledKey_bind_fails rfl rfl
      (locked keyId (reference.trans (Option.filter_eq_some_iff.mp given).1))
  | verify =>
    have reference := @keyReference_of_ne act (by simp [operation])
    refine succeeded_of_fails (by rw [dispatch, operation]) ?_
    refine orElse_bind_fails rfl fun keyId given => orElse_bind_fails rfl fun message _ => ?_
    refine orElse_bind_fails rfl fun signature _ => signingAlgorithm_bind_fails fun algorithm => ?_
    exact enabledKey_bind_fails rfl rfl
      (locked keyId (reference.trans (Option.filter_eq_some_iff.mp given).1))
  | createKey | describeKey | enableKey | disableKey | scheduleKeyDeletion | cancelKeyDeletion
  | createAlias | listAliases | deleteAlias =>
    rw [operation] at crypto
    cases crypto

end Locked

section Steps

variable {env : Env} {w : Watched} {store : KmsStore} {act : Act}

/-- A request that is not one of the four on the state of a key keeps the states of all keys. -/
theorem states_kept (fresh : FreshKey store act)
    (other : act.operation ≠ .enableKey ∧ act.operation ≠ .disableKey ∧
      act.operation ≠ .scheduleKeyDeletion ∧ act.operation ≠ .cancelKeyDeletion)
    {place : String} {k : KmsKey} (stored : store.keys[place]? = some k) :
    ∃ k', (step env store act).keys[place]? = some k' ∧ k'.keyState = k.keyState := by
  have effect := step_effect env store act
  generalize step env store act = next at effect
  cases effect with
  | unchanged => exact ⟨k, stored, rfl⟩
  | created operation =>
    refine ⟨k, ?_, rfl⟩
    rw [getElem?_createKey, if_neg, stored]
    rintro rfl
    rw [fresh operation] at stored
    cases stored
  | state _ _ operation =>
    rcases operation with enable | disable | schedule | cancel
    · exact absurd enable other.1
    · exact absurd disable other.2.1
    · exact absurd schedule other.2.2.1
    · exact absurd cancel other.2.2.2
  | aliased _ aliasName _ =>
    rw [getElem?_addAlias, stored]
    refine ⟨_, rfl, ?_⟩
    split
    · rfl
    · rfl
  | unaliased aliasName =>
    rw [getElem?_dropAlias, stored]
    refine ⟨_, rfl, ?_⟩
    split
    · rfl
    · rfl

theorem scheduled_step (other : act.operation ≠ .scheduleKeyDeletion ∧ act.operation ≠ .cancelKeyDeletion) :
    (w.step env act).scheduled = w.scheduled := by
  have before (b : Bool) : act.operation.schedules b = b := by
    unfold Operation.schedules
    split
    · next operation => exact absurd operation other.1
    · next operation => exact absurd operation other.2
    · rfl
  funext place
  rw [Watched.step]
  dsimp only
  rw [before, ite_self]

theorem refused_of_kept (kept : PendingKept w) (crypto : act.operation.isCryptographic = true)
    {place : String} {k : KmsKey} (aimed : aim w.store act = some (place, k))
    (scheduled : w.scheduled place = true) : succeeded env w.store act = false := by
  refine refused_of_locked crypto fun id named k' resolved enabled => ?_
  obtain ⟨id', named', found⟩ := Option.bind_eq_some_iff.mp aimed
  cases named.symm.trans named'
  have same := map_resolveKeyMut w.store id
  rw [found, resolved] at same
  cases same
  obtain ⟨pending, there, state⟩ := kept place scheduled
  cases (stored_of_aim aimed).symm.trans there
  rw [state] at enabled
  cases enabled

theorem no_panic_iff : (dispatch env store act).isSome ↔ (act.operation = .scheduleKeyDeletion →
    (JsonService.strParam act.body "KeyId").isSome → (deletionDate act).isSome) := by
  cases operation : act.operation with
  | scheduleKeyDeletion =>
    rw [dispatch, operation]
    dsimp only
    rw [scheduleKeyDeletion]
    cases JsonService.strParam act.body "KeyId" with
    | none => simp
    | some keyId => simp
  | _ =>
    rw [dispatch, operation]
    simp

/-- A request that replaces the state of the key it names. -/
theorem pendingKept_setState (kept : PendingKept w) {place : String} {k : KmsKey} {state : KeyState}
    {next : Watched} (store : next.store = w.store.setState place k state)
    (scheduled : ∀ other, other ≠ place → next.scheduled other = w.scheduled other)
    (here : next.scheduled place = true → state = .pendingDeletion) : PendingKept next := by
  intro other flagged
  rw [store, getElem?_setState]
  by_cases same : place = other
  · subst same
    rw [if_pos rfl]
    exact ⟨_, rfl, here flagged⟩
  · rw [if_neg same]
    rw [scheduled other (Ne.symm same)] at flagged
    exact kept other flagged

/-- `EnableKey` and `DisableKey`. -/
theorem pendingKept_replace_iff (kept : PendingKept w) {state : KeyState} (other : state ≠ .pendingDeletion)
    (operation : act.operation = .enableKey ∨ act.operation = .disableKey)
    (handled : dispatch env w.store act = some (withKey act w.store fun place k =>
      (done, w.store.setState place k state))) :
    PendingKept (w.step env act) ↔
      ∀ place k, aim w.store act = some (place, k) → w.scheduled place = false := by
  have plain : act.operation ≠ .decrypt ∧ act.operation ≠ .scheduleKeyDeletion ∧
      act.operation ≠ .cancelKeyDeletion := by
    rcases operation with enable | disable
    · simp [enable]
    · simp [disable]
  have scheduled := @scheduled_step env w act plain.2
  rcases withKey_cases plain.1 fun place k => (done, w.store.setState place k state) with
    ⟨aimless, -, same⟩ | ⟨place, k, aimed, made⟩
  · have store : (w.step env act).store = w.store := by
      rw [Watched.step, Kms.step, handled, Option.map_some, Option.getD_some, same]
    refine iff_of_true (fun place flagged => ?_) (by simp [aimless])
    rw [store]
    rw [scheduled] at flagged
    exact kept place flagged
  · have store : (w.step env act).store = w.store.setState place k state := by
      rw [Watched.step, Kms.step, handled, Option.map_some, Option.getD_some, made]
    constructor
    · intro next place' k' aimed'
      cases aimed.symm.trans aimed'
      rw [Bool.eq_false_iff]
      intro flagged
      rw [← scheduled] at flagged
      obtain ⟨found, there, pending⟩ := next place flagged
      rw [store, getElem?_setState, if_pos rfl] at there
      cases there
      exact other pending
    · intro free
      refine pendingKept_setState kept store (fun p _ => congrFun scheduled p) fun flagged => ?_
      rw [scheduled, free place k aimed] at flagged
      cases flagged

theorem pendingKept_unchanged (kept : PendingKept w) (store : (w.step env act).store = w.store)
    (fails : succeeded env w.store act = false) : PendingKept (w.step env act) := by
  intro place flagged
  rw [store]
  refine kept place ?_
  rw [Watched.step] at flagged
  simpa [fails] using flagged

/-- A successful request changes the deletion of the key it names only. -/
theorem scheduled_elsewhere {place : String} {k : KmsKey} (aimed : aim w.store act = some (place, k))
    (other : String) (elsewhere : other ≠ place) : (w.step env act).scheduled other = w.scheduled other := by
  rw [Watched.step]
  dsimp only
  rw [aimed, if_neg]
  rintro ⟨-, same⟩
  exact elsewhere (beq_iff_eq.mp same).symm

theorem pendingKept_schedule (kept : PendingKept w) (operation : act.operation = .scheduleKeyDeletion) :
    PendingKept (w.step env act) := by
  have handled : dispatch env w.store act = scheduleKeyDeletion act w.store := by
    rw [dispatch, operation]
  have plain : act.operation ≠ .decrypt := by simp [operation]
  cases given : JsonService.strParam act.body "KeyId" with
  | none =>
    rw [scheduleKeyDeletion, given] at handled
    exact pendingKept_unchanged kept (by rw [Watched.step, Kms.step, handled]; rfl)
      (by rw [succeeded, handled]; rfl)
  | some keyId =>
    rw [scheduleKeyDeletion, given] at handled
    dsimp only at handled
    cases computed : deletionDate act with
    | none =>
      rw [computed, Option.map_none] at handled
      exact pendingKept_unchanged kept (by rw [Watched.step, Kms.step, handled]; rfl)
        (by rw [succeeded, handled]; rfl)
    | some date =>
      rw [computed, Option.map_some] at handled
      rcases withKey_cases plain fun place k =>
        (.ok (.obj [("DeletionDate", JsonService.int date), ("KeyId", .str k.keyId)]),
          w.store.setState place k .pendingDeletion) with ⟨-, fails, same⟩ | ⟨place, k, aimed, made⟩
      · exact pendingKept_unchanged kept
          (by rw [Watched.step, Kms.step, handled, Option.map_some, Option.getD_some, same])
          (by rw [succeeded, handled, Option.any_some, fails])
      · have store : (w.step env act).store = w.store.setState place k .pendingDeletion := by
          rw [Watched.step, Kms.step, handled, Option.map_some, Option.getD_some, made]
        exact pendingKept_setState kept store (scheduled_elsewhere aimed) fun _ => rfl

theorem pendingKept_cancel (kept : PendingKept w) (operation : act.operation = .cancelKeyDeletion) :
    PendingKept (w.step env act) := by
  have handled : dispatch env w.store act = some (cancelKeyDeletion act w.store) := by
    rw [dispatch, operation]
  have plain : act.operation ≠ .decrypt := by simp [operation]
  rw [cancelKeyDeletion] at handled
  rcases withKey_cases plain fun place k =>
      if k.keyState ≠ .pendingDeletion then
        (.error "KMSInvalidStateException" "Key is not pending deletion" 400, w.store)
      else (.ok (.obj [("KeyId", .str k.keyId)]), w.store.setState place k .disabled) with
    ⟨-, fails, same⟩ | ⟨place, k, aimed, made⟩
  · exact pendingKept_unchanged kept
      (by rw [Watched.step, Kms.step, handled, Option.map_some, Option.getD_some, same])
      (by rw [succeeded, handled, Option.any_some, fails])
  · rw [made] at handled
    by_cases pending : k.keyState = .pendingDeletion
    · rw [if_neg (by simp [pending])] at handled
      refine pendingKept_setState kept (by rw [Watched.step, Kms.step, handled]; rfl)
        (scheduled_elsewhere aimed) fun flagged => ?_
      have cancelled : (w.step env act).scheduled place = false := by
        rw [Watched.step]
        dsimp only
        rw [if_pos ⟨by rw [succeeded, handled]; rfl, by simp [aimed]⟩, operation]
        rfl
      rw [cancelled] at flagged
      cases flagged
    · rw [if_pos pending] at handled
      exact pendingKept_unchanged kept (by rw [Watched.step, Kms.step, handled]; rfl)
        (by rw [succeeded, handled]; rfl)

theorem pendingKept_other (kept : PendingKept w) (fresh : FreshKey w.store act)
    (other : act.operation ≠ .enableKey ∧ act.operation ≠ .disableKey ∧
      act.operation ≠ .scheduleKeyDeletion ∧ act.operation ≠ .cancelKeyDeletion) :
    PendingKept (w.step env act) := by
  intro place flagged
  rw [scheduled_step other.2.2] at flagged
  obtain ⟨k, stored, pending⟩ := kept place flagged
  obtain ⟨k', stored', same⟩ := @states_kept env w.store act fresh other place k stored
  exact ⟨k', stored', same.trans pending⟩

/-- One request. -/
theorem pendingKept_iff (kept : PendingKept w) (fresh : FreshKey w.store act) :
    PendingKept (w.step env act) ↔ (act.operation = .enableKey ∨ act.operation = .disableKey →
      ∀ place k, aim w.store act = some (place, k) → w.scheduled place = false) := by
  cases operation : act.operation with
  | enableKey =>
    rw [pendingKept_replace_iff kept (by decide) (Or.inl operation)
      (by rw [dispatch, operation] : dispatch env w.store act = some (enableKey act w.store))]
    simp
  | disableKey =>
    rw [pendingKept_replace_iff kept (by decide) (Or.inr operation)
      (by rw [dispatch, operation] : dispatch env w.store act = some (disableKey act w.store))]
    simp
  | scheduleKeyDeletion => simp [pendingKept_schedule kept operation]
  | cancelKeyDeletion => simp [pendingKept_cancel kept operation]
  | _ => simp [pendingKept_other kept fresh (by simp [operation])]

theorem safe_step_iff (kept : PendingKept w) (fresh : FreshKey w.store act) :
    PendingKept (w.step env act) ∧ HandledSafely env w act ↔ LeavesPending w act := by
  constructor
  · rintro ⟨next, safe⟩
    exact ⟨(pendingKept_iff kept fresh).mp next, no_panic_iff.mp safe.no_panic⟩
  · intro leaves
    refine ⟨(pendingKept_iff kept fresh).mpr leaves.state, no_panic_iff.mpr leaves.window, ?_⟩
    exact fun crypto place k aimed scheduled => refused_of_kept kept crypto aimed scheduled

end Steps

/-- In a run whose `CreateKey` requests draw unused uuids, no handler panics, a key whose deletion is
scheduled and not cancelled stays `PendingDeletion` and no cryptographic operation succeeds with it,
exactly when each step leaves the scheduled keys alone and gives a date in range. -/
theorem pending_deletion_kept_iff (env : Env) (store : KmsStore) (acts : List Act)
    (fresh : Run.AllSteps (Watched.step env) (fun w act => FreshKey w.store act) (Watched.start store)
      acts) :
    Run.AllStates (Watched.step env) PendingKept (Watched.start store) acts ∧
      Run.AllSteps (Watched.step env) (HandledSafely env) (Watched.start store) acts ↔
    Run.AllSteps (Watched.step env) LeavesPending (Watched.start store) acts :=
  Run.allStates_and_allSteps_iff (fun _ _ kept fresh => safe_step_iff kept fresh) _ acts
    (fun _ flagged => absurd flagged Bool.false_ne_true) fresh

section Example

def onFirst (operation : Operation) (fields : List (String × Json)) : Act where
  operation
  body := .obj (("KeyId", .str firstUuid.text) :: fields)
  now := 1700000000
  keyUuid := firstUuid
  seedUuid := firstUuid

def deletedActs : List Act := [onFirst .createKey [], onFirst .scheduleKeyDeletion [],
  onFirst .encrypt [("Plaintext", .str "aGVsbG8=")], onFirst .cancelKeyDeletion [], onFirst .enableKey []]

theorem pending_deletion_kept_deleted :
    Run.AllStates (Watched.step localEnv) PendingKept (Watched.start {}) deletedActs ∧
      Run.AllSteps (Watched.step localEnv) (HandledSafely localEnv) (Watched.start {}) deletedActs ↔
    Run.AllSteps (Watched.step localEnv) LeavesPending (Watched.start {}) deletedActs :=
  pending_deletion_kept_iff localEnv {} deletedActs (by decide +kernel)

/-- `EnableKey` brings back a key whose deletion is scheduled, and a window of `i64::MAX` days panics. -/
theorem enabled_while_pending :
    ¬ Run.AllStates (Watched.step localEnv) PendingKept (Watched.start {})
        [onFirst .createKey [], onFirst .scheduleKeyDeletion [], onFirst .enableKey []] ∧
      ¬ Run.AllSteps (Watched.step localEnv) (HandledSafely localEnv) (Watched.start {})
        [onFirst .createKey [],
          onFirst .scheduleKeyDeletion [("PendingWindowInDays", .posInt (2 ^ 63 - 1))]] := by
  constructor
  · intro states
    have kept := states.last
    generalize made : [onFirst .createKey [], onFirst .scheduleKeyDeletion [],
      onFirst .enableKey []].foldl (Watched.step localEnv) (Watched.start {}) = w at kept
    have scheduled : w.scheduled firstUuid.text = true := by
      subst made
      decide +kernel
    have enabled : (w.store.keys[firstUuid.text]?.map (·.keyState)) = some .enabled := by
      subst made
      decide +kernel
    obtain ⟨k, stored, pending⟩ := kept _ scheduled
    rw [stored, Option.map_some, pending] at enabled
    cases enabled
  · rintro ⟨-, safe, -⟩
    have panics : (dispatch localEnv (Watched.step localEnv (Watched.start {})
        (onFirst .createKey [])).store
          (onFirst .scheduleKeyDeletion [("PendingWindowInDays", .posInt (2 ^ 63 - 1))])).isSome = false := by
      decide +kernel
    have handled := safe.no_panic
    rw [panics] at handled
    cases handled

end Example

end Openstack.Kms

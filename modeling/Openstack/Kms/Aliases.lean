import Openstack.Kms.Provider
import Openstack.Lib.Run

/-!
# References to keys

An alias stands in `alias_to_key` and in the list of its key, and both resolvers read a reference by its
form (`provider.rs`, lines 285-375; `store.rs`, lines 49-84). `CreateAlias` does not take the alias out of
the list of the key it named before, and the resolvers look up what follows the last slash of any ARN as
a key id, also of the ARN of an alias.
-/
namespace Openstack.Kms

open JsonService (strParam firstUuid secondUuid)

/-- Both resolvers lead from the reference to the key. -/
def Names (store : KmsStore) (reference keyId : String) : Prop :=
  ∃ k, store.keys[keyId]? = some k ∧ store.resolveKey reference = some k ∧
    store.resolveKeyMut reference = some (keyId, k)

/-- The alias is in the list of the key. -/
def Lists (store : KmsStore) (keyId aliasName : String) : Prop :=
  ∃ k, store.keys[keyId]? = some k ∧ aliasName ∈ KmsKey.aliases k

structure ReferencesRight (env : Env) (store : KmsStore) : Prop where
  listed : ∀ aliasName keyId, Lists store keyId aliasName ↔ store.aliasToKey[aliasName]? = some keyId
  keys : ∀ keyId k, store.keys[keyId]? = some k → Names store k.keyId keyId ∧ Names store k.arn keyId
  aliases : ∀ aliasName keyId, store.aliasToKey[aliasName]? = some keyId →
    Names store aliasName keyId ∧ Names store (reportedArn env store aliasName keyId) keyId

/-- The name alone, as the resolvers read it, leads to the key. -/
def Spells (aliasName keyId : String) : Prop :=
  RustStr.rsplitFirst '/' aliasName = keyId ∧
    (aliasName = keyId ∨ RustStr.startsWith aliasName "arn:" = true ∨
      RustStr.startsWith aliasName "alias/" = true)

/-- Every `CreateAlias` that finds its key spells it. -/
def SpellsItsKey (store : KmsStore) (act : Act) : Prop :=
  act.operation = .createAlias → ∀ aliasName target k,
    strParam act.body "AliasName" = some aliasName → strParam act.body "TargetKeyId" = some target →
      store.resolveKey target = some k → Spells aliasName k.keyId

/-- The ids and ARNs that `CreateKey` gives. -/
structure Issued (env : Env) (place : String) (k : KmsKey) : Prop where
  keyId : k.keyId = place
  arn : k.arn = keyArn env place
  plain : '/' ∉ place.toList

def AllIssued (env : Env) (store : KmsStore) : Prop :=
  ∀ place k, store.keys[place]? = some k → Issued env place k

section Resolving

variable {env : Env} {store : KmsStore} {reference keyId aliasName : String} {k : KmsKey}

theorem names_iff : Names store reference keyId ↔ ∃ k, store.resolveKeyMut reference = some (keyId, k) := by
  constructor
  · rintro ⟨k, -, -, found⟩
    exact ⟨k, found⟩
  · rintro ⟨k, found⟩
    refine ⟨k, stored_of_resolveKeyMut found, ?_, found⟩
    rw [← map_resolveKeyMut, found, Option.map_some]

theorem exists_entry_iff {place : String} : (∃ k, store.entry place = some (keyId, k)) ↔
    keyId = place ∧ store.keys[keyId]? ≠ none := by
  simp only [entry_eq_some, Option.ne_none_iff_exists']
  constructor
  · rintro ⟨k, rfl, stored⟩
    exact ⟨rfl, k, stored⟩
  · rintro ⟨rfl, k, stored⟩
    exact ⟨k, rfl, stored⟩

theorem contains_iff : store.keys.contains reference = true ↔ store.keys[reference]? ≠ none := by
  rw [Std.ExtTreeMap.contains_eq_isSome_getElem?, Option.isSome_iff_ne_none]

theorem names_of_id (direct : store.keys[reference]? ≠ none) :
    Names store reference keyId ↔ keyId = reference := by
  rw [names_iff, KmsStore.resolveKeyMut, if_pos (contains_iff.mpr direct), exists_entry_iff]
  constructor
  · exact And.left
  · rintro rfl
    exact ⟨rfl, direct⟩

theorem names_of_arn (indirect : store.keys[reference]? = none)
    (arn : RustStr.startsWith reference "arn:" = true) : Names store reference keyId ↔
      keyId = RustStr.rsplitFirst '/' reference ∧ store.keys[keyId]? ≠ none := by
  have absent : ¬ store.keys.contains reference = true := fun present => contains_iff.mp present indirect
  rw [names_iff, KmsStore.resolveKeyMut, if_neg absent, if_pos arn, exists_entry_iff]

theorem names_of_other (indirect : store.keys[reference]? = none)
    (arn : ¬ RustStr.startsWith reference "arn:" = true) : Names store reference keyId ↔
      RustStr.startsWith reference "alias/" = true ∧ store.aliasToKey[reference]? = some keyId ∧
        store.keys[keyId]? ≠ none := by
  have absent : ¬ store.keys.contains reference = true := fun present => contains_iff.mp present indirect
  rw [names_iff, KmsStore.resolveKeyMut, if_neg absent, if_neg arn]
  by_cases starts : RustStr.startsWith reference "alias/" = true
  · rw [if_pos starts]
    simp only [Option.bind_eq_some_iff, starts, true_and]
    constructor
    · rintro ⟨k, place, mapped, there⟩
      obtain ⟨rfl, stored⟩ := exists_entry_iff.mp ⟨k, there⟩
      exact ⟨mapped, stored⟩
    · rintro ⟨mapped, stored⟩
      have entry : ∃ k, store.entry keyId = some (keyId, k) := exists_entry_iff.mpr ⟨rfl, stored⟩
      obtain ⟨k, there⟩ := entry
      exact ⟨k, keyId, mapped, there⟩
  · rw [if_neg starts]
    simp [starts]

theorem absent_of_slash (issued : AllIssued env store) (slash : '/' ∈ reference.toList) :
    store.keys[reference]? = none := by
  cases stored : store.keys[reference]? with
  | none => rfl
  | some k => exact absurd slash (issued reference k stored).plain

theorem names_arn (issued : AllIssued env store) {front kind : String} {stem : List Char}
    (ends : kind.toList = stem ++ ['/']) (starts : RustStr.startsWith front "arn:" = true) (back : String) :
    Names store (front ++ kind ++ back) keyId ↔
      keyId = RustStr.rsplitFirst '/' back ∧ store.keys[keyId]? ≠ none := by
  have before : (front ++ kind).toList = (front.toList ++ stem) ++ ['/'] := by
    rw [String.toList_append, ends, List.append_assoc]
  have slash : '/' ∈ (front ++ kind ++ back).toList := by
    rw [String.toList_append, before]
    simp
  have arn := RustStr.startsWith_append (RustStr.startsWith_append starts kind) back
  rw [names_of_arn (absent_of_slash issued slash) arn, RustStr.rsplitFirst_append_cons before]

/-- What all ARNs of a tenant start with. -/
theorem arnFront_starts (region accountId : String) :
    RustStr.startsWith ("arn:aws:kms:" ++ region ++ ":" ++ accountId) "arn:" = true := by
  refine RustStr.startsWith_append (RustStr.startsWith_append (RustStr.startsWith_append ?_ _) _) _
  decide

theorem names_keyArn (issued : AllIssued env store) (stored : store.keys[keyId]? = some k) :
    Names store (keyArn env keyId) keyId := by
  have ends : ":key/".toList = ":key".toList ++ ['/'] := by decide
  refine (names_arn issued ends (arnFront_starts _ _) keyId).mpr ⟨?_, by simp [stored]⟩
  rw [RustStr.rsplitFirst_eq_self (issued keyId k stored).plain]

theorem names_aliasArn (issued : AllIssued env store) : Names store (aliasArn env aliasName) keyId ↔
    keyId = RustStr.rsplitFirst '/' aliasName ∧ store.keys[keyId]? ≠ none := by
  have ends : ":alias/".toList = ":alias".toList ++ ['/'] := by decide
  have last : RustStr.rsplitFirst '/' (String.ofList (RustStr.trimStartMatches "alias/".toList
      aliasName.toList)) = RustStr.rsplitFirst '/' aliasName := by
    rw [RustStr.rsplitFirst, RustStr.rsplitFirst, String.toList_ofList]
    exact congrArg String.ofList (RustStr.rtakeWhile_trimStartMatches "alias".toList aliasName.toList)
  rw [aliasArn, names_arn issued ends (arnFront_starts _ _), last]

/-- Both references of an alias lead to its key exactly when the alias spells it. -/
theorem aliasNames_iff (issued : AllIssued env store) (stored : store.keys[keyId]? = some k)
    (mapped : store.aliasToKey[aliasName]? = some keyId) :
    Names store aliasName keyId ∧ Names store (reportedArn env store aliasName keyId) keyId ↔
      Spells aliasName keyId := by
  have present : store.keys[keyId]? ≠ none := by simp [stored]
  rw [reportedArn, stored, Option.map_some, Option.getD_some, names_aliasArn issued, Spells]
  by_cases direct : store.keys[aliasName]? = none
  · have other : aliasName ≠ keyId := by
      rintro rfl
      exact present direct
    by_cases arn : RustStr.startsWith aliasName "arn:" = true
    · rw [names_of_arn direct arn]
      constructor
      · rintro ⟨-, last, -⟩
        exact ⟨last.symm, Or.inr (Or.inl arn)⟩
      · rintro ⟨last, -⟩
        exact ⟨⟨last.symm, present⟩, last.symm, present⟩
    · rw [names_of_other direct arn]
      constructor
      · rintro ⟨⟨starts, -⟩, last, -⟩
        exact ⟨last.symm, Or.inr (Or.inr starts)⟩
      · rintro ⟨last, same | starts | starts⟩
        · exact absurd same other
        · exact absurd starts arn
        · exact ⟨⟨starts, mapped, present⟩, last.symm, present⟩
  · rw [names_of_id direct]
    obtain ⟨k', here⟩ := Option.ne_none_iff_exists'.mp direct
    rw [RustStr.rsplitFirst_eq_self (issued aliasName k' here).plain]
    constructor
    · rintro ⟨rfl, -⟩
      exact ⟨rfl, Or.inl rfl⟩
    · rintro ⟨rfl, -⟩
      exact ⟨rfl, rfl, present⟩

theorem referencesRight_iff (issued : AllIssued env store) : ReferencesRight env store ↔
    (∀ aliasName keyId, Lists store keyId aliasName ↔ store.aliasToKey[aliasName]? = some keyId) ∧
      ∀ aliasName keyId, store.aliasToKey[aliasName]? = some keyId → Spells aliasName keyId := by
  constructor
  · intro right
    refine ⟨right.listed, fun aliasName keyId mapped => ?_⟩
    obtain ⟨k, stored, -⟩ := (right.listed aliasName keyId).mpr mapped
    exact (aliasNames_iff issued stored mapped).mp (right.aliases aliasName keyId mapped)
  · rintro ⟨listed, spelled⟩
    refine ⟨listed, fun keyId k stored => ?_, fun aliasName keyId mapped => ?_⟩
    · rw [(issued keyId k stored).keyId, (issued keyId k stored).arn]
      exact ⟨(names_of_id (by simp [stored])).mpr rfl, names_keyArn issued stored⟩
    · obtain ⟨k, stored, -⟩ := (listed aliasName keyId).mpr mapped
      exact (aliasNames_iff issued stored mapped).mpr (spelled aliasName keyId mapped)

end Resolving

section Steps

variable {env : Env} {store : KmsStore} {act : Act} {place keyId aliasName : String} {k : KmsKey}

theorem issued_newKey (env : Env) (act : Act) : Issued env act.keyUuid.text (newKey env act) :=
  ⟨rfl, rfl, act.keyUuid.not_mem (by decide)⟩

theorem AllIssued.addAlias (issued : AllIssued env store) (aliasName keyId : String) :
    AllIssued env (store.addAlias aliasName keyId) := by
  intro place k stored
  rw [getElem?_addAlias] at stored
  obtain ⟨old, there, rfl⟩ := Option.map_eq_some_iff.mp stored
  obtain ⟨same, arn, plain⟩ := issued place old there
  split
  · exact ⟨same, arn, plain⟩
  · exact ⟨same, arn, plain⟩

theorem AllIssued.step (issued : AllIssued env store) : AllIssued env (step env store act) := by
  have effect := step_effect env store act
  generalize Kms.step env store act = next at effect
  cases effect with
  | unchanged => exact issued
  | created =>
    intro place k stored
    rw [getElem?_createKey] at stored
    split at stored
    · next here =>
      cases stored
      exact here ▸ issued_newKey env act
    · exact issued place k stored
  | state there _ _ =>
    intro place k stored
    rw [getElem?_setState] at stored
    split at stored
    · next here =>
      cases stored
      obtain ⟨same, arn, plain⟩ := issued _ _ there
      exact here ▸ ⟨same, arn, plain⟩
    · exact issued place k stored
  | aliased => exact issued.addAlias _ _
  | unaliased aliasName =>
    intro place k stored
    rw [getElem?_dropAlias] at stored
    obtain ⟨old, there, rfl⟩ := Option.map_eq_some_iff.mp stored
    obtain ⟨same, arn, plain⟩ := issued place old there
    split
    · exact ⟨same, arn, plain⟩
    · exact ⟨same, arn, plain⟩

theorem lists_createKey (vacant : store.keys[act.keyUuid.text]? = none) :
    Lists (createKey env act store).2 keyId aliasName ↔ Lists store keyId aliasName := by
  rw [Lists, Lists, getElem?_createKey]
  split
  · next here =>
    rw [← here, vacant]
    simp [newKey]
  · rfl

theorem lists_setState (there : store.keys[place]? = some k) (state : KeyState) :
    Lists (store.setState place k state) keyId aliasName ↔ Lists store keyId aliasName := by
  rw [Lists, Lists, getElem?_setState]
  split
  · next here =>
    rw [← here, there]
    simp
  · rfl

theorem mem_withAlias {name : String} :
    name ∈ (k.withAlias aliasName).aliases ↔ name ∈ k.aliases ∨ name = aliasName := by
  rw [KmsKey.withAlias]
  dsimp only
  split
  · next listed =>
    constructor
    · exact Or.inl
    · rintro (old | rfl)
      · exact old
      · exact listed
  · simp

theorem lists_addAlias (there : store.keys[keyId]? = some k) {other name : String} :
    Lists (store.addAlias aliasName keyId) other name ↔
      Lists store other name ∨ keyId = other ∧ name = aliasName := by
  rw [Lists, Lists, getElem?_addAlias]
  by_cases same : keyId = other
  · subst same
    rw [there]
    simp [mem_withAlias]
  · simp [same]

theorem lists_dropAlias {name : String} : Lists (store.dropAlias aliasName) keyId name ↔
    Lists store keyId name ∧ ¬ (store.aliasToKey[aliasName]? = some keyId ∧ name = aliasName) := by
  rw [Lists, Lists, getElem?_dropAlias]
  by_cases mapped : store.aliasToKey[aliasName]? = some keyId
  · cases store.keys[keyId]? with
    | none => simp
    | some k => simp [mapped]
  · simp [mapped]

/-- `CreateAlias` adds the alias to the list of its key and takes it out of no other. -/
theorem right_addAlias_iff (issued : AllIssued env store) (right : ReferencesRight env store)
    (there : store.keys[keyId]? = some k) :
    ReferencesRight env (store.addAlias aliasName keyId) ↔ Spells aliasName keyId := by
  obtain ⟨listed, spelled⟩ := (referencesRight_iff issued).mp right
  have mapped (name : String) : (store.addAlias aliasName keyId).aliasToKey[name]? =
      if aliasName = name then some keyId else store.aliasToKey[name]? := StrMap.getElem?_insert ..
  rw [referencesRight_iff (issued.addAlias _ _)]
  constructor
  · rintro ⟨-, spelled'⟩
    exact spelled' aliasName keyId (by rw [mapped, if_pos rfl])
  · intro spells
    refine ⟨fun name other => ?_, fun name other named => ?_⟩
    · rw [lists_addAlias there, listed, mapped]
      by_cases same : aliasName = name
      · subst same
        rw [if_pos rfl, Option.some.injEq]
        constructor
        · rintro (before | ⟨rfl, -⟩)
          · -- the key that had the alias is spelled too
            exact spells.1.symm.trans (spelled aliasName other before).1
          · rfl
        · rintro rfl
          exact Or.inr ⟨rfl, rfl⟩
      · rw [if_neg same]
        simp [Ne.symm same]
    · rw [mapped] at named
      split at named
      · next same =>
        subst same
        cases named
        exact spells
      · exact spelled name other named

theorem right_createAlias_iff (issued : AllIssued env store) (right : ReferencesRight env store)
    (operation : act.operation = .createAlias) :
    ReferencesRight env (step env store act) ↔ SpellsItsKey store act := by
  rw [step, dispatch, operation]
  dsimp only [Option.map_some, Option.getD_some]
  rw [createAlias]
  cases named : strParam act.body "AliasName" with
  | none => exact iff_of_true right (by simp [SpellsItsKey, named])
  | some aliasName =>
    cases targeted : strParam act.body "TargetKeyId" with
    | none => exact iff_of_true right (by simp [SpellsItsKey, targeted])
    | some target =>
      dsimp only
      cases found : store.resolveKey target with
      | none =>
        refine iff_of_true right fun _ name target' k _ targeted' found' => ?_
        cases targeted.symm.trans targeted'
        cases found.symm.trans found'
      | some k =>
        have resolved := map_resolveKeyMut store target
        rw [found] at resolved
        obtain ⟨pair, aimed, rfl⟩ := Option.map_eq_some_iff.mp resolved
        have there := stored_of_resolveKeyMut (aimed : _ = some (pair.1, pair.2))
        have here : store.keys[pair.2.keyId]? = some pair.2 := by
          rw [(issued _ _ there).keyId]
          exact there
        dsimp only
        rw [right_addAlias_iff issued right here]
        constructor
        · intro spells _ name target' k' named' targeted' found'
          cases named.symm.trans named'
          cases targeted.symm.trans targeted'
          cases found.symm.trans found'
          exact spells
        · exact fun spells => spells operation aliasName target pair.2 named targeted found

theorem right_other (issued : AllIssued env store) (right : ReferencesRight env store)
    (fresh : FreshKey store act) (other : act.operation ≠ .createAlias) :
    ReferencesRight env (step env store act) := by
  rw [referencesRight_iff issued.step]
  obtain ⟨listed, spelled⟩ := (referencesRight_iff issued).mp right
  have effect := step_effect env store act
  generalize step env store act = next at effect
  cases effect with
  | unchanged => exact ⟨listed, spelled⟩
  | created operation =>
    exact ⟨fun name keyId => (lists_createKey (fresh operation)).trans (listed name keyId), spelled⟩
  | state there state _ =>
    exact ⟨fun name keyId => (lists_setState there state).trans (listed name keyId), spelled⟩
  | aliased operation _ _ => exact absurd operation other
  | unaliased aliasName =>
    have mapped (name : String) : (store.dropAlias aliasName).aliasToKey[name]? =
        if aliasName = name then none else store.aliasToKey[name]? := StrMap.getElem?_erase ..
    refine ⟨fun name keyId => ?_, fun name keyId named => ?_⟩
    · rw [lists_dropAlias, listed, mapped]
      by_cases same : aliasName = name
      · subst same
        simp
      · simp [same, Ne.symm same]
    · rw [mapped] at named
      split at named
      · cases named
      · exact spelled name keyId named

end Steps

/-- In a run whose `CreateKey` requests draw unused uuids, the lists agree with `alias_to_key` and all
references resolve, exactly when each alias spells the key it is created for. -/
theorem references_right_iff (env : Env) (acts : List Act)
    (fresh : Run.AllSteps (step env) FreshKey {} acts) :
    Run.AllStates (step env) (ReferencesRight env) {} acts ↔ Run.AllSteps (step env) SpellsItsKey {} acts := by
  have issued (place : String) (k : KmsKey) (stored : (({} : KmsStore).keys)[place]? = some k) :
      Issued env place k := by
    simp at stored
  have start : ReferencesRight env {} := by
    rw [referencesRight_iff issued]
    refine ⟨fun aliasName keyId => ?_, fun aliasName keyId named => ?_⟩
    · simp [Lists]
    · simp at named
  refine Run.allStates_iff_allSteps_of_invariant (I := AllIssued env) (fun store act inv _ => inv.step) ?_ _
    acts issued start fresh
  intro store act inv right fresh
  by_cases operation : act.operation = .createAlias
  · exact right_createAlias_iff inv right operation
  · exact iff_of_true (right_other inv right fresh operation) fun aliased => absurd aliased operation

section Example

def createWith (uuid : JsonService.Uuid) : Act := ⟨.createKey, .obj [], 1700000000, uuid, uuid⟩

def pointAlias (aliasName : String) (uuid : JsonService.Uuid) : Act where
  operation := .createAlias
  body := .obj [("AliasName", .str aliasName), ("TargetKeyId", .str uuid.text)]
  now := 1700000001
  keyUuid := uuid
  seedUuid := uuid

def spelledActs : List Act := [createWith firstUuid, pointAlias ("alias/" ++ firstUuid.text) firstUuid]

theorem references_right_spelled : Run.AllStates (step localEnv) (ReferencesRight localEnv) {} spelledActs ↔
    Run.AllSteps (step localEnv) SpellsItsKey {} spelledActs :=
  references_right_iff localEnv spelledActs (by decide +kernel)

def repointedActs : List Act := [createWith firstUuid, createWith secondUuid,
  pointAlias "alias/app" firstUuid, pointAlias "alias/app" secondUuid]

/-- The first key keeps an alias that now names the second. -/
theorem repointed_alias_kept : ¬ Run.AllStates (step localEnv) (ReferencesRight localEnv) {} repointedActs := by
  intro states
  have right := states.last
  generalize made : repointedActs.foldl (step localEnv) {} = store at right
  have listed : (store.keys[firstUuid.text]?.map (·.aliases)) = some ["alias/app"] := by
    subst made
    decide +kernel
  have mapped : store.aliasToKey["alias/app"]? = some secondUuid.text := by
    subst made
    decide +kernel
  obtain ⟨k, stored, aliases⟩ := Option.map_eq_some_iff.mp listed
  have member : "alias/app" ∈ k.aliases := by simp [aliases]
  have named := (right.listed "alias/app" firstUuid.text).mp ⟨k, stored, member⟩
  rw [mapped] at named
  revert named
  decide

end Example

end Openstack.Kms

import Openstack.SecretsManager.Provider
import Openstack.Lib.Run

/-!
# Version stages

Which versions of a secret carry `AWSCURRENT` and `AWSPREVIOUS` (`provider.rs`, lines 279-396). A write
takes `AWSCURRENT` from the version before, and neither handler takes `AWSPREVIOUS` from an older one.
-/
namespace Openstack.SecretsManager

def Secret.currentIndex (s : Secret) : Option Nat := s.versions.findIdx? (·.isCurrent)

/-- A store, and for each secret the index of the version that was current before the present one. -/
structure Tracked where
  store : SecretsManagerStore
  former : String → Option Nat

def SecretsManagerStore.current (store : SecretsManagerStore) (name : String) : Option Nat :=
  store.secrets[name]?.bind (·.currentIndex)

/-- The index that has just ceased to be the current one, or else the one known before. -/
def formerIndex (was now known : Option Nat) : Option Nat :=
  if was.isSome ∧ now.isSome ∧ was ≠ now then was else known

def Tracked.step (tenant : Tenant) (t : Tracked) (act : Act) : Tracked where
  store := SecretsManager.step tenant t.store act
  former name := formerIndex (t.store.current name)
    ((SecretsManager.step tenant t.store act).current name) (t.former name)

def Tracked.start : Tracked := ⟨{}, fun _ => none⟩

/-- The version written last is the only current one, only the former one is the previous one, and no
version carries a stage twice. -/
structure StagesRight (former : Option Nat) (s : Secret) : Prop where
  current : ∃ i, i + 1 = s.versions.length ∧ ∀ (j : Nat) (v : SecretVersion),
    s.versions[j]? = some v → ("AWSCURRENT" ∈ v.versionStages ↔ j = i)
  previous : ∀ (j : Nat) (v : SecretVersion), s.versions[j]? = some v →
    "AWSPREVIOUS" ∈ v.versionStages → former = some j
  nodup : ∀ v ∈ s.versions, v.versionStages.Nodup

def Tracked.StagesRight (t : Tracked) : Prop :=
  ∀ (name : String) (s : Secret), t.store.secrets[name]? = some s →
    SecretsManager.StagesRight (t.former name) s

/-- A value is written only to a secret none of whose versions carries `AWSPREVIOUS`. -/
def WritesOnce (t : Tracked) (act : Act) : Prop :=
  act.writesValue = true → ∀ name s, target t.store act = some (name, s) →
    ∀ v ∈ s.versions, "AWSPREVIOUS" ∉ v.versionStages

/-- No version carries more than one stage. -/
def SecretVersion.Staged (v : SecretVersion) : Prop :=
  v.versionStages = [] ∨ v.versionStages = ["AWSCURRENT"] ∨ v.versionStages = ["AWSPREVIOUS"]

/-- What a request that writes a value makes of the versions before. -/
@[grind] def Act.retire (act : Act) (v : SecretVersion) : SecretVersion :=
  match act.operation with
  | .putSecretValue => v.demote
  | _ => v.strip

section Stages

variable {v : SecretVersion} {act : Act}

theorem isCurrent_iff : v.isCurrent = true ↔ "AWSCURRENT" ∈ v.versionStages := by
  simp [SecretVersion.isCurrent]

theorem SecretVersion.Staged.nodup (staged : v.Staged) : v.versionStages.Nodup := by
  rcases staged with none | current | previous
  · simp [none]
  · simp [current]
  · simp [previous]

theorem SecretVersion.Staged.retire (staged : v.Staged) (act : Act) : (act.retire v).Staged := by
  unfold Act.retire
  rcases staged with none | current | previous
  · split
    · exact Or.inl (by simp [SecretVersion.demote, SecretVersion.isCurrent, none])
    · exact Or.inl (by simp [SecretVersion.strip, none])
  · split
    · exact Or.inr (Or.inr (by simp [SecretVersion.demote, SecretVersion.isCurrent, current]))
    · exact Or.inl (by simp [SecretVersion.strip, current])
  · split
    · exact Or.inr (Or.inr (by simp [SecretVersion.demote, SecretVersion.isCurrent, previous]))
    · exact Or.inr (Or.inr (by simp [SecretVersion.strip, previous]))

theorem retire_not_current (staged : v.Staged) : "AWSCURRENT" ∉ (act.retire v).versionStages := by
  unfold Act.retire
  rcases staged with none | current | previous
  · split
    · simp [SecretVersion.demote, SecretVersion.isCurrent, none]
    · simp [SecretVersion.strip]
  · split
    · simp [SecretVersion.demote, SecretVersion.isCurrent, current]
    · simp [SecretVersion.strip]
  · split
    · simp [SecretVersion.demote, SecretVersion.isCurrent, previous]
    · simp [SecretVersion.strip]

/-- The previous versions stay so, and no other becomes one but the current one. -/
theorem retire_previous (staged : v.Staged) : "AWSPREVIOUS" ∈ v.versionStages →
    "AWSPREVIOUS" ∈ (act.retire v).versionStages := by
  intro carried
  have stages : v.versionStages = ["AWSPREVIOUS"] := by
    rcases staged with none | current | previous
    · simp [none] at carried
    · simp [current] at carried
    · exact previous
  unfold Act.retire
  split
  · simp [SecretVersion.demote, SecretVersion.isCurrent, stages]
  · simp [SecretVersion.strip, stages]

theorem previous_of_retire (carried : "AWSPREVIOUS" ∈ (act.retire v).versionStages) :
    "AWSPREVIOUS" ∈ v.versionStages ∨ "AWSCURRENT" ∈ v.versionStages := by
  unfold Act.retire at carried
  split at carried
  · unfold SecretVersion.demote at carried
    split at carried
    · next current => exact Or.inr (isCurrent_iff.mp current)
    · exact Or.inl carried
  · exact Or.inl (List.mem_filter.mp carried).1

theorem change_versions (act : Act) (s : Secret) : (act.change s).versions =
    if act.writesValue then s.versions.map act.retire ++
      [newVersion act (JsonService.strParam act.body "SecretString")] else s.versions := by
  cases operation : act.operation with
  | putSecretValue =>
    have same : act.retire = SecretVersion.demote := by
      funext v
      simp [Act.retire, operation]
    simp [Act.change, Act.writesValue, operation, Secret.put, same]
  | updateSecret =>
    have same : act.retire = SecretVersion.strip := by
      funext v
      simp [Act.retire, operation]
    cases given : JsonService.strParam act.body "SecretString" with
    | none => simp [Act.change, Act.writesValue, operation, Secret.update, given]
    | some text => simp [Act.change, Act.writesValue, operation, Secret.update, given, same]
  | createSecret | getSecretValue | describeSecret | listSecrets | deleteSecret | restoreSecret =>
    simp [Act.change, Act.writesValue, operation, Secret.scheduleDeletion, Secret.restore]

end Stages

section Secrets

variable {former : Option Nat} {s s' : Secret} {act : Act}

theorem StagesRight.currentIndex (right : StagesRight former s) :
    ∃ i, i + 1 = s.versions.length ∧ s.currentIndex = some i := by
  obtain ⟨i, last, current⟩ := right.current
  refine ⟨i, last, List.findIdx?_eq_some_iff_getElem.mpr ⟨by omega, ?_, fun j before => ?_⟩⟩
  · exact isCurrent_iff.mpr ((current i _ (List.getElem?_eq_getElem (by omega))).mpr rfl)
  · rw [isCurrent_iff, current j _ (List.getElem?_eq_getElem (by omega))]
    omega

theorem StagesRight.of_versions (right : StagesRight former s) (same : s'.versions = s.versions) :
    StagesRight former s' := by
  obtain ⟨current, previous, nodup⟩ := right
  rw [← same] at current previous nodup
  exact ⟨current, previous, nodup⟩

/-- A written version is the current one, and the only one. -/
theorem currentIndex_write (staged : ∀ v ∈ s.versions, v.Staged) {text : Option String}
    (made : s'.versions = s.versions.map act.retire ++ [newVersion act text]) :
    s'.currentIndex = some s.versions.length := by
  have none_before : (s.versions.map act.retire).findIdx? (·.isCurrent) = none := by
    rw [List.findIdx?_eq_none_iff]
    intro w member
    obtain ⟨v, there, rfl⟩ := List.mem_map.mp member
    exact Bool.eq_false_iff.mpr fun current =>
      retire_not_current (staged v there) (isCurrent_iff.mp current)
  have new : (newVersion act text).isCurrent = true := by simp [newVersion, SecretVersion.isCurrent]
  rw [Secret.currentIndex, made, List.findIdx?_append, none_before]
  simp [List.findIdx?_cons, new]

/-- The stages after a write are right exactly when there was no previous version before. -/
theorem stagesRight_write_iff (right : StagesRight former s) (staged : ∀ v ∈ s.versions, v.Staged)
    {text : Option String} (made : s'.versions = s.versions.map act.retire ++ [newVersion act text])
    {i : Nat} (last : i + 1 = s.versions.length) : StagesRight (some i) s' ↔
      ∀ v ∈ s.versions, "AWSPREVIOUS" ∉ v.versionStages := by
  have old {j : Nat} {w : SecretVersion} (here : s'.versions[j]? = some w) (before : j ≠ i + 1) :
      ∃ v, s.versions[j]? = some v ∧ act.retire v = w := by
    rw [made, List.getElem?_append] at here
    split at here
    · rwa [List.getElem?_map, Option.map_eq_some_iff] at here
    · next after =>
      rw [List.length_map] at here after
      rw [List.getElem?_singleton, if_neg (by omega)] at here
      cases here
  have new {w : SecretVersion} (here : s'.versions[i + 1]? = some w) : w = newVersion act text := by
    rw [made, last, ← List.length_map act.retire, List.getElem?_concat_length] at here
    exact (Option.some.inj here).symm
  constructor
  · intro written v member carried
    obtain ⟨j, here⟩ := List.mem_iff_getElem?.mp member
    have bound : j < s.versions.length := (List.getElem?_eq_some_iff.mp here).1
    have there : s'.versions[j]? = some (act.retire v) := by
      rw [made, List.getElem?_append_left (by rwa [List.length_map]), List.getElem?_map, here,
        Option.map_some]
    have index := written.previous j _ there (retire_previous (staged v member) carried)
    obtain ⟨k, end_, current⟩ := right.current
    obtain rfl : j = k := by
      have same := Option.some.inj index
      omega
    have both : "AWSCURRENT" ∈ v.versionStages := (current j v here).mpr rfl
    rcases staged v member with none | current | previous
    · simp [none] at carried
    · simp [current] at carried
    · simp [previous] at both
  · intro fresh
    refine ⟨⟨i + 1, by simp [made, last], fun j w here => ?_⟩, fun j w here carried => ?_,
      fun w member => ?_⟩
    · by_cases newest : j = i + 1
      · subst newest
        simp [new here, newVersion]
      · obtain ⟨v, there, rfl⟩ := old here newest
        simp [newest, retire_not_current (staged v (List.mem_of_getElem? there))]
    · by_cases newest : j = i + 1
      · subst newest
        simp [new here, newVersion] at carried
      · obtain ⟨v, there, rfl⟩ := old here newest
        have member := List.mem_of_getElem? there
        obtain ⟨k, end_, current⟩ := right.current
        have index := (current j v there).mp
          ((previous_of_retire carried).resolve_left (fresh v member))
        rw [index]
        congr 1
        omega
    · rw [made, List.mem_append, List.mem_map, List.mem_singleton] at member
      rcases member with ⟨v, there, rfl⟩ | rfl
      · exact ((staged v there).retire act).nodup
      · simp [newVersion]

end Secrets

def Tracked.Staged (t : Tracked) : Prop :=
  ∀ (name : String) (s : Secret), t.store.secrets[name]? = some s → ∀ v ∈ s.versions, v.Staged

section Steps

variable {tenant : Tenant} {t : Tracked} {act : Act} {name : String} {s : Secret}

theorem formerIndex_self (now known : Option Nat) : formerIndex now now known = known := by
  simp [formerIndex]

theorem newSecret_stagesRight (former : Option Nat) : StagesRight former (newSecret tenant act name) := by
  refine ⟨⟨0, rfl, fun j v here => ?_⟩, fun j v here carried => ?_, fun v member => ?_⟩
  · rw [newSecret, List.getElem?_singleton] at here
    split at here
    · next first =>
      cases here
      simp [first, newVersion]
    · cases here
  · rw [newSecret, List.getElem?_singleton] at here
    split at here
    · cases here
      simp [newVersion] at carried
    · cases here
  · rw [newSecret, List.mem_singleton] at member
    simp [member, newVersion]

theorem Tracked.Staged.step (staged : t.Staged) : (t.step tenant act).Staged := by
  intro name s there
  have effect := step_effect tenant t.store act
  rw [Tracked.step] at there
  generalize SecretsManager.step tenant t.store act = next at there effect
  cases effect with
  | unchanged | listed => exact staged name s there
  | created new =>
    rw [SecretsManagerStore.create, StrMap.getElem?_insert] at there
    split at there
    · cases there
      intro v member
      rw [newSecret, List.mem_singleton] at member
      exact Or.inr (Or.inl (by rw [member, newVersion]))
    · exact staged name s there
  | wrote new old aimed =>
    rw [SecretsManagerStore.write, StrMap.getElem?_insert] at there
    split at there
    · cases there
      have before := staged new old (stored_of_target aimed)
      intro v member
      rw [change_versions] at member
      split at member
      · rw [List.mem_append, List.mem_map, List.mem_singleton] at member
        rcases member with ⟨w, there, rfl⟩ | rfl
        · exact (before w there).retire act
        · exact Or.inr (Or.inl rfl)
      · exact before v member
    · exact staged name s there
  | removed gone =>
    rw [SecretsManagerStore.remove, StrMap.getElem?_erase] at there
    split at there
    · cases there
    · exact staged name s there

/-- A secret whose versions are not touched keeps its stages right. -/
theorem stagesRight_of_untouched {next : SecretsManagerStore} (right : t.StagesRight)
    (was : t.store.secrets[name]? = some s) {s' : Secret} (now : next.secrets[name]? = some s')
    (same : s'.versions = s.versions) :
    SecretsManager.StagesRight (formerIndex (t.store.current name) (next.current name) (t.former name))
      s' := by
  have index : next.current name = t.store.current name := by
    rw [SecretsManagerStore.current, SecretsManagerStore.current, was, now, Option.bind_some,
      Option.bind_some, Secret.currentIndex, Secret.currentIndex, same]
  rw [index, formerIndex_self]
  exact (right name s was).of_versions same

theorem stagesRight_step_iff (staged : t.Staged) (right : t.StagesRight) :
    (t.step tenant act).StagesRight ↔ WritesOnce t act := by
  have effect := step_effect tenant t.store act
  rw [Tracked.step, Tracked.StagesRight]
  dsimp only
  generalize SecretsManager.step tenant t.store act = next at effect ⊢
  cases effect with
  | unchanged aimless =>
    refine iff_of_true (fun name s there => stagesRight_of_untouched right there there rfl) ?_
    intro writes name s aimed
    rw [aimless writes] at aimed
    cases aimed
  | listed plain =>
    refine iff_of_true (fun name s there => ?_) fun writes => ?_
    · exact stagesRight_of_untouched right there there rfl
    · rw [plain] at writes
      cases writes
  | created new plain =>
    refine iff_of_true (fun name s there => ?_) fun writes => ?_
    · have now := there
      rw [SecretsManagerStore.create, StrMap.getElem?_insert] at there
      split at there
      · next same =>
        cases there
        exact newSecret_stagesRight _
      · exact stagesRight_of_untouched right there now rfl
    · rw [plain] at writes
      cases writes
  | removed gone _ plain =>
    refine iff_of_true (fun name s there => ?_) fun writes => ?_
    · have now := there
      rw [SecretsManagerStore.remove, StrMap.getElem?_erase] at there
      split at there
      · cases there
      · exact stagesRight_of_untouched right there now rfl
    · rw [plain] at writes
      cases writes
  | wrote new old aimed =>
    have was := stored_of_target aimed
    have now : (t.store.write new (act.change old)).secrets[new]? = some (act.change old) := by
      rw [SecretsManagerStore.write, StrMap.getElem?_insert, if_pos rfl]
    have others (name : String) (s : Secret) (other : new ≠ name)
        (there : (t.store.write new (act.change old)).secrets[name]? = some s) :
        t.store.secrets[name]? = some s := by
      rwa [SecretsManagerStore.write, StrMap.getElem?_insert, if_neg other] at there
    cases writes : act.writesValue with
    | false =>
      have versions : (act.change old).versions = old.versions := by
        rw [change_versions, writes, if_neg Bool.false_ne_true]
      refine iff_of_true (fun name s there => ?_) fun given => ?_
      · by_cases here : new = name
        · subst here
          cases now.symm.trans there
          exact stagesRight_of_untouched right was now versions
        · exact stagesRight_of_untouched right (others name s here there) there rfl
      · rw [writes] at given
        cases given
    | true =>
      have versions : (act.change old).versions = old.versions.map act.retire ++
          [newVersion act (JsonService.strParam act.body "SecretString")] := by
        rw [change_versions, writes, if_pos rfl]
      obtain ⟨i, last, index⟩ := (right new old was).currentIndex
      have moved : formerIndex (t.store.current new) ((t.store.write new (act.change old)).current new)
          (t.former new) = some i := by
        rw [SecretsManagerStore.current, SecretsManagerStore.current, was, now, Option.bind_some,
          Option.bind_some, index, currentIndex_write (staged new old was) versions, ← last]
        simp [formerIndex]
      have exact_write := stagesRight_write_iff (right new old was) (staged new old was) versions last
      constructor
      · intro all _ name s aimed'
        cases aimed.symm.trans aimed'
        have here := all new (act.change old) now
        rw [moved] at here
        exact exact_write.mp here
      · intro fresh name s there
        by_cases here : new = name
        · subst here
          cases now.symm.trans there
          rw [moved]
          exact exact_write.mpr (fresh writes new old aimed)
        · exact stagesRight_of_untouched right (others name s here there) there rfl

end Steps

/-- The stages are right in every state exactly when no value is written to a secret that has a previous
version already. -/
theorem version_stages_right_iff (tenant : Tenant) (acts : List Act) :
    Run.AllStates (Tracked.step tenant) Tracked.StagesRight Tracked.start acts ↔
      Run.AllSteps (Tracked.step tenant) WritesOnce Tracked.start acts := by
  refine Run.allStates_iff_allSteps_of_invariant (fun _ _ staged _ => Tracked.Staged.step staged)
    (fun _ _ staged right _ => stagesRight_step_iff staged right) Tracked.start acts ?_ ?_
    (Run.allSteps_of_forall (fun _ _ => trivial) Tracked.start acts)
  · intro name s there
    simp [Tracked.start] at there
  · intro name s there
    simp [Tracked.start] at there

section Example

def localTenant : Tenant := ⟨"000000000000", "us-east-1"⟩

def createPassword : Act where
  operation := .createSecret
  body := .obj [("Name", .str "password"), ("SecretString", .str "one")]
  now := 1700000000
  arnUuid := JsonService.firstUuid
  versionUuid := JsonService.firstUuid

def putPassword (value : String) : Act where
  operation := .putSecretValue
  body := .obj [("SecretId", .str "password"), ("SecretString", .str value)]
  now := 1700000060
  arnUuid := JsonService.firstUuid
  versionUuid := JsonService.firstUuid

/-- After the third value two versions carry `AWSPREVIOUS`. -/
theorem third_value_second_previous : ¬ Run.AllStates (Tracked.step localTenant) Tracked.StagesRight
    Tracked.start [createPassword, putPassword "two", putPassword "three"] := by
  intro states
  have right := states.last
  generalize made : [createPassword, putPassword "two", putPassword "three"].foldl
    (Tracked.step localTenant) Tracked.start = t at right
  have stages : (t.store.secrets["password"]?.map fun s => s.versions.map (·.versionStages)) =
      some [["AWSPREVIOUS"], ["AWSPREVIOUS"], ["AWSCURRENT"]] := by
    subst made
    decide +kernel
  obtain ⟨s, stored, versions⟩ := Option.map_eq_some_iff.mp stages
  have carried (j : Nat) (previous : (s.versions.map (·.versionStages))[j]? = some ["AWSPREVIOUS"]) :
      t.former "password" = some j := by
    rw [List.getElem?_map, Option.map_eq_some_iff] at previous
    obtain ⟨v, here, only⟩ := previous
    exact (right "password" s stored).previous j v here (by simp [only])
  have first := carried 0 (by rw [versions]; rfl)
  have second := carried 1 (by rw [versions]; rfl)
  rw [first] at second
  cases second

end Example

end Openstack.SecretsManager

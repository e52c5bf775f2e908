import Openstack.SecretsManager.Provider
import Openstack.Lib.Run

/-!
# Index and cache of the secrets

The ARN index and the list cache are kept by hand next to the secrets. They agree with the secrets after
every request.
-/
namespace Openstack.SecretsManager

structure Coherent (store : SecretsManagerStore) : Prop where
  named : ∀ (name : String) (s : Secret), store.secrets[name]? = some s → s.name = name
  indexed : ∀ arn name : String, store.arnIndex[arn]? = some name ↔
    ∃ s : Secret, store.secrets[name]? = some s ∧ s.arn = arn
  distinct : ∀ (name other : String) (s t : Secret), store.secrets[name]? = some s →
    store.secrets[other]? = some t → s.arn = t.arn → name = other
  cached : store.listCache = none ∨ store.listCache = some (listText store.secrets)

/-- The ARN of every secret was drawn for its name. -/
def Drawn (tenant : Tenant) (store : SecretsManagerStore) : Prop :=
  ∀ (name : String) (s : Secret), store.secrets[name]? = some s → ∃ uuid, s.arn = tenant.arn name uuid

theorem Tenant.toList_arn (tenant : Tenant) (name : String) (uuid : JsonService.Uuid) :
    (tenant.arn name uuid).toList = ("arn:aws:secretsmanager:" ++ tenant.region ++ ":" ++
      tenant.accountId ++ ":secret:").toList ++ name.toList ++ "-".toList ++
        uuid.text.toList.take 6 := by
  have parts (a b c d : String) :
      (a ++ b ++ c ++ d).toList = a.toList ++ b.toList ++ c.toList ++ d.toList := by
    simp only [String.toList_append]
  have digits : (String.ofList (uuid.text.toList.take 6)).toList = uuid.text.toList.take 6 :=
    String.toList_ofList
  delta Tenant.arn
  refine (parts _ name "-" _).trans ?_
  exact congrArg _ digits

theorem Tenant.arn_inj {tenant : Tenant} {name other : String} {uuid uuid' : JsonService.Uuid}
    (same : tenant.arn name uuid = tenant.arn other uuid') : name = other := by
  have lengths : (uuid.text.toList.take 6).length = (uuid'.text.toList.take 6).length := by
    rw [List.length_take, List.length_take, uuid.length, uuid'.length]
  have texts := congrArg String.toList same
  rw [tenant.toList_arn, tenant.toList_arn] at texts
  have front := (List.append_inj' texts lengths).1
  exact String.toList_inj.mp (List.append_cancel_left (List.append_cancel_right front))

theorem change_arn (act : Act) (s : Secret) : (act.change s).arn = s.arn := by
  unfold Act.change
  split <;> rfl

theorem change_name (act : Act) (s : Secret) : (act.change s).name = s.name := by
  unfold Act.change
  split <;> rfl

section Steps

variable {tenant : Tenant} {store : SecretsManagerStore} {act : Act} {name : String} {s : Secret}

theorem Coherent.write (coherent : Coherent store) (stored : store.secrets[name]? = some s)
    {s' : Secret} (arn : s'.arn = s.arn) (named : s'.name = s.name) : Coherent (store.write name s') := by
  have secrets (other : String) : (store.write name s').secrets[other]? =
      if name = other then some s' else store.secrets[other]? := StrMap.getElem?_insert ..
  -- every secret of the new store stands for one of the old store with its name and ARN
  have from_old (other : String) (t : Secret) (there : (store.write name s').secrets[other]? = some t) :
      ∃ old, store.secrets[other]? = some old ∧ t.arn = old.arn ∧ t.name = old.name := by
    rw [secrets] at there
    split at there
    · next same =>
      cases there
      exact ⟨s, same ▸ stored, arn, named⟩
    · exact ⟨t, there, rfl, rfl⟩
  have to_new (other : String) (old : Secret) (there : store.secrets[other]? = some old) :
      ∃ t, (store.write name s').secrets[other]? = some t ∧ t.arn = old.arn := by
    rw [secrets]
    split
    · next same =>
      subst same
      cases stored.symm.trans there
      exact ⟨s', rfl, arn⟩
    · exact ⟨old, there, rfl⟩
  refine ⟨fun other t there => ?_, fun arn' other => ?_, fun first second t u there there' same => ?_,
    Or.inl rfl⟩
  · obtain ⟨old, was, -, name_same⟩ := from_old other t there
    rw [name_same]
    exact coherent.named other old was
  · have index : (store.write name s').arnIndex = store.arnIndex := rfl
    rw [index, coherent.indexed]
    constructor
    · rintro ⟨old, was, rfl⟩
      exact to_new other old was
    · rintro ⟨t, there, rfl⟩
      obtain ⟨old, was, same, -⟩ := from_old other t there
      exact ⟨old, was, same.symm⟩
  · obtain ⟨old, was, arn_same, -⟩ := from_old first t there
    obtain ⟨old', was', arn_same', -⟩ := from_old second u there'
    exact coherent.distinct first second old old' was was' (arn_same ▸ arn_same' ▸ same)

theorem Coherent.remove (coherent : Coherent store) (stored : store.secrets[name]? = some s) :
    Coherent (store.remove name s) := by
  have secrets (other : String) : (store.remove name s).secrets[other]? =
      if name = other then none else store.secrets[other]? := StrMap.getElem?_erase ..
  have from_old (other : String) (t : Secret) :
      (store.remove name s).secrets[other]? = some t ↔ name ≠ other ∧ store.secrets[other]? = some t := by
    rw [secrets]
    split
    · next same => simp [same]
    · next other_name => simp [other_name]
  refine ⟨fun other t there => ?_, fun arn' other => ?_, fun first second t u there there' same => ?_,
    Or.inl rfl⟩
  · exact coherent.named other t ((from_old other t).mp there).2
  · have index : (store.remove name s).arnIndex[arn']? =
        if s.arn = arn' then none else store.arnIndex[arn']? := StrMap.getElem?_erase ..
    rw [index]
    constructor
    · intro there
      split at there
      · cases there
      · next arn_ne =>
        obtain ⟨t, was, rfl⟩ := (coherent.indexed arn' other).mp there
        refine ⟨t, (from_old other t).mpr ⟨?_, was⟩, rfl⟩
        rintro rfl
        cases stored.symm.trans was
        exact arn_ne rfl
    · rintro ⟨t, there, rfl⟩
      obtain ⟨other_name, was⟩ := (from_old other t).mp there
      rw [if_neg fun same => other_name (coherent.distinct name other s t stored was same)]
      exact (coherent.indexed t.arn other).mpr ⟨t, was, rfl⟩
  · exact coherent.distinct first second t u ((from_old first t).mp there).2
      ((from_old second u).mp there').2 same

theorem Coherent.create (coherent : Coherent store) (drawn : Drawn tenant store) {secret : Secret}
    {uuid : JsonService.Uuid} (named : secret.name = name) (arn : secret.arn = tenant.arn name uuid) :
    Coherent (store.create name secret) := by
  have secrets (other : String) : (store.create name secret).secrets[other]? =
      if name = other then some secret else store.secrets[other]? := StrMap.getElem?_insert ..
  -- the ARN of any other secret differs from the new one
  have apart (other : String) (t : Secret) (there : store.secrets[other]? = some t)
      (other_name : name ≠ other) : secret.arn ≠ t.arn := by
    obtain ⟨uuid', drawn_for⟩ := drawn other t there
    rw [arn, drawn_for]
    exact fun same => other_name (Tenant.arn_inj same)
  have kept (arn' other : String) (new : secret.arn ≠ arn') :
      (store.create name secret).arnIndex[arn']? = some other ↔
        name ≠ other ∧ store.arnIndex[arn']? = some other := by
    have index : (store.create name secret).arnIndex[arn']? =
        ((store.secrets[name]?.map fun old => store.arnIndex.erase old.arn).getD store.arnIndex)[arn']? :=
      (StrMap.getElem?_insert ..).trans (if_neg new)
    rw [index]
    cases stored : store.secrets[name]? with
    | none =>
      rw [Option.map_none, Option.getD_none]
      refine ⟨fun there => ⟨?_, there⟩, And.right⟩
      rintro rfl
      obtain ⟨t, was, -⟩ := (coherent.indexed arn' name).mp there
      rw [stored] at was
      cases was
    | some old =>
      rw [Option.map_some, Option.getD_some, StrMap.getElem?_erase]
      constructor
      · intro there
        split at there
        · cases there
        · next old_arn =>
          refine ⟨?_, there⟩
          rintro rfl
          obtain ⟨t, was, same⟩ := (coherent.indexed arn' name).mp there
          cases stored.symm.trans was
          exact old_arn same
      · rintro ⟨other_name, there⟩
        rw [if_neg, there]
        rintro rfl
        obtain ⟨t, was, same⟩ := (coherent.indexed old.arn other).mp there
        exact other_name (coherent.distinct name other old t stored was same.symm)
  refine ⟨fun other t there => ?_, fun arn' other => ?_, fun first second t u there there' same => ?_,
    Or.inl rfl⟩
  · rw [secrets] at there
    split at there
    · next same =>
      cases there
      exact named.trans same
    · exact coherent.named other t there
  · by_cases new : secret.arn = arn'
    · have index : (store.create name secret).arnIndex[arn']? = some name :=
        (StrMap.getElem?_insert ..).trans (if_pos new)
      rw [index]
      constructor
      · intro same
        cases same
        exact ⟨secret, by rw [secrets, if_pos rfl], new⟩
      · rintro ⟨t, there, rfl⟩
        rw [secrets] at there
        split at there
        · next same => rw [same]
        · next other_name => exact absurd new (apart other t there other_name)
    · rw [kept arn' other new, coherent.indexed]
      constructor
      · rintro ⟨other_name, t, was, same⟩
        exact ⟨t, by rw [secrets, if_neg other_name, was], same⟩
      · rintro ⟨t, there, same⟩
        rw [secrets] at there
        split at there
        · cases there
          exact absurd same new
        · next other_name => exact ⟨other_name, t, there, same⟩
  · rw [secrets] at there there'
    split at there
    · next here =>
      split at there'
      · next here' => exact here.symm.trans here'
      · next other_name =>
        cases there
        exact absurd same (apart second u there' other_name)
    · next other_name =>
      split at there'
      · next here' =>
        cases there'
        exact absurd same.symm (apart first t there other_name)
      · exact coherent.distinct first second t u there there' same

theorem Drawn.step (drawn : Drawn tenant store) (act : Act) : Drawn tenant (step tenant store act) := by
  intro other t there
  generalize made : SecretsManager.step tenant store act = next at there
  have effect := step_effect tenant store act
  rw [made] at effect
  cases effect with
  | unchanged | listed => exact drawn other t there
  | created name =>
    rw [SecretsManagerStore.create, StrMap.getElem?_insert] at there
    split at there
    · next same =>
      cases there
      exact ⟨act.arnUuid, by rw [← same, newSecret]⟩
    · exact drawn other t there
  | wrote name s aimed =>
    rw [SecretsManagerStore.write, StrMap.getElem?_insert] at there
    split at there
    · next same =>
      cases there
      rw [change_arn]
      exact drawn other s (same ▸ stored_of_target aimed)
    · exact drawn other t there
  | removed name s =>
    rw [SecretsManagerStore.remove, StrMap.getElem?_erase] at there
    split at there
    · cases there
    · exact drawn other t there

theorem Coherent.step (coherent : Coherent store) (drawn : Drawn tenant store) (act : Act) :
    Coherent (step tenant store act) := by
  generalize made : SecretsManager.step tenant store act = next
  have effect := step_effect tenant store act
  rw [made] at effect
  cases effect with
  | unchanged => exact coherent
  | listed =>
    exact ⟨coherent.named, coherent.indexed, coherent.distinct, Or.inr rfl⟩
  | created name => exact coherent.create drawn rfl rfl
  | wrote name s aimed =>
    exact coherent.write (stored_of_target aimed) (change_arn act s) (change_name act s)
  | removed name s _ aimed => exact coherent.remove (stored_of_target aimed)

/-- The list is the one of the present secrets. -/
theorem Coherent.listSecrets (coherent : Coherent store) :
    (listSecrets store).1 = .okText (listText store.secrets) := by
  rw [SecretsManager.listSecrets]
  rcases coherent.cached with empty | cached
  · rw [empty]
  · rw [cached]

end Steps

/-- Names, index and cache agree with the secrets in every state, and no list is stale. -/
theorem derived_state_coherent (tenant : Tenant) (acts : List Act) :
    Run.AllStates (step tenant) (fun store => Coherent store ∧
      (listSecrets store).1 = .okText (listText store.secrets)) {} acts := by
  have coherent : Coherent ({} : SecretsManagerStore) := by
    refine ⟨fun name s there => ?_, fun arn name => ?_, fun first second s t there => ?_, Or.inl rfl⟩
    · simp at there
    · simp
    · simp at there
  have drawn : Drawn tenant ({} : SecretsManagerStore) := by
    intro name s there
    simp at there
  have states := Run.allStates_of_preserved
    (fun store act (here : Coherent store ∧ Drawn tenant store) =>
      ⟨here.1.step here.2 act, here.2.step act⟩) {} acts ⟨coherent, drawn⟩
  have lists (store : SecretsManagerStore) (here : Coherent store ∧ Drawn tenant store) :
      Coherent store ∧ (listSecrets store).1 = .okText (listText store.secrets) :=
    ⟨here.1, here.1.listSecrets⟩
  exact Run.AllStates.imp lists {} acts states

end Openstack.SecretsManager

import Openstack.Route53.RecordRoundTrip

/-!
# Change batches

A change batch should be made as a whole or not at all. ChangeResourceRecordSets judges neither the zone nor the
changes: it makes them one after the other, an unknown action as an upsert, and always answers 200.
-/
namespace Openstack.Route53

section Purpose

/-- The record sets of a zone, by name and type. -/
abbrev RecordSets := String × String → Option ResourceRecordSet

def recordsOf (store : Route53Store) (zoneId : String) : RecordSets := fun key => store.records[(zoneId, key)]?

def nameAndType (change : Change) : String × String := (change.2.name, change.2.recordType)

/-- A change that can be made: CREATE makes a new record set and DELETE removes one that is there. -/
def Possible (sets : RecordSets) (change : Change) : Prop :=
  change.1 = "CREATE" ∧ sets (nameAndType change) = none ∨ change.1 = "UPSERT" ∨
    change.1 = "DELETE" ∧ sets (nameAndType change) ≠ none

def made (sets : RecordSets) (change : Change) : RecordSets :=
  Function.update sets (nameAndType change) (if change.1 = "DELETE" then none else some change.2)

/-- Every change can be made once those before it are. -/
def AllPossible : RecordSets → List Change → Prop
  | _, [] => True
  | sets, change :: changes => Possible sets change ∧ AllPossible (made sets change) changes

/-- The batch is right for the zone it is sent to. -/
structure BatchRight (store : Route53Store) (zoneId : String) (changes : List Change) : Prop where
  exists_zone : store.zones.contains zoneId = true
  possible : AllPossible (recordsOf store zoneId) changes

/-- An answer of 400 or more that leaves the store as it is. -/
structure Refused (store : Route53Store) (outcome : Response × Route53Store) : Prop where
  error : 400 ≤ outcome.1.statusCode
  unchanged : outcome.2 = store

/-- The changes are made in order, and nothing else. -/
structure Made (store : Route53Store) (zoneId : String) (changes : List Change)
    (outcome : Response × Route53Store) : Prop where
  ok : outcome.1.statusCode = 200
  zones : outcome.2.zones = store.zones
  records : recordsOf outcome.2 zoneId = changes.foldl made (recordsOf store zoneId)
  others : ∀ other, other ≠ zoneId → recordsOf outcome.2 other = recordsOf store other

/-- A batch is refused or made, and it is refused where it is not right. -/
structure Atomic (store : Route53Store) (zoneId : String) (changes : List Change)
    (outcome : Response × Route53Store) : Prop where
  either : Refused store outcome ∨ Made store zoneId changes outcome
  judged : ¬ BatchRight store zoneId changes → Refused store outcome

end Purpose

section Service

variable (rid : String) (store : Route53Store) (request : Request) (zoneId : String)

theorem applyChange_eq (records : RecordMap) (change : Change) :
    applyChange zoneId records change =
      if change.1 = "DELETE" then records.erase (keyOf zoneId change)
      else records.insert (keyOf zoneId change) change.2 := by
  obtain ⟨action, rrset⟩ := change
  by_cases delete : action = "DELETE"
  · subst delete
    rfl
  · rw [if_neg delete, applyChange]
    · rfl
    · exact delete

theorem getElem?_applyChange (records : RecordMap) (change : Change) (other : String) (key : String × String) :
    (applyChange zoneId records change)[(other, key)]? =
      if other = zoneId then made (fun key => records[(zoneId, key)]?) change key
      else records[(other, key)]? := by
  have apart : keyOf zoneId change = (other, key) ↔ other = zoneId ∧ key = nameAndType change := by
    rw [keyOf, nameAndType, Prod.mk.injEq, eq_comm, eq_comm (a := key)]
  rw [applyChange_eq, made, Function.update_apply]
  split
  · next delete =>
    rw [RecordMap.getElem?_erase]
    simp only [apart]
    split <;> split <;> simp_all
  · next keep =>
    rw [RecordMap.getElem?_insert]
    simp only [apart]
    split <;> split <;> simp_all

/-- The changes are made one after the other, to the zone alone. -/
theorem recordsOf_foldl (changes : List Change) (other : String) (store : Route53Store) :
    recordsOf { store with records := changes.foldl (applyChange zoneId) store.records } other =
      if other = zoneId then changes.foldl made (recordsOf store zoneId) else recordsOf store other := by
  induction changes generalizing store with
  | nil =>
    split
    · next same => exact congrArg (recordsOf store) same
    · rfl
  | cons change changes ih =>
    have step (other : String) :
        recordsOf { store with records := applyChange zoneId store.records change } other =
          if other = zoneId then made (recordsOf store zoneId) change else recordsOf store other := by
      funext key
      rw [recordsOf, getElem?_applyChange]
      split <;> rfl
    have rest := ih { store with records := applyChange zoneId store.records change }
    rw [step other, step zoneId, if_pos rfl] at rest
    rw [List.foldl_cons, List.foldl_cons]
    refine rest.trans ?_
    split <;> rfl

theorem made_changeResourceRecordSets :
    Made store (zoneIdOf request.path) (parseRrsets request.body.toList)
      (changeResourceRecordSets rid store request) where
  ok := rfl
  zones := rfl
  records := (recordsOf_foldl _ _ _ store).trans (if_pos rfl)
  others other differs := (recordsOf_foldl _ _ other store).trans (if_neg differs)

theorem not_refused : ¬ Refused store (changeResourceRecordSets rid store request) := fun refused =>
  absurd refused.error (by rw [(made_changeResourceRecordSets rid store request).ok]; decide)

/-- A batch is made as a whole or not at all exactly when there is nothing to refuse. -/
theorem change_batch_iff :
    Atomic store (zoneIdOf request.path) (parseRrsets request.body.toList)
        (changeResourceRecordSets rid store request) ↔
      BatchRight store (zoneIdOf request.path) (parseRrsets request.body.toList) := by
  constructor
  · intro atomic
    by_contra wrong
    exact not_refused rid store request (atomic.judged wrong)
  · exact fun right => ⟨.inr (made_changeResourceRecordSets rid store request), fun wrong => absurd right wrong⟩

end Service

/-- A record set for `/2013-04-01/hostedzone/Z1/rrset`, when there is no zone at all. -/
def strayRequest : Request := sending "/2013-04-01/hostedzone/Z1/rrset" [textRecord]

theorem missing_zone_written :
    ¬ Atomic .new (zoneIdOf strayRequest.path) (parseRrsets strayRequest.body.toList)
      (changeResourceRecordSets "" .new strayRequest) := by
  intro atomic
  refine not_refused _ _ _ (atomic.judged fun right => ?_)
  have absent := right.exists_zone
  simp [Route53Store.new] at absent

end Openstack.Route53

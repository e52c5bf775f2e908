import Openstack.Iam.Provider
import Openstack.Lib.Run

/-!
# Membership on both sides

A group lists its members and a user its groups (`provider.rs`, lines 349-415 and 736-772; `store.rs`,
lines 10-68). `AddUserToGroup` writes both lists and `DeleteUser` only removes the user, so that the
groups still list a user who is gone, also after another one has taken the name.
-/
namespace Openstack.Iam

variable {u : IamUser} {name : String} {g : IamGroup} {userName : String}

def GroupLists (store : IamStore) (groupName userName : String) : Prop :=
  ∃ g, store.groups[groupName]? = some g ∧ userName ∈ IamGroup.members g

def UserLists (store : IamStore) (userName groupName : String) : Prop :=
  ∃ u, store.users[userName]? = some u ∧ groupName ∈ IamUser.groups u

structure Symmetric (store : IamStore) : Prop where
  agree : ∀ groupName userName, GroupLists store groupName userName ↔ UserLists store userName groupName
  members : ∀ (groupName : String) g, store.groups[groupName]? = some g → g.members.Nodup
  groups : ∀ (userName : String) u, store.users[userName]? = some u → u.groups.Nodup

/-- A user whom the request creates is in no group, by either list. -/
def StartsOutside (store : IamStore) (act : Act) : Prop :=
  act.ctx.operation = "CreateUser" → ∀ u, (dispatch act store).1 = .user u →
    ∀ groupName, ¬ GroupLists (step store act) groupName u.userName ∧
      ¬ UserLists (step store act) u.userName groupName

/-- A user whom the request deletes has left every group. -/
def DeletesOutsider (store : IamStore) (act : Act) : Prop :=
  act.ctx.operation = "DeleteUser" → ∀ name u, act.ctx.strParam "UserName" = some name →
    store.users[name]? = some u → u.groups = []

theorem nodup_pushNew {list : List String} (distinct : list.Nodup) (x : String) :
    (pushNew list x).Nodup := by
  unfold pushNew
  split
  · exact distinct
  · next absent => exact distinct.append (List.nodup_singleton x) (by simpa using absent)

@[simp] theorem mem_pushNew {list : List String} {x y : String} :
    y ∈ pushNew list x ↔ y ∈ list ∨ y = x := by
  unfold pushNew
  split
  · next present =>
    constructor
    · exact Or.inl
    · rintro (member | rfl)
      · exact member
      · exact present
  · simp

section Steps

variable {store : IamStore} {act : Act}

@[simp] theorem groupLists_setUsers (users : StrMap IamUser) (groupName userName : String) :
    GroupLists { store with users := users } groupName userName ↔
      GroupLists store groupName userName := Iff.rfl

@[simp] theorem userLists_setGroups (groups : StrMap IamGroup) (userName groupName : String) :
    UserLists { store with groups := groups } userName groupName ↔
      UserLists store userName groupName := Iff.rfl

theorem groupLists_insert {groupName : String} {users : StrMap IamUser} (groupName' userName : String) :
    GroupLists { users := users, groups := store.groups.insert groupName g } groupName' userName ↔
      if groupName = groupName' then userName ∈ g.members else GroupLists store groupName' userName := by
  simp only [GroupLists, StrMap.getElem?_insert]
  split
  · simp
  · rfl

theorem userLists_insert {groups : StrMap IamGroup} (userName' groupName : String) :
    UserLists { users := store.users.insert userName u, groups := groups } userName' groupName ↔
      if userName = userName' then groupName ∈ u.groups else UserLists store userName' groupName := by
  simp only [UserLists, StrMap.getElem?_insert]
  split
  · simp
  · rfl

theorem userLists_erase {groups : StrMap IamGroup} (userName' groupName : String) :
    UserLists { users := store.users.erase userName, groups := groups } userName' groupName ↔
      userName ≠ userName' ∧ UserLists store userName' groupName := by
  simp only [UserLists, StrMap.getElem?_erase]
  split
  · next same => simp [same]
  · next other => simp [other]

theorem groupLists_of_stored {groupName userName : String} (stored : store.groups[groupName]? = some g) :
    GroupLists store groupName userName ↔ userName ∈ g.members := by
  simp [GroupLists, stored]

theorem userLists_of_stored {userName groupName : String} (stored : store.users[userName]? = some u) :
    UserLists store userName groupName ↔ groupName ∈ u.groups := by
  simp [UserLists, stored]

theorem not_userLists (absent : store.users[userName]? = none) (groupName : String) :
    ¬ UserLists store userName groupName := by
  simp [UserLists, absent]

theorem deletesOutsider_of_ne {op : String} (operation : act.ctx.operation = op)
    (other : op ≠ "DeleteUser") : DeletesOutsider store act :=
  fun same => absurd (operation.symm.trans same) other

/-- A user whose lists come out as they were. -/
theorem symmetric_insert_user {u' : IamUser} (sym : Symmetric store)
    (before : ∀ groupName, UserLists store name groupName ↔ groupName ∈ u'.groups)
    (distinct : u'.groups.Nodup) : Symmetric { store with users := store.users.insert name u' } where
  agree groupName userName := by
    rw [userLists_insert]
    split
    · next same => subst same; exact (sym.agree groupName name).trans (before groupName)
    · exact sym.agree groupName userName
  members := sym.members
  groups userName v stored := by
    rw [StrMap.getElem?_insert] at stored
    split at stored
    · cases stored; exact distinct
    · exact sym.groups userName v stored

theorem symmetric_createUser (sym : Symmetric store) (absent : store.users[name]? = none) :
    Symmetric { store with users := store.users.insert name (newUser act name) } :=
  symmetric_insert_user sym
    (fun groupName => by simpa [newUser] using not_userLists absent groupName) List.nodup_nil

theorem symmetric_attachUserPolicy {policies : List String}
    (sym : Symmetric store) (stored : store.users[name]? = some u) :
    Symmetric { store with users := store.users.insert name { u with attachedPolicies := policies } } :=
  symmetric_insert_user sym (fun groupName => by rw [userLists_of_stored stored]) (sym.groups name u stored)

theorem symmetric_createGroup (sym : Symmetric store) (absent : store.groups[name]? = none) :
    Symmetric { store with groups := store.groups.insert name (newGroup act name) } where
  agree groupName userName := by
    rw [groupLists_insert]
    split
    · next same =>
      subst same
      have outside : ¬ GroupLists store name userName := by simp [GroupLists, absent]
      simpa [newGroup] using fun listed => outside ((sym.agree name userName).mpr listed)
    · exact sym.agree groupName userName
  members groupName g stored := by
    rw [StrMap.getElem?_insert] at stored
    split at stored
    · cases stored; exact List.nodup_nil
    · exact sym.members groupName g stored
  groups := sym.groups

theorem symmetric_join {groupName userName : String} (sym : Symmetric store)
    (storedUser : store.users[userName]? = some u) (storedGroup : store.groups[groupName]? = some g) :
    Symmetric (store.join groupName userName g u) where
  agree groupName' userName' := by
    have before := sym.agree groupName' userName'
    rw [IamStore.join, groupLists_insert, userLists_insert]
    by_cases sameGroup : groupName = groupName' <;> by_cases sameUser : userName = userName'
    · subst sameGroup sameUser
      simp
    · subst sameGroup
      rw [groupLists_of_stored storedGroup] at before
      simpa [sameUser, Ne.symm sameUser] using before
    · subst sameUser
      rw [userLists_of_stored storedUser] at before
      simpa [sameGroup, Ne.symm sameGroup] using before
    · simpa [sameGroup, sameUser] using before
  members groupName' g' stored := by
    simp only [IamStore.join, StrMap.getElem?_insert] at stored
    split at stored
    · cases stored; exact nodup_pushNew (sym.members groupName g storedGroup) userName
    · exact sym.members groupName' g' stored
  groups userName' u' stored := by
    simp only [IamStore.join, StrMap.getElem?_insert] at stored
    split at stored
    · cases stored; exact nodup_pushNew (sym.groups userName u storedUser) groupName
    · exact sym.groups userName' u' stored

theorem symmetric_deleteUser_iff (sym : Symmetric store) (stored : store.users[name]? = some u) :
    Symmetric { store with users := store.users.erase name } ↔ u.groups = [] := by
  constructor
  · intro after
    refine List.eq_nil_iff_forall_not_mem.mpr fun groupName member => ?_
    have listed : GroupLists store groupName name :=
      (sym.agree groupName name).mpr ((userLists_of_stored stored).mpr member)
    exact ((userLists_erase name groupName).mp ((after.agree groupName name).mp listed)).1 rfl
  · intro outside
    refine ⟨fun groupName userName => ?_, sym.members, fun userName v found => ?_⟩
    · rw [userLists_erase]
      by_cases same : name = userName
      · subst same
        have unlisted : ¬ GroupLists store groupName name := by
          rw [sym.agree, userLists_of_stored stored, outside]
          exact List.not_mem_nil
        simpa using unlisted
      · simpa [same] using sym.agree groupName userName
    · rw [StrMap.getElem?_erase] at found
      split at found
      · cases found
      · exact sym.groups userName v found

theorem change_symmetric_iff {answer : Answer} {after : IamStore} (change : Change act store answer after)
    (sym : Symmetric store) : Symmetric after ↔ DeletesOutsider store act := by
  cases change with
  | none _ _ notDeleted =>
    refine iff_of_true sym fun operation name u named stored => ?_
    rw [notDeleted operation name named] at stored
    cases stored
  | createUser name operation _ absent =>
    exact iff_of_true (symmetric_createUser sym absent) (deletesOutsider_of_ne operation (by decide))
  | deleteUser name u operation named stored =>
    rw [symmetric_deleteUser_iff sym stored]
    constructor
    · intro outside _ name' u' named' stored'
      obtain rfl : name = name' := Option.some.inj (named.symm.trans named')
      obtain rfl : u = u' := Option.some.inj (stored.symm.trans stored')
      exact outside
    · intro cond
      exact cond operation name u named stored
  | attachUserPolicy name u policies operation stored =>
    exact iff_of_true (symmetric_attachUserPolicy sym stored) (deletesOutsider_of_ne operation (by decide))
  | createGroup name operation absent =>
    exact iff_of_true (symmetric_createGroup sym absent) (deletesOutsider_of_ne operation (by decide))
  | addUserToGroup groupName userName g u operation storedUser storedGroup =>
    exact iff_of_true (symmetric_join sym storedUser storedGroup)
      (deletesOutsider_of_ne operation (by decide))

/-- Where both lists agree, a name that is free is in no list. -/
theorem change_startsOutside {answer : Answer} {after : IamStore} (change : Change act store answer after)
    (sym : Symmetric store) (operation : act.ctx.operation = "CreateUser")
    (created : answer = .user u) (groupName : String) :
    ¬ GroupLists after groupName u.userName ∧ ¬ UserLists after u.userName groupName := by
  cases change with
  | none _ notUser _ => exact absurd created (notUser operation u)
  | createUser name _ _ absent =>
    cases created
    constructor
    · intro listed
      exact not_userLists absent groupName ((sym.agree groupName name).mp listed)
    · rw [userLists_insert]
      simp [newUser]
  | deleteUser _ _ other => exact absurd (operation.symm.trans other) (by decide)
  | attachUserPolicy _ _ _ other => exact absurd (operation.symm.trans other) (by decide)
  | createGroup _ other => exact absurd (operation.symm.trans other) (by decide)
  | addUserToGroup _ _ _ _ other => exact absurd (operation.symm.trans other) (by decide)

theorem step_symmetric_iff (sym : Symmetric store) :
    Symmetric (step store act) ∧ StartsOutside store act ↔ DeletesOutsider store act := by
  have change := dispatch_change act store
  have exact_step := change_symmetric_iff change sym
  constructor
  · intro both
    exact exact_step.mp both.1
  · intro cond
    exact ⟨exact_step.mpr cond, fun operation u created =>
      change_startsOutside change sym operation created⟩

end Steps

theorem symmetric_empty : Symmetric {} where
  agree := by simp [GroupLists, UserLists]
  members := by simp
  groups := by simp

/-- The lists stay in step exactly in the runs in which whoever is deleted has left every group. -/
theorem memberships_symmetric_iff (acts : List Act) :
    Run.AllStates step Symmetric {} acts ∧ Run.AllSteps step StartsOutside {} acts ↔
      Run.AllSteps step DeletesOutsider {} acts :=
  Run.allStates_and_allSteps_iff (F := fun _ _ => True) (fun _ _ sym _ => step_symmetric_iff sym) {} acts
    symmetric_empty (Run.allSteps_of_forall (fun _ _ => trivial) _ acts)

section Reused

def request (operation : String) (params : List (String × String)) : Act where
  ctx :=
    { service := "iam"
      operation := operation
      region := "us-east-1"
      accountId := "000000000000"
      accessKey := "test"
      protocol := .query
      params := .null
      rawBody := none
      headers := []
      path := "/"
      method := "POST"
      queryParams := params.foldl (fun acc p => acc.insert p.1 p.2) ∅
      bodyReader := none }
  idHex := "0123456789ABCDEF"
  now := 0

/-- A user joins a group, is deleted and created again. -/
def reusedName : List Act :=
  [request "CreateGroup" [("GroupName", "admins")], request "CreateUser" [("UserName", "alice")],
    request "AddUserToGroup" [("GroupName", "admins"), ("UserName", "alice")],
    request "DeleteUser" [("UserName", "alice")], request "CreateUser" [("UserName", "alice")]]

theorem new_user_is_member :
    ¬ (Run.AllStates step Symmetric {} reusedName ∧ Run.AllSteps step StartsOutside {} reusedName) := by
  rintro ⟨states, -⟩
  have listed : GroupLists (reusedName.foldl step {}) "admins" "alice" := by
    refine ⟨_, rfl, ?_⟩
    decide +kernel
  have unlisted : ¬ UserLists (reusedName.foldl step {}) "alice" "admins" := by
    rintro ⟨u, stored, member⟩
    have groups : ((reusedName.foldl step {}).users["alice"]?.map (·.groups)) = some [] := by decide +kernel
    rw [stored, Option.map_some, Option.some.injEq] at groups
    rw [groups] at member
    cases member
  exact unlisted ((states.last.agree "admins" "alice").mp listed)

end Reused

end Openstack.Iam

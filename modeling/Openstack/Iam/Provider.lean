import Openstack.Gateway.RequestContext

/-!
# IAM users and groups

`crates/services/iam/src/store.rs` and the user and group operations of `provider.rs`, lines 349-798,
for one account. Roles and policy documents are left out, and so is the XML of the answers. The random
digits of an id and the time of a request are arguments. Users are a `BTreeMap` and groups a `HashMap`.
-/
namespace Openstack.Iam

open Gateway (RequestContext)

structure IamUser where
  userId : String
  userName : String
  arn : String
  path : String
  created : Int
  attachedPolicies : List String
  groups : List String
  deriving DecidableEq, Repr

structure IamGroup where
  groupId : String
  groupName : String
  arn : String
  path : String
  created : Int
  members : List String
  deriving DecidableEq, Repr

structure IamStore where
  users : StrMap IamUser := ∅
  groups : StrMap IamGroup := ∅

inductive Answer where
  | user (u : IamUser)
  /-- `GetUser` without a name: the caller, who is not stored. -/
  | caller
  | users (us : List IamUser)
  | group (g : IamGroup)
  | groups (gs : List IamGroup)
  | noResult (action : String)
  | error (code message : String) (status : Nat)
  | notImplemented (operation : String)
  deriving DecidableEq, Repr

structure Act where
  ctx : RequestContext
  idHex : String
  now : Int

def required (parameter : String) : Answer :=
  .error "ValidationError" (parameter ++ " is required") 400

def noSuchEntity (message : String) : Answer := .error "NoSuchEntity" message 404

def alreadyExists (kind name : String) : Answer :=
  .error "EntityAlreadyExists" (kind ++ " " ++ name ++ " already exists") 409

def notFound (kind name : String) : Answer := noSuchEntity (kind ++ " " ++ name ++ " not found")

/-- `if !list.contains(&x) { list.push(x) }`. -/
def pushNew (list : List String) (x : String) : List String :=
  if x ∈ list then list else list ++ [x]

section Operations

variable (act : Act) (store : IamStore)

/-- The path of the request, or the root. -/
def Act.path : String := (act.ctx.strParam "Path").getD "/"

def newUser (name : String) : IamUser where
  userId := "AIDA" ++ act.idHex
  userName := name
  arn := "arn:aws:iam::" ++ act.ctx.accountId ++ ":user" ++ act.path ++ name
  path := act.path
  created := act.now
  attachedPolicies := []
  groups := []

def createUser : Answer × IamStore :=
  match act.ctx.strParam "UserName" with
  | none => (required "UserName", store)
  | some name =>
    if store.users.contains name then (alreadyExists "User" name, store)
    else
      (.user (newUser act name), { store with users := store.users.insert name (newUser act name) })

def getUser : Answer :=
  match act.ctx.strParam "UserName" with
  | none => .caller
  | some name =>
    match store.users[name]? with
    | none => noSuchEntity ("User not found: " ++ name)
    | some u => .user u

def deleteUser : Answer × IamStore :=
  match act.ctx.strParam "UserName" with
  | none => (required "UserName", store)
  | some name =>
    if store.users.contains name then
      (.noResult "DeleteUser", { store with users := store.users.erase name })
    else (notFound "User" name, store)

def attachUserPolicy : Answer × IamStore :=
  match act.ctx.strParam "UserName", act.ctx.strParam "PolicyArn" with
  | none, _ => (required "UserName", store)
  | some _, none => (required "PolicyArn", store)
  | some name, some policyArn =>
    match store.users[name]? with
    | none => (notFound "User" name, store)
    | some u =>
      let attached := { u with attachedPolicies := pushNew u.attachedPolicies policyArn }
      (.noResult "AttachUserPolicy", { store with users := store.users.insert name attached })

def newGroup (name : String) : IamGroup where
  groupId := "AGPA" ++ act.idHex
  groupName := name
  arn := "arn:aws:iam::" ++ act.ctx.accountId ++ ":group" ++ act.path ++ name
  path := act.path
  created := act.now
  members := []

def createGroup : Answer × IamStore :=
  match act.ctx.strParam "GroupName" with
  | none => (required "GroupName", store)
  | some name =>
    if store.groups.contains name then (alreadyExists "Group" name, store)
    else
      (.group (newGroup act name),
        { store with groups := store.groups.insert name (newGroup act name) })

/-- Both sides of the membership. -/
def IamStore.join (groupName userName : String) (g : IamGroup) (u : IamUser) : IamStore where
  users := store.users.insert userName { u with groups := pushNew u.groups groupName }
  groups := store.groups.insert groupName { g with members := pushNew g.members userName }

def addUserToGroup : Answer × IamStore :=
  match act.ctx.strParam "GroupName", act.ctx.strParam "UserName" with
  | none, _ => (required "GroupName", store)
  | some _, none => (required "UserName", store)
  | some groupName, some userName =>
    match store.users[userName]?, store.groups[groupName]? with
    | none, _ => (notFound "User" userName, store)
    | some _, none => (notFound "Group" groupName, store)
    | some u, some g => (.noResult "AddUserToGroup", store.join groupName userName g u)

def dispatch : Answer × IamStore :=
  match act.ctx.operation with
  | "CreateUser" => createUser act store
  | "GetUser" => (getUser act store, store)
  | "DeleteUser" => deleteUser act store
  | "ListUsers" => (.users (StrMap.values store.users), store)
  | "AttachUserPolicy" => attachUserPolicy act store
  | "CreateGroup" => createGroup act store
  | "AddUserToGroup" => addUserToGroup act store
  | "ListGroups" => (.groups (StrMap.values store.groups), store)
  | operation => (.notImplemented operation, store)

end Operations

/-- What a request leaves of the store. -/
def step (store : IamStore) (act : Act) : IamStore := (dispatch act store).2

/-- The changes a request can make. -/
inductive Change (act : Act) (store : IamStore) : Answer → IamStore → Prop where
  | none (answer : Answer) (notUser : act.ctx.operation = "CreateUser" → ∀ u, answer ≠ .user u)
      (notDeleted : act.ctx.operation = "DeleteUser" → ∀ name,
        act.ctx.strParam "UserName" = some name → store.users[name]? = none) :
      Change act store answer store
  | createUser (name : String) (operation : act.ctx.operation = "CreateUser")
      (named : act.ctx.strParam "UserName" = some name) (absent : store.users[name]? = none) :
      Change act store (.user (newUser act name))
        { store with users := store.users.insert name (newUser act name) }
  | deleteUser (name : String) (u : IamUser) (operation : act.ctx.operation = "DeleteUser")
      (named : act.ctx.strParam "UserName" = some name) (stored : store.users[name]? = some u) :
      Change act store (.noResult "DeleteUser") { store with users := store.users.erase name }
  | attachUserPolicy (name : String) (u : IamUser) (policies : List String)
      (operation : act.ctx.operation = "AttachUserPolicy") (stored : store.users[name]? = some u) :
      Change act store (.noResult "AttachUserPolicy")
        { store with users := store.users.insert name { u with attachedPolicies := policies } }
  | createGroup (name : String) (operation : act.ctx.operation = "CreateGroup")
      (absent : store.groups[name]? = none) :
      Change act store (.group (newGroup act name))
        { store with groups := store.groups.insert name (newGroup act name) }
  | addUserToGroup (groupName userName : String) (g : IamGroup) (u : IamUser)
      (operation : act.ctx.operation = "AddUserToGroup")
      (storedUser : store.users[userName]? = some u)
      (storedGroup : store.groups[groupName]? = some g) :
      Change act store (.noResult "AddUserToGroup") (store.join groupName userName g u)

theorem Change.error {act : Act} {store : IamStore} {op : String} (operation : act.ctx.operation = op)
    (other : op ≠ "DeleteUser") (code message : String) (status : Nat) :
    Change act store (.error code message status) store :=
  .none _ (fun _ _ => by simp) fun same => absurd (operation.symm.trans same) other

theorem Change.reading {act : Act} {store : IamStore} {op : String} (operation : act.ctx.operation = op)
    (other : op ≠ "CreateUser" ∧ op ≠ "DeleteUser") (answer : Answer) : Change act store answer store :=
  .none _ (fun same => absurd (operation.symm.trans same) other.1)
    fun same => absurd (operation.symm.trans same) other.2

section Spec

variable {act : Act} {store : IamStore}

theorem createUser_change (operation : act.ctx.operation = "CreateUser") :
    Change act store (createUser act store).1 (createUser act store).2 := by
  unfold createUser
  cases named : act.ctx.strParam "UserName" with
  | none => exact .error operation (by decide) ..
  | some name =>
    simp only
    split
    · exact .error operation (by decide) ..
    · next absent => exact .createUser name operation named (by simpa using absent)

theorem deleteUser_change (operation : act.ctx.operation = "DeleteUser") :
    Change act store (deleteUser act store).1 (deleteUser act store).2 := by
  unfold deleteUser
  cases named : act.ctx.strParam "UserName" with
  | none => exact .none _ (fun _ _ => by simp [required]) fun _ name found => by simp [named] at found
  | some name =>
    simp only
    split
    · next present =>
      rw [Std.ExtTreeMap.contains_eq_isSome_getElem?, Option.isSome_iff_exists] at present
      obtain ⟨u, stored⟩ := present
      exact .deleteUser name u operation named stored
    · next absent =>
      refine .none _ (fun _ _ => by simp [notFound, noSuchEntity]) fun _ name' found => ?_
      obtain rfl : name = name' := Option.some.inj (named.symm.trans found)
      simpa using absent

theorem attachUserPolicy_change (operation : act.ctx.operation = "AttachUserPolicy") :
    Change act store (attachUserPolicy act store).1 (attachUserPolicy act store).2 := by
  unfold attachUserPolicy
  cases act.ctx.strParam "UserName" with
  | none => exact .error operation (by decide) ..
  | some name =>
    cases act.ctx.strParam "PolicyArn" with
    | none => exact .error operation (by decide) ..
    | some policyArn =>
      cases stored : store.users[name]? with
      | none => simpa only [stored] using .error operation (by decide) ..
      | some u => simpa only [stored] using .attachUserPolicy name u _ operation stored

theorem createGroup_change (operation : act.ctx.operation = "CreateGroup") :
    Change act store (createGroup act store).1 (createGroup act store).2 := by
  unfold createGroup
  cases act.ctx.strParam "GroupName" with
  | none => exact .error operation (by decide) ..
  | some name =>
    simp only
    split
    · exact .error operation (by decide) ..
    · next absent => exact .createGroup name operation (by simpa using absent)

theorem addUserToGroup_change (operation : act.ctx.operation = "AddUserToGroup") :
    Change act store (addUserToGroup act store).1 (addUserToGroup act store).2 := by
  unfold addUserToGroup
  cases act.ctx.strParam "GroupName" with
  | none => exact .error operation (by decide) ..
  | some groupName =>
    cases act.ctx.strParam "UserName" with
    | none => exact .error operation (by decide) ..
    | some userName =>
      cases storedUser : store.users[userName]? with
      | none => simpa only [storedUser] using .error operation (by decide) ..
      | some u =>
        cases storedGroup : store.groups[groupName]? with
        | none => simpa only [storedUser, storedGroup] using .error operation (by decide) ..
        | some g =>
          simpa only [storedUser, storedGroup] using
            .addUserToGroup groupName userName g u operation storedUser storedGroup

/-- Every request makes one of the changes. -/
theorem dispatch_change (act : Act) (store : IamStore) :
    Change act store (dispatch act store).1 (dispatch act store).2 := by
  unfold dispatch
  split
  · next operation => exact createUser_change operation
  · next operation => exact .reading operation (by decide) _
  · next operation => exact deleteUser_change operation
  · next operation => exact .reading operation (by decide) _
  · next operation => exact attachUserPolicy_change operation
  · next operation => exact createGroup_change operation
  · next operation => exact addUserToGroup_change operation
  · next operation => exact .reading operation (by decide) _
  · next _ _ other _ _ _ _ _ => exact .none _ (fun _ _ => by simp) fun same => absurd same other

end Spec

end Openstack.Iam

import Openstack.ApiGateway.Provider
import Openstack.Lib.Run

/-!
# The tree of resources

All APIs share one map of resources (`provider.rs`, lines 226-322 and 356-460). `CreateResource` takes
any resource of the map for the parent, does not ask whether the path is in use, and stores the resource
without looking at API and parent again; `PutMethod` and `PutIntegration` do not look at the API at all.
An id has eight hexadecimal digits, so that one that is drawn may be in use.
-/
namespace Openstack.ApiGateway

open JsonService (strParam firstUuid secondUuid)

/-! ## Statement -/

def ApiResource.isRoot (r : ApiResource) : Prop := r.parentId = none ∧ r.path = "/"

/-- The resource with this id stands below another one of its API. -/
def Below (store : ApiGatewayStore) (id : String) (r : ApiResource) : Prop :=
  ∃ parentId p, r.parentId = some parentId ∧ parentId ≠ id ∧ store.resources[parentId]? = some p ∧
    ApiResource.apiId p = r.apiId ∧ r.path = extendPath (ApiResource.path p) r.pathPart

structure Tree (store : ApiGatewayStore) : Prop where
  api : ∀ (id : String) r, store.resources[id]? = some r → store.apis.contains r.apiId = true
  placed : ∀ (id : String) r, store.resources[id]? = some r → r.isRoot ∨ Below store id r
  paths : ∀ (id : String) r (id' : String) r', store.resources[id]? = some r →
    store.resources[id']? = some r' → r.apiId = r'.apiId → r.path = r'.path → id = id'

/-- The resources of the other APIs are the same. -/
def OthersKept (apiId : String) (before after : ApiGatewayStore) : Prop :=
  ∀ (id : String) r, ApiResource.apiId r ≠ apiId →
    (before.resources[id]? = some r ↔ after.resources[id]? = some r)

/-- The API that a step is for: the one in the path or, in `CreateRestApi`, the new one. -/
@[grind] def System.addressed (s : System) : Event → Option String
  | .request act =>
    if act.canonicalOperation = "CreateRestApi" then some act.apiId else act.pathSegment 1
  | .store n => s.creating[n]?.map (·.apiId)

def TouchesItsOwn (toUppercase : String → String) (s : System) (e : Event) : Prop :=
  ∀ apiId, s.addressed e = some apiId → OthersKept apiId s.store (s.step toUppercase e).store

/-! ## The exact condition -/

/-- The id may be used: it is free, or the resource that has it is of the same API and either stands at
the same path or has nothing below it. -/
def IdFits (store : ApiGatewayStore) (id : String) (r : ApiResource) : Prop :=
  ∀ r0, store.resources[id]? = some r0 → r0.apiId = r.apiId ∧
    (r0.path = r.path ∨ ∀ (id' : String) r', store.resources[id']? = some r' → r'.parentId ≠ some id)

/-- The resource may go into the map under the id. -/
structure Fits (store : ApiGatewayStore) (id : String) (r : ApiResource) : Prop where
  api : store.apis.contains r.apiId = true
  parent : r.isRoot ∨ Below store id r
  path : ∀ (id' : String) r', store.resources[id']? = some r' → id' ≠ id → r'.apiId = r.apiId →
    r'.path ≠ r.path
  id : IdFits store id r

/-- The resource of the path is one of the API of the path, or the method is already as requested. -/
def PutsInside (toUppercase : String → String) (act : Act) (store : ApiGatewayStore)
    (same : ApiResource → String → Prop) : Prop :=
  ∀ resourceId httpMethod r, act.pathSegment 3 = some resourceId →
    (act.pathSegment 5).map toUppercase = some httpMethod → store.resources[resourceId]? = some r →
      act.pathSegment 1 = some r.apiId ∨ same r httpMethod

def hasMethod (act : Act) (r : ApiResource) (httpMethod : String) : Prop :=
  r.methods[httpMethod]? = some (newMethod act httpMethod)

def hasIntegration (act : Act) (r : ApiResource) (httpMethod : String) : Prop :=
  ∀ m, r.methods[httpMethod]? = some m → ApiMethod.integration m = some (newIntegration act)

/-- What each step needs. -/
@[grind] def StaysInTree (toUppercase : String → String) (s : System) : Event → Prop
  | .request act =>
    match act.canonicalOperation with
    | "CreateRestApi" => ∀ name, strParam act.body "name" = some name →
        Fits (s.store.withApi act name) act.rootId (rootResource act)
    | "PutMethod" => PutsInside toUppercase act s.store (hasMethod act)
    | "PutIntegration" => PutsInside toUppercase act s.store (hasIntegration act)
    | _ => True
  | .store n => ∀ r, s.creating[n]? = some r → Fits s.store r.id r

/-! ## Paths -/

theorem extendPath_ne_empty (parentPath pathPart : String) : extendPath parentPath pathPart ≠ "" := by
  intro empty
  have length := congrArg (fun s => s.toList.length) empty
  unfold extendPath at length
  split at length <;> simp at length

/-- What is added to two paths in the same way keeps them apart. -/
theorem extendPath_inj {p q pathPart : String} (pReal : p ≠ "") (qReal : q ≠ "")
    (same : extendPath p pathPart = extendPath q pathPart) : p = q := by
  have cancel (t : String) (real : t ≠ "") : "/" ++ pathPart ≠ t ++ "/" ++ pathPart := by
    intro equal
    have length := congrArg (fun s => s.toList.length) equal
    have nonempty : t.toList ≠ [] := fun none => real (by simpa using none)
    have := List.length_pos_iff.mpr nonempty
    simp only [String.toList_append, List.length_append] at length
    omega
  unfold extendPath at same
  split at same
  · next pRoot =>
    split at same
    · next qRoot => rw [pRoot, qRoot]
    · exact absurd same (cancel q qReal)
  · split at same
    · exact absurd same.symm (cancel p pReal)
    · have lists := congrArg String.toList same
      simp only [String.toList_append, List.append_cancel_right_eq] at lists
      exact String.toList_injective lists

section Steps

variable {store : ApiGatewayStore}

theorem Tree.path_ne_empty (tree : Tree store) {id : String} {r : ApiResource}
    (stored : store.resources[id]? = some r) : r.path ≠ "" := by
  rcases tree.placed id r stored with root | ⟨parentId, p, -, -, -, -, path⟩
  · rw [root.2]
    decide
  · rw [path]
    exact extendPath_ne_empty _ _

@[simp] theorem apis_insertResource (id : String) (r : ApiResource) :
    (store.insertResource id r).apis = store.apis := rfl

theorem resources_insertResource (id id' : String) (r : ApiResource) :
    (store.insertResource id r).resources[id']? = if id = id' then some r else store.resources[id']? :=
  StrMap.getElem?_insert _ _ _ _

theorem resources_insertResource_self (id : String) (r : ApiResource) :
    (store.insertResource id r).resources[id]? = some r := by
  rw [resources_insertResource, if_pos rfl]

theorem resources_insertResource_of_ne {id id' : String} (r : ApiResource) (other : id ≠ id') :
    (store.insertResource id r).resources[id']? = store.resources[id']? := by
  rw [resources_insertResource, if_neg other]

/-! ## Storing a resource -/

section Insert

variable {id : String} {r : ApiResource}

/-- Whoever stands below the id that is used again still does. -/
theorem below_insert {id' : String} {r' : ApiResource} (fits : IdFits store id r)
    (stored' : store.resources[id']? = some r') (below : Below store id' r') :
    Below (store.insertResource id r) id' r' := by
  obtain ⟨parentId, p, parent, other, stored, api, path⟩ := below
  by_cases moved : id = parentId
  · subst moved
    obtain ⟨sameApi, samePath | childless⟩ := fits p stored
    · exact ⟨id, r, parent, other, resources_insertResource_self id r, sameApi.symm.trans api,
        samePath ▸ path⟩
    · exact absurd parent (childless id' r' stored')
  · exact ⟨parentId, p, parent, other, by rwa [resources_insertResource_of_ne r moved], api, path⟩

theorem below_insert_self : Below (store.insertResource id r) id r ↔ Below store id r := by
  constructor
  · rintro ⟨parentId, p, parent, other, stored, rest⟩
    rw [resources_insertResource_of_ne r (Ne.symm other)] at stored
    exact ⟨parentId, p, parent, other, stored, rest⟩
  · rintro ⟨parentId, p, parent, other, stored, rest⟩
    refine ⟨parentId, p, parent, other, ?_, rest⟩
    rwa [resources_insertResource_of_ne r (Ne.symm other)]

theorem tree_insert (tree : Tree store) (fits : Fits store id r) : Tree (store.insertResource id r) where
  api id' r' stored := by
    rw [resources_insertResource] at stored
    split at stored
    · cases stored
      exact fits.api
    · exact tree.api id' r' stored
  placed id' r' stored := by
    rw [resources_insertResource] at stored
    split at stored
    · next same =>
      cases stored
      subst same
      exact fits.parent.imp_right below_insert_self.mpr
    · exact (tree.placed id' r' stored).imp_right (below_insert fits.id stored)
  paths id₁ r₁ id₂ r₂ stored₁ stored₂ sameApi samePath := by
    rw [resources_insertResource] at stored₁ stored₂
    split at stored₁ <;> split at stored₂
    · next first second => exact first.symm.trans second
    · next first second =>
      cases stored₁
      exact absurd samePath.symm (fits.path id₂ r₂ stored₂ (Ne.symm second) sameApi.symm)
    · next first second =>
      cases stored₂
      exact absurd samePath (fits.path id₁ r₁ stored₁ (Ne.symm first) sameApi)
    · exact tree.paths id₁ r₁ id₂ r₂ stored₁ stored₂ sameApi samePath

theorem othersKept_insert (fits : IdFits store id r) :
    OthersKept r.apiId store (store.insertResource id r) := by
  intro id' r' other
  rw [resources_insertResource]
  split
  · next same =>
    subst same
    constructor
    · intro stored
      exact absurd (fits r' stored).1 other
    · intro equal
      cases equal
      exact absurd rfl other
  · rfl

/-- The id was free or its resource of the same API, or that resource would have been lost. -/
theorem idFits_of_insert (tree : Tree store) (after : Tree (store.insertResource id r))
    (kept : OthersKept r.apiId store (store.insertResource id r)) : IdFits store id r := by
  intro r0 stored
  have sameApi : r0.apiId = r.apiId := by
    by_contra other
    have equal := (kept id r0 other).mp stored
    rw [resources_insertResource_self, Option.some.injEq] at equal
    exact other (equal ▸ rfl)
  refine ⟨sameApi, ?_⟩
  by_cases childless : ∀ (id' : String) r', store.resources[id']? = some r' → r'.parentId ≠ some id
  · exact .inr childless
  · left
    push Not at childless
    obtain ⟨id', r', stored', parent⟩ := childless
    obtain root | ⟨parentId, p, parent', other, found, -, path⟩ := tree.placed id' r' stored'
    · rw [root.1] at parent
      cases parent
    · obtain rfl : parentId = id := Option.some.inj (parent'.symm.trans parent)
      obtain rfl : p = r0 := Option.some.inj (found.symm.trans stored)
      -- The same resource has to stand below the new one as well.
      have stays : (store.insertResource parentId r).resources[id']? = some r' := by
        rwa [resources_insertResource_of_ne r other]
      obtain root | ⟨newId, q, newParent, -, newFound, -, newPath⟩ := after.placed id' r' stays
      · rw [root.1] at parent
        cases parent
      · obtain rfl : newId = parentId := Option.some.inj (newParent.symm.trans parent)
        rw [resources_insertResource_self, Option.some.injEq] at newFound
        subst newFound
        exact extendPath_inj (tree.path_ne_empty stored)
          (after.path_ne_empty (resources_insertResource_self newId r)) (path.symm.trans newPath)

theorem insert_iff (tree : Tree store) : Tree (store.insertResource id r) ∧
    OthersKept r.apiId store (store.insertResource id r) ↔ Fits store id r := by
  constructor
  · rintro ⟨after, kept⟩
    have self : (store.insertResource id r).resources[id]? = some r := resources_insertResource_self id r
    refine ⟨after.api id r self, (after.placed id r self).imp_right below_insert_self.mp, ?_,
      idFits_of_insert tree after kept⟩
    intro id' r' stored other sameApi samePath
    have stays : (store.insertResource id r).resources[id']? = some r' := by
      rwa [resources_insertResource_of_ne r (Ne.symm other)]
    exact other (after.paths id' r' id r stays self sameApi samePath)
  · intro fits
    exact ⟨tree_insert tree fits, othersKept_insert fits.id⟩

end Insert

/-! ## Other changes of the map -/

theorem tree_withApi (tree : Tree store) (act : Act) (name : String) : Tree (store.withApi act name) where
  api id r stored := by
    have known := tree.api id r stored
    rw [ApiGatewayStore.withApi, Std.ExtTreeMap.contains_insert, known, Bool.or_true]
  placed := tree.placed
  paths := tree.paths

theorem resources_removeApi (apiId id : String) : (store.removeApi apiId).resources[id]? =
    store.resources[id]?.filter fun r => r.apiId ≠ apiId :=
  Std.ExtTreeMap.getElem?_filter'

theorem stored_removeApi {apiId id : String} {r : ApiResource} :
    (store.removeApi apiId).resources[id]? = some r ↔
      store.resources[id]? = some r ∧ r.apiId ≠ apiId := by
  rw [resources_removeApi, Option.filter_eq_some_iff]
  simp

theorem tree_removeApi (tree : Tree store) (apiId : String) : Tree (store.removeApi apiId) where
  api id r stored := by
    obtain ⟨before, other⟩ := stored_removeApi.mp stored
    have known := tree.api id r before
    simp only [ApiGatewayStore.removeApi, Std.ExtTreeMap.contains_erase, known, Bool.and_true]
    simpa using Ne.symm other
  placed id r stored := by
    obtain ⟨before, other⟩ := stored_removeApi.mp stored
    refine (tree.placed id r before).imp_right ?_
    rintro ⟨parentId, p, parent, another, found, api, path⟩
    exact ⟨parentId, p, parent, another, stored_removeApi.mpr ⟨found, api ▸ other⟩, api, path⟩
  paths id r id' r' stored stored' :=
    tree.paths id r id' r' (stored_removeApi.mp stored).1 (stored_removeApi.mp stored').1

theorem othersKept_removeApi (apiId : String) : OthersKept apiId store (store.removeApi apiId) := by
  intro id r other
  rw [stored_removeApi]
  exact ⟨fun stored => ⟨stored, other⟩, And.left⟩

theorem othersKept_refl (apiId : String) : OthersKept apiId store store := fun _ _ _ => Iff.rfl

/-! ## Methods -/

section Methods

variable {id apiId httpMethod : String} {r : ApiResource} {m : ApiMethod}

theorem putMethod_eq_iff : r.putMethod httpMethod m = r ↔ r.methods[httpMethod]? = some m := by
  constructor
  · intro same
    have methods := congrArg (fun x : ApiResource => x.methods[httpMethod]?) same
    simpa [ApiResource.putMethod] using methods.symm
  · intro has
    have methods : r.methods.insert httpMethod m = r.methods := by
      refine Std.ExtTreeMap.ext_getElem? fun k => ?_
      rw [StrMap.getElem?_insert]
      split
      · next same => rw [← same, has]
      · rfl
    rw [ApiResource.putMethod, methods]

theorem fits_putMethod (tree : Tree store) (stored : store.resources[id]? = some r) :
    Fits store id (r.putMethod httpMethod m) where
  api := tree.api id r stored
  parent := tree.placed id r stored
  path id' r' stored' other sameApi samePath :=
    other (tree.paths id' r' id r stored' stored sameApi samePath)
  id r0 stored0 := by
    obtain rfl : r0 = r := Option.some.inj (stored0.symm.trans stored)
    exact ⟨rfl, .inl rfl⟩

theorem othersKept_putMethod_iff (stored : store.resources[id]? = some r) :
    OthersKept apiId store (store.insertResource id (r.putMethod httpMethod m)) ↔
      apiId = r.apiId ∨ r.methods[httpMethod]? = some m := by
  rw [← putMethod_eq_iff]
  constructor
  · intro kept
    by_cases own : apiId = r.apiId
    · exact .inl own
    · right
      have same := (kept id r (Ne.symm own)).mp stored
      rw [resources_insertResource_self] at same
      exact Option.some.inj same
  · rintro (rfl | same)
    · intro id' r' other
      rw [resources_insertResource]
      split
      · next here =>
        subst here
        constructor
        · intro found
          obtain rfl : r = r' := Option.some.inj (stored.symm.trans found)
          exact absurd rfl other
        · intro found
          cases found
          exact absurd rfl other
      · rfl
    · rw [same]
      intro id' r' _
      rw [resources_insertResource]
      split
      · next here => rw [← here, stored]
      · rfl

end Methods

end Steps

/-! ## One step -/

section Step

variable {toUppercase : String → String} {s : System} {act : Act}

theorem pathSegment_one {n : Nat} {segment : String} (found : act.pathSegment (n + 1) = some segment) :
    ∃ apiId, act.pathSegment 1 = some apiId := by
  simp only [Act.pathSegment, Option.map_eq_some_iff] at found ⊢
  obtain ⟨_, here, -⟩ := found
  have bound := (List.getElem?_eq_some_iff.mp here).1
  have : 1 < ((act.path.toList.splitOn '/').filter (· ≠ [])).length := by omega
  exact ⟨_, _, List.getElem?_eq_getElem this, rfl⟩

/-- A step that leaves the store as it is. -/
theorem unchanged_iff {e : Event} (tree : Tree s.store) (same : (s.step toUppercase e).store = s.store)
    (free : StaysInTree toUppercase s e) :
    Tree (s.step toUppercase e).store ∧ TouchesItsOwn toUppercase s e ↔ StaysInTree toUppercase s e := by
  refine iff_of_true ⟨?_, ?_⟩ free
  · rw [same]
    exact tree
  · intro apiId _
    rw [same]
    exact othersKept_refl apiId

theorem createRestApi_iff (tree : Tree s.store) (operation : act.canonicalOperation = "CreateRestApi") :
    Tree (s.step toUppercase (.request act)).store ∧ TouchesItsOwn toUppercase s (.request act) ↔
      StaysInTree toUppercase s (.request act) := by
  cases named : strParam act.body "name" with
  | none =>
    refine unchanged_iff tree ?_ ?_
    · simp only [System.step, System.request, operation, createRestApi, named]
    · simp only [StaysInTree, operation, named]
      rintro name ⟨⟩
  | some name =>
    have after : (s.step toUppercase (.request act)).store =
        (s.store.withApi act name).insertResource act.rootId (rootResource act) := by
      simp only [System.step, System.request, operation, createRestApi, named]
    have addressed : s.addressed (.request act) = some (rootResource act).apiId := by
      simp only [System.addressed, operation, if_true]
      rfl
    rw [TouchesItsOwn, addressed, after]
    simp only [Option.some.injEq, forall_eq', StaysInTree, operation, named]
    exact insert_iff (tree_withApi tree act name)

theorem deleteRestApi_kept (tree : Tree s.store) (operation : act.canonicalOperation = "DeleteRestApi") :
    Tree (s.step toUppercase (.request act)).store ∧ TouchesItsOwn toUppercase s (.request act) := by
  have addressed : s.addressed (.request act) = act.pathSegment 1 := by
    simp only [System.addressed, operation]
    exact if_neg (by decide)
  rw [TouchesItsOwn, addressed]
  simp only [System.step, System.request, operation, deleteRestApi]
  cases act.pathSegment 1 with
  | none => exact ⟨tree, by rintro _ ⟨⟩⟩
  | some apiId =>
    refine ⟨tree_removeApi tree apiId, ?_⟩
    rintro _ ⟨⟩
    exact othersKept_removeApi apiId

/-- Both `PUT` operations replace one method of the resource in the path. -/
theorem put_iff {resourceId httpMethod : String} {r : ApiResource} {m : ApiMethod}
    {same : ApiResource → String → Prop} (tree : Tree s.store)
    (resource : act.pathSegment 3 = some resourceId)
    (method : (act.pathSegment 5).map toUppercase = some httpMethod)
    (stored : s.store.resources[resourceId]? = some r)
    (after : (s.step toUppercase (.request act)).store =
      s.store.insertResource resourceId (r.putMethod httpMethod m))
    (addressed : s.addressed (.request act) = act.pathSegment 1)
    (already : r.methods[httpMethod]? = some m ↔ same r httpMethod) :
    Tree (s.step toUppercase (.request act)).store ∧ TouchesItsOwn toUppercase s (.request act) ↔
      PutsInside toUppercase act s.store same := by
  obtain ⟨apiId, path⟩ := pathSegment_one resource
  have touches : TouchesItsOwn toUppercase s (.request act) ↔ apiId = r.apiId ∨ same r httpMethod := by
    rw [TouchesItsOwn, addressed, path, after]
    simp only [Option.some.injEq, forall_eq']
    rw [othersKept_putMethod_iff stored, already]
  rw [touches, after, and_iff_right (tree_insert tree (fits_putMethod tree stored))]
  constructor
  · intro cond resourceId' httpMethod' r' resource' method' stored'
    obtain rfl : resourceId = resourceId' := Option.some.inj (resource.symm.trans resource')
    obtain rfl : httpMethod = httpMethod' := Option.some.inj (method.symm.trans method')
    obtain rfl : r = r' := Option.some.inj (stored.symm.trans stored')
    rw [path]
    exact cond.imp_left (congrArg some)
  · intro cond
    have := cond resourceId httpMethod r resource method stored
    rw [path, Option.some.injEq] at this
    exact this

theorem putMethod_iff (tree : Tree s.store) (operation : act.canonicalOperation = "PutMethod") :
    Tree (s.step toUppercase (.request act)).store ∧ TouchesItsOwn toUppercase s (.request act) ↔
      StaysInTree toUppercase s (.request act) := by
  have addressed : s.addressed (.request act) = act.pathSegment 1 := by
    simp only [System.addressed, operation]
    exact if_neg (by decide)
  cases resource : act.pathSegment 3 with
  | none =>
    refine unchanged_iff tree ?_ ?_
    · simp only [System.step, System.request, operation, putMethod, resource]
    · simp only [StaysInTree, operation, PutsInside, resource]
      rintro resourceId _ _ ⟨⟩
  | some resourceId =>
    cases method : (act.pathSegment 5).map toUppercase with
    | none =>
      refine unchanged_iff tree ?_ ?_
      · simp only [System.step, System.request, operation, putMethod, resource, method]
      · simp only [StaysInTree, operation, PutsInside, method]
        rintro _ httpMethod _ _ ⟨⟩
    | some httpMethod =>
      cases stored : s.store.resources[resourceId]? with
      | none =>
        refine unchanged_iff tree ?_ ?_
        · simp only [System.step, System.request, operation, putMethod, resource, method, stored]
        · simp only [StaysInTree, operation]
          intro resourceId' _ r' resource' _ stored'
          obtain rfl : resourceId = resourceId' := Option.some.inj (resource.symm.trans resource')
          rw [stored] at stored'
          cases stored'
      | some r =>
        simp only [StaysInTree, operation]
        refine put_iff (m := newMethod act httpMethod) tree resource method stored ?_ addressed Iff.rfl
        simp only [System.step, System.request, operation, putMethod, resource, method, stored]

theorem putIntegration_iff (tree : Tree s.store) (operation : act.canonicalOperation = "PutIntegration") :
    Tree (s.step toUppercase (.request act)).store ∧ TouchesItsOwn toUppercase s (.request act) ↔
      StaysInTree toUppercase s (.request act) := by
  have addressed : s.addressed (.request act) = act.pathSegment 1 := by
    simp only [System.addressed, operation]
    exact if_neg (by decide)
  cases resource : act.pathSegment 3 with
  | none =>
    refine unchanged_iff tree ?_ ?_
    · simp only [System.step, System.request, operation, putIntegration, resource]
    · simp only [StaysInTree, operation, PutsInside, resource]
      rintro resourceId _ _ ⟨⟩
  | some resourceId =>
    cases method : (act.pathSegment 5).map toUppercase with
    | none =>
      refine unchanged_iff tree ?_ ?_
      · simp only [System.step, System.request, operation, putIntegration, resource, method]
      · simp only [StaysInTree, operation, PutsInside, method]
        rintro _ httpMethod _ _ ⟨⟩
    | some httpMethod =>
      cases stored : s.store.resources[resourceId]? with
      | none =>
        refine unchanged_iff tree ?_ ?_
        · simp only [System.step, System.request, operation, putIntegration, resource, method, stored]
        · simp only [StaysInTree, operation]
          intro resourceId' _ r' resource' _ stored'
          obtain rfl : resourceId = resourceId' := Option.some.inj (resource.symm.trans resource')
          rw [stored] at stored'
          cases stored'
      | some r =>
        cases there : r.methods[httpMethod]? with
        | none =>
          refine unchanged_iff tree ?_ ?_
          · simp only [System.step, System.request, operation, putIntegration, resource, method, stored,
              there]
          · simp only [StaysInTree, operation]
            intro resourceId' httpMethod' r' resource' method' stored'
            obtain rfl : resourceId = resourceId' := Option.some.inj (resource.symm.trans resource')
            obtain rfl : httpMethod = httpMethod' := Option.some.inj (method.symm.trans method')
            obtain rfl : r = r' := Option.some.inj (stored.symm.trans stored')
            right
            intro m present
            rw [there] at present
            cases present
        | some m =>
          simp only [StaysInTree, operation]
          refine put_iff (m := m.withIntegration (newIntegration act)) tree resource method stored ?_
            addressed ?_
          · simp only [System.step, System.request, operation, putIntegration, resource, method, stored,
              there]
          · rw [hasIntegration, there]
            simp only [Option.some.injEq, forall_eq']
            constructor
            · intro same
              rw [same]
              rfl
            · intro already
              rw [ApiMethod.withIntegration, ← already]

theorem storeResource_iff (tree : Tree s.store) (n : Nat) :
    Tree (s.step toUppercase (.store n)).store ∧ TouchesItsOwn toUppercase s (.store n) ↔
      StaysInTree toUppercase s (.store n) := by
  cases pending : s.creating[n]? with
  | none =>
    refine unchanged_iff tree ?_ ?_
    · simp only [System.step, pending]
    · intro r found
      rw [pending] at found
      cases found
  | some r =>
    have after : (s.step toUppercase (.store n)).store = s.store.insertResource r.id r := by
      simp only [System.step, pending, storeResource]
    have addressed : s.addressed (.store n) = some r.apiId := by
      simp [System.addressed, pending]
    rw [TouchesItsOwn, addressed, after]
    simp only [Option.some.injEq, forall_eq', StaysInTree, pending]
    exact insert_iff tree

/-- The operations that the step function does not tell apart leave the store alone. -/
theorem store_request (other : act.canonicalOperation ∉
    ["CreateRestApi", "DeleteRestApi", "PutMethod", "PutIntegration"]) :
    (s.request toUppercase act).store = s.store := by
  unfold System.request
  split
  · next operation => simp [operation] at other
  · next operation => simp [operation] at other
  · split <;> rfl
  · next operation => simp [operation] at other
  · next operation => simp [operation] at other
  · rfl

theorem staysInTree_of_other (create : act.canonicalOperation ≠ "CreateRestApi")
    (method : act.canonicalOperation ≠ "PutMethod")
    (integration : act.canonicalOperation ≠ "PutIntegration") :
    StaysInTree toUppercase s (.request act) := by
  simp only [StaysInTree]

theorem step_iff (tree : Tree s.store) (e : Event) :
    Tree (s.step toUppercase e).store ∧ TouchesItsOwn toUppercase s e ↔ StaysInTree toUppercase s e := by
  cases e with
  | store n => exact storeResource_iff tree n
  | request act =>
    by_cases create : act.canonicalOperation = "CreateRestApi"
    · exact createRestApi_iff tree create
    by_cases method : act.canonicalOperation = "PutMethod"
    · exact putMethod_iff tree method
    by_cases integration : act.canonicalOperation = "PutIntegration"
    · exact putIntegration_iff tree integration
    have free : StaysInTree toUppercase s (.request act) := staysInTree_of_other create method integration
    by_cases delete : act.canonicalOperation = "DeleteRestApi"
    · exact iff_of_true (deleteRestApi_kept tree delete) free
    · exact unchanged_iff tree (store_request (by simp [create, delete, method, integration])) free

end Step

theorem tree_empty : Tree {} where
  api := by simp
  placed := by simp
  paths := by simp

/-- The resources form trees, each request in its own, exactly in the runs that keep to the condition:
whoever stores a resource finds its API in place, another resource of that API as the parent that its
path extends, the path unused and an id that fits, and whoever puts a method names a resource of the API. -/
theorem resource_trees_iff (toUppercase : String → String) (events : List Event) :
    Run.AllStates (System.step toUppercase) (fun s => Tree s.store) {} events ∧
        Run.AllSteps (System.step toUppercase) (TouchesItsOwn toUppercase) {} events ↔
      Run.AllSteps (System.step toUppercase) (StaysInTree toUppercase) {} events :=
  Run.allStates_and_allSteps_iff (F := fun _ _ => True) (fun _ e tree _ => step_iff tree e) _ events
    tree_empty (Run.allSteps_of_forall (fun _ _ => trivial) _ events)

/-! ## A resource without its API -/

section Outlived

def request (method path : String) (body : List (String × Json)) : Act where
  method := method
  path := path
  operation := ""
  body := .obj body
  firstUuid := firstUuid
  secondUuid := secondUuid
  now := 0

/-- `DeleteRestApi` between the two parts of a `CreateResource`. -/
def outlivedApi : List Event :=
  [.request (request "POST" "/restapis" [("name", .str "shop")]),
    .request (request "POST" "/restapis/6b1f0c2e/resources/0d9e8f7a" [("pathPart", .str "items")]),
    .request (request "DELETE" "/restapis/6b1f0c2e" []), .store 0]

theorem resource_outlives_api :
    ¬ (Run.AllStates (System.step String.toUpper) (fun s => Tree s.store) {} outlivedApi ∧
      Run.AllSteps (System.step String.toUpper) (TouchesItsOwn String.toUpper) {} outlivedApi) := by
  rintro ⟨states, -⟩
  have stored : ∃ r, (outlivedApi.foldl (System.step String.toUpper) {}).store.resources["6b1f0c2e"]? =
      some r := by
    rw [← Option.isSome_iff_exists]
    decide +kernel
  obtain ⟨r, stored⟩ := stored
  have known := states.last.api "6b1f0c2e" r stored
  have gone : (outlivedApi.foldl (System.step String.toUpper) {}).store.apis = ∅ := by
    rw [← Std.ExtTreeMap.isEmpty_iff]
    decide +kernel
  rw [gone, Std.ExtTreeMap.contains_empty] at known
  cases known

end Outlived

end Openstack.ApiGateway

import Mathlib.Data.List.Nodup
import Openstack.Ecr.Indexes

/-!
# The image of an image id

`BatchGetImage`, `BatchDeleteImage` and `DescribeImages` (`crates/services/ecr/src/provider.rs`, lines 245-470)
each find the image of an `imageId` in their own way: by the digest, with a look at the tag or without one, by
the index of the tags, and by a filter over the repository.
-/
namespace Openstack.Ecr

open JsonService (Answer strParam int firstUuid secondUuid)

def imageIds (body : Json) : List Json := ((body.get? "imageIds").bind Json.asArray?).getD []

/-- The image that `BatchGetImage` finds for one entry of `imageIds`. -/
def EcrStore.resolve (store : EcrStore) (repo : String) (id : Json) : Option Image :=
  let resolved :=
    match strParam id "imageDigest", strParam id "imageTag" with
    | some digest, some tag => store.images[digest]?.filter fun image : Image => image.imageTags.any (· == tag)
    | some digest, none => store.images[digest]?
    | none, some tag => (store.digestForTag repo tag).bind fun digest => store.images[digest]?
    | none, none => none
  resolved.filter fun image => image.repositoryName == repo

/-- What `BatchGetImage` says of an image. -/
def Image.got (image : Image) : Json :=
  .obj [("imageId", .obj [("imageDigest", .str image.imageDigest),
      ("imageTag", (image.imageTags.head?.map Json.str).getD .null)]),
    ("imageManifest", .str image.imageManifest), ("repositoryName", .str image.repositoryName)]

def gotImages (images : List Image) : Answer :=
  .ok (.obj [("failures", .arr []), ("images", .arr (images.map Image.got))])

def batchGetImage (store : EcrStore) (body : Json) : Answer :=
  match strParam body "repositoryName" with
  | none => nameRequired
  | some repo => gotImages ((imageIds body).filterMap (store.resolve repo))

def EcrStore.imagesForRepo (store : EcrStore) (repo : String) : List Image :=
  (store.digests repo).filterMap fun digest => store.images[digest]?

/-- One filter of `DescribeImages`: a digest, a tag, or both. -/
def Image.satisfies (image : Image) (id : Json) : Bool :=
  let digest := strParam id "imageDigest"
  let tag := strParam id "imageTag"
  (digest.isSome || tag.isSome) && digest.all (image.imageDigest == ·) &&
    tag.all fun t => image.imageTags.any (· == t)

/-- What `DescribeImages` says of an image. -/
def Image.detail (tenant : Tenant) (image : Image) : Json :=
  .obj [("imageDigest", .str image.imageDigest),
    ("imageManifestMediaType", .str "application/vnd.docker.distribution.manifest.v2+json"),
    ("imagePushedAt", int image.pushedAt), ("imageSizeInBytes", .posInt image.sizeBytes),
    ("imageTags", .arr (image.imageTags.map Json.str)), ("registryId", .str tenant.accountId),
    ("repositoryName", .str image.repositoryName)]

def describedImages (tenant : Tenant) (images : List Image) : Answer :=
  .ok (.obj [("imageDetails", .arr (images.map (Image.detail tenant)))])

def describeImages (tenant : Tenant) (store : EcrStore) (body : Json) : Answer :=
  match strParam body "repositoryName" with
  | none => nameRequired
  | some repo =>
    let ids := imageIds body
    describedImages tenant
      ((store.imagesForRepo repo).filter fun image => ids.isEmpty || ids.any image.satisfies)

/-- A request with one image id. -/
def idBody (repo : String) (id : Json) : Json :=
  .obj [("imageIds", .arr [id]), ("repositoryName", .str repo)]

/-- The image is gone, and no other. -/
def Removes (image : Image) (store result : EcrStore) : Prop :=
  (∀ digest : String, result.images[digest]? = if digest = image.imageDigest then none else store.images[digest]?) ∧
    result.repositories = store.repositories

/-- The id is among the failures, or the request fails. -/
def ReportsFailure (id : Json) : Answer → Prop
  | .ok body => ∃ failure, body = .obj [("failures", .arr [failure]), ("imageIds", .arr [])] ∧
      failure.get? "imageId" = some (.obj [("imageDigest", ((strParam id "imageDigest").map Json.str).getD .null),
        ("imageTag", ((strParam id "imageTag").map Json.str).getD .null)])
  | .error _ _ _ => True
  | .okText _ => False

/-- The outcome of a deletion by the id of an image, or of none. -/
def Deletes (store : EcrStore) (id : Json) (outcome : Answer × EcrStore) : Option Image → Prop
  | some image =>
    outcome.1 = .ok (.obj [("failures", .arr []), ("imageIds", .arr [
        .obj [("imageDigest", .str image.imageDigest),
          ("imageTag", ((strParam id "imageTag").map Json.str).getD .null)]])]) ∧
      Removes image store outcome.2
  | none => ReportsFailure id outcome.1 ∧ outcome.2 = store

/-- The id stands for this image in all three requests, or for none. -/
structure Denotes (tenant : Tenant) (store : EcrStore) (repo : String) (id : Json) (found : Option Image) :
    Prop where
  got : batchGetImage store (idBody repo id) = gotImages found.toList
  described : describeImages tenant store (idBody repo id) = describedImages tenant found.toList
  deleted : ∀ act : Act, act.body = idBody repo id → Deletes store id (batchDeleteImage act store) found

/-- With both a digest and a tag, an image of the repository with the digest carries the tag. -/
def TagFits (store : EcrStore) (repo : String) (id : Json) : Prop :=
  ∀ digest tag image, strParam id "imageDigest" = some digest → strParam id "imageTag" = some tag →
    store.images[digest]? = some image → image.repositoryName = repo → tag ∈ image.imageTags

def Keyed (store : EcrStore) : Prop :=
  ∀ (digest : String) image, store.images[digest]? = some image → image.imageDigest = digest

section Keys

variable {store : EcrStore}

theorem Keyed.insertImage (keyed : Keyed store) (image : Image) :
    Keyed (store.insertImage image.imageDigest image) := by
  intro digest found there
  rw [EcrStore.insertImage] at there
  dsimp only at there
  rw [StrMap.getElem?_insert, getElem?_stealTags] at there
  split at there
  · next same =>
    cases there
    exact same
  · obtain ⟨old, was, rfl⟩ := Option.map_eq_some_iff.mp there
    exact keyed digest old was

/-- What only loses images keeps them under their digests. -/
theorem Keyed.of_subset (keyed : Keyed store) {result : EcrStore}
    (fewer : ∀ (digest : String) image, result.images[digest]? = some image → store.images[digest]? = some image) :
    Keyed result := fun digest image there => keyed digest image (fewer digest image there)

theorem images_removeImage (digest d : String) :
    (store.removeImage digest).2.images[d]? = if d = digest then none else store.images[d]? := by
  rw [EcrStore.removeImage]
  cases stored : store.images[digest]? with
  | none =>
    dsimp only
    split
    · next same => rw [same, stored]
    · rfl
  | some image =>
    dsimp only
    rw [StrMap.getElem?_erase]
    by_cases same : d = digest
    · rw [if_pos same, if_pos same.symm]
    · rw [if_neg same, if_neg (Ne.symm same)]

theorem Keyed.removeImage (keyed : Keyed store) (digest : String) : Keyed (store.removeImage digest).2 := by
  refine keyed.of_subset fun d image there => ?_
  rw [images_removeImage] at there
  split at there
  · cases there
  · exact there

theorem Keyed.deleteEntries (keyed : Keyed store) (repo : String) (ids deleted failures : List Json) :
    Keyed (ids.foldl (deleteEntry repo) (deleted, failures, store)).2.2 := by
  induction ids generalizing store deleted failures with
  | nil => exact keyed
  | cons id rest ih =>
    rw [List.foldl_cons, deleteEntry]
    split
    · exact ih (keyed.removeImage _) _ _
    · exact ih keyed _ _

theorem Keyed.step (keyed : Keyed store) (tenant : Tenant) (act : Act) : Keyed (step tenant store act) := by
  rw [Ecr.step, dispatch]
  cases act.operation with
  | createRepository =>
    dsimp only
    rw [createRepository]
    repeat' split
    all_goals exact keyed
  | deleteRepository =>
    dsimp only
    rw [deleteRepository]
    repeat' split
    · exact keyed
    · exact keyed
    · next name _ _ _ _ =>
      refine keyed.of_subset fun d image there => ?_
      rw [(removeRepoImages_spec _ name).2.2.1] at there
      split at there
      · cases there
      · exact there
  | putImage =>
    dsimp only
    rw [putImage]
    repeat' split
    · exact keyed
    · next repo _ _ => exact keyed.insertImage (newImage act repo)
    · exact keyed
  | batchDeleteImage =>
    dsimp only
    rw [batchDeleteImage]
    repeat' split
    · exact keyed
    · exact keyed.deleteEntries _ _ _ _
    · exact keyed

end Keys

/-- The indexes agree with the images, and these are under their digests. -/
structure Indexed (store : EcrStore) : Prop where
  consistent : Consistent store
  keyed : Keyed store

theorem indexed_run (tenant : Tenant) (acts : List Act)
    (fresh : Run.AllSteps (step tenant) FreshDigest {} acts) : Indexed (acts.foldl (step tenant) {}) := by
  refine Run.foldl_of_allSteps (fun store act inv digest => ?_) _ acts ⟨consistent_empty, ?_⟩ fresh
  · exact ⟨inv.consistent.step tenant digest, inv.keyed.step tenant act⟩
  · intro digest image there
    simp at there

section Lookups

variable {store : EcrStore} {repo : String} {id : Json}

theorem satisfies_iff (image : Image) : image.satisfies id = true ↔
    (strParam id "imageDigest" ≠ none ∨ strParam id "imageTag" ≠ none) ∧
      (∀ digest, strParam id "imageDigest" = some digest → image.imageDigest = digest) ∧
      ∀ tag, strParam id "imageTag" = some tag → tag ∈ image.imageTags := by
  rw [Image.satisfies]
  cases strParam id "imageDigest" <;> cases strParam id "imageTag" <;> simp

/-- The image that `BatchGetImage` finds is the one in the repository that passes the filter. -/
theorem resolve_eq_some_iff (inv : Indexed store) (image : Image) : store.resolve repo id = some image ↔
    store.images[image.imageDigest]? = some image ∧ image.repositoryName = repo ∧ image.satisfies id = true := by
  rw [satisfies_iff, EcrStore.resolve, Option.filter_eq_some_iff, beq_iff_eq]
  have own : ∀ digest : String, store.images[digest]? = some image ↔
      store.images[image.imageDigest]? = some image ∧ image.imageDigest = digest := by
    intro digest
    constructor
    · intro there
      have same := inv.keyed digest image there
      exact ⟨by rw [same, there], same⟩
    · rintro ⟨there, rfl⟩
      exact there
  cases strParam id "imageDigest" with
  | some digest =>
    cases strParam id "imageTag" with
    | some tag =>
      rw [Option.filter_eq_some_iff, own digest]
      simp only [List.any_eq_true, beq_iff_eq, exists_eq_right, Option.some.injEq, forall_eq', ne_eq, reduceCtorEq,
        not_false_eq_true, or_self, true_and]
      tauto
    | none =>
      dsimp only
      rw [own digest]
      simp only [Option.some.injEq, forall_eq', ne_eq, reduceCtorEq, not_false_eq_true, not_true_eq_false, or_false,
        true_and, false_implies, implies_true, and_true]
      tauto
  | none =>
    cases strParam id "imageTag" with
    | some tag =>
      dsimp only
      rw [Option.bind_eq_some_iff, EcrStore.digestForTag]
      constructor
      · rintro ⟨⟨digest, filed, there⟩, named⟩
        obtain ⟨there', -⟩ := (own digest).mp there
        obtain ⟨carrier, there'', -, carried⟩ := (inv.consistent.tagged repo tag digest).mp filed
        obtain rfl := Option.some.inj (there.symm.trans there'')
        refine ⟨there', named, .inr (by simp), by simp, fun other same => ?_⟩
        rwa [← Option.some.inj same]
      · rintro ⟨there, named, -, -, carries⟩
        exact ⟨⟨_, (inv.consistent.tagged repo tag _).mpr ⟨image, there, named, carries tag rfl⟩, there⟩, named⟩
    | none => simp

/-- A list without repetitions that has the elements of an option is its list. -/
theorem eq_toList_of_mem {α : Type} {l : List α} {o : Option α} (nodup : l.Nodup)
    (members : ∀ a, a ∈ l ↔ o = some a) : l = o.toList := by
  cases o with
  | none =>
    refine List.eq_nil_iff_forall_not_mem.mpr fun a member => ?_
    cases (members a).mp member
  | some a =>
    refine List.perm_singleton.mp ((List.perm_ext_iff_of_nodup nodup (by simp)).mpr fun b => ?_)
    rw [members, List.mem_singleton, Option.some.injEq, eq_comm]

theorem mem_imagesForRepo (inv : Indexed store) (image : Image) : image ∈ store.imagesForRepo repo ↔
    store.images[image.imageDigest]? = some image ∧ image.repositoryName = repo := by
  rw [EcrStore.imagesForRepo, List.mem_filterMap]
  constructor
  · rintro ⟨digest, member, there⟩
    obtain ⟨found, there', named⟩ := ((inv.consistent.listed repo).2 digest).mp member
    obtain rfl := Option.some.inj (there.symm.trans there')
    exact ⟨by rw [inv.keyed digest image there, there], named⟩
  · rintro ⟨there, named⟩
    exact ⟨_, ((inv.consistent.listed repo).2 _).mpr ⟨image, there, named⟩, there⟩

theorem nodup_imagesForRepo (inv : Indexed store) : (store.imagesForRepo repo).Nodup := by
  refine List.Nodup.filterMap (fun digest digest' image there there' => ?_) (inv.consistent.listed repo).1
  exact (inv.keyed digest image there).symm.trans (inv.keyed digest' image there')

theorem described_eq (inv : Indexed store) :
    (store.imagesForRepo repo).filter (·.satisfies id) = (store.resolve repo id).toList := by
  refine eq_toList_of_mem ((nodup_imagesForRepo inv).filter _) fun image => ?_
  rw [List.mem_filter, mem_imagesForRepo inv, resolve_eq_some_iff inv, and_assoc]

/-- `BatchDeleteImage` looks at the digest alone, where there is one. -/
theorem targetDigest_eq (inv : Indexed store) (fits : TagFits store repo id) :
    store.targetDigest repo id = (store.resolve repo id).map (·.imageDigest) := by
  cases found : store.resolve repo id with
  | some image =>
    obtain ⟨there, named, satisfies⟩ := (resolve_eq_some_iff inv image).mp found
    obtain ⟨given, ofDigest, ofTag⟩ := (satisfies_iff image).mp satisfies
    rw [EcrStore.targetDigest, Option.map_some]
    cases digest : strParam id "imageDigest" with
    | some d =>
      obtain rfl := ofDigest d digest
      dsimp only
      rw [if_pos]
      simp [there, named]
    | none =>
      cases tag : strParam id "imageTag" with
      | some t => exact (inv.consistent.tagged repo t _).mpr ⟨image, there, named, ofTag t tag⟩
      | none => simp [digest, tag] at given
  | none =>
    have absent : ∀ image : Image, store.images[image.imageDigest]? = some image → image.repositoryName = repo →
        image.satisfies id ≠ true := by
      intro image there named satisfies
      have resolved := (resolve_eq_some_iff inv image).mpr ⟨there, named, satisfies⟩
      rw [found] at resolved
      cases resolved
    rw [EcrStore.targetDigest, Option.map_none]
    cases digest : strParam id "imageDigest" with
    | some d =>
      dsimp only
      rw [if_neg]
      rw [Option.any_eq_true]
      rintro ⟨image, there, named⟩
      rw [beq_iff_eq] at named
      have same := inv.keyed d image there
      refine absent image (by rw [same, there]) named ((satisfies_iff image).mpr ⟨.inl (by simp [digest]), ?_, ?_⟩)
      · intro other given
        rw [same]
        exact Option.some.inj (digest.symm.trans given)
      · exact fun tag given => fits d tag image digest given there named
    | none =>
      cases tag : strParam id "imageTag" with
      | some t =>
        refine Option.eq_none_iff_forall_ne_some.mpr fun d filed => ?_
        obtain ⟨image, there, named, carried⟩ := (inv.consistent.tagged repo t d).mp filed
        refine absent image (by rw [inv.keyed d image there, there]) named
          ((satisfies_iff image).mpr ⟨.inr (by simp [tag]), by simp [digest], fun other given => ?_⟩)
        rwa [← Option.some.inj (tag.symm.trans given)]
      | none => rfl

end Lookups

section Requests

variable {store : EcrStore} {repo : String} {id : Json} {act : Act}

theorem imageIds_idBody : imageIds (idBody repo id) = [id] := rfl

theorem batchGetImage_idBody :
    batchGetImage store (idBody repo id) = gotImages (store.resolve repo id).toList := by
  have named : strParam (idBody repo id) "repositoryName" = some repo := rfl
  rw [batchGetImage, named]
  dsimp only
  rw [imageIds_idBody]
  cases found : store.resolve repo id <;> simp [found]

theorem describeImages_idBody (inv : Indexed store) (tenant : Tenant) :
    describeImages tenant store (idBody repo id) = describedImages tenant (store.resolve repo id).toList := by
  have named : strParam (idBody repo id) "repositoryName" = some repo := rfl
  have filters : (fun image : Image => [id].isEmpty || [id].any image.satisfies) = (·.satisfies id) := by
    funext image
    simp
  rw [describeImages, named]
  dsimp only
  rw [imageIds_idBody, filters, described_eq inv]

theorem batchDeleteImage_idBody (body : act.body = idBody repo id)
    (exists_ : store.repositories.contains repo = true) :
    batchDeleteImage act store =
      (.ok (.obj [("failures", .arr (deleteEntry repo ([], [], store) id).2.1),
          ("imageIds", .arr (deleteEntry repo ([], [], store) id).1)]),
        (deleteEntry repo ([], [], store) id).2.2) := by
  have named : strParam act.body "repositoryName" = some repo := by rw [body]; rfl
  have ids : ((act.body.get? "imageIds").bind Json.asArray?).getD [] = [id] := by rw [body]; rfl
  rw [batchDeleteImage, named]
  dsimp only
  rw [if_pos exists_, ids, List.foldl_cons, List.foldl_nil]

theorem repositories_removeImage (digest : String) :
    (store.removeImage digest).2.repositories = store.repositories := by
  rw [EcrStore.removeImage]
  split <;> rfl

/-- The id stands for the image that `BatchGetImage` finds, if the lookup of the deletion agrees. -/
theorem denotes_resolve (inv : Indexed store) (tenant : Tenant) (fits : TagFits store repo id) :
    Denotes tenant store repo id (store.resolve repo id) := by
  refine ⟨batchGetImage_idBody, describeImages_idBody inv tenant, fun act body => ?_⟩
  have target := targetDigest_eq inv fits
  cases found : store.resolve repo id with
  | some image =>
    obtain ⟨there, named, -⟩ := (resolve_eq_some_iff inv image).mp found
    have exists_ := inv.consistent.housed _ image there
    rw [named] at exists_
    rw [found, Option.map_some] at target
    have entry : deleteEntry repo ([], [], store) id =
        ([.obj [("imageDigest", .str image.imageDigest),
            ("imageTag", ((strParam id "imageTag").map Json.str).getD .null)]], [],
          (store.removeImage image.imageDigest).2) := by
      simp [deleteEntry, target]
    rw [batchDeleteImage_idBody body exists_, entry]
    exact ⟨rfl, images_removeImage image.imageDigest, repositories_removeImage _⟩
  | none =>
    rw [found, Option.map_none] at target
    cases exists_ : store.repositories.contains repo with
    | true =>
      have entry : deleteEntry repo ([], [], store) id = ([], [
          .obj [("failureCode", .str "ImageNotFoundException"),
            ("failureMessage", .str "Requested image not found"),
            ("imageId", .obj [("imageDigest", ((strParam id "imageDigest").map Json.str).getD .null),
              ("imageTag", ((strParam id "imageTag").map Json.str).getD .null)])]], store) := by
        simp [deleteEntry, target]
      rw [batchDeleteImage_idBody body exists_, entry]
      exact ⟨⟨_, rfl, rfl⟩, rfl⟩
    | false =>
      have named : strParam act.body "repositoryName" = some repo := by rw [body]; rfl
      have refused : batchDeleteImage act store =
          (notFound ("The repository with name '" ++ repo ++ "' does not exist"), store) := by
        rw [batchDeleteImage, named]
        dsimp only
        rw [if_neg (by rw [exists_]; exact Bool.false_ne_true)]
      rw [refused]
      exact ⟨trivial, rfl⟩

/-- An id with a tag that its image does not carry stands for no image, but its image is deleted. -/
theorem tagFits_of_denotes (inv : Indexed store) {tenant : Tenant} {found : Option Image}
    (denotes : Denotes tenant store repo id found) : TagFits store repo id := by
  intro digest tag image givenDigest givenTag there named
  by_contra uncarried
  have same := inv.keyed digest image there
  have unresolved : store.resolve repo id = none := by
    refine Option.eq_none_iff_forall_ne_some.mpr fun other resolved => uncarried ?_
    obtain ⟨there', -, satisfies⟩ := (resolve_eq_some_iff inv other).mp resolved
    obtain ⟨-, ofDigest, ofTag⟩ := (satisfies_iff other).mp satisfies
    rw [ofDigest digest givenDigest] at there'
    rw [Option.some.inj (there.symm.trans there')]
    exact ofTag tag givenTag
  obtain rfl : found = none := by
    have answers := batchGetImage_idBody.symm.trans denotes.got
    rw [unresolved] at answers
    cases found with
    | none => rfl
    | some image => simp [gotImages] at answers
  obtain ⟨-, kept⟩ := denotes.deleted ⟨.batchDeleteImage, idBody repo id, 0, firstUuid⟩ rfl
  have target : store.targetDigest repo id = some digest := by
    rw [EcrStore.targetDigest, givenDigest]
    dsimp only
    rw [if_pos]
    simp [there, named]
  have exists_ := inv.consistent.housed digest image there
  rw [named] at exists_
  rw [batchDeleteImage_idBody rfl exists_] at kept
  have gone : (deleteEntry repo ([], [], store) id).2.2.images[digest]? = none := by
    simp only [deleteEntry, target]
    rw [images_removeImage, if_pos rfl]
  dsimp only at kept
  rw [kept, there] at gone
  cases gone

end Requests

/-- For every store that a run with fresh digests reaches, every repository and every image id. -/
theorem image_ids_denote_iff (tenant : Tenant) (acts : List Act)
    (fresh : Run.AllSteps (step tenant) FreshDigest {} acts) (repo : String) (id : Json) :
    (∃ found, Denotes tenant (acts.foldl (step tenant) {}) repo id found) ↔
      TagFits (acts.foldl (step tenant) {}) repo id := by
  have inv := indexed_run tenant acts fresh
  constructor
  · rintro ⟨found, denotes⟩
    exact tagFits_of_denotes inv denotes
  · exact fun fits => ⟨_, denotes_resolve inv tenant fits⟩

section Example

def appTenant : Tenant := ⟨"000000000000", "us-east-1"⟩

/-- One image with the tag `latest`. -/
def pushActs : List Act := [
  ⟨.createRepository, .obj [("repositoryName", .str "app")], 1700000000, firstUuid⟩,
  ⟨.putImage, .obj [("imageTag", .str "latest"), ("repositoryName", .str "app")], 1700000001, firstUuid⟩]

def pushedDigest : String := "sha256:6b1f0c2e5d3a4e8b9c7d0a1b2c3d4e5f"

theorem tag_denotes_pushed : ∃ found, Denotes appTenant (pushActs.foldl (step appTenant) {}) "app"
    (.obj [("imageTag", .str "latest")]) found :=
  (image_ids_denote_iff appTenant pushActs (by decide +kernel) "app" _).mpr fun _ _ _ given => by
    cases given

/-- The image has no tag `old`, and goes by its digest all the same. -/
theorem contradictory_id_deletes : ¬ ∃ found, Denotes appTenant (pushActs.foldl (step appTenant) {}) "app"
    (.obj [("imageDigest", .str pushedDigest), ("imageTag", .str "old")]) found := by
  rintro ⟨found, denotes⟩
  have inv := indexed_run appTenant pushActs (by decide +kernel)
  have fits := tagFits_of_denotes inv denotes
  have pushed : ((pushActs.foldl (step appTenant) {}).images[pushedDigest]?.map fun image =>
      (image.repositoryName, image.imageTags)) = some ("app", ["latest"]) := by decide +kernel
  obtain ⟨image, there, shape⟩ := Option.map_eq_some_iff.mp pushed
  obtain ⟨named, tags⟩ := Prod.mk.inj shape
  have carried := fits pushedDigest "old" image rfl rfl there named
  rw [tags] at carried
  exact absurd carried (by decide)

end Example

end Openstack.Ecr

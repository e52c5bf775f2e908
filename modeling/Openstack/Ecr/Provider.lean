import Mathlib.Logic.Function.Basic
import Openstack.Framework.JsonService
import Openstack.Lib.StrMap

/-!
# Image repositories

`crates/services/ecr/src/store.rs` and the operations of `provider.rs` that create and delete
repositories, put images and delete them (lines 90-243 and 310-390), for one account and region. The
store of an account that has none behaves like an empty one. The uuid and the time of a request are
arguments; times are in seconds.
-/
namespace Openstack.Ecr

open JsonService (Answer Uuid strParam int)

structure Repository where
  name : String
  registryId : String
  arn : String
  uri : String
  created : Int
  deriving DecidableEq, Repr

structure Image where
  repositoryName : String
  imageDigest : String
  imageTags : List String
  imageManifest : String
  pushedAt : Int
  sizeBytes : Nat
  deriving DecidableEq, Repr

/-- Images by digest, digests by repository, and the digest under a repository and a tag. -/
structure EcrStore where
  repositories : StrMap Repository := ∅
  images : StrMap Image := ∅
  repoIndex : StrMap (List String) := ∅
  tagIndex : String × String → Option String := fun _ => none

/-- The digests filed under a repository. -/
def EcrStore.digests (store : EcrStore) (repo : String) : List String := (store.repoIndex[repo]?).getD []

def EcrStore.digestForTag (store : EcrStore) (repo tag : String) : Option String :=
  store.tagIndex (repo, tag)

def Image.dropTag (image : Image) (tag : String) : Image :=
  { image with imageTags := image.imageTags.filter (· ≠ tag) }

/-- Take a tag from the image that has it, unless it is the new one. -/
def stealTag (tagIndex : String × String → Option String) (repo digest : String)
    (images : StrMap Image) (tag : String) : StrMap Image :=
  match tagIndex (repo, tag) with
  | none => images
  | some oldDigest =>
    if oldDigest = digest then images
    else
      match images[oldDigest]? with
      | none => images
      | some oldImage => images.insert oldDigest (oldImage.dropTag tag)

def setTags (repo digest : String) (tags : List String) (tagIndex : String × String → Option String) :
    String × String → Option String :=
  tags.foldl (fun index tag => Function.update index (repo, tag) (some digest)) tagIndex

def clearTags (repo : String) (tags : List String) (tagIndex : String × String → Option String) :
    String × String → Option String :=
  tags.foldl (fun index tag => Function.update index (repo, tag) none) tagIndex

def EcrStore.insertImage (store : EcrStore) (digest : String) (image : Image) : EcrStore :=
  let repo := image.repositoryName
  let listed := store.digests repo
  { store with
    images := (image.imageTags.foldl (stealTag store.tagIndex repo digest) store.images).insert digest image
    repoIndex := store.repoIndex.insert repo (if digest ∈ listed then listed else listed ++ [digest])
    tagIndex := setTags repo digest image.imageTags store.tagIndex }

/-- The list of digests without one, which goes when it is empty. -/
def unlist (repoIndex : StrMap (List String)) (repo digest : String) : StrMap (List String) :=
  match repoIndex[repo]? with
  | none => repoIndex
  | some digests =>
    let kept := digests.filter (· ≠ digest)
    if kept = [] then repoIndex.erase repo else repoIndex.insert repo kept

def EcrStore.removeImage (store : EcrStore) (digest : String) : Option Image × EcrStore :=
  match store.images[digest]? with
  | none => (none, store)
  | some image =>
    (some image,
      { store with
        images := store.images.erase digest
        repoIndex := unlist store.repoIndex image.repositoryName digest
        tagIndex := clearTags image.repositoryName image.imageTags store.tagIndex })

/-- One round of the loop of `remove_repo_images`. -/
def EcrStore.dropImage (repo : String) (store : EcrStore) (digest : String) : EcrStore :=
  match store.images[digest]? with
  | none => store
  | some image =>
    { store with
      images := store.images.erase digest
      tagIndex := clearTags repo image.imageTags store.tagIndex }

def EcrStore.removeRepoImages (store : EcrStore) (repo : String) : EcrStore :=
  match store.repoIndex[repo]? with
  | none => store
  | some digests =>
    digests.foldl (EcrStore.dropImage repo) { store with repoIndex := store.repoIndex.erase repo }

inductive Operation where
  | createRepository
  | deleteRepository
  | putImage
  | batchDeleteImage
  deriving DecidableEq, Repr

structure Act where
  operation : Operation
  body : Json
  now : Int
  uuid : Uuid

structure Tenant where
  accountId : String
  region : String

def repoArn (tenant : Tenant) (name : String) : String :=
  "arn:aws:ecr:" ++ tenant.region ++ ":" ++ tenant.accountId ++ ":repository/" ++ name

def repoUri (tenant : Tenant) (name : String) : String :=
  tenant.accountId ++ ".dkr.ecr." ++ tenant.region ++ ".amazonaws.com/" ++ name

def nameRequired : Answer := .error "InvalidParameterException" "repositoryName required" 400

def notFound (message : String) : Answer := .error "RepositoryNotFoundException" message 400

/-- The digest that `PutImage` draws. -/
def Act.digest (act : Act) : String :=
  "sha256:" ++ String.ofList (act.uuid.text.toList.filter (· ≠ '-'))

section Operations

variable (tenant : Tenant) (act : Act) (store : EcrStore)

def createRepository : Answer × EcrStore :=
  match strParam act.body "repositoryName" with
  | none => (nameRequired, store)
  | some name =>
    if store.repositories.contains name then
      (.error "RepositoryAlreadyExistsException" ("Repository " ++ name ++ " already exists") 400, store)
    else
      let repo : Repository :=
        ⟨name, tenant.accountId, repoArn tenant name, repoUri tenant name, act.now⟩
      (.ok (.obj [("repository", .obj [("createdAt", int act.now), ("registryId", .str repo.registryId),
          ("repositoryArn", .str repo.arn), ("repositoryName", .str name),
          ("repositoryUri", .str repo.uri)])]),
        { store with repositories := store.repositories.insert name repo })

def deleteRepository : Answer × EcrStore :=
  match strParam act.body "repositoryName" with
  | none => (nameRequired, store)
  | some name =>
    match store.repositories[name]? with
    | none => (notFound ("Repository " ++ name ++ " not found"), store)
    | some repo =>
      (.ok (.obj [("repository", .obj [("registryId", .str repo.registryId),
          ("repositoryArn", .str repo.arn), ("repositoryName", .str repo.name),
          ("repositoryUri", .str repo.uri)])]),
        { store with repositories := store.repositories.erase name }.removeRepoImages name)

/-- The image that `PutImage` makes, with its one tag or none. -/
def newImage (repo : String) : Image where
  repositoryName := repo
  imageDigest := act.digest
  imageTags := (strParam act.body "imageTag").toList
  imageManifest := (strParam act.body "imageManifest").getD ""
  pushedAt := act.now
  sizeBytes := ((strParam act.body "imageManifest").getD "").utf8ByteSize

def putImage : Answer × EcrStore :=
  match strParam act.body "repositoryName" with
  | none => (nameRequired, store)
  | some repo =>
    if store.repositories.contains repo then
      let image := newImage act repo
      (.ok (.obj [("image", .obj [
          ("imageId", .obj [("imageDigest", .str act.digest),
            ("imageTag", ((strParam act.body "imageTag").map Json.str).getD .null)]),
          ("imageManifest", .str image.imageManifest), ("repositoryName", .str repo)])]),
        store.insertImage act.digest image)
    else (notFound ("Repository " ++ repo ++ " not found"), store)

/-- The digest that an entry of `imageIds` names in the repository; the digest counts before the tag. -/
def EcrStore.targetDigest (store : EcrStore) (repo : String) (id : Json) : Option String :=
  match strParam id "imageDigest", strParam id "imageTag" with
  | some digest, _ => if store.images[digest]?.any (·.repositoryName == repo) then some digest else none
  | none, some tag => store.digestForTag repo tag
  | none, none => none

/-- One round of the loop of `BatchDeleteImage`: the ids deleted, the failures and the store. -/
def deleteEntry (repo : String) (done : List Json × List Json × EcrStore) (id : Json) :
    List Json × List Json × EcrStore :=
  let (deleted, failures, store) := done
  let tag := ((strParam id "imageTag").map Json.str).getD .null
  match store.targetDigest repo id with
  | some digest =>
    (deleted ++ [.obj [("imageDigest", .str digest), ("imageTag", tag)]], failures,
      (store.removeImage digest).2)
  | none =>
    (deleted, failures ++ [.obj [("failureCode", .str "ImageNotFoundException"),
      ("failureMessage", .str "Requested image not found"),
      ("imageId", .obj [("imageDigest", ((strParam id "imageDigest").map Json.str).getD .null),
        ("imageTag", tag)])]], store)

def batchDeleteImage : Answer × EcrStore :=
  match strParam act.body "repositoryName" with
  | none => (nameRequired, store)
  | some repo =>
    if store.repositories.contains repo then
      let imageIds := ((act.body.get? "imageIds").bind Json.asArray?).getD []
      let (deleted, failures, store) := imageIds.foldl (deleteEntry repo) ([], [], store)
      (.ok (.obj [("failures", .arr failures), ("imageIds", .arr deleted)]), store)
    else (notFound ("The repository with name '" ++ repo ++ "' does not exist"), store)

end Operations

def dispatch (tenant : Tenant) (store : EcrStore) (act : Act) : Answer × EcrStore :=
  match act.operation with
  | .createRepository => createRepository tenant act store
  | .deleteRepository => deleteRepository act store
  | .putImage => putImage act store
  | .batchDeleteImage => batchDeleteImage act store

def step (tenant : Tenant) (store : EcrStore) (act : Act) : EcrStore := (dispatch tenant store act).2

end Openstack.Ecr

import Openstack.Lib.StrMap

/-!
# S3 buckets, objects and uploads

`crates/services/s3/src/store.rs`: the store of one account in one region. A path
is its list of components below the base directory. Version ids, upload ids and
instants are drawn by the callers and come in as arguments.
-/
namespace Openstack.S3

abbrev Bytes := List UInt8

abbrev Path := List String

/-- Seconds since the epoch. -/
abbrev Instant := Int

/-- Where the bytes of an object or of an upload part live. -/
inductive ObjectDataRef where
  | inline (bytes : Bytes)
  | fileRef (path : Path)
  deriving DecidableEq, Repr

def ObjectDataRef.path? : ObjectDataRef → Option Path
  | .fileRef path => some path
  | .inline _ => none

structure Bucket where
  name : String
  creationDate : Instant
  region : String
  /-- `"Enabled"`, `"Suspended"` or `""`. -/
  versioning : String
  deriving DecidableEq, Repr

structure ObjectVersion where
  versionId : String
  lastModified : Instant
  etag : String
  contentType : String
  size : Nat
  metadata : StrMap String
  data : ObjectDataRef
  deleteMarker : Bool

/-- The versions of one key, newest first. -/
structure S3Object where
  key : String
  versions : List ObjectVersion

namespace S3Object

def new (key : String) (version : ObjectVersion) : S3Object := ⟨key, [version]⟩

/-- The latest version, unless it is a delete marker. -/
def current (obj : S3Object) : Option ObjectVersion := obj.versions.head?.filter (!·.deleteMarker)

/-- Put a version on top; the null version replaces everything. -/
def push (obj : S3Object) (version : ObjectVersion) : S3Object :=
  if version.versionId = "null" then { obj with versions := [version] }
  else { obj with versions := version :: obj.versions }

end S3Object

/-- The objects of one bucket, each stored under its own key. -/
structure Objects where
  map : StrMap S3Object
  keyed : ∀ (key : String) obj, map[key]? = some obj → obj.key = key

namespace Objects

def empty : Objects := ⟨∅, by simp⟩

/-- Store the object under its key. -/
def set (o : Objects) (obj : S3Object) : Objects where
  map := o.map.insert obj.key obj
  keyed := by
    intro key stored found
    rw [StrMap.getElem?_insert] at found
    split at found
    · next same =>
      rw [← Option.some.inj found]
      exact same
    · exact o.keyed key stored found

def erase (o : Objects) (key : String) : Objects where
  map := o.map.erase key
  keyed := by
    intro other stored found
    rw [StrMap.getElem?_erase] at found
    split at found
    · cases found
    · exact o.keyed other stored found

end Objects

structure UploadPart where
  partNumber : Nat
  etag : String
  size : Nat
  data : ObjectDataRef
  lastModified : Instant
  deriving DecidableEq, Repr

structure MultipartUpload where
  uploadId : String
  bucket : String
  key : String
  initiated : Instant
  contentType : String
  metadata : StrMap String
  /-- Part number and part, one entry for each number. -/
  parts : List (Nat × UploadPart)

def MultipartUpload.insertPart (u : MultipartUpload) (part : UploadPart) : MultipartUpload :=
  { u with parts := (part.partNumber, part) :: u.parts.filter (fun p => p.1 ≠ part.partNumber) }

structure S3Store where
  buckets : StrMap Bucket := ∅
  objects : StrMap Objects := ∅
  multipartUploads : StrMap MultipartUpload := ∅

namespace S3Store

def bucketExists (store : S3Store) (name : String) : Bool := store.buckets.contains name

/-- `b.versioning == "Enabled"`, and `false` for a missing bucket. -/
def versioningEnabled (store : S3Store) (name : String) : Bool :=
  (store.buckets[name]?.map fun b => b.versioning == "Enabled").getD false

def createBucket (now : Instant) (store : S3Store) (name region : String) : S3Store :=
  { store with
    buckets := store.buckets.insert name ⟨name, now, region, ""⟩
    objects :=
      if store.objects.contains name then store.objects else store.objects.insert name .empty }

/-- `delete_bucket`; the objects go only with the bucket. -/
def deleteBucket (store : S3Store) (name : String) : S3Store :=
  if store.bucketExists name then
    { store with buckets := store.buckets.erase name, objects := store.objects.erase name }
  else store

def isBucketEmpty (store : S3Store) (name : String) : Bool :=
  (store.objects[name]?.map fun objects => objects.map.isEmpty).getD true

def hasIncompleteMultipartUploads (store : S3Store) (bucket : String) : Bool :=
  (StrMap.values store.multipartUploads).any fun u => u.bucket == bucket

def object? (store : S3Store) (bucket key : String) : Option S3Object :=
  store.objects[bucket]?.bind fun objects => objects.map[key]?

/-- `put_object_version`: the data of the version it replaced on top, and the store. -/
@[grind] def putObjectVersion (store : S3Store) (bucket key : String) (version : ObjectVersion) :
    Option ObjectDataRef × S3Store :=
  let objects := store.objects[bucket]?.getD .empty
  match objects.map[key]? with
  | some obj =>
    (obj.versions.head?.map (·.data),
      { store with objects := store.objects.insert bucket (objects.set (obj.push version)) })
  | none =>
    (none,
      { store with objects := store.objects.insert bucket (objects.set (S3Object.new key version)) })

def getObject (store : S3Store) (bucket key : String) : Option ObjectVersion :=
  (store.object? bucket key).bind (·.current)

def getObjectVersion (store : S3Store) (bucket key versionId : String) : Option ObjectVersion :=
  (store.object? bucket key).bind fun obj => obj.versions.find? (·.versionId == versionId)

/-- `delete_object` on a bucket without versioning, or the delete marker `markerId`
on one with it. -/
@[grind] def deleteObject (now : Instant) (markerId : String) (store : S3Store) (bucket key : String) :
    Option ObjectVersion × S3Store :=
  match store.objects[bucket]? with
  | none => (none, store)
  | some objects =>
    if store.versioningEnabled bucket then
      let marker : ObjectVersion :=
        { versionId := markerId
          lastModified := now
          etag := ""
          contentType := ""
          size := 0
          metadata := ∅
          data := .inline []
          deleteMarker := true }
      let obj := objects.map[key]?.getD ⟨key, []⟩
      (some marker,
        { store with
          objects := store.objects.insert bucket
            (objects.set { obj with versions := marker :: obj.versions }) })
    else
      (objects.map[key]?.bind (·.versions.head?),
        { store with objects := store.objects.insert bucket (objects.erase key) })

/-- Remove the version; an object without versions goes with it. -/
def deleteObjectVersion (store : S3Store) (bucket key versionId : String) :
    Option ObjectVersion × S3Store :=
  match store.objects[bucket]? with
  | none => (none, store)
  | some objects =>
    match objects.map[key]? with
    | none => (none, store)
    | some obj =>
      match obj.versions.find? (·.versionId == versionId) with
      | none => (none, store)
      | some removed =>
        let versions := obj.versions.eraseP (·.versionId == versionId)
        let kept :=
          if versions.isEmpty then objects.erase key else objects.set { obj with versions }
        (some removed, { store with objects := store.objects.insert bucket kept })

/-- `list_objects`: every object of the bucket in key order. -/
def listObjects (store : S3Store) (bucket : String) : List S3Object :=
  (store.objects[bucket]?.map fun objects => StrMap.values objects.map).getD []

def createMultipartUpload (now : Instant) (uploadId : String) (store : S3Store)
    (bucket key contentType : String) (metadata : StrMap String) : S3Store :=
  { store with
    multipartUploads := store.multipartUploads.insert uploadId
      ⟨uploadId, bucket, key, now, contentType, metadata, []⟩ }

/-- `upload_part_with_etag`; nothing happens for an unknown upload. -/
def uploadPartWithEtag (now : Instant) (store : S3Store) (uploadId : String) (partNumber : Nat)
    (data : ObjectDataRef) (etag : String) (size : Nat) : S3Store :=
  match store.multipartUploads[uploadId]? with
  | none => store
  | some u =>
    { store with
      multipartUploads := store.multipartUploads.insert uploadId
        (u.insertPart ⟨partNumber, etag, size, data, now⟩) }

def abortMultipartUpload (store : S3Store) (uploadId : String) : S3Store :=
  { store with multipartUploads := store.multipartUploads.erase uploadId }

/-- `complete_multipart_upload_with_version`. -/
def completeMultipartUploadWithVersion (store : S3Store) (uploadId : String)
    (version : ObjectVersion) : Option ObjectDataRef × S3Store :=
  match store.multipartUploads[uploadId]? with
  | none => (none, store)
  | some u =>
    { store with multipartUploads := store.multipartUploads.erase uploadId }.putObjectVersion
      u.bucket u.key version

end S3Store
end Openstack.S3

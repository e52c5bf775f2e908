import Openstack.S3.Provider

/-!
# Which S3 operation a request is

`derive_s3_operation` of `provider.rs`, lines 297-314 and 3240-3353, and the sub-resources of
`is_s3_object_body_request` (`crates/gateway/src/server.rs:3047-3066`). Each branch tests for the query
parameters it knows and ends in an operation on the object or bucket itself.
-/
namespace Openstack.S3

/-- Method, path, headers and query parameters. Header names are in lower case. -/
structure HttpRequest where
  method : String
  path : String
  headers : Headers
  queryParams : QueryParams

def HttpRequest.hasHeader (req : HttpRequest) (name : String) : Bool := (req.headers.lookup name).isSome

def HttpRequest.hasQuery (req : HttpRequest) (name : String) : Bool := req.queryParams.contains name

/-- The path has a nonempty segment after the bucket. -/
def pathHasKey (path : String) : Bool :=
  !(((path.toList.dropWhile (· = '/')).dropWhile (· ≠ '/')).dropWhile (· = '/')).isEmpty

def pathHasBucket (path : String) : Bool :=
  !((path.toList.dropWhile (· = '/')).takeWhile (· ≠ '/')).isEmpty

inductive S3Operation where
  | listBuckets
  | getBucketLocation
  | getBucketAcl
  | getBucketPolicy
  | getBucketVersioning
  | listObjectVersions
  | getBucketNotificationConfiguration
  | listMultipartUploads
  | listObjectsV2
  | listObjects
  | getObjectAcl
  | presignedGetObject
  | getObject
  | headBucket
  | headObject
  | putBucketAcl
  | putBucketPolicy
  | putBucketVersioning
  | putBucketNotificationConfiguration
  | createBucket
  | copyObject
  | uploadPart
  | putObjectAcl
  | putObject
  | deleteBucketPolicy
  | deleteBucket
  | abortMultipartUpload
  | deleteObject
  | deleteObjects
  | createMultipartUpload
  | postObject
  | completeMultipartUpload
  | unknown (method : String)
  deriving DecidableEq, Repr

section Derivation

variable (req : HttpRequest)

def getBucketOperation : S3Operation :=
  if req.hasQuery "location" then .getBucketLocation
  else if req.hasQuery "acl" then .getBucketAcl
  else if req.hasQuery "policy" then .getBucketPolicy
  else if req.hasQuery "versioning" then .getBucketVersioning
  else if req.hasQuery "versions" then .listObjectVersions
  else if req.hasQuery "notification" then .getBucketNotificationConfiguration
  else if req.hasQuery "uploads" then .listMultipartUploads
  else if req.queryParams["list-type"]? = some "2" then .listObjectsV2
  else .listObjects

def getObjectOperation : S3Operation :=
  if req.hasQuery "acl" then .getObjectAcl
  else if req.hasQuery "X-Amz-Signature" || req.hasQuery "x-amz-signature" then .presignedGetObject
  else .getObject

def putBucketOperation : S3Operation :=
  if req.hasQuery "acl" then .putBucketAcl
  else if req.hasQuery "policy" then .putBucketPolicy
  else if req.hasQuery "versioning" then .putBucketVersioning
  else if req.hasQuery "notification" then .putBucketNotificationConfiguration
  else .createBucket

def putObjectOperation : S3Operation :=
  if req.hasHeader "x-amz-copy-source" then .copyObject
  else if req.hasQuery "uploadId" && req.hasQuery "partNumber" then .uploadPart
  else if req.hasQuery "acl" then .putObjectAcl
  else .putObject

def deleteBucketOperation : S3Operation :=
  if req.hasQuery "policy" then .deleteBucketPolicy else .deleteBucket

def deleteObjectOperation : S3Operation :=
  if req.hasQuery "uploadId" then .abortMultipartUpload else .deleteObject

def postBucketOperation : S3Operation :=
  if req.hasQuery "delete" then .deleteObjects
  else if req.hasQuery "uploads" then .createMultipartUpload
  else .postObject

def postObjectOperation : S3Operation :=
  if req.hasQuery "uploadId" then .completeMultipartUpload
  else if req.hasQuery "uploads" then .createMultipartUpload
  else .postObject

def deriveS3Operation : S3Operation :=
  match req.method, pathHasBucket req.path, pathHasKey req.path with
  | "GET", false, _ => .listBuckets
  | "GET", true, false => getBucketOperation req
  | "GET", true, true => getObjectOperation req
  | "HEAD", true, false => .headBucket
  | "HEAD", true, true => .headObject
  | "PUT", true, false => putBucketOperation req
  | "PUT", true, true => putObjectOperation req
  | "DELETE", true, false => deleteBucketOperation req
  | "DELETE", true, true => deleteObjectOperation req
  | "POST", true, false => postBucketOperation req
  | "POST", true, true => postObjectOperation req
  | method, _, _ => .unknown method

end Derivation

/-- `XML_BODY_SUBRESOURCES`. -/
def xmlBodySubresources : List String :=
  ["acl", "tagging", "policy", "website", "cors", "lifecycle", "notification", "replication",
    "requestPayment", "versioning", "logging", "encryption", "object-lock", "ownershipControls",
    "accelerate", "inventory", "analytics", "metrics"]

/-- The operation overwrites or deletes the object or the bucket that the path names. -/
@[grind] def S3Operation.overwritesOrDeletes : S3Operation → Bool
  | .putObject | .copyObject | .completeMultipartUpload | .deleteObject | .createBucket |
    .deleteBucket => true
  | _ => false

def S3Operation.replacesObject : S3Operation → Bool
  | .putObject | .copyObject | .completeMultipartUpload => true
  | _ => false

section Statement

variable (others : List String) (req : HttpRequest)

/-- The query string names one of the gateway's sub-resources, or one of `others`. -/
def NamesSubresource : Prop := ∃ name ∈ xmlBodySubresources ++ others, req.hasQuery name = true

/-- UploadPartCopy. -/
def IsPartCopy : Prop :=
  req.method = "PUT" ∧ req.hasHeader "x-amz-copy-source" = true ∧ req.hasQuery "uploadId" = true ∧
    req.hasQuery "partNumber" = true

structure KeepsData : Prop where
  subresource : NamesSubresource others req → (deriveS3Operation req).overwritesOrDeletes = false
  partCopy : IsPartCopy req → (deriveS3Operation req).replacesObject = false

def OnBucket : Prop := pathHasBucket req.path = true ∧ pathHasKey req.path = false

def OnObject : Prop := pathHasBucket req.path = true ∧ pathHasKey req.path = true

/-- The parameters that the branch knows keep it from its last case. -/
@[mk_iff]
structure KnownSubresource : Prop where
  putBucket : req.method = "PUT" → OnBucket req → req.hasQuery "acl" = true ∨
    req.hasQuery "policy" = true ∨ req.hasQuery "versioning" = true ∨ req.hasQuery "notification" = true
  putObject : req.method = "PUT" → OnObject req → req.hasHeader "x-amz-copy-source" = false ∧
    ((req.hasQuery "uploadId" = true ∧ req.hasQuery "partNumber" = true) ∨ req.hasQuery "acl" = true)
  deleteBucket : req.method = "DELETE" → OnBucket req → req.hasQuery "policy" = true
  deleteObject : req.method = "DELETE" → OnObject req → req.hasQuery "uploadId" = true
  postObject : req.method = "POST" → OnObject req → req.hasQuery "uploadId" = false

end Statement

section Branches

variable {req : HttpRequest}

theorem overwrites_putBucket : (putBucketOperation req).overwritesOrDeletes = false ↔
    (req.hasQuery "acl" = true ∨ req.hasQuery "policy" = true ∨ req.hasQuery "versioning" = true ∨
      req.hasQuery "notification" = true) := by
  unfold putBucketOperation
  repeat' split
  all_goals simp_all [S3Operation.overwritesOrDeletes]

theorem overwrites_putObject : (putObjectOperation req).overwritesOrDeletes = false ↔
    (req.hasHeader "x-amz-copy-source" = false ∧
      ((req.hasQuery "uploadId" = true ∧ req.hasQuery "partNumber" = true) ∨
        req.hasQuery "acl" = true)) := by
  unfold putObjectOperation
  repeat' split
  all_goals simp_all [S3Operation.overwritesOrDeletes]

theorem overwrites_deleteBucket : (deleteBucketOperation req).overwritesOrDeletes = false ↔
    req.hasQuery "policy" = true := by
  unfold deleteBucketOperation
  split <;> simp_all [S3Operation.overwritesOrDeletes]

theorem overwrites_deleteObject : (deleteObjectOperation req).overwritesOrDeletes = false ↔
    req.hasQuery "uploadId" = true := by
  unfold deleteObjectOperation
  split <;> simp_all [S3Operation.overwritesOrDeletes]

theorem overwrites_postObject : (postObjectOperation req).overwritesOrDeletes = false ↔
    req.hasQuery "uploadId" = false := by
  unfold postObjectOperation
  repeat' split
  all_goals simp_all [S3Operation.overwritesOrDeletes]

theorem reads_getBucket : (getBucketOperation req).overwritesOrDeletes = false := by
  unfold getBucketOperation
  repeat' split
  all_goals rfl

theorem reads_getObject : (getObjectOperation req).overwritesOrDeletes = false := by
  unfold getObjectOperation
  repeat' split
  all_goals rfl

theorem reads_postBucket : (postBucketOperation req).overwritesOrDeletes = false := by
  unfold postBucketOperation
  repeat' split
  all_goals rfl

/-- The operation leaves the named object and bucket alone exactly if the branch knows a parameter. -/
theorem overwrites_iff :
    (deriveS3Operation req).overwritesOrDeletes = false ↔ KnownSubresource req := by
  unfold deriveS3Operation
  rw [knownSubresource_iff, OnBucket, OnObject]
  split
  case h_1 _ method bucket => simp [method, bucket, S3Operation.overwritesOrDeletes]
  case h_2 method bucket key => simp [method, bucket, key, reads_getBucket]
  case h_3 method bucket key => simp [method, bucket, key, reads_getObject]
  case h_4 method bucket key => simp [method, bucket, key, S3Operation.overwritesOrDeletes]
  case h_5 method bucket key => simp [method, bucket, key, S3Operation.overwritesOrDeletes]
  case h_6 method bucket key => simp [method, bucket, key, overwrites_putBucket]
  case h_7 method bucket key => simp [method, bucket, key, overwrites_putObject]
  case h_8 method bucket key => simp [method, bucket, key, overwrites_deleteBucket]
  case h_9 method bucket key => simp [method, bucket, key, overwrites_deleteObject]
  case h_10 method bucket key => simp [method, bucket, key, reads_postBucket]
  case h_11 method bucket key => simp [method, bucket, key, overwrites_postObject]
  case h_12 => simp_all [S3Operation.overwritesOrDeletes]

theorem derive_put (method : req.method = "PUT") : deriveS3Operation req =
    if pathHasBucket req.path then
      if pathHasKey req.path then putObjectOperation req else putBucketOperation req
    else .unknown "PUT" := by
  unfold deriveS3Operation
  split <;> simp_all

theorem keepsObject_putBucket : (putBucketOperation req).replacesObject = false := by
  unfold putBucketOperation
  repeat' split
  all_goals rfl

/-- A part copy replaces the object whenever the path names one. -/
theorem keepsObject_partCopy (copy : IsPartCopy req) :
    (deriveS3Operation req).replacesObject = false ↔ ¬ OnObject req := by
  rw [derive_put copy.1, OnObject]
  by_cases bucket : pathHasBucket req.path = true
  · by_cases key : pathHasKey req.path = true
    · simp [bucket, key, putObjectOperation, copy.2.1, S3Operation.replacesObject]
    · simp [bucket, key, keepsObject_putBucket]
  · simp [bucket, S3Operation.replacesObject]

end Branches

/-- For every method, path, header set and query-parameter map, and any further sub-resource names. -/
theorem keeps_data_iff (others : List String) (req : HttpRequest) : KeepsData others req ↔
    (NamesSubresource others req → KnownSubresource req) ∧ ¬ (IsPartCopy req ∧ OnObject req) := by
  constructor
  · intro keeps
    refine ⟨fun names => overwrites_iff.mp (keeps.subresource names), fun both => ?_⟩
    exact (keepsObject_partCopy both.1).mp (keeps.partCopy both.1) both.2
  · intro cond
    refine ⟨fun names => overwrites_iff.mpr (cond.1 names), fun copy => ?_⟩
    exact (keepsObject_partCopy copy).mpr fun object => cond.2 ⟨copy, object⟩

/-- Setting the tags of an object stores the tags as the object. -/
def putTagging : HttpRequest where
  method := "PUT"
  path := "/docs/a"
  headers := []
  queryParams := (∅ : QueryParams).insert "tagging" ""

theorem put_tagging_replaces_object : deriveS3Operation putTagging = .putObject ∧
    ¬ KeepsData [] putTagging := by
  have derived : deriveS3Operation putTagging = .putObject := by decide +kernel
  refine ⟨derived, fun keeps => ?_⟩
  have kept := keeps.subresource ⟨"tagging", by decide +kernel, by decide +kernel⟩
  rw [derived] at kept
  cases kept

end Openstack.S3

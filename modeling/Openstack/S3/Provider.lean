import Mathlib.Data.List.Sort
import Openstack.S3.FileStore
import Openstack.S3.Listing

/-!
# Object and multipart handlers

`crates/services/s3/src/provider.rs`, lines 36-1316, 1585-2119 and 2320-2336: the handlers
that read and write objects, for one account in one region and one request at a time. A
store that was never created behaves like an empty one. Version and upload ids and
the time of the request come in with it.
-/
namespace Openstack.S3

abbrev Headers := List (String × String)

/-- `HeaderValue::to_str`: visible ASCII and tabs only. -/
def headerToStr (value : String) : Option String :=
  if value.toList.all fun c => c = '\t' ∨ (32 ≤ c.toNat ∧ c.toNat < 127) then some value else none

/-- `headers.get(name).and_then(|v| v.to_str().ok())`. -/
def headerStr (headers : Headers) (name : String) : Option String :=
  (headers.lookup name).bind headerToStr

/-- The user metadata: headers that begin with `x-amz-meta-`, the last value of a
name winning. -/
def userMetadata (headers : Headers) : StrMap String :=
  let front := "x-amz-meta-".toList
  headers.foldl (fun m (name, value) =>
    if front.isPrefixOf name.toList then
      match headerToStr value with
      | some v => m.insert (String.ofList (name.toList.drop front.length)) v
      | none => m
    else m) ∅

structure RequestContext where
  path : String
  region : String
  headers : Headers
  queryParams : QueryParams
  bodyReader : Option Stream
  spooledBody : Option Bytes
  rawBody : Option Bytes

def RequestContext.rawBodyBytes (ctx : RequestContext) : Bytes := ctx.rawBody.getD []

/-- What the handler draws while it serves the request. -/
structure Draws where
  now : Instant
  uuid : String

/-- The metadata and the files of one account in one region. -/
structure World where
  store : S3Store := {}
  files : ObjectFileStore := {}

def keyFromPath (path : String) : String :=
  let trimmed := path.toList.dropWhile (· = '/')
  String.ofList ((trimmed.dropWhile (· ≠ '/')).dropWhile (· = '/'))

def bucketNameRequired : S3Error := ⟨"InvalidBucketName", "Bucket name is required", 400⟩

def noSuchKey : S3Error := ⟨"NoSuchKey", "The specified key does not exist", 404⟩

def noSuchUpload : S3Error := ⟨"NoSuchUpload", "The specified upload does not exist", 404⟩

def internalError (message : String) : S3Error := ⟨"InternalError", message, 500⟩

/-- `hex::encode`. -/
def hexEncode (digest : Bytes) : String :=
  String.join (digest.map fun b => RustFmt.hex 2 b.toNat)

def formatEtag (digest : Bytes) : String := "\"" ++ hexEncode digest ++ "\""

def hexDigit (c : Char) : Option Nat :=
  if '0' ≤ c ∧ c ≤ '9' then some (c.toNat - '0'.toNat)
  else if 'a' ≤ c ∧ c ≤ 'f' then some (c.toNat - 'a'.toNat + 10)
  else if 'A' ≤ c ∧ c ≤ 'F' then some (c.toNat - 'A'.toNat + 10)
  else none

/-- `hex::decode`. -/
def hexDecode : List Char → Option Bytes
  | [] => some []
  | [_] => none
  | hi :: lo :: rest =>
    match hexDigit hi, hexDigit lo, hexDecode rest with
    | some h, some l, some bytes => some (UInt8.ofNat (16 * h + l) :: bytes)
    | _, _, _ => none

section Handlers

variable (cfg : Config)

def contentLength (ctx : RequestContext) : Option Nat :=
  (headerStr ctx.headers "content-length").bind (RustFmt.parseUnsigned 64)

/-- The body is kept in memory. -/
def keptInline (ctx : RequestContext) : Bool :=
  match ctx.bodyReader, ctx.spooledBody with
  | some _, _ =>
    match contentLength ctx with
    | some len => decide (len ≤ cfg.inlineObjectThreshold)
    | none => false
  | none, some spooled => decide (spooled.length ≤ cfg.inlineObjectThreshold)
  | none, none => decide (ctx.rawBodyBytes.length ≤ cfg.inlineObjectThreshold)

/-- The bytes a request brings, the reader before the spooled body before the raw one. -/
def bodyStream (ctx : RequestContext) : Stream :=
  match ctx.bodyReader, ctx.spooledBody with
  | some reader, _ => reader
  | none, some spooled => ⟨spooled, false⟩
  | none, none => ⟨ctx.rawBodyBytes, false⟩

/-- The length a file for the body is allocated with. -/
def announcedLength (ctx : RequestContext) : Option Nat :=
  match ctx.bodyReader, ctx.spooledBody with
  | some _, _ => contentLength ctx
  | none, some spooled => some spooled.length
  | none, none => none

/-- Take in the body of PutObject and UploadPart: entity tag, size and data. The
object goes to memory or to a file at `loc`. -/
def receiveBody (files : ObjectFileStore) (ctx : RequestContext) (loc : ObjectLocation)
    (notStored : String) : Except S3Error (String × Nat × ObjectDataRef) × ObjectFileStore :=
  let stream := bodyStream ctx
  if keptInline cfg ctx then
    if stream.fails then (.error (internalError "Failed to read request body"), files)
    else (.ok (formatEtag (cfg.md5 stream.bytes), stream.bytes.length, .inline stream.bytes), files)
  else
    match files.writeObjectFromReader cfg loc stream (announcedLength ctx) with
    | (none, files) => (.error (internalError notStored), files)
    | (some (path, written), files) =>
      (.ok (formatEtag (cfg.md5 stream.bytes), written, .fileRef path), files)

/-- The file of the version that the new null version replaced. -/
def replacedFilePath (versionId : String) (prev : Option ObjectDataRef) (data : ObjectDataRef) :
    Option Path :=
  if versionId = "null" then
    match prev with
    | some (.fileRef path) => if data = .fileRef path then none else some path
    | _ => none
  else none

/-- Remove the replaced file, if there is one. -/
def ObjectFileStore.removeReplaced (files : ObjectFileStore) : Option Path → ObjectFileStore
  | some path => files.removeFile path
  | none => files

def drawVersionId (draws : Draws) (store : S3Store) (bucket : String) : String :=
  if store.versioningEnabled bucket then draws.uuid else "null"

def handleCreateBucket (draws : Draws) (w : World) (ctx : RequestContext) :
    Except S3Error String × World :=
  match bucketFromPath ctx.path with
  | none => (.error bucketNameRequired, w)
  | some bucket =>
    if w.store.bucketExists bucket then
      (.error ⟨"BucketAlreadyOwnedByYou", "Bucket already owned by you", 409⟩, w)
    else
      (.ok ("/" ++ bucket), { w with store := w.store.createBucket draws.now bucket ctx.region })

/-- The entity tag and version id of an accepted object. -/
structure PutObjectOutput where
  etag : String
  versionId : Option String
  deriving DecidableEq, Repr

def handlePutObject (draws : Draws) (w : World) (ctx : RequestContext) :
    Except S3Error PutObjectOutput × World :=
  match bucketFromPath ctx.path with
  | none => (.error bucketNameRequired, w)
  | some bucket =>
    if w.store.bucketExists bucket then
      let key := keyFromPath ctx.path
      let versionId := drawVersionId draws w.store bucket
      match receiveBody cfg w.files ctx ⟨bucket, key, versionId⟩ "Failed to store object" with
      | (.error e, files) => (.error e, { w with files })
      | (.ok (etag, size, data), files) =>
        let version : ObjectVersion :=
          { versionId
            lastModified := draws.now
            etag
            contentType := (headerStr ctx.headers "content-type").getD "application/octet-stream"
            size
            metadata := userMetadata ctx.headers
            data
            deleteMarker := false }
        let (prev, store) := w.store.putObjectVersion bucket key version
        (.ok ⟨etag, if versionId = "null" then none else some versionId⟩,
          ⟨store, files.removeReplaced (replacedFilePath versionId prev data)⟩)
    else (.error noSuchBucket, w)

structure GetObjectOutput where
  etag : String
  lastModified : Instant
  contentLength : Nat
  versionId : String
  contentType : String
  metadata : StrMap String
  body : Bytes

/-- The version that `versionId` names, or the current one. -/
@[grind] def requestedVersion (store : S3Store) (ctx : RequestContext) (bucket : String) :
    Option ObjectVersion :=
  match ctx.queryParams["versionId"]? with
  | some vid => store.getObjectVersion bucket (keyFromPath ctx.path) vid
  | none => store.getObject bucket (keyFromPath ctx.path)

def handleGetObject (w : World) (ctx : RequestContext) : Except S3Error GetObjectOutput :=
  match bucketFromPath ctx.path with
  | none => .error bucketNameRequired
  | some bucket =>
    if w.store.bucketExists bucket then
      match requestedVersion w.store ctx bucket with
      | none => .error noSuchKey
      | some v =>
        match w.files.readData v.data with
        | none => .error (internalError "Failed to read object")
        | some body =>
          .ok ⟨v.etag, v.lastModified, v.size, v.versionId, v.contentType, v.metadata, body⟩
    else .error noSuchBucket

/-- The headers of a DeleteObject answer. -/
structure DeleteObjectOutput where
  versionId : Option String
  deleteMarker : Bool
  deriving DecidableEq, Repr

/-- Remove the file of a version, if it has one. -/
def ObjectFileStore.removeData (files : ObjectFileStore) : ObjectDataRef → ObjectFileStore
  | .fileRef path => files.removeFile path
  | .inline _ => files

def handleDeleteObject (draws : Draws) (w : World) (ctx : RequestContext) :
    Except S3Error DeleteObjectOutput × World :=
  match bucketFromPath ctx.path with
  | none => (.error bucketNameRequired, w)
  | some bucket =>
    if w.store.bucketExists bucket then
      let key := keyFromPath ctx.path
      match ctx.queryParams["versionId"]? with
      | some vid =>
        match w.store.deleteObjectVersion bucket key vid with
        | (some removed, store) =>
          (.ok ⟨some vid, false⟩, ⟨store, w.files.removeData removed.data⟩)
        | (none, store) => (.ok ⟨some vid, false⟩, { w with store })
      | none =>
        match w.store.deleteObject draws.now draws.uuid bucket key with
        | (some deleted, store) =>
          if deleted.deleteMarker then
            (.ok ⟨some deleted.versionId, true⟩, { w with store })
          else (.ok ⟨none, false⟩, ⟨store, w.files.removeData deleted.data⟩)
        | (none, store) => (.ok ⟨none, false⟩, { w with store })
    else (.error noSuchBucket, w)

/-- `u8::from_str_radix(.., 16)` on two bytes, which also accepts a leading `+`. -/
def hexByte (hi lo : Char) : Option Nat :=
  match hexDigit hi, hexDigit lo with
  | some h, some l => some (16 * h + l)
  | none, some l => if hi = '+' then some l else none
  | _, none => none

/-- Percent decoding; every byte becomes the character with its number. -/
def urlencodingDecode : List Char → List Char
  | [] => []
  | [c] => [c]
  | [c, d] => [c, d]
  | c :: hi :: lo :: rest =>
    match if c = '%' then hexByte hi lo else none with
    | some n => Char.ofNat n :: urlencodingDecode rest
    | none => c :: urlencodingDecode (hi :: lo :: rest)

/-- `byte as char` of every byte of the UTF-8 text. -/
def bytesAsChars (s : String) : List Char := s.toUTF8.data.toList.map fun b => Char.ofNat b.toNat

def parseCopySource (source : List Char) : String × String :=
  let s := source.dropWhile (· = '/')
  (String.ofList (s.takeWhile (· ≠ '/')),
    String.ofList ((s.dropWhile (· ≠ '/')).dropWhile (· = '/')))

/-- Bucket and key of the `x-amz-copy-source` header. -/
def copySource (ctx : RequestContext) : Option (String × String) :=
  (headerStr ctx.headers "x-amz-copy-source").map fun source =>
    parseCopySource (urlencodingDecode (bytesAsChars source))

/-- Copy the data of the version `v` of the source to `dst`. -/
def copyData (files : ObjectFileStore) (src : String × String) (v : ObjectVersion)
    (dst : ObjectLocation) : Option ObjectDataRef × ObjectFileStore :=
  match v.data with
  | .inline bytes =>
    if v.size ≤ cfg.inlineObjectThreshold then (some (.inline bytes), files)
    else
      let (path, files) := files.writeObject cfg dst bytes
      (path.map .fileRef, files)
  | .fileRef path =>
    if v.size ≤ cfg.inlineObjectThreshold then ((files.disk.read path).map .inline, files)
    else
      let (path, files) := files.copyObject cfg ⟨src.1, src.2, v.versionId⟩ dst
      (path.map .fileRef, files)

structure CopyObjectOutput where
  lastModified : Instant
  etag : String
  deriving DecidableEq, Repr

def handleCopyObject (draws : Draws) (w : World) (ctx : RequestContext) :
    Except S3Error CopyObjectOutput × World :=
  match bucketFromPath ctx.path with
  | none => (.error ⟨"InvalidBucketName", "Destination bucket required", 400⟩, w)
  | some destBucket =>
    let destKey := keyFromPath ctx.path
    match copySource ctx with
    | none => (.error ⟨"InvalidRequest", "Missing x-amz-copy-source header", 400⟩, w)
    | some src =>
      if w.store.bucketExists destBucket then
        match w.store.getObject src.1 src.2 with
        | none => (.error ⟨"NoSuchKey", "Source key does not exist", 404⟩, w)
        | some v =>
          let versionId := drawVersionId draws w.store destBucket
          match copyData cfg w.files src v ⟨destBucket, destKey, versionId⟩ with
          | (none, files) => (.error (internalError "Failed to copy object"), { w with files })
          | (some data, files) =>
            let version : ObjectVersion :=
              { versionId
                lastModified := draws.now
                etag := v.etag
                contentType := v.contentType
                size := v.size
                metadata := v.metadata
                data
                deleteMarker := false }
            let (prev, store) := w.store.putObjectVersion destBucket destKey version
            let stored := (store.getObject destBucket destKey).getD v
            (.ok ⟨stored.lastModified, stored.etag⟩,
              ⟨store, files.removeReplaced (replacedFilePath versionId prev data)⟩)
      else (.error ⟨"NoSuchBucket", "Destination bucket does not exist", 404⟩, w)

/-- The upload id. -/
def handleCreateMultipartUpload (draws : Draws) (w : World) (ctx : RequestContext) :
    Except S3Error String × World :=
  match bucketFromPath ctx.path with
  | none => (.error bucketNameRequired, w)
  | some bucket =>
    if w.store.bucketExists bucket then
      (.ok draws.uuid,
        { w with
          store := w.store.createMultipartUpload draws.now draws.uuid bucket (keyFromPath ctx.path)
            ((headerStr ctx.headers "content-type").getD "application/octet-stream")
            (userMetadata ctx.headers) })
    else (.error noSuchBucket, w)

/-- The upload the request names, if it is one for the request's bucket and key. -/
def requestedUpload (store : S3Store) (ctx : RequestContext) (bucket uploadId : String) :
    Option MultipartUpload :=
  store.multipartUploads[uploadId]?.filter fun u => u.bucket = bucket ∧ u.key = keyFromPath ctx.path

/-- The file of a part. -/
def partLocation (bucket key uploadId : String) (partNumber : Nat) : ObjectLocation :=
  ⟨bucket, "__multipart/" ++ uploadId ++ "/" ++ key, "part-" ++ toString partNumber⟩

/-- The entity tag of the part. -/
def handleUploadPart (draws : Draws) (w : World) (ctx : RequestContext) :
    Except S3Error String × World :=
  match bucketFromPath ctx.path with
  | none => (.error bucketNameRequired, w)
  | some bucket =>
    match ctx.queryParams["uploadId"]? with
    | none => (.error ⟨"InvalidRequest", "uploadId required", 400⟩, w)
    | some uploadId =>
      match ctx.queryParams["partNumber"]?.bind (RustFmt.parseUnsigned 32) with
      | none => (.error ⟨"InvalidRequest", "partNumber required", 400⟩, w)
      | some partNumber =>
        match requestedUpload w.store ctx bucket uploadId with
        | none => (.error noSuchUpload, w)
        | some u =>
          match receiveBody cfg w.files ctx (partLocation u.bucket u.key uploadId partNumber)
              "Failed to store part" with
          | (.error e, files) => (.error e, { w with files })
          | (.ok (etag, size, data), files) =>
            (.ok etag,
              ⟨w.store.uploadPartWithEtag draws.now uploadId partNumber data etag size, files⟩)

def unescapeXml (s : List Char) : List Char :=
  [("&lt;", "<"), ("&gt;", ">"), ("&apos;", "'"), ("&quot;", "\""), ("&amp;", "&")].foldl
    (fun text (entity, char) => RustStr.replace entity.toList char.toList text) s

def extractXmlText (xml : List Char) (tag : String) : Option (List Char) :=
  (RustStr.after ("<" ++ tag ++ ">").toList xml).bind fun rest =>
    (RustStr.before ("</" ++ tag ++ ">").toList rest).map unescapeXml

/-- `str::from_utf8(raw_body).unwrap_or("")`. -/
def bodyText (ctx : RequestContext) : List Char :=
  ((String.fromUTF8? ⟨ctx.rawBodyBytes.toArray⟩).getD "").toList

/-- Key and version id of every object of a DeleteObjects body that has a key. -/
def parseDeletes : (fuel : Nat) → List Char → List (String × Option String)
  | 0, _ => []
  | fuel + 1, remaining =>
    match RustStr.after "<Object>".toList remaining with
    | none => []
    | some rest =>
      let objXml := (RustStr.before "</Object>".toList rest).getD rest
      let key := String.ofList ((extractXmlText objXml "Key").getD [])
      let versionId := ((extractXmlText objXml "VersionId").map fun v =>
        String.ofList (RustStr.trim v)).filter (· ≠ "")
      let others := parseDeletes fuel (rest.drop objXml.length)
      if key ≠ "" then (key, versionId) :: others else others

def requestedDeletes (ctx : RequestContext) : List (String × Option String) :=
  parseDeletes (bodyText ctx).length (bodyText ctx)

/-- One round of the loop: the file to remove, and the store. -/
def deleteListed (now : Instant) (markerId : String) (store : S3Store) (bucket : String)
    (entry : String × Option String) : Option Path × S3Store :=
  match entry.2 with
  | some vid =>
    let (removed, store) := store.deleteObjectVersion bucket entry.1 vid
    (removed.bind fun v => v.data.path?, store)
  | none =>
    let (removed, store) := store.deleteObject now markerId bucket entry.1
    (removed.bind fun v => if v.deleteMarker then none else v.data.path?, store)

/-- The loop over the listed objects; the object at position `i` draws `markerIds i`. -/
def deleteAllListed (now : Instant) (markerIds : Nat → String) (bucket : String) :
    Nat → S3Store → List (String × Option String) → List Path × S3Store
  | _, store, [] => ([], store)
  | i, store, entry :: rest =>
    let (file, store) := deleteListed now (markerIds i) store bucket entry
    let (files, store) := deleteAllListed now markerIds bucket (i + 1) store rest
    (file.toList ++ files, store)

/-- The deleted objects, in the order of the request. -/
def handleDeleteObjects (now : Instant) (markerIds : Nat → String) (w : World)
    (ctx : RequestContext) : Except S3Error (List (String × Option String)) × World :=
  match bucketFromPath ctx.path with
  | none => (.error bucketNameRequired, w)
  | some bucket =>
    if w.store.bucketExists bucket then
      let (files, store) := deleteAllListed now markerIds bucket 0 w.store (requestedDeletes ctx)
      (.ok (requestedDeletes ctx), ⟨store, files.foldl ObjectFileStore.removeFile w.files⟩)
    else (.error noSuchBucket, w)

/-- Any text is accepted as the status. -/
def handlePutBucketVersioning (w : World) (ctx : RequestContext) : Except S3Error Unit × World :=
  match bucketFromPath ctx.path with
  | none => (.error bucketNameRequired, w)
  | some bucket =>
    let versioning := String.ofList (((extractXmlText (bodyText ctx) "Status").map RustStr.trim).getD [])
    match w.store.buckets[bucket]? with
    | some b =>
      (.ok (),
        { w with
          store := { w.store with buckets := w.store.buckets.insert bucket { b with versioning } } })
    | none => (.error noSuchBucket, w)

/-- The numbered parts of a CompleteMultipartUpload body, in document order. Every
round drops at least one character, so the length is fuel enough. -/
def parseParts : (fuel : Nat) → List Char → List (Nat × String)
  | 0, _ => []
  | fuel + 1, remaining =>
    match RustStr.after "<Part>".toList remaining with
    | none => []
    | some rest =>
      let partXml := (RustStr.before "</Part>".toList rest).getD rest
      let pn := ((extractXmlText partXml "PartNumber").bind fun v =>
        RustFmt.parseUnsigned 32 (String.ofList (RustStr.trim v))).getD 0
      let etag := String.ofList (((extractXmlText partXml "ETag").map RustStr.trim).getD [])
      if pn > 0 then (pn, etag) :: parseParts fuel rest else parseParts fuel rest

/-- `str::from_utf8(raw_body).unwrap_or("")`, then the parts. -/
def requestedParts (ctx : RequestContext) : List (Nat × String) :=
  let body := ((String.fromUTF8? ⟨ctx.rawBodyBytes.toArray⟩).getD "").toList
  parseParts body.length body

/-- The uploaded parts among the requested ones, by number. -/
def selectParts (u : MultipartUpload) (parts : List (Nat × String)) : List UploadPart :=
  ((parts.map Prod.fst).insertionSort (· ≤ ·)).filterMap fun pn => u.parts.lookup pn

/-- The tag of tags, when every selected part comes with the tag of an MD5 digest. -/
def multipartEtag (parts : List (Nat × String)) (selected : List UploadPart) : Option String :=
  let concat := selected.flatMap fun part =>
    match (parts.lookup part.partNumber).bind fun etag =>
      hexDecode ((etag.toList.dropWhile (· = '"')).rdropWhile (· = '"')) with
    | some bytes => if bytes.length = 16 then bytes else []
    | none => []
  if concat.length = selected.length * 16 then
    some ("\"" ++ hexEncode (cfg.md5 concat) ++ "-" ++ toString selected.length ++ "\"")
  else none

/-- `MultipartRead`: the parts one after the other, up to the first that cannot be
opened. -/
def multipartRead (files : ObjectFileStore) : List ObjectDataRef → Stream
  | [] => ⟨[], false⟩
  | data :: rest =>
    match files.readData data with
    | none => ⟨[], true⟩
    | some bytes => ⟨bytes ++ (multipartRead files rest).bytes, (multipartRead files rest).fails⟩

def estimatedSize (selected : List UploadPart) : Nat := (selected.map (·.size)).sum

/-- Remove the files of the assembled parts. -/
def removeParts (files : ObjectFileStore) (selected : List UploadPart) : ObjectFileStore :=
  selected.foldl (fun fs part => fs.removeData part.data) files

/-- Concatenate the parts, in memory or in a file at `loc`: entity tag, size, data. -/
def assembleParts (files : ObjectFileStore) (parts : List (Nat × String))
    (selected : List UploadPart) (loc : ObjectLocation) :
    Except S3Error (String × Nat × ObjectDataRef) × ObjectFileStore :=
  let stream := multipartRead files (selected.map (·.data))
  let etag := (multipartEtag cfg parts selected).getD (formatEtag (cfg.md5 stream.bytes))
  if estimatedSize selected ≤ cfg.inlineObjectThreshold then
    if stream.fails then (.error (internalError "Failed to read part"), files)
    else (.ok (etag, stream.bytes.length, .inline stream.bytes), removeParts files selected)
  else
    match files.writeObjectFromSyncReader cfg loc stream (some (estimatedSize selected)) with
    | (none, files) => (.error (internalError "Failed to store object"), files)
    | (some (path, written), files) => (.ok (etag, written, .fileRef path), removeParts files selected)

structure CompleteMultipartUploadOutput where
  bucket : String
  key : String
  etag : String
  deriving DecidableEq, Repr

def handleCompleteMultipartUpload (draws : Draws) (w : World) (ctx : RequestContext) :
    Except S3Error CompleteMultipartUploadOutput × World :=
  match bucketFromPath ctx.path with
  | none => (.error bucketNameRequired, w)
  | some bucket =>
    let key := keyFromPath ctx.path
    match ctx.queryParams["uploadId"]? with
    | none => (.error ⟨"InvalidRequest", "uploadId required", 400⟩, w)
    | some uploadId =>
      match requestedUpload w.store ctx bucket uploadId with
      | none => (.error noSuchUpload, w)
      | some u =>
        let parts := requestedParts ctx
        let versionId := drawVersionId draws w.store bucket
        match assembleParts cfg w.files parts (selectParts u parts) ⟨bucket, key, versionId⟩ with
        | (.error e, files) => (.error e, { w with files })
        | (.ok (etag, size, data), files) =>
          let version : ObjectVersion :=
            { versionId
              lastModified := draws.now
              etag
              contentType := u.contentType
              size
              metadata := u.metadata
              data
              deleteMarker := false }
          let (prev, store) := w.store.completeMultipartUploadWithVersion uploadId version
          (.ok ⟨bucket, key, etag⟩,
            ⟨store, files.removeReplaced (replacedFilePath versionId prev data)⟩)

/-- The files of the parts stay. -/
def handleAbortMultipartUpload (w : World) (ctx : RequestContext) : Except S3Error Unit × World :=
  match ctx.queryParams["uploadId"]? with
  | none => (.error ⟨"InvalidRequest", "uploadId required", 400⟩, w)
  | some uploadId =>
    if w.store.multipartUploads.contains uploadId then
      (.ok (), { w with store := w.store.abortMultipartUpload uploadId })
    else (.error noSuchUpload, w)

end Handlers
end Openstack.S3

import Openstack.Lib.Interleaving
import Openstack.S3.Requests

/-!
# Requests that run at the same time

The handlers of `provider.rs` cut into their atomic steps: one step for each period in which a
handler holds the store's guard, and one for each file operation. A handler keeps nothing locked
between two steps, so other requests may move in between. Reading the parts of an upload and
writing the temporary file is one step, and so is a copy on the file system.
-/
namespace Openstack.S3

open ObjectFileStore Interleaving

/-- The requests that begin with a look at the store. -/
inductive JobKind where
  | createBucket
  | putObject
  | deleteObject
  | copyObject
  | createMultipartUpload
  | completeMultipartUpload
  deriving DecidableEq, Repr

structure Job where
  kind : JobKind
  ctx : RequestContext
  draws : Draws

/-- The request without interruption. -/
def Job.handle (cfg : Config) (c : Job) (w : World) : World :=
  match c.kind with
  | .createBucket => (handleCreateBucket c.draws w c.ctx).2
  | .putObject => (handlePutObject cfg c.draws w c.ctx).2
  | .deleteObject => (handleDeleteObject c.draws w c.ctx).2
  | .copyObject => (handleCopyObject cfg c.draws w c.ctx).2
  | .createMultipartUpload => (handleCreateMultipartUpload c.draws w c.ctx).2
  | .completeMultipartUpload => (handleCompleteMultipartUpload cfg c.draws w c.ctx).2

/-- What a writer has prepared and is about to store. -/
structure Prepared where
  loc : ObjectLocation
  version : ObjectVersion
  /-- The upload that CompleteMultipartUpload takes out of the store. -/
  uploadId : Option String
  /-- PutObject looks for the bucket again. -/
  recheck : Bool

/-- The status of an answer, and what the request stored. -/
structure Answer where
  status : Nat
  stored : Option (ObjectLocation × ObjectVersion)

/-- Where a request stands: what its next step does. -/
inductive Stage where
  /-- The first look at the store. -/
  | start (c : Job)
  /-- PutObject takes in the body. -/
  | receive (c : Job) (loc : ObjectLocation)
  /-- CopyObject reads the versioning state. -/
  | copyVersion (c : Job) (bucket : String) (src : String × String) (v : ObjectVersion)
  | copy (c : Job) (loc : ObjectLocation) (src : String × String) (v : ObjectVersion)
  /-- CompleteMultipartUpload reads the versioning state. -/
  | uploadVersion (c : Job) (bucket uploadId : String) (u : MultipartUpload)
  | assemble (c : Job) (loc : ObjectLocation) (uploadId : String) (u : MultipartUpload)
  /-- The temporary file is written; then the files of `parts` go. -/
  | rename (tmp : Path) (parts : List Path) (next : Prepared)
  /-- Remove the files of the assembled parts one by one, then store the version. -/
  | commit (parts : List Path) (next : Prepared)
  | delete (c : Job) (bucket : String)
  | remove (path : Path) (answer : Answer)
  /-- DeleteBucket looks whether the bucket is empty. -/
  | checkEmpty (ctx : RequestContext)
  | deleteBucket (bucket : String)
  | removeDir (bucket : String)
  | done (answer : Answer)

def refuse (e : S3Error) : Stage := .done ⟨e.statusCode, none⟩

/-- `remove_dir_all` on the bucket's directory. -/
def ObjectFileStore.deleteBucketDir (files : ObjectFileStore) (bucket : String) : ObjectFileStore :=
  { files with disk := files.disk.removeAll fun p => p.head? = some bucket }

/-- Where the request stores its object, with the version id it draws. -/
def Job.location (c : Job) (bucket : String) (store : S3Store) : ObjectLocation :=
  ⟨bucket, keyFromPath c.ctx.path, drawVersionId c.draws store bucket⟩

/-- The version that PutObject stores. -/
def Job.putVersion (c : Job) (versionId etag : String) (size : Nat) (data : ObjectDataRef) :
    ObjectVersion where
  versionId
  lastModified := c.draws.now
  etag
  contentType := (headerStr c.ctx.headers "content-type").getD "application/octet-stream"
  size
  metadata := userMetadata c.ctx.headers
  data
  deleteMarker := false

def Job.copyVersion (c : Job) (versionId : String) (v : ObjectVersion) (data : ObjectDataRef) :
    ObjectVersion :=
  { v with versionId, lastModified := c.draws.now, data, deleteMarker := false }

def Job.completeVersion (c : Job) (versionId etag : String) (size : Nat) (data : ObjectDataRef)
    (u : MultipartUpload) : ObjectVersion where
  versionId
  lastModified := c.draws.now
  etag
  contentType := u.contentType
  size
  metadata := u.metadata
  data
  deleteMarker := false

section Steps

variable (cfg : Config)

/-- Write the temporary file of `loc`; unless the writer fails, `next` waits for the rename. -/
def writeTmp (w : World) (loc : ObjectLocation) (bytes : Bytes) (fails : Bool) (notStored : String)
    (parts : List Path) (next : Prepared) : Stage × World :=
  let tmp := tmpPath cfg loc w.files.tmpCounter
  (if fails then refuse (internalError notStored) else .rename tmp parts next,
    { w with files := ⟨w.files.disk.create tmp bytes, w.files.tmpCounter + 1⟩ })

/-- The first step of every request but DeleteBucket. -/
def startStep (c : Job) (w : World) : Stage × World :=
  match bucketFromPath c.ctx.path with
  | none => (refuse bucketNameRequired, w)
  | some bucket =>
    match c.kind with
    | .createBucket => (.done ⟨if w.store.bucketExists bucket then 409 else 200, none⟩,
        (handleCreateBucket c.draws w c.ctx).2)
    | .putObject =>
      if w.store.bucketExists bucket then
        (.receive c (c.location bucket w.store), w)
      else (refuse noSuchBucket, w)
    | .deleteObject =>
      if w.store.bucketExists bucket then (.delete c bucket, w) else (refuse noSuchBucket, w)
    | .copyObject =>
      match copySource c.ctx with
      | none => (refuse ⟨"InvalidRequest", "Missing x-amz-copy-source header", 400⟩, w)
      | some src =>
        if w.store.bucketExists bucket then
          match w.store.getObject src.1 src.2 with
          | none => (refuse ⟨"NoSuchKey", "Source key does not exist", 404⟩, w)
          | some v => (.copyVersion c bucket src v, w)
        else (refuse ⟨"NoSuchBucket", "Destination bucket does not exist", 404⟩, w)
    | .createMultipartUpload =>
      (.done ⟨if w.store.bucketExists bucket then 200 else 404, none⟩,
        (handleCreateMultipartUpload c.draws w c.ctx).2)
    | .completeMultipartUpload =>
      match c.ctx.queryParams["uploadId"]? with
      | none => (refuse ⟨"InvalidRequest", "uploadId required", 400⟩, w)
      | some uploadId =>
        match requestedUpload w.store c.ctx bucket uploadId with
        | none => (refuse noSuchUpload, w)
        | some u => (.uploadVersion c bucket uploadId u, w)

/-- PutObject: the body stays in memory or goes to a temporary file. -/
def receiveStep (c : Job) (loc : ObjectLocation) (w : World) : Stage × World :=
  let stream := bodyStream c.ctx
  let prepared := fun data => Prepared.mk loc
    (c.putVersion loc.versionId (formatEtag (cfg.md5 stream.bytes)) stream.bytes.length data)
    none true
  if keptInline cfg c.ctx then
    if stream.fails then (refuse (internalError "Failed to read request body"), w)
    else (.commit [] (prepared (.inline stream.bytes)), w)
  else
    writeTmp cfg w loc (preallocated (announcedLength c.ctx) stream.bytes) stream.fails
      "Failed to store object" [] (prepared (.fileRef (objectPath cfg loc)))

/-- CopyObject: copy the data of the version that the first step read. -/
def copyStep (c : Job) (loc : ObjectLocation) (src : String × String) (v : ObjectVersion)
    (w : World) : Stage × World :=
  let prepared := fun data => Prepared.mk loc (c.copyVersion loc.versionId v data) none false
  match v.data with
  | .inline bytes =>
    if v.size ≤ cfg.inlineObjectThreshold then (.commit [] (prepared (.inline bytes)), w)
    else writeTmp cfg w loc bytes false "Failed to copy object" []
      (prepared (.fileRef (objectPath cfg loc)))
  | .fileRef path =>
    if v.size ≤ cfg.inlineObjectThreshold then
      match w.files.disk.read path with
      | some bytes => (.commit [] (prepared (.inline bytes)), w)
      | none => (refuse (internalError "Failed to copy object"), w)
    else
      match w.files.copyObject cfg ⟨src.1, src.2, v.versionId⟩ loc with
      | (some path, files) => (.commit [] (prepared (.fileRef path)), { w with files })
      | (none, files) => (refuse (internalError "Failed to copy object"), { w with files })

/-- CompleteMultipartUpload: the parts one after the other, in memory or in a temporary file. -/
def assembleStep (c : Job) (loc : ObjectLocation) (uploadId : String) (u : MultipartUpload)
    (w : World) : Stage × World :=
  let parts := requestedParts c.ctx
  let selected := selectParts u parts
  let stream := multipartRead w.files (selected.map (·.data))
  let etag := (multipartEtag cfg parts selected).getD (formatEtag (cfg.md5 stream.bytes))
  let files := selected.filterMap fun part => part.data.path?
  let prepared := fun data => Prepared.mk loc
    (c.completeVersion loc.versionId etag stream.bytes.length data u) (some uploadId) false
  if estimatedSize selected ≤ cfg.inlineObjectThreshold then
    if stream.fails then (refuse (internalError "Failed to read part"), w)
    else (.commit files (prepared (.inline stream.bytes)), w)
  else
    writeTmp cfg w loc (preallocated (some (estimatedSize selected)) stream.bytes) stream.fails
      "Failed to store object" files (prepared (.fileRef (objectPath cfg loc)))

/-- The answer, once the file is gone. -/
def removeThen (file : Option Path) (answer : Answer) : Stage :=
  match file with
  | some path => .remove path answer
  | none => .done answer

/-- The answer to a write, once the replaced file is gone. -/
def finishWrite (next : Prepared) (prev : Option ObjectDataRef) : Stage :=
  removeThen (replacedFilePath next.version.versionId prev next.version.data)
    ⟨200, some (next.loc, next.version)⟩

/-- The data it replaces on top, and the store with the prepared version. -/
def Prepared.stored (next : Prepared) (store : S3Store) : Option ObjectDataRef × S3Store :=
  match next.uploadId with
  | some uploadId => store.completeMultipartUploadWithVersion uploadId next.version
  | none => store.putObjectVersion next.loc.bucket next.loc.key next.version

/-- Store the prepared version. -/
def commitStep (next : Prepared) (w : World) : Stage × World :=
  if next.recheck ∧ ¬ w.store.bucketExists next.loc.bucket then
    (removeThen next.version.data.path? ⟨404, none⟩, w)
  else (finishWrite next (next.stored w.store).1, { w with store := (next.stored w.store).2 })

/-- DeleteObject: take the version or the object out of the store. -/
def deleteStep (c : Job) (bucket : String) (w : World) : Stage × World :=
  let key := keyFromPath c.ctx.path
  let (file, store) := deleteListed c.draws.now c.draws.uuid w.store bucket
    (key, c.ctx.queryParams["versionId"]?)
  (removeThen file ⟨204, none⟩, { w with store })

/-- DeleteBucket: the emptiness check. -/
def checkEmptyStep (ctx : RequestContext) (w : World) : Stage × World :=
  match bucketFromPath ctx.path with
  | none => (refuse bucketNameRequired, w)
  | some bucket =>
    if w.store.bucketExists bucket then
      if w.store.isBucketEmpty bucket ∧ ¬ w.store.hasIncompleteMultipartUploads bucket then
        (.deleteBucket bucket, w)
      else (refuse ⟨"BucketNotEmpty", "The bucket is not empty", 409⟩, w)
    else (refuse noSuchBucket, w)

/-- One atomic step of a request. -/
def Stage.step : Stage → World → Stage × World
  | .start c, w => startStep c w
  | .receive c loc, w => receiveStep cfg c loc w
  | .copyVersion c bucket src v, w =>
    (.copy c (c.location bucket w.store) src v, w)
  | .copy c loc src v, w => copyStep cfg c loc src v w
  | .uploadVersion c bucket uploadId u, w =>
    (.assemble c (c.location bucket w.store) uploadId u, w)
  | .assemble c loc uploadId u, w => assembleStep cfg c loc uploadId u w
  | .rename tmp parts next, w =>
    match w.files.disk.rename tmp (objectPath cfg next.loc) with
    | some disk => (.commit parts next, { w with files := { w.files with disk } })
    | none => (refuse (internalError "Failed to store object"), w)
  | .commit (path :: parts) next, w =>
    (.commit parts next, { w with files := w.files.removeFile path })
  | .commit [] next, w => commitStep next w
  | .delete c bucket, w => deleteStep c bucket w
  | .remove path answer, w => (.done answer, { w with files := w.files.removeFile path })
  | .checkEmpty ctx, w => checkEmptyStep ctx w
  | .deleteBucket bucket, w => (.removeDir bucket, { w with store := w.store.deleteBucket bucket })
  | .removeDir bucket, w =>
    (.done ⟨204, none⟩, { w with files := w.files.deleteBucketDir bucket })
  | .done answer, w => (.done answer, w)

end Steps

/-- Requests at their stages, over one account and region. -/
abbrev Sys (ι : Type) := Pool ι Stage World

def Sys.advance {ι : Type} [DecidableEq ι] (cfg : Config) (s : Sys ι) (i : ι) : Sys ι :=
  Pool.advance (Stage.step cfg) s i

section Solo

variable {cfg : Config} {w : World}

theorem removeParts_eq (files : ObjectFileStore) (selected : List UploadPart) :
    removeParts files selected =
      (selected.filterMap fun part => part.data.path?).foldl removeFile files := by
  unfold removeParts
  induction selected generalizing files with
  | nil => rfl
  | cons part rest ih =>
    rw [List.foldl_cons, ih, List.filterMap_cons]
    cases part.data <;> rfl

/-- Without interruption the request ends, and leaves `final`. -/
def RunsTo (cfg : Config) (stage : Stage) (w final : World) : Prop :=
  ∃ answer, Solo (Stage.step cfg) (stage, w) (.done answer, final)

theorem runsTo_done (answer : Answer) (w : World) : RunsTo cfg (.done answer) w w :=
  ⟨answer, .refl _⟩

theorem RunsTo.head {stage : Stage} {final : World} {a : Stage × World}
    (first : stage.step cfg w = a) (rest : RunsTo cfg a.1 a.2 final) :
    RunsTo cfg stage w final := by
  obtain ⟨answer, run⟩ := rest
  exact ⟨answer, .head first run⟩

theorem runsTo_remove (path : Path) (answer : Answer) :
    RunsTo cfg (.remove path answer) w { w with files := w.files.removeFile path } :=
  .head rfl (runsTo_done _ _)

/-- The world with the version stored, once `parts` and the file that it replaces are gone. -/
def Prepared.leave (next : Prepared) (store : S3Store) (files : ObjectFileStore) (parts : List Path) : World :=
  ⟨(next.stored store).2, (parts.foldl removeFile files).removeReplaced
    (replacedFilePath next.version.versionId (next.stored store).1 next.version.data)⟩

variable (cfg) in
theorem runsTo_commit (parts : List Path) (next : Prepared)
    (found : next.recheck = true → w.store.bucketExists next.loc.bucket = true) :
    RunsTo cfg (.commit parts next) w (next.leave w.store w.files parts) := by
  induction parts generalizing w with
  | cons path rest ih => exact .head rfl (ih (w := { w with files := w.files.removeFile path }) found)
  | nil =>
    have accepted : ¬ (next.recheck = true ∧ ¬ w.store.bucketExists next.loc.bucket = true) :=
      fun refused => refused.2 (found refused.1)
    refine .head (if_neg accepted) ?_
    simp only [finishWrite, Prepared.leave]
    cases replacedFilePath next.version.versionId (next.stored w.store).1 next.version.data with
    | none => exact runsTo_done _ _
    | some path => exact runsTo_remove path _

variable (cfg w) in
/-- A step that writes a temporary file: it fails and leaves the files, or the version is stored
with the file in place. -/
theorem runsTo_writeTmp (stage : Stage) {loc : ObjectLocation} {bytes : Bytes} {fails : Bool}
    {notStored : String} {parts : List Path} {next : Prepared}
    (first : stage.step cfg w = writeTmp cfg w loc bytes fails notStored parts next)
    (here : next.loc = loc)
    (found : next.recheck = true → w.store.bucketExists next.loc.bucket = true) :
    ∃ files, (w.files.installFile cfg loc bytes fails = (none, files) ∧
        RunsTo cfg stage w { w with files }) ∨
      (w.files.installFile cfg loc bytes fails = (some (objectPath cfg loc), files) ∧
        RunsTo cfg stage w (next.leave w.store files parts)) := by
  subst here
  unfold installFile
  cases fails with
  | true => exact ⟨_, .inl ⟨rfl, .head first (runsTo_done _ _)⟩⟩
  | false =>
    simp only [Bool.false_eq_true, if_false]
    cases renamed : (w.files.disk.create (tmpPath cfg next.loc w.files.tmpCounter) bytes).rename
        (tmpPath cfg next.loc w.files.tmpCounter) (objectPath cfg next.loc) with
    | none =>
      refine ⟨_, .inl ⟨rfl, .head first (.head (a := (refuse (internalError "Failed to store object"), _)) ?_
        (runsTo_done _ _))⟩⟩
      simp [Stage.step, writeTmp, renamed]
    | some disk =>
      have stored := runsTo_commit cfg (w := { w with files := ⟨disk, w.files.tmpCounter + 1⟩ }) parts next found
      refine ⟨_, .inr ⟨rfl, .head first (.head (a := (.commit parts next, _)) ?_ stored)⟩⟩
      simp [Stage.step, writeTmp, renamed]

variable (cfg w) in
theorem runsTo_receive (c : Job) {bucket : String} (found : w.store.bucketExists bucket = true)
    (named : bucketFromPath c.ctx.path = some bucket) :
    RunsTo cfg (.receive c (c.location bucket w.store)) w
      (handlePutObject cfg c.draws w c.ctx).2 := by
  unfold handlePutObject receiveBody
  simp only [named, found, if_true]
  by_cases inline : keptInline cfg c.ctx = true
  · simp only [if_pos inline]
    by_cases fails : (bodyStream c.ctx).fails = true
    · simp only [if_pos fails]
      exact .head ((if_pos inline).trans (if_pos fails)) (runsTo_done _ w)
    · simp only [if_neg fails]
      exact .head ((if_pos inline).trans (if_neg fails)) (runsTo_commit cfg [] _ fun _ => found)
  · simp only [if_neg inline, writeObjectFromReader]
    obtain ⟨files, ⟨out, run⟩ | ⟨out, run⟩⟩ := runsTo_writeTmp cfg w
      (.receive c (c.location bucket w.store)) (if_neg inline) rfl (fun _ => found)
    · simp only [Job.location] at out
      rw [out]
      exact run
    · simp only [Job.location] at out
      rw [out]
      exact run

variable (cfg w) in
/-- The copy fails and leaves the files, or the version is stored with the copied data. -/
theorem runsTo_copyData (c : Job) (loc : ObjectLocation) (src : String × String)
    (v : ObjectVersion) :
    ∃ files, (copyData cfg w.files src v loc = (none, files) ∧
        RunsTo cfg (.copy c loc src v) w { w with files }) ∨
      ∃ data, copyData cfg w.files src v loc = (some data, files) ∧
        RunsTo cfg (.copy c loc src v) w
          (Prepared.leave ⟨loc, c.copyVersion loc.versionId v data, none, false⟩ w.store files []) := by
  obtain ⟨versionId, lastModified, etag, contentType, size, metadata, data, deleteMarker⟩ := v
  unfold copyData
  cases data with
  | inline bytes =>
    by_cases small : size ≤ cfg.inlineObjectThreshold
    · simp only [if_pos small]
      exact ⟨w.files, .inr ⟨_, rfl, .head (if_pos small) (runsTo_commit cfg [] _ (by simp))⟩⟩
    · simp only [if_neg small, writeObject]
      obtain ⟨files, ⟨out, run⟩ | ⟨out, run⟩⟩ := runsTo_writeTmp cfg w
        (.copy c loc src ⟨versionId, lastModified, etag, contentType, size, metadata,
          .inline bytes, deleteMarker⟩) (if_neg small) rfl (by simp)
      · exact ⟨files, .inl ⟨by rw [out]; rfl, run⟩⟩
      · exact ⟨files, .inr ⟨_, by rw [out]; rfl, run⟩⟩
  | fileRef path =>
    by_cases small : size ≤ cfg.inlineObjectThreshold
    · simp only [if_pos small]
      refine ⟨w.files, ?_⟩
      cases read : w.files.disk.read path with
      | none =>
        refine .inl ⟨rfl, .head (if_pos small) ?_⟩
        simp only [read]
        exact runsTo_done _ w
      | some bytes =>
        refine .inr ⟨_, rfl, .head (if_pos small) ?_⟩
        simp only [read]
        exact runsTo_commit cfg [] _ (by simp)
    · simp only [if_neg small]
      obtain ⟨copied, files, out⟩ : ∃ copied files,
          w.files.copyObject cfg ⟨src.1, src.2, versionId⟩ loc = (copied, files) := ⟨_, _, rfl⟩
      refine ⟨files, ?_⟩
      rw [out]
      cases copied with
      | none =>
        refine .inl ⟨rfl, .head (if_neg small) ?_⟩
        simp only [out]
        exact runsTo_done _ { w with files }
      | some path =>
        refine .inr ⟨_, rfl, .head (if_neg small) ?_⟩
        simp only [out]
        exact runsTo_commit cfg (w := { w with files }) [] _ (by simp)

variable (cfg w) in
theorem runsTo_copy (c : Job) {bucket : String} {src : String × String} {v : ObjectVersion}
    (found : w.store.bucketExists bucket = true) (named : bucketFromPath c.ctx.path = some bucket)
    (source : copySource c.ctx = some src) (read : w.store.getObject src.1 src.2 = some v) :
    RunsTo cfg (.copyVersion c bucket src v) w (handleCopyObject cfg c.draws w c.ctx).2 := by
  refine .head (a := (.copy c (c.location bucket w.store) src v, w)) rfl ?_
  unfold handleCopyObject
  simp only [named, source, found, if_true, read]
  obtain ⟨files, ⟨out, run⟩ | ⟨data, out, run⟩⟩ :=
    runsTo_copyData cfg w c (c.location bucket w.store) src v
  · simp only [Job.location] at out
    rw [out]
    exact run
  · simp only [Job.location] at out
    rw [out]
    exact run

variable (cfg w) in
theorem runsTo_upload (c : Job) {bucket uploadId : String} {u : MultipartUpload}
    (named : bucketFromPath c.ctx.path = some bucket)
    (asked : c.ctx.queryParams["uploadId"]? = some uploadId)
    (upload : requestedUpload w.store c.ctx bucket uploadId = some u) :
    RunsTo cfg (.uploadVersion c bucket uploadId u) w
      (handleCompleteMultipartUpload cfg c.draws w c.ctx).2 := by
  refine .head (a := (.assemble c (c.location bucket w.store) uploadId u, w)) rfl ?_
  have next : Stage.step cfg (.assemble c (c.location bucket w.store) uploadId u) w =
    assembleStep cfg c (c.location bucket w.store) uploadId u w := rfl
  unfold handleCompleteMultipartUpload assembleParts
  unfold assembleStep at next
  simp only [named, asked, upload, removeParts_eq]
  by_cases small : estimatedSize (selectParts u (requestedParts c.ctx)) ≤ cfg.inlineObjectThreshold
  · simp only [if_pos small] at next ⊢
    by_cases fails : (multipartRead w.files
        ((selectParts u (requestedParts c.ctx)).map (·.data))).fails = true
    · simp only [if_pos fails] at next ⊢
      exact .head next (runsTo_done _ w)
    · simp only [if_neg fails] at next ⊢
      exact .head next (runsTo_commit cfg _ _ (by simp))
  · simp only [if_neg small, writeObjectFromSyncReader, writeObjectFromReader] at next ⊢
    obtain ⟨files, ⟨out, run⟩ | ⟨out, run⟩⟩ := runsTo_writeTmp cfg w _ next rfl (by simp)
    · simp only [Job.location] at out
      rw [out]
      exact run
    · simp only [Job.location] at out
      rw [out]
      exact run

/-- The removed version's file goes after the version. -/
theorem runsTo_removeData (data : ObjectDataRef) (store : S3Store) :
    RunsTo cfg (removeThen data.path? ⟨204, none⟩) { w with store }
      ⟨store, w.files.removeData data⟩ := by
  cases data with
  | inline bytes => exact runsTo_done _ _
  | fileRef path => exact runsTo_remove (w := { w with store }) path _

variable (cfg w) in
theorem runsTo_delete (c : Job) {bucket : String} (found : w.store.bucketExists bucket = true)
    (named : bucketFromPath c.ctx.path = some bucket) :
    RunsTo cfg (.delete c bucket) w (handleDeleteObject c.draws w c.ctx).2 := by
  refine .head (a := deleteStep c bucket w) rfl ?_
  unfold handleDeleteObject deleteStep deleteListed
  simp only [named, found, if_true]
  cases c.ctx.queryParams["versionId"]? with
  | some vid =>
    obtain ⟨removed, store, out⟩ : ∃ removed store, w.store.deleteObjectVersion bucket
        (keyFromPath c.ctx.path) vid = (removed, store) := ⟨_, _, rfl⟩
    simp only [out]
    cases removed with
    | none => exact runsTo_done _ _
    | some v => exact runsTo_removeData v.data store
  | none =>
    obtain ⟨removed, store, out⟩ : ∃ removed store, w.store.deleteObject c.draws.now c.draws.uuid
        bucket (keyFromPath c.ctx.path) = (removed, store) := ⟨_, _, rfl⟩
    simp only [out]
    cases removed with
    | none => exact runsTo_done _ _
    | some v =>
      simp only [Option.bind_some]
      cases v.deleteMarker with
      | true => exact runsTo_done _ _
      | false => exact runsTo_removeData v.data store

/-- A request whose steps no other request interrupts does what its handler does. -/
theorem runsTo_handle (cfg : Config) (c : Job) (w : World) :
    RunsTo cfg (.start c) w (c.handle cfg w) := by
  refine .head (a := startStep c w) rfl ?_
  cases named : bucketFromPath c.ctx.path with
  | none =>
    have refused : c.handle cfg w = w := by
      unfold Job.handle
      cases c.kind <;> simp [named, handleCreateBucket, handlePutObject, handleDeleteObject,
        handleCopyObject, handleCreateMultipartUpload, handleCompleteMultipartUpload]
    simp only [startStep, named, refused]
    exact runsTo_done _ w
  | some bucket =>
    unfold startStep Job.handle
    simp only [named]
    cases c.kind with
    | createBucket => exact runsTo_done _ _
    | createMultipartUpload => exact runsTo_done _ _
    | putObject =>
      by_cases found : w.store.bucketExists bucket = true
      · simp only [found, if_true]
        exact runsTo_receive cfg w c found named
      · simp only [handlePutObject, named, found, if_false, Bool.false_eq_true]
        exact runsTo_done _ w
    | deleteObject =>
      by_cases found : w.store.bucketExists bucket = true
      · simp only [found, if_true]
        exact runsTo_delete cfg w c found named
      · simp only [handleDeleteObject, named, found, if_false, Bool.false_eq_true]
        exact runsTo_done _ w
    | copyObject =>
      cases source : copySource c.ctx with
      | none =>
        simp only [handleCopyObject, named, source]
        exact runsTo_done _ w
      | some src =>
        by_cases found : w.store.bucketExists bucket = true
        · cases read : w.store.getObject src.1 src.2 with
          | none =>
            simp only [handleCopyObject, named, source, found, read, if_true]
            exact runsTo_done _ w
          | some v =>
            simp only [found, if_true, read]
            exact runsTo_copy cfg w c found named source read
        · simp only [handleCopyObject, named, source, found, if_false, Bool.false_eq_true]
          exact runsTo_done _ w
    | completeMultipartUpload =>
      cases asked : c.ctx.queryParams["uploadId"]? with
      | none =>
        simp only [handleCompleteMultipartUpload, named, asked]
        exact runsTo_done _ w
      | some uploadId =>
        cases upload : requestedUpload w.store c.ctx bucket uploadId with
        | none =>
          simp only [handleCompleteMultipartUpload, named, asked, upload]
          exact runsTo_done _ w
        | some u =>
          simp only [upload]
          exact runsTo_upload cfg w c named asked upload

end Solo
end Openstack.S3

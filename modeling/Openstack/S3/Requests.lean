import Openstack.S3.FileEffects
import Openstack.S3.KeyIsolation

/-!
# Sequences of requests

The handlers of `provider.rs` as one step function, with PutBucketVersioning, DeleteObjects and
AbortMultipartUpload. Ids are drawn by the caller, so what `Uuid::new_v4` promises is said of the
calls: `Call.drawn` are the ids a call draws, and `NewIds` says that they are new.
-/
namespace Openstack.S3

open ObjectFileStore

variable {store : S3Store} {bucket : String}

inductive Action where
  | createBucket
  | putBucketVersioning
  | putObject
  | getObject
  | deleteObject
  | deleteObjects
  | copyObject
  | createMultipartUpload
  | uploadPart
  | completeMultipartUpload
  | abortMultipartUpload
  deriving DecidableEq, Repr

structure Call where
  action : Action
  ctx : RequestContext
  draws : Draws
  /-- The ids of the delete markers that a DeleteObjects inserts. -/
  markerIds : Nat → String

def World.serve (cfg : Config) (w : World) (c : Call) : World :=
  match c.action with
  | .createBucket => (handleCreateBucket c.draws w c.ctx).2
  | .putBucketVersioning => (handlePutBucketVersioning w c.ctx).2
  | .putObject => (handlePutObject cfg c.draws w c.ctx).2
  | .getObject => w
  | .deleteObject => (handleDeleteObject c.draws w c.ctx).2
  | .deleteObjects => (handleDeleteObjects c.draws.now c.markerIds w c.ctx).2
  | .copyObject => (handleCopyObject cfg c.draws w c.ctx).2
  | .createMultipartUpload => (handleCreateMultipartUpload c.draws w c.ctx).2
  | .uploadPart => (handleUploadPart cfg c.draws w c.ctx).2
  | .completeMultipartUpload => (handleCompleteMultipartUpload cfg c.draws w c.ctx).2
  | .abortMultipartUpload => (handleAbortMultipartUpload w c.ctx).2

/-- The ids a call may draw. -/
def Call.drawn (c : Call) : List String :=
  match c.action with
  | .putObject | .deleteObject | .copyObject | .createMultipartUpload
  | .completeMultipartUpload => [c.draws.uuid]
  | .deleteObjects => (List.range (requestedDeletes c.ctx).length).map c.markerIds
  | .createBucket | .putBucketVersioning | .getObject | .uploadPart | .abortMultipartUpload => []

/-- The versions of a key, newest first; none for an unknown key. -/
def S3Store.versions (store : S3Store) (bucket key : String) : List ObjectVersion :=
  ((store.object? bucket key).map (·.versions)).getD []

/-- The ids a call draws are uuids, all different, and neither a stored version nor a file has
one of them yet. -/
structure NewIds (w : World) (c : Call) : Prop where
  nodup : c.drawn.Nodup
  uuid : ∀ id ∈ c.drawn, IsUuid id
  store : ∀ id ∈ c.drawn, ∀ bucket key, ∀ v ∈ w.store.versions bucket key, v.versionId ≠ id
  files : ∀ id ∈ c.drawn, ∀ p : Path, p.getLast? = some id → w.files.disk.entry p = none

namespace S3Store

theorem getObjectVersion_eq (store : S3Store) (bucket key versionId : String) :
    store.getObjectVersion bucket key versionId =
      (store.versions bucket key).find? (·.versionId == versionId) := by
  unfold getObjectVersion versions
  cases store.object? bucket key <;> simp

theorem versions_congr {a b : S3Store} (same : a.objects = b.objects) (bucket key : String) :
    a.versions bucket key = b.versions bucket key := by
  rw [versions, versions, object?_congr same]

/-- Storing an object in a bucket. -/
theorem versions_set (store : S3Store) (bucket : String) (obj : S3Object) (b k : String) :
    versions { store with
      objects := store.objects.insert bucket ((store.objects[bucket]?.getD .empty).set obj) } b k =
      if b = bucket ∧ k = obj.key then obj.versions else store.versions b k := by
  rw [versions, object?_set]
  split <;> rfl

theorem versions_createBucket (now : Instant) (store : S3Store) (name region b k : String) :
    (store.createBucket now name region).versions b k = store.versions b k := by
  rw [versions, object?_createBucket, versions]

theorem versions_putObjectVersion (store : S3Store) (bucket key : String) (version : ObjectVersion)
    (b k : String) :
    (store.putObjectVersion bucket key version).2.versions b k =
      if b = bucket ∧ k = key then
        if version.versionId = "null" then [version] else version :: store.versions bucket key
      else store.versions b k := by
  unfold putObjectVersion
  simp only
  split
  · next obj found =>
    have keyed := (store.objects[bucket]?.getD .empty).keyed key obj found
    have stored : store.versions bucket key = obj.versions := by
      rw [getElem?_getD_empty] at found
      simp [versions, found]
    refine (versions_set store bucket (obj.push version) b k).trans ?_
    unfold S3Object.push
    by_cases null : version.versionId = "null" <;> simp [null, keyed, stored]
  · next missing =>
    have stored : store.versions bucket key = [] := by
      rw [getElem?_getD_empty] at missing
      simp [versions, missing]
    refine (versions_set store bucket (S3Object.new key version) b k).trans ?_
    rw [stored, ite_self]
    rfl

theorem versions_erase (store : S3Store) {objects : Objects}
    (found : store.objects[bucket]? = some objects) (key b k : String) :
    versions { store with objects := store.objects.insert bucket (objects.erase key) } b k =
      if b = bucket ∧ k = key then [] else store.versions b k := by
  rw [versions, object?_erase store found]
  split <;> rfl

/-- Without versioning every version of the key goes. -/
theorem versions_deleteObject (unversioned : store.versioningEnabled bucket = false) (now : Instant)
    (markerId key b k : String) :
    (store.deleteObject now markerId bucket key).2.versions b k =
      if b = bucket ∧ k = key then [] else store.versions b k := by
  rw [versions, object?_deleteObject unversioned]
  split <;> rfl

theorem deleteObject_head
    (unversioned : store.versioningEnabled bucket = false) (now : Instant) (markerId key : String) :
    (store.deleteObject now markerId bucket key).1 = (store.versions bucket key).head? := by
  rw [deleteObject_deleted unversioned, versions]
  cases store.object? bucket key <;> rfl

/-- With versioning a delete marker is put on top. -/
theorem deleteObject_marker
    (versioned : store.versioningEnabled bucket = true) (now : Instant) (markerId key : String) :
    store.deleteObject now markerId bucket key = (none, store) ∨
    ∃ marker : ObjectVersion, marker.versionId = markerId ∧ marker.data = .inline [] ∧
      marker.deleteMarker = true ∧
      (store.deleteObject now markerId bucket key).1 = some marker ∧
      ∀ b k, (store.deleteObject now markerId bucket key).2.versions b k =
        if b = bucket ∧ k = key then marker :: store.versions bucket key else store.versions b k := by
  unfold deleteObject
  cases found : store.objects[bucket]? with
  | none => exact .inl rfl
  | some objects =>
    simp only [versioned, if_true]
    refine .inr ⟨_, rfl, rfl, rfl, rfl, ?_⟩
    intro b k
    have keyed : (objects.map[key]?.getD ⟨key, []⟩).key = key := by
      cases stored : objects.map[key]? with
      | none => rfl
      | some obj => exact objects.keyed key obj stored
    have old : (objects.map[key]?.getD ⟨key, []⟩).versions = store.versions bucket key := by
      unfold versions object?
      rw [found, Option.bind_some]
      cases objects.map[key]? <;> rfl
    have updated := versions_set store bucket
      { objects.map[key]?.getD ⟨key, []⟩ with
        versions := ⟨markerId, now, "", "", 0, ∅, .inline [], true⟩ ::
          (objects.map[key]?.getD ⟨key, []⟩).versions } b k
    rw [found, Option.getD_some, old] at updated
    rw [keyed] at updated
    rw [old]
    exact updated

theorem deleteObjectVersion_versions (store : S3Store) (bucket key versionId : String) :
    (store.deleteObjectVersion bucket key versionId).1 =
      (store.versions bucket key).find? (·.versionId == versionId) ∧
    ∀ b k, (store.deleteObjectVersion bucket key versionId).2.versions b k =
      if b = bucket ∧ k = key then
        (store.versions bucket key).eraseP (·.versionId == versionId)
      else store.versions b k := by
  have unchanged : ∀ versions : List ObjectVersion, store.versions bucket key = versions →
      versions.find? (·.versionId == versionId) = none →
      none = (store.versions bucket key).find? (·.versionId == versionId) ∧
      ∀ b k, store.versions b k = if b = bucket ∧ k = key then
        (store.versions bucket key).eraseP (·.versionId == versionId) else store.versions b k := by
    intro versions stored missing
    refine ⟨by rw [stored, missing], ?_⟩
    intro b k
    split
    · next same =>
      rw [same.1, same.2, List.eraseP_of_forall_not]
      rw [stored]
      simpa using missing
    · rfl
  unfold deleteObjectVersion
  cases found : store.objects[bucket]? with
  | none => exact unchanged [] (by simp [versions, object?, found]) rfl
  | some objects =>
    simp only
    cases stored : objects.map[key]? with
    | none => exact unchanged [] (by simp [versions, object?, found, stored]) rfl
    | some obj =>
      have old : store.versions bucket key = obj.versions := by
        simp [versions, object?, found, stored]
      simp only
      cases removed : obj.versions.find? (·.versionId == versionId) with
      | none => exact unchanged obj.versions old removed
      | some v =>
        refine ⟨by rw [old, removed], ?_⟩
        intro b k
        simp only [old]
        split
        · next emptied =>
          rw [versions_erase store found]
          simp [List.isEmpty_iff.mp emptied]
        · have keyed := objects.keyed key obj stored
          have updated := versions_set store bucket
            { obj with versions := obj.versions.eraseP (·.versionId == versionId) } b k
          rw [found, Option.getD_some] at updated
          rw [updated]
          simp only [keyed]

theorem deleteObjectVersion_rest (store : S3Store) (bucket key versionId : String) :
    (store.deleteObjectVersion bucket key versionId).2.buckets = store.buckets ∧
      (store.deleteObjectVersion bucket key versionId).2.multipartUploads =
        store.multipartUploads := by
  unfold deleteObjectVersion
  cases store.objects[bucket]? with
  | none => exact ⟨rfl, rfl⟩
  | some objects =>
    simp only
    cases objects.map[key]? with
    | none => exact ⟨rfl, rfl⟩
    | some obj =>
      simp only
      cases obj.versions.find? (·.versionId == versionId) <;> exact ⟨rfl, rfl⟩

end S3Store

/-- The loop of DeleteObjects changes objects only. -/
theorem deleteAllListed_rest (now : Instant) (markerIds : Nat → String) (bucket : String) (i : Nat)
    (store : S3Store) (entries : List (String × Option String)) :
    (deleteAllListed now markerIds bucket i store entries).2.buckets = store.buckets ∧
      (deleteAllListed now markerIds bucket i store entries).2.multipartUploads =
        store.multipartUploads := by
  induction entries generalizing i store with
  | nil => exact ⟨rfl, rfl⟩
  | cons entry rest ih =>
    obtain ⟨buckets, uploads⟩ := ih (i + 1) (deleteListed now (markerIds i) store bucket entry).2
    have first : (deleteListed now (markerIds i) store bucket entry).2.buckets = store.buckets ∧
        (deleteListed now (markerIds i) store bucket entry).2.multipartUploads =
          store.multipartUploads := by
      unfold deleteListed
      split
      · exact S3Store.deleteObjectVersion_rest _ _ _ _
      · exact S3Store.deleteObject_rest _ _ _ _ _
    exact ⟨buckets.trans first.1, uploads.trans first.2⟩

/-- The files of uploaded parts have names of parts. -/
def PartsPlaced (store : S3Store) : Prop :=
  ∀ (uploadId : String) u, store.multipartUploads[uploadId]? = some u → ∀ part ∈ u.parts,
    ∀ p, part.2.data = .fileRef p → ∃ n : Nat, p.getLast? = some ("part-" ++ toString n)

/-- The selected parts are parts of the upload. -/
theorem mem_selectParts {u : MultipartUpload} {parts : List (Nat × String)} {part : UploadPart}
    (member : part ∈ selectParts u parts) : ∃ n, (n, part) ∈ u.parts := by
  obtain ⟨n, _, found⟩ := List.mem_filterMap.mp member
  exact ⟨n, mem_of_lookup found⟩

theorem PartsPlaced.erase (placed : PartsPlaced store) (uploadId : String) :
    PartsPlaced { store with multipartUploads := store.multipartUploads.erase uploadId } := by
  intro id u found
  simp only [StrMap.getElem?_erase] at found
  split at found
  · cases found
  · exact placed id u found

/-- A drawn version id looks neither like a temporary name nor like the name of a part. -/
theorem drawVersionId_plain {draws : Draws} (uuid : IsUuid draws.uuid) (store : S3Store)
    (bucket : String) : Plain (drawVersionId draws store bucket) ∧
      ∀ n : Nat, drawVersionId draws store bucket ≠ "part-" ++ toString n := by
  unfold drawVersionId
  split
  · exact ⟨plain_uuid uuid, uuid.ne_part⟩
  · refine ⟨plain_null, ?_⟩
    intro n same
    have first := congrArg (fun text => text.toList.head?) same
    simp only [String.toList_append] at first
    exact absurd first (by simp)

/-- The parts of an upload lie elsewhere than the object. -/
theorem PartsPlaced.apart (placed : PartsPlaced store) {uploadId : String}
    {u : MultipartUpload} (upload : store.multipartUploads[uploadId]? = some u) (cfg : Config)
    (loc : ObjectLocation) (other : ∀ n : Nat, loc.versionId ≠ "part-" ++ toString n) (parts : List (Nat × String)) :
    ∀ part ∈ selectParts u parts, part.data ≠ .fileRef (objectPath cfg loc) := by
  intro part member data
  obtain ⟨n, stored⟩ := mem_selectParts member
  obtain ⟨m, last⟩ := placed uploadId u upload _ stored _ data
  rw [getLast?_objectPath] at last
  exact other m (Option.some.inj last)

section Intake

variable {cfg : Config} {files : ObjectFileStore}

variable (cfg) in
theorem receiveBody_effects (fresh : TmpFresh files) (ctx : RequestContext) (loc : ObjectLocation)
    (plain : Plain loc.versionId) (notStored : String) :
    TmpFresh (receiveBody cfg files ctx loc notStored).2 ∧
    Keeps files (receiveBody cfg files ctx loc notStored).2 (· = objectPath cfg loc) ∧
    ∀ etag size data, (receiveBody cfg files ctx loc notStored).1 = .ok (etag, size, data) →
      (bodyStream ctx).fails = false ∧
      etag = formatEtag (cfg.md5 (bodyStream ctx).bytes) ∧ size = (bodyStream ctx).bytes.length ∧
      ((∃ b, data = .inline b) ∨ data = .fileRef (objectPath cfg loc)) ∧
      (receiveBody cfg files ctx loc notStored).2.readData data ≠ none := by
  obtain ⟨fresh', kept, failed, written⟩ := writeObjectFromReader_effects cfg loc fresh plain
    (bodyStream ctx) (announcedLength ctx)
  unfold receiveBody
  cases keptInline cfg ctx with
  | true =>
    simp only [if_true]
    split
    · exact ⟨fresh, Keeps.refl _ _, by simp⟩
    · next works =>
      refine ⟨fresh, Keeps.refl _ _, ?_⟩
      intro etag size data ok
      cases ok
      exact ⟨by simpa using works, rfl, rfl, .inl ⟨_, rfl⟩, by simp [readData]⟩
  | false =>
    simp only [Bool.false_eq_true, if_false]
    cases fails : (bodyStream ctx).fails with
    | true =>
      obtain ⟨none, _⟩ := failed fails
      obtain ⟨files', out⟩ : ∃ files', files.writeObjectFromReader cfg loc (bodyStream ctx)
          (announcedLength ctx) = (Option.none, files') := ⟨_, Prod.ext none rfl⟩
      rw [out] at fresh' kept ⊢
      exact ⟨fresh', kept, by simp⟩
    | false =>
      obtain ⟨path, read⟩ := written fails
      obtain ⟨files', out⟩ : ∃ files', files.writeObjectFromReader cfg loc (bodyStream ctx)
          (announcedLength ctx) = (some (objectPath cfg loc, (bodyStream ctx).bytes.length), files') :=
        ⟨_, Prod.ext path rfl⟩
      rw [out] at fresh' kept read ⊢
      refine ⟨fresh', kept, ?_⟩
      intro etag size data ok
      cases ok
      exact ⟨rfl, rfl, rfl, .inr rfl, by simp [readData, read]⟩

variable (cfg) in
/-- A copy writes at its destination only, except when it goes over an existing file. -/
theorem copyData_effects (fresh : TmpFresh files) (src : String × String) (v : ObjectVersion)
    (dst : ObjectLocation) (plain : Plain dst.versionId) :
    TmpFresh (copyData cfg files src v dst).2 ∧
    Keeps files (copyData cfg files src v dst).2 (fun p => p = objectPath cfg dst ∨
      v.data.path?.isSome ∧ cfg.inlineObjectThreshold < v.size ∧
        Overwritten cfg files ⟨src.1, src.2, v.versionId⟩ dst p) ∧
    ∀ data, (copyData cfg files src v dst).1 = some data →
      ((∃ b, data = .inline b) ∨ data = .fileRef (objectPath cfg dst)) ∧
      (copyData cfg files src v dst).2.readData data ≠ none := by
  unfold copyData
  cases v.data with
  | inline bytes =>
    obtain ⟨fresh', kept, _, written⟩ := installFile_effects cfg dst fresh plain bytes false
    obtain ⟨path, read⟩ := written rfl
    simp only
    split
    · refine ⟨fresh, Keeps.refl _ _, ?_⟩
      intro data ok
      cases ok
      exact ⟨.inl ⟨_, rfl⟩, by simp [readData]⟩
    · simp only [writeObject, path, Option.map_some]
      refine ⟨fresh', kept.mono (fun p here => .inl here), ?_⟩
      intro data ok
      cases ok
      exact ⟨.inr rfl, by simp [readData, read]⟩
  | fileRef srcFile =>
    obtain ⟨fresh', kept, copied⟩ :=
      copyObject_effects cfg fresh ⟨src.1, src.2, v.versionId⟩ dst plain
    simp only
    split
    · refine ⟨fresh, Keeps.refl _ _, ?_⟩
      intro data ok
      obtain ⟨bytes, _, rfl⟩ := Option.map_eq_some_iff.mp ok
      exact ⟨.inl ⟨_, rfl⟩, by simp [readData]⟩
    · next large =>
      refine ⟨fresh', kept.mono (fun p here => .inr ⟨rfl, by omega, here⟩), ?_⟩
      intro data ok
      obtain ⟨path, found, rfl⟩ := Option.map_eq_some_iff.mp ok
      obtain ⟨place, present⟩ := copied path found
      refine ⟨.inr (by rw [place]), ?_⟩
      intro missing
      exact present (Disk.read_eq_none_iff.mp missing)

theorem removeFiles_effects (fresh : TmpFresh files) (paths : List Path) :
    TmpFresh (paths.foldl removeFile files) ∧
      Keeps files (paths.foldl removeFile files) (· ∈ paths) := by
  induction paths generalizing files with
  | nil => exact ⟨fresh, Keeps.refl _ _⟩
  | cons path rest ih =>
    obtain ⟨fresh', kept⟩ := removeFile_effects fresh path
    obtain ⟨freshRest, keptRest⟩ := ih fresh'
    refine ⟨freshRest, (kept.mono ?_).trans (keptRest.mono ?_)⟩
    · rintro p rfl
      exact List.mem_cons_self
    · intro p member
      exact List.mem_cons_of_mem _ member

theorem removeData_effects (fresh : TmpFresh files) (data : ObjectDataRef) :
    TmpFresh (files.removeData data) ∧
      Keeps files (files.removeData data) (data = .fileRef ·) := by
  cases data with
  | inline bytes => exact ⟨fresh, Keeps.refl _ _⟩
  | fileRef path =>
    obtain ⟨fresh', kept⟩ := removeFile_effects fresh path
    refine ⟨fresh', kept.mono ?_⟩
    rintro p rfl
    rfl

theorem removeParts_effects (fresh : TmpFresh files) (selected : List UploadPart) :
    TmpFresh (removeParts files selected) ∧
      Keeps files (removeParts files selected) (fun p => ∃ part ∈ selected, part.data = .fileRef p) := by
  unfold removeParts
  induction selected generalizing files with
  | nil => exact ⟨fresh, Keeps.refl _ _⟩
  | cons part rest ih =>
    obtain ⟨fresh', kept⟩ := removeData_effects fresh part.data
    obtain ⟨freshRest, keptRest⟩ := ih fresh'
    refine ⟨freshRest, (kept.mono ?_).trans (keptRest.mono ?_)⟩
    · intro p here
      exact ⟨part, List.mem_cons_self, here⟩
    · rintro p ⟨later, member, here⟩
      exact ⟨later, List.mem_cons_of_mem _ member, here⟩

variable (cfg) in
/-- The bytes of an object assembled from parts that read as `bytes`: a file is allocated with
the sizes on record. -/
def assembled (selected : List UploadPart) (bytes : Bytes) : Bytes :=
  if estimatedSize selected ≤ cfg.inlineObjectThreshold then bytes
  else preallocated (some (estimatedSize selected)) bytes

variable (cfg) in
theorem assembleParts_effects (fresh : TmpFresh files) (parts : List (Nat × String))
    (selected : List UploadPart) (loc : ObjectLocation) (plain : Plain loc.versionId)
    (apart : ∀ part ∈ selected, part.data ≠ .fileRef (objectPath cfg loc)) :
    TmpFresh (assembleParts cfg files parts selected loc).2 ∧
    Keeps files (assembleParts cfg files parts selected loc).2
      (fun p => p = objectPath cfg loc ∨ ∃ part ∈ selected, part.data = .fileRef p) ∧
    (∀ e, (assembleParts cfg files parts selected loc).1 = .error e →
      (multipartRead files (selected.map (·.data))).fails = true ∧
      Keeps files (assembleParts cfg files parts selected loc).2 fun _ => False) ∧
    ∀ etag size data, (assembleParts cfg files parts selected loc).1 = .ok (etag, size, data) →
      (multipartRead files (selected.map (·.data))).fails = false ∧
      etag = (multipartEtag cfg parts selected).getD
        (formatEtag (cfg.md5 (multipartRead files (selected.map (·.data))).bytes)) ∧
      ((∃ b, data = .inline b) ∨ data = .fileRef (objectPath cfg loc)) ∧
      (assembleParts cfg files parts selected loc).2.readData data =
        some (assembled cfg selected (multipartRead files (selected.map (·.data))).bytes) := by
  obtain ⟨stream, reader⟩ : ∃ stream, multipartRead files (selected.map (·.data)) = stream := ⟨_, rfl⟩
  unfold assembleParts assembled
  rw [reader]
  simp only
  split
  · obtain ⟨fresh', kept⟩ := removeParts_effects fresh selected
    cases fails : stream.fails with
    | true => exact ⟨fresh, Keeps.refl _ _, fun _ _ => ⟨rfl, Keeps.refl _ _⟩, by simp⟩
    | false =>
      simp only [Bool.false_eq_true, if_false]
      refine ⟨fresh', kept.mono (fun p here => .inr here), by simp, ?_⟩
      intro etag size data ok
      cases ok
      exact ⟨trivial, rfl, .inl ⟨_, rfl⟩, rfl⟩
  · obtain ⟨fresh', kept, failed, written⟩ := writeObjectFromReader_effects cfg loc fresh plain
      stream (some (estimatedSize selected))
    unfold writeObjectFromSyncReader
    cases fails : stream.fails with
    | true =>
      obtain ⟨none, keptAll⟩ := failed fails
      obtain ⟨files', out⟩ : ∃ files', files.writeObjectFromReader cfg loc stream
          (some (estimatedSize selected)) = (Option.none, files') := ⟨_, Prod.ext none rfl⟩
      rw [out] at fresh' kept keptAll ⊢
      exact ⟨fresh', kept.mono (fun p here => .inl here), fun _ _ => ⟨rfl, keptAll⟩, by simp⟩
    | false =>
      obtain ⟨path, read⟩ := written fails
      obtain ⟨files', out⟩ : ∃ files', files.writeObjectFromReader cfg loc stream
          (some (estimatedSize selected)) =
            (some (objectPath cfg loc, stream.bytes.length), files') := ⟨_, Prod.ext path rfl⟩
      rw [out] at fresh' kept read ⊢
      obtain ⟨freshAfter, keptAfter⟩ := removeParts_effects fresh' selected
      refine ⟨freshAfter, (kept.mono (fun p here => .inl here)).trans
        (keptAfter.mono (fun p here => .inr here)), by simp, ?_⟩
      intro etag size data ok
      cases ok
      refine ⟨rfl, rfl, .inr rfl, keptAfter _ _ ?_ read⟩
      rintro ⟨part, member, here⟩
      exact apart part member here

end Intake
end Openstack.S3

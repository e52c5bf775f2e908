import Openstack.Lib.Run
import Openstack.S3.Provider

/-!
# Isolation of keys on the file system

Along a run of requests on buckets without versioning, a request for one key leaves
the bytes of all other keys alone, and a copy returns what its source returned. The
invariant is that every stored object has one version, its file is the one at the
path of its key, and only such files share bytes. A CopyObject over an existing file
writes into that file, so the run theorem asks that nothing else is linked to it.
-/
namespace Openstack.S3

open ObjectFileStore

variable {w : World} {files : ObjectFileStore} {store : S3Store} {bucket : String}
  {get : RequestContext} {a b : S3Store} {ctx : RequestContext} {version : ObjectVersion}
  {obj : S3Object} {bytes : Bytes} {v : ObjectVersion}

/-! ## Requests -/

inductive Operation where
  | createBucket
  | putObject
  | getObject
  | deleteObject
  | copyObject
  | createMultipartUpload
  | uploadPart
  | completeMultipartUpload
  deriving DecidableEq, Repr

structure Request where
  operation : Operation
  ctx : RequestContext
  draws : Draws

/-- The bucket and key in the path. -/
def target (ctx : RequestContext) : Option (String × String) :=
  (bucketFromPath ctx.path).map fun bucket => (bucket, keyFromPath ctx.path)

/-- The object a request may change. -/
def Request.destination (r : Request) : Option (String × String) :=
  match r.operation with
  | .putObject | .deleteObject | .copyObject | .completeMultipartUpload => target r.ctx
  | .createBucket | .getObject | .createMultipartUpload | .uploadPart => none

variable (cfg : Config)

def World.step (w : World) (r : Request) : World :=
  match r.operation with
  | .createBucket => (handleCreateBucket r.draws w r.ctx).2
  | .putObject => (handlePutObject cfg r.draws w r.ctx).2
  | .getObject => w
  | .deleteObject => (handleDeleteObject r.draws w r.ctx).2
  | .copyObject => (handleCopyObject cfg r.draws w r.ctx).2
  | .createMultipartUpload => (handleCreateMultipartUpload r.draws w r.ctx).2
  | .uploadPart => (handleUploadPart cfg r.draws w r.ctx).2
  | .completeMultipartUpload => (handleCompleteMultipartUpload cfg r.draws w r.ctx).2

/-- The bytes GetObject returns, if it answers with an object. -/
def getBody (w : World) (get : RequestContext) : Option Bytes :=
  match handleGetObject w get with
  | .ok out => some out.body
  | .error _ => none

/-! ## Storing bytes for a null version -/

/-- `bytes` were stored as `data` for the null version of the key. -/
structure Stored (old new : ObjectFileStore) (bucket key : String) (data : ObjectDataRef)
    (bytes : Bytes) : Prop where
  links : new.LinksNull
  reads : new.readData data = some bytes
  place : (∃ b, data = .inline b) ∧ KeepsNull old new [] ∨
    data = .fileRef (nullPath cfg bucket key) ∧ KeepsNull old new [nullPath cfg bucket key]

variable {cfg}

variable (cfg) in
theorem writeObjectFromReader_spec {fs : ObjectFileStore} (loc : ObjectLocation)
    (links : fs.LinksNull) (stream : Stream) (len : Option Nat) :
    (fs.writeObjectFromReader cfg loc stream len).2.LinksNull ∧
    KeepsNull fs (fs.writeObjectFromReader cfg loc stream len).2 [objectPath cfg loc] ∧
    (∀ path n, (fs.writeObjectFromReader cfg loc stream len).1 = some (path, n) →
      path = objectPath cfg loc ∧ ∃ bytes,
        (fs.writeObjectFromReader cfg loc stream len).2.disk.read path = some bytes) ∧
    ((fs.writeObjectFromReader cfg loc stream len).1 = none →
      KeepsNull fs (fs.writeObjectFromReader cfg loc stream len).2 []) := by
  obtain ⟨linked, kept, written, failed⟩ := installFile_spec cfg loc links
    (preallocated len stream.bytes) stream.fails
  unfold writeObjectFromReader
  refine ⟨linked, kept, ?_, ?_⟩
  · intro path n found
    obtain ⟨path', found', pair⟩ := Option.map_eq_some_iff.mp found
    cases pair
    obtain ⟨place, read⟩ := written path found'
    exact ⟨place, _, read⟩
  · intro none
    exact failed (Option.map_eq_none_iff.mp none)

variable (cfg) in
/-- What the intake of a body leaves on disk. -/
theorem receiveBody_spec (links : files.LinksNull) (ctx : RequestContext)
    (loc : ObjectLocation) (notStored : String) :
    (receiveBody cfg files ctx loc notStored).2.LinksNull ∧
    KeepsNull files (receiveBody cfg files ctx loc notStored).2 [objectPath cfg loc] ∧
    (∀ e, (receiveBody cfg files ctx loc notStored).1 = .error e →
      KeepsNull files (receiveBody cfg files ctx loc notStored).2 []) ∧
    ∀ etag size data, (receiveBody cfg files ctx loc notStored).1 = .ok (etag, size, data) →
      (∃ b, data = .inline b ∧ (receiveBody cfg files ctx loc notStored).2 = files) ∨
      (keptInline cfg ctx = false ∧ data = .fileRef (objectPath cfg loc) ∧
        ∃ bytes, (receiveBody cfg files ctx loc notStored).2.readData data = some bytes) := by
  obtain ⟨linked, kept, written, failed⟩ := writeObjectFromReader_spec cfg loc
    links (bodyStream ctx) (announcedLength ctx)
  unfold receiveBody
  cases inline : keptInline cfg ctx with
  | true =>
    simp only [if_true]
    split
    · exact ⟨links, KeepsNull.refl _ _, fun _ _ => KeepsNull.refl _ _, by simp⟩
    · refine ⟨links, KeepsNull.refl _ _, fun _ _ => KeepsNull.refl _ _, ?_⟩
      intro etag size data ok
      cases ok
      exact .inl ⟨_, rfl, rfl⟩
  | false =>
    simp only [Bool.false_eq_true, if_false]
    split
    · next files' out =>
      rw [out] at linked kept failed
      exact ⟨linked, kept, fun _ _ => failed rfl, by simp⟩
    · next path n files' out =>
      rw [out] at linked kept written
      obtain ⟨place, bytes, read⟩ := written path n rfl
      refine ⟨linked, kept, by simp, ?_⟩
      intro etag size data ok
      cases ok
      exact .inr ⟨trivial, by rw [place], bytes, read⟩

theorem removeData_keeps (links : files.LinksNull) {data : ObjectDataRef}
    (notNull : ∀ p, data = .fileRef p → ¬ IsNullPath p) :
    (files.removeData data).LinksNull ∧ KeepsNull files (files.removeData data) [] := by
  cases data with
  | inline bytes => exact ⟨links, KeepsNull.refl _ _⟩
  | fileRef path =>
    obtain ⟨linked, kept⟩ := removeFile_keeps links path
    refine ⟨linked, ?_⟩
    intro p isNull _
    refine kept p isNull ?_
    intro mem
    exact notNull path rfl ((List.mem_singleton.mp mem) ▸ isNull)

theorem removeParts_keeps (links : files.LinksNull) (selected : List UploadPart)
    (notNull : ∀ part ∈ selected, ∀ p, part.data = .fileRef p → ¬ IsNullPath p) :
    (removeParts files selected).LinksNull ∧ KeepsNull files (removeParts files selected) [] := by
  induction selected generalizing files with
  | nil => exact ⟨links, KeepsNull.refl _ _⟩
  | cons part rest ih =>
    obtain ⟨linked, kept⟩ := removeData_keeps links (notNull part (by simp))
    obtain ⟨linkedRest, keptRest⟩ := ih linked (fun part' h => notNull part' (by simp [h]))
    exact ⟨linkedRest, kept.trans keptRest⟩

/-- What assembling an upload leaves on disk. -/
theorem assembleParts_spec (links : files.LinksNull)
    (parts : List (Nat × String)) (selected : List UploadPart) (bucket key : String)
    (notNull : ∀ part ∈ selected, ∀ p, part.data = .fileRef p → ¬ IsNullPath p) :
    (assembleParts cfg files parts selected ⟨bucket, key, "null"⟩).2.LinksNull ∧
    (∀ e, (assembleParts cfg files parts selected ⟨bucket, key, "null"⟩).1 = .error e →
      KeepsNull files (assembleParts cfg files parts selected ⟨bucket, key, "null"⟩).2 []) ∧
    ∀ etag size data,
      (assembleParts cfg files parts selected ⟨bucket, key, "null"⟩).1 = .ok (etag, size, data) →
      (∃ bytes, Stored cfg files
        (assembleParts cfg files parts selected ⟨bucket, key, "null"⟩).2 bucket key data bytes) ∧
      ((∃ p, data = .fileRef p) → cfg.inlineObjectThreshold < estimatedSize selected) := by
  unfold assembleParts
  simp only
  split
  · split
    · exact ⟨links, fun _ _ => KeepsNull.refl _ _, by simp⟩
    · obtain ⟨linked, kept⟩ := removeParts_keeps links selected notNull
      refine ⟨linked, by simp, ?_⟩
      intro etag size data ok
      cases ok
      refine ⟨⟨_, linked, rfl, .inl ⟨⟨_, rfl⟩, kept⟩⟩, ?_⟩
      intro isFile
      obtain ⟨p, eq⟩ := isFile
      cases eq
  · next large =>
    obtain ⟨linked, kept, written, failed⟩ := writeObjectFromReader_spec cfg
      ⟨bucket, key, "null"⟩ links (multipartRead files (selected.map (·.data)))
      (some (estimatedSize selected))
    unfold writeObjectFromSyncReader
    split
    · next files' out =>
      rw [out] at linked failed
      exact ⟨linked, fun _ _ => failed rfl, by simp⟩
    · next path n files' out =>
      rw [out] at linked kept written
      obtain ⟨place, bytes, read⟩ := written path n rfl
      obtain ⟨linkedRest, keptRest⟩ := removeParts_keeps linked selected notNull
      refine ⟨linkedRest, by simp, ?_⟩
      intro etag size data ok
      cases ok
      refine ⟨⟨bytes, linkedRest, ?_, .inr ⟨by rw [place]; rfl, ?_⟩⟩, fun _ => by omega⟩
      · rw [readData, keptRest path (place ▸ isNullPath_nullPath cfg bucket key) (by simp)]
        exact read
      · exact kept.trans (keptRest.mono (by simp))

/-! ## Effects on the metadata -/

namespace S3Store

theorem getElem?_getD_empty (store : S3Store) (bucket key : String) :
    (store.objects[bucket]?.getD .empty).map[key]? = store.object? bucket key := by
  unfold object?
  cases store.objects[bucket]? with
  | none => simp [Objects.empty]
  | some objects => rfl

/-- Storing an object in a bucket. -/
theorem object?_set (store : S3Store) (bucket : String) (obj : S3Object) (b k : String) :
    object? { store with
      objects := store.objects.insert bucket ((store.objects[bucket]?.getD .empty).set obj) } b k =
      if b = bucket ∧ k = obj.key then some obj else store.object? b k := by
  rw [← getElem?_getD_empty store b k]
  simp only [object?, StrMap.getElem?_insert]
  by_cases hb : b = bucket
  · subst hb
    simp [Objects.set, StrMap.getElem?_insert, eq_comm]
  · rw [if_neg (Ne.symm hb), if_neg (fun h => hb h.1)]
    cases store.objects[b]? with
    | none => simp [Objects.empty]
    | some objects => rfl

/-- Removing an object from a bucket. -/
theorem object?_erase (store : S3Store) {objects : Objects}
    (found : store.objects[bucket]? = some objects) (key b k : String) :
    object? { store with objects := store.objects.insert bucket (objects.erase key) } b k =
      if b = bucket ∧ k = key then none else store.object? b k := by
  simp only [object?, StrMap.getElem?_insert]
  by_cases hb : b = bucket
  · subst hb
    simp [Objects.erase, StrMap.getElem?_erase, found, eq_comm]
  · rw [if_neg (Ne.symm hb), if_neg (fun h => hb h.1)]

theorem object?_putObjectVersion (store : S3Store) (bucket key : String)
    (null : version.versionId = "null") (b k : String) :
    (store.putObjectVersion bucket key version).2.object? b k =
      if b = bucket ∧ k = key then some ⟨key, [version]⟩ else store.object? b k := by
  unfold putObjectVersion
  simp only
  split
  · next obj found =>
    have keyed := (store.objects[bucket]?.getD .empty).keyed key obj found
    have pushed : obj.push version = ⟨key, [version]⟩ := by simp [S3Object.push, null, keyed]
    rw [pushed]
    exact object?_set store bucket ⟨key, [version]⟩ b k
  · exact object?_set store bucket ⟨key, [version]⟩ b k

theorem putObjectVersion_prev (store : S3Store) (bucket key : String) (version : ObjectVersion) :
    (store.putObjectVersion bucket key version).1 =
      (store.object? bucket key).bind fun obj => obj.versions.head?.map (·.data) := by
  rw [← getElem?_getD_empty]
  unfold putObjectVersion
  simp only
  split
  · next obj found => rw [found]; rfl
  · next missing => rw [missing]; rfl

@[simp] theorem putObjectVersion_buckets (store : S3Store) (bucket key : String)
    (version : ObjectVersion) :
    (store.putObjectVersion bucket key version).2.buckets = store.buckets := by
  unfold putObjectVersion
  simp only
  split <;> rfl

@[simp] theorem putObjectVersion_uploads (store : S3Store) (bucket key : String)
    (version : ObjectVersion) :
    (store.putObjectVersion bucket key version).2.multipartUploads = store.multipartUploads := by
  unfold putObjectVersion
  simp only
  split <;> rfl

theorem object?_createBucket (now : Instant) (store : S3Store) (name region b k : String) :
    (store.createBucket now name region).object? b k = store.object? b k := by
  unfold createBucket object?
  simp only
  split
  · rfl
  · next missing =>
    rw [StrMap.getElem?_insert]
    split
    · next same =>
      subst same
      have absent : store.objects[name]? = none :=
        Std.ExtTreeMap.getElem?_eq_none (by simpa using missing)
      simp [absent, Objects.empty]
    · rfl

theorem object?_deleteObject (unversioned : store.versioningEnabled bucket = false) (now : Instant)
    (markerId key b k : String) :
    (store.deleteObject now markerId bucket key).2.object? b k =
      if b = bucket ∧ k = key then none else store.object? b k := by
  unfold deleteObject
  cases found : store.objects[bucket]? with
  | none =>
    simp only
    split
    · next same => simp [object?, same.1, found]
    · rfl
  | some objects =>
    simp only [unversioned, Bool.false_eq_true, if_false]
    exact object?_erase store found key b k

theorem deleteObject_deleted
    (unversioned : store.versioningEnabled bucket = false) (now : Instant) (markerId key : String) :
    (store.deleteObject now markerId bucket key).1 =
      (store.object? bucket key).bind (·.versions.head?) := by
  unfold deleteObject object?
  cases store.objects[bucket]? with
  | none => rfl
  | some objects => simp [unversioned]

theorem deleteObject_rest (store : S3Store) (now : Instant) (markerId bucket key : String) :
    (store.deleteObject now markerId bucket key).2.buckets = store.buckets ∧
      (store.deleteObject now markerId bucket key).2.multipartUploads = store.multipartUploads := by
  unfold deleteObject
  cases store.objects[bucket]? with
  | none => exact ⟨rfl, rfl⟩
  | some objects =>
    simp only
    split <;> exact ⟨rfl, rfl⟩

/-- An object with one version is deleted with it. -/
theorem deleteObjectVersion_cases {bucket key : String}
    (single : ∀ obj, store.object? bucket key = some obj → ∃ v, obj.versions = [v]) (versionId : String) :
    store.deleteObjectVersion bucket key versionId = (none, store) ∨
    ∃ obj v objects, store.object? bucket key = some obj ∧ obj.versions = [v] ∧
      store.objects[bucket]? = some objects ∧
      store.deleteObjectVersion bucket key versionId =
        (some v, { store with objects := store.objects.insert bucket (objects.erase key) }) := by
  unfold deleteObjectVersion
  split
  · exact .inl rfl
  · next objects found =>
    split
    · exact .inl rfl
    · next obj stored =>
      have hobj : store.object? bucket key = some obj := by simp [object?, found, stored]
      obtain ⟨v, one⟩ := single obj hobj
      rw [one]
      by_cases same : v.versionId = versionId
      · exact .inr ⟨obj, v, objects, hobj, one, found, by simp [same]⟩
      · exact .inl (by simp [same])

end S3Store

/-! ## The invariant -/

variable (cfg)

/-- The data of a stored version is in memory or in the file of its key. -/
structure WellPlaced (files : ObjectFileStore) (bucket key : String) (obj : S3Object) : Prop where
  single : ∃ v, obj.versions = [v] ∧ v.versionId = "null" ∧ v.deleteMarker = false
  placed : ∀ v ∈ obj.versions, ∀ p, v.data = .fileRef p →
    p = nullPath cfg bucket key ∧ files.disk.read p ≠ none

/-- The object has a file. -/
def FileBacked (obj : S3Object) : Prop := ∃ v ∈ obj.versions, ∃ p, v.data = .fileRef p

structure KeyInvariant (w : World) : Prop where
  unversioned : ∀ bucket, w.store.versioningEnabled bucket = false
  bucketed : ∀ b k obj, w.store.object? b k = some obj → w.store.bucketExists b = true
  stored : ∀ b k obj, w.store.object? b k = some obj → WellPlaced cfg w.files b k obj
  /-- Two keys never use one file. -/
  distinct : ∀ b k k' obj obj', w.store.object? b k = some obj → w.store.object? b k' = some obj' →
    FileBacked obj → FileBacked obj' → cfg.keyHash k = cfg.keyHash k' → k = k'
  uploads : ∀ (uid : String) u, w.store.multipartUploads[uid]? = some u →
    w.store.bucketExists u.bucket = true ∧
      ∀ entry ∈ u.parts, ∀ p, entry.2.data = .fileRef p → ¬ IsNullPath p
  links : w.files.LinksNull

/-- No other key with a file in the bucket has the hash of `key`. -/
def FreshHash (w : World) (bucket key : String) : Prop :=
  ∀ k obj, w.store.object? bucket k = some obj → FileBacked obj →
    cfg.keyHash k = cfg.keyHash key → k = key

/-- The step changes no bytes of an object other than `dest`. -/
structure Untouched (w w' : World) (dest : Option (String × String)) : Prop where
  buckets : ∀ b, w.store.bucketExists b = true → w'.store.bucketExists b = true
  objects : ∀ b k, dest ≠ some (b, k) → w'.store.object? b k = w.store.object? b k
  data : ∀ b k obj, dest ≠ some (b, k) → w.store.object? b k = some obj →
    ∀ v ∈ obj.versions, w'.files.readData v.data = w.files.readData v.data

variable {cfg}

theorem keyInvariant_empty : KeyInvariant cfg {} where
  unversioned := fun _ => rfl
  bucketed := by simp [S3Store.object?]
  stored := by simp [S3Store.object?]
  distinct := by simp [S3Store.object?]
  uploads := by simp
  links := Disk.sharedWithin_empty

theorem WellPlaced.keep {old new : ObjectFileStore} {b k : String} (placed : WellPlaced cfg old b k obj)
    (same : ∀ v ∈ obj.versions, new.readData v.data = old.readData v.data) :
    WellPlaced cfg new b k obj where
  single := placed.single
  placed := by
    intro v mem p data
    obtain ⟨path, present⟩ := placed.placed v mem p data
    have eq := same v mem
    rw [data] at eq
    exact ⟨path, fun missing => present (eq.symm.trans missing)⟩

/-- When only files off the null paths change, every stored object keeps its bytes. -/
theorem KeyInvariant.data_of_keeps (inv : KeyInvariant cfg w)
    {paths : List Path} (keeps : KeepsNull w.files files paths) {b k : String}
    (found : w.store.object? b k = some obj) (apart : FileBacked obj → nullPath cfg b k ∉ paths) :
    ∀ v ∈ obj.versions, files.readData v.data = w.files.readData v.data := by
  intro v mem
  cases data : v.data with
  | inline bytes => rfl
  | fileRef p =>
    obtain ⟨path, _⟩ := (inv.stored b k obj found).placed v mem p data
    subst path
    exact keeps _ (isNullPath_nullPath cfg b k) (apart ⟨v, mem, _, data⟩)

theorem bucketExists_congr (same : a.buckets = b.buckets) (bucket : String) :
    a.bucketExists bucket = b.bucketExists bucket := by
  simp [S3Store.bucketExists, same]

theorem versioningEnabled_congr (same : a.buckets = b.buckets) (bucket : String) :
    a.versioningEnabled bucket = b.versioningEnabled bucket := by
  simp [S3Store.versioningEnabled, same]

theorem object?_congr (same : a.objects = b.objects) (bucket key : String) :
    a.object? bucket key = b.object? bucket key := by
  simp [S3Store.object?, same]

/-- The file a new null version replaces is the one of its key, and the new version
is in memory. -/
theorem replaced_isNull (inv : KeyInvariant cfg w)
    (sameObjects : store.objects = w.store.objects) {bucket key : String} {path : Path}
    (replaced : replacedFilePath "null" (store.putObjectVersion bucket key version).1
      version.data = some path) :
    path = nullPath cfg bucket key ∧ version.data ≠ .fileRef path ∧
      ∃ obj, w.store.object? bucket key = some obj ∧ FileBacked obj := by
  rw [S3Store.putObjectVersion_prev, object?_congr sameObjects] at replaced
  unfold replacedFilePath at replaced
  simp only [if_true] at replaced
  split at replaced
  · next old prev =>
    obtain ⟨obj, found, head⟩ := Option.bind_eq_some_iff.mp prev
    obtain ⟨v, headV, data⟩ := Option.map_eq_some_iff.mp head
    have mem := List.mem_of_head? headV
    obtain ⟨place, _⟩ := (inv.stored bucket key obj found).placed v mem old data
    split at replaced
    · cases replaced
    · next other =>
      cases replaced
      exact ⟨place, other, obj, found, v, mem, _, data⟩
  · cases replaced

/-- Which files the handlers change after they have stored the data of a new null
version: none of another key. -/
theorem removeReplaced_spec {bucket key : String} (inv : KeyInvariant cfg w)
    (sameObjects : store.objects = w.store.objects) (stored : Stored cfg w.files files bucket key version.data bytes)
    (fresh : (∃ p, version.data = .fileRef p) → FreshHash cfg w bucket key) :
    let files' := files.removeReplaced
      (replacedFilePath "null" (store.putObjectVersion bucket key version).1 version.data)
    files'.LinksNull ∧ files'.readData version.data = some bytes ∧
    ∃ paths, KeepsNull w.files files' paths ∧
      ∀ b k obj, some (bucket, key) ≠ some (b, k) → w.store.object? b k = some obj →
        FileBacked obj → nullPath cfg b k ∉ paths := by
  -- a key with the path of the destination would have its hash
  have apart : (∀ k obj, w.store.object? bucket k = some obj → FileBacked obj →
      cfg.keyHash k = cfg.keyHash key → k = key) →
      ∀ b k obj, some (bucket, key) ≠ some (b, k) → w.store.object? b k = some obj →
        FileBacked obj → nullPath cfg b k ∉ [nullPath cfg bucket key] := by
    intro unique b k obj ne found backed mem
    obtain ⟨rfl, hash⟩ := nullPath_eq_iff.mp (List.mem_singleton.mp mem)
    exact ne (by rw [unique k obj found backed hash])
  rcases stored.place with ⟨⟨b, inline⟩, keeps⟩ | ⟨inFile, keeps⟩
  · cases replaced : replacedFilePath "null" (store.putObjectVersion bucket key version).1
        version.data with
    | none => exact ⟨stored.links, stored.reads, [], keeps, by simp⟩
    | some path =>
      obtain ⟨rfl, _, old, foundOld, backedOld⟩ := replaced_isNull inv sameObjects replaced
      obtain ⟨links, removed⟩ := removeFile_keeps stored.links (nullPath cfg bucket key)
      refine ⟨links, ?_, [nullPath cfg bucket key], (keeps.mono (by simp)).trans removed, ?_⟩
      · have reads := stored.reads
        rw [inline] at reads ⊢
        exact reads
      · exact apart fun k obj found backed hash =>
          inv.distinct bucket k key obj old found foundOld backed backedOld hash
  · have unreplaced : replacedFilePath "null" (store.putObjectVersion bucket key version).1
        version.data = none := by
      rw [Option.eq_none_iff_forall_ne_some]
      intro path replaced
      obtain ⟨rfl, other, _⟩ := replaced_isNull inv sameObjects replaced
      exact other inFile
    rw [unreplaced]
    exact ⟨stored.links, stored.reads, _, keeps, apart (fresh ⟨_, inFile⟩)⟩

/-- Filing a new null version keeps the invariant and touches no other key. -/
theorem putVersion_spec (inv : KeyInvariant cfg w) (store : S3Store) (version : ObjectVersion) {bucket key : String}
    (sameObjects : store.objects = w.store.objects) (sameBuckets : store.buckets = w.store.buckets)
    (fewerUploads : ∀ (uid : String) u, store.multipartUploads[uid]? = some u →
      w.store.multipartUploads[uid]? = some u)
    (known : w.store.bucketExists bucket = true)
    (null : version.versionId = "null") (real : version.deleteMarker = false)
    (stored : Stored cfg w.files files bucket key version.data bytes)
    (fresh : (∃ p, version.data = .fileRef p) → FreshHash cfg w bucket key) :
    let w' : World := ⟨(store.putObjectVersion bucket key version).2, files.removeReplaced
      (replacedFilePath "null" (store.putObjectVersion bucket key version).1 version.data)⟩
    KeyInvariant cfg w' ∧ Untouched w w' (some (bucket, key)) ∧
      w'.store.object? bucket key = some ⟨key, [version]⟩ ∧
      w'.files.readData version.data = some bytes := by
  intro w'
  obtain ⟨links, reads, paths, keeps, apart⟩ := removeReplaced_spec inv sameObjects stored fresh
  have buckets : w'.store.buckets = w.store.buckets :=
    (S3Store.putObjectVersion_buckets store bucket key version).trans sameBuckets
  have objects : ∀ b k, w'.store.object? b k =
      if b = bucket ∧ k = key then some ⟨key, [version]⟩ else w.store.object? b k := by
    intro b k
    rw [S3Store.object?_putObjectVersion store bucket key null, object?_congr sameObjects]
  have others : ∀ b k, some (bucket, key) ≠ some (b, k) →
      w'.store.object? b k = w.store.object? b k := by
    intro b k ne
    rw [objects, if_neg fun same => ne (by rw [same.1, same.2])]
  have here : w'.store.object? bucket key = some ⟨key, [version]⟩ := by
    rw [objects, if_pos ⟨rfl, rfl⟩]
  have data : ∀ b k obj, some (bucket, key) ≠ some (b, k) → w.store.object? b k = some obj →
      ∀ v ∈ obj.versions, w'.files.readData v.data = w.files.readData v.data := by
    intro b k obj ne found
    exact inv.data_of_keeps keeps found (apart b k obj ne found)
  refine ⟨⟨?_, ?_, ?_, ?_, ?_, links⟩, ⟨?_, others, data⟩, here, reads⟩
  · intro b
    rw [versioningEnabled_congr buckets]
    exact inv.unversioned b
  · intro b k obj found
    rw [bucketExists_congr buckets]
    rw [objects] at found
    split at found
    · next same => rw [same.1, known]
    · exact inv.bucketed b k obj found
  · intro b k obj found
    by_cases same : some (bucket, key) = some (b, k)
    · cases same
      cases here.symm.trans found
      refine ⟨⟨version, rfl, null, real⟩, ?_⟩
      intro v mem p file
      cases List.mem_singleton.mp mem
      have readable : w'.files.readData version.data = some bytes := reads
      rw [file, readData] at readable
      refine ⟨?_, by simp [readable]⟩
      rcases stored.place with ⟨⟨b, inline⟩, _⟩ | ⟨inFile, _⟩
      · rw [inline] at file
        cases file
      · rw [inFile] at file
        exact (ObjectDataRef.fileRef.inj file).symm
    · rw [others b k same] at found
      exact (inv.stored b k obj found).keep (data b k obj same found)
  · -- a file-backed newcomer has a hash of its own
    have newcomer : ∀ k obj, w.store.object? bucket k = some obj → FileBacked obj →
        FileBacked ⟨key, [version]⟩ → cfg.keyHash k = cfg.keyHash key → k = key := by
      intro k obj found backed backedNew hash
      obtain ⟨v, mem, p, file⟩ := backedNew
      cases List.mem_singleton.mp mem
      exact fresh ⟨p, file⟩ k obj found backed hash
    intro b k k' obj obj' found found' backed backed' hash
    rw [objects] at found found'
    split at found
    · next same =>
      obtain ⟨rfl, rfl⟩ := same
      cases found
      split at found'
      · next same' => exact same'.2.symm
      · exact (newcomer k' obj' found' backed' backed hash.symm).symm
    · split at found'
      · next same' =>
        obtain ⟨rfl, rfl⟩ := same'
        cases found'
        exact newcomer k obj found backed backed' hash
      · exact inv.distinct b k k' obj obj' found found' backed backed' hash
  · intro uid u found
    rw [bucketExists_congr buckets]
    exact inv.uploads uid u (fewerUploads uid u
      (by rwa [S3Store.putObjectVersion_uploads] at found))
  · intro b known'
    rwa [bucketExists_congr buckets]

/-- A request that stores no version and changes no null file. -/
theorem quiet_spec (inv : KeyInvariant cfg w) (objects : ∀ b k, store.object? b k = w.store.object? b k)
    (buckets : ∀ b, w.store.bucketExists b = true → store.bucketExists b = true)
    (unversioned : ∀ b, store.versioningEnabled b = false)
    (uploads : ∀ (uid : String) u, store.multipartUploads[uid]? = some u →
      store.bucketExists u.bucket = true ∧
        ∀ entry ∈ u.parts, ∀ p, entry.2.data = .fileRef p → ¬ IsNullPath p)
    (links : files.LinksNull) (keeps : KeepsNull w.files files []) (dest : Option (String × String)) :
    KeyInvariant cfg ⟨store, files⟩ ∧ Untouched w ⟨store, files⟩ dest := by
  have data : ∀ b k obj, w.store.object? b k = some obj →
      ∀ v ∈ obj.versions, files.readData v.data = w.files.readData v.data := by
    intro b k obj found
    exact inv.data_of_keeps keeps found (by simp)
  refine ⟨⟨unversioned, ?_, ?_, ?_, uploads, links⟩, ⟨buckets, ?_, ?_⟩⟩
  · intro b k obj found
    rw [objects] at found
    exact buckets b (inv.bucketed b k obj found)
  · intro b k obj found
    rw [objects] at found
    exact (inv.stored b k obj found).keep (data b k obj found)
  · intro b k k' obj obj' found found'
    rw [objects] at found found'
    exact inv.distinct b k k' obj obj' found found'
  · exact fun b k _ => objects b k
  · exact fun b k obj _ found => data b k obj found

/-- A request that changes files off the null paths only. -/
theorem files_spec (inv : KeyInvariant cfg w) (links : files.LinksNull) (keeps : KeepsNull w.files files [])
    (dest : Option (String × String)) :
    KeyInvariant cfg { w with files } ∧ Untouched w { w with files } dest :=
  quiet_spec inv (fun _ _ => rfl) (fun _ h => h) inv.unversioned inv.uploads links keeps dest

theorem unchanged_spec (inv : KeyInvariant cfg w) (dest : Option (String × String)) :
    KeyInvariant cfg w ∧ Untouched w w dest :=
  files_spec inv inv.links (KeepsNull.refl _ _) dest

/-! ## One step of each operation -/

theorem drawVersionId_null (inv : KeyInvariant cfg w) (draws : Draws)
    (bucket : String) : drawVersionId draws w.store bucket = "null" := by
  simp [drawVersionId, inv.unversioned bucket]

theorem target_of_bucket (named : bucketFromPath ctx.path = some bucket) :
    target ctx = some (bucket, keyFromPath ctx.path) := by
  simp [target, named]

theorem handleCreateBucket_spec (inv : KeyInvariant cfg w) (draws : Draws) (ctx : RequestContext) :
    KeyInvariant cfg (handleCreateBucket draws w ctx).2 ∧
      Untouched w (handleCreateBucket draws w ctx).2 none := by
  unfold handleCreateBucket
  split
  · exact unchanged_spec inv none
  · next bucket named =>
    split
    · exact unchanged_spec inv none
    · have grown : ∀ b, w.store.bucketExists b = true →
          (w.store.createBucket draws.now bucket ctx.region).bucketExists b = true := by
        intro b known
        simp only [S3Store.bucketExists, S3Store.createBucket] at known ⊢
        simp [known]
      refine quiet_spec inv ?_ grown ?_ ?_ inv.links (KeepsNull.refl _ _) none
      · exact fun b k => S3Store.object?_createBucket draws.now w.store bucket ctx.region b k
      · intro b
        have before := inv.unversioned b
        simp only [S3Store.versioningEnabled, S3Store.createBucket, StrMap.getElem?_insert] at before ⊢
        split
        · rfl
        · exact before
      · intro uid u found
        obtain ⟨known, parts⟩ := inv.uploads uid u found
        exact ⟨grown u.bucket known, parts⟩

theorem handlePutObject_spec (inv : KeyInvariant cfg w) (draws : Draws)
    (safe : ∀ bucket, bucketFromPath ctx.path = some bucket → keptInline cfg ctx = false →
      FreshHash cfg w bucket (keyFromPath ctx.path)) :
    KeyInvariant cfg (handlePutObject cfg draws w ctx).2 ∧
      Untouched w (handlePutObject cfg draws w ctx).2 (target ctx) := by
  unfold handlePutObject
  split
  · exact unchanged_spec inv _
  · next bucket named =>
    rw [target_of_bucket named]
    split
    · next known =>
      simp only [drawVersionId_null inv]
      obtain ⟨links, keeps, failed, received⟩ := receiveBody_spec cfg inv.links ctx
        ⟨bucket, keyFromPath ctx.path, "null"⟩ "Failed to store object"
      split
      · next e files out =>
        rw [out] at links failed
        exact files_spec inv links (failed e rfl) _
      · next etag size data files out =>
        rw [out] at links keeps received
        have stored : ∃ bytes, Stored cfg w.files files bucket (keyFromPath ctx.path) data bytes := by
          rcases received etag size data rfl with ⟨b, rfl, rfl⟩ | ⟨_, rfl, bytes, read⟩
          · exact ⟨b, links, rfl, .inl ⟨⟨b, rfl⟩, KeepsNull.refl _ _⟩⟩
          · exact ⟨bytes, links, read, .inr ⟨rfl, keeps⟩⟩
        obtain ⟨bytes, stored⟩ := stored
        have fresh : (∃ p, data = .fileRef p) → FreshHash cfg w bucket (keyFromPath ctx.path) := by
          intro isFile
          obtain ⟨p, rfl⟩ := isFile
          rcases received etag size _ rfl with ⟨b, inline, _⟩ | ⟨large, _⟩
          · cases inline
          · exact safe bucket named large
        obtain ⟨kept, untouched, _⟩ := putVersion_spec inv w.store
          { versionId := "null"
            lastModified := draws.now
            etag
            contentType := (headerStr ctx.headers "content-type").getD "application/octet-stream"
            size
            metadata := userMetadata ctx.headers
            data
            deleteMarker := false }
          rfl rfl (fun _ _ h => h) known rfl rfl stored fresh
        exact ⟨kept, untouched⟩
    · exact unchanged_spec inv _

/-- Removing an object together with its data. -/
theorem removeObject_spec (inv : KeyInvariant cfg w) {bucket key : String}
    (found : w.store.object? bucket key = some obj) (mem : v ∈ obj.versions)
    (objects : ∀ b k, store.object? b k =
      if b = bucket ∧ k = key then none else w.store.object? b k)
    (buckets : store.buckets = w.store.buckets) (uploads : store.multipartUploads = w.store.multipartUploads) :
    KeyInvariant cfg ⟨store, w.files.removeData v.data⟩ ∧
      Untouched w ⟨store, w.files.removeData v.data⟩ (some (bucket, key)) := by
  have others : ∀ b k obj', store.object? b k = some obj' →
      w.store.object? b k = some obj' ∧ some (bucket, key) ≠ some (b, k) := by
    intro b k obj' stored
    rw [objects] at stored
    split at stored
    · cases stored
    · next ne => exact ⟨stored, fun same => ne (by cases same; exact ⟨rfl, rfl⟩)⟩
  have removed : (w.files.removeData v.data).LinksNull ∧ ∃ paths,
      KeepsNull w.files (w.files.removeData v.data) paths ∧
      ∀ b k obj', some (bucket, key) ≠ some (b, k) → w.store.object? b k = some obj' →
        FileBacked obj' → nullPath cfg b k ∉ paths := by
    cases data : v.data with
    | inline bytes => exact ⟨inv.links, [], KeepsNull.refl _ _, by simp⟩
    | fileRef p =>
      obtain ⟨place, _⟩ := (inv.stored bucket key obj found).placed v mem p data
      subst place
      obtain ⟨links, keeps⟩ := removeFile_keeps inv.links (nullPath cfg bucket key)
      refine ⟨links, _, keeps, ?_⟩
      intro b k obj' ne found' backed mem'
      obtain ⟨rfl, hash⟩ := nullPath_eq_iff.mp (List.mem_singleton.mp mem')
      exact ne (by rw [inv.distinct b k key obj' obj found' found backed ⟨v, mem, _, data⟩ hash])
  obtain ⟨links, paths, keeps, apart⟩ := removed
  have data : ∀ b k obj', some (bucket, key) ≠ some (b, k) → w.store.object? b k = some obj' →
      ∀ v' ∈ obj'.versions, (w.files.removeData v.data).readData v'.data =
        w.files.readData v'.data := by
    intro b k obj' ne found'
    exact inv.data_of_keeps keeps found' (apart b k obj' ne found')
  refine ⟨⟨?_, ?_, ?_, ?_, ?_, links⟩, ⟨?_, ?_, data⟩⟩
  · intro b
    rw [versioningEnabled_congr buckets]
    exact inv.unversioned b
  · intro b k obj' stored
    rw [bucketExists_congr buckets]
    exact inv.bucketed b k obj' (others b k obj' stored).1
  · intro b k obj' stored
    obtain ⟨found', ne⟩ := others b k obj' stored
    exact (inv.stored b k obj' found').keep (data b k obj' ne found')
  · intro b k k' obj₁ obj₂ stored₁ stored₂
    exact inv.distinct b k k' obj₁ obj₂ (others b k obj₁ stored₁).1 (others b k' obj₂ stored₂).1
  · intro uid u stored
    rw [bucketExists_congr buckets]
    exact inv.uploads uid u (uploads ▸ stored)
  · intro b known
    rwa [bucketExists_congr buckets]
  · intro b k ne
    rw [objects, if_neg fun same => ne (by rw [same.1, same.2])]

theorem handleDeleteObject_spec (inv : KeyInvariant cfg w) (draws : Draws) (ctx : RequestContext) :
    KeyInvariant cfg (handleDeleteObject draws w ctx).2 ∧
      Untouched w (handleDeleteObject draws w ctx).2 (target ctx) := by
  unfold handleDeleteObject
  split
  · exact unchanged_spec inv _
  · next bucket named =>
    rw [target_of_bucket named]
    split
    · split
      · next vid _ =>
        have single : ∀ obj, w.store.object? bucket (keyFromPath ctx.path) = some obj →
            ∃ v, obj.versions = [v] := by
          intro obj found
          obtain ⟨v, one, _⟩ := (inv.stored _ _ obj found).single
          exact ⟨v, one⟩
        rcases S3Store.deleteObjectVersion_cases single vid with
          unchanged | ⟨obj, v, objects, found, one, stored, deleted⟩
        · simp only [unchanged]
          exact unchanged_spec inv _
        · simp only [deleted]
          exact removeObject_spec inv found (by simp [one])
            (S3Store.object?_erase w.store stored _) rfl rfl
      · have objects := S3Store.object?_deleteObject (inv.unversioned bucket) draws.now draws.uuid
          (keyFromPath ctx.path)
        have deleted := S3Store.deleteObject_deleted (inv.unversioned bucket) draws.now draws.uuid
          (keyFromPath ctx.path)
        obtain ⟨buckets, uploads⟩ := S3Store.deleteObject_rest w.store draws.now draws.uuid bucket
          (keyFromPath ctx.path)
        simp only
        split
        · next v store out =>
          rw [out] at objects deleted buckets uploads
          obtain ⟨obj, found, head⟩ := Option.bind_eq_some_iff.mp deleted.symm
          have mem := List.mem_of_head? head
          obtain ⟨v', one, _, real⟩ := (inv.stored _ _ obj found).single
          rw [one, List.mem_singleton] at mem
          subst mem
          rw [if_neg (by simp [real])]
          exact removeObject_spec inv found (by simp [one]) objects buckets uploads
        · next store out =>
          rw [out] at objects deleted buckets uploads
          -- nothing was stored under the key
          have absent : w.store.object? bucket (keyFromPath ctx.path) = none := by
            rw [Option.eq_none_iff_forall_ne_some]
            intro obj found
            obtain ⟨v, one, _⟩ := (inv.stored _ _ obj found).single
            simp [found, one] at deleted
          refine quiet_spec inv ?_ ?_ ?_ ?_ inv.links (KeepsNull.refl _ _) _
          · intro b k
            rw [objects]
            split
            · next same => rw [same.1, same.2, absent]
            · rfl
          · intro b known
            rwa [bucketExists_congr buckets]
          · intro b
            rw [versioningEnabled_congr buckets]
            exact inv.unversioned b
          · intro uid u stored
            rw [bucketExists_congr buckets]
            exact inv.uploads uid u (uploads ▸ stored)
    · exact unchanged_spec inv _

/-- Copying the data of a stored version to the null version of a key. -/
theorem copyData_spec (inv : KeyInvariant cfg w) {src : String × String}
     (found : w.store.getObject src.1 src.2 = some v) (bucket key : String)
    (alone : cfg.inlineObjectThreshold < v.size → ∀ p, v.data = .fileRef p →
      nullPath cfg src.1 src.2 ≠ nullPath cfg bucket key →
      w.files.disk.Alone (nullPath cfg bucket key)) :
    (copyData cfg w.files src v ⟨bucket, key, "null"⟩).2.LinksNull ∧
    ((copyData cfg w.files src v ⟨bucket, key, "null"⟩).1 = none →
      KeepsNull w.files (copyData cfg w.files src v ⟨bucket, key, "null"⟩).2 []) ∧
    ∀ data, (copyData cfg w.files src v ⟨bucket, key, "null"⟩).1 = some data →
      ((∃ p, data = .fileRef p) → cfg.inlineObjectThreshold < v.size) ∧
      ∃ bytes, w.files.readData v.data = some bytes ∧
        Stored cfg w.files (copyData cfg w.files src v ⟨bucket, key, "null"⟩).2 bucket key data
          bytes := by
  obtain ⟨obj, stored, current⟩ := Option.bind_eq_some_iff.mp found
  obtain ⟨v', one, nullId, real⟩ := (inv.stored _ _ obj stored).single
  have same : v' = v ∧ v.deleteMarker = false := by simpa [S3Object.current, one] using current
  obtain ⟨rfl, _⟩ := same
  unfold copyData
  split
  · next bytes hdata =>
    rw [hdata]
    split
    · refine ⟨inv.links, by simp, ?_⟩
      intro data eq
      cases eq
      exact ⟨by simp, bytes, rfl, inv.links, rfl, .inl ⟨⟨bytes, rfl⟩, KeepsNull.refl _ _⟩⟩
    · next large =>
      obtain ⟨links, keeps, written, failed⟩ := installFile_spec cfg ⟨bucket, key, "null"⟩
        inv.links bytes false
      refine ⟨links, ?_, ?_⟩
      · intro none
        exact failed (Option.map_eq_none_iff.mp none)
      · intro data eq
        obtain ⟨path, place, rfl⟩ := Option.map_eq_some_iff.mp eq
        obtain ⟨rfl, read⟩ := written path place
        exact ⟨fun _ => by omega, bytes, rfl, links, read, .inr ⟨rfl, keeps⟩⟩
  · next path hdata =>
    rw [hdata]
    obtain ⟨rfl, readable⟩ := (inv.stored _ _ obj stored).placed v' (by simp [one]) path hdata
    obtain ⟨bytes, read⟩ := Option.ne_none_iff_exists'.mp readable
    split
    · refine ⟨inv.links, fun _ => KeepsNull.refl _ _, ?_⟩
      intro data eq
      rw [read] at eq
      cases eq
      exact ⟨by simp, bytes, read, inv.links, rfl, .inl ⟨⟨bytes, rfl⟩, KeepsNull.refl _ _⟩⟩
    · next large =>
      have large' : cfg.inlineObjectThreshold < v'.size := by omega
      have source : objectPath cfg ⟨src.1, src.2, v'.versionId⟩ = nullPath cfg src.1 src.2 := by
        rw [nullId]
        rfl
      obtain ⟨place, links, copied, keeps⟩ := copyObject_spec cfg
        ⟨src.1, src.2, v'.versionId⟩ ⟨bucket, key, "null"⟩ inv.links nullId rfl
        (source ▸ read) (fun ne => alone large' _ hdata (source ▸ ne))
      refine ⟨links, by simp [place], ?_⟩
      intro data eq
      simp only [place, Option.map_some, Option.some.injEq] at eq
      subst eq
      exact ⟨fun _ => large', bytes, read, links, copied, .inr ⟨rfl, keeps⟩⟩

theorem handleCopyObject_spec (inv : KeyInvariant cfg w) (draws : Draws)
    (safe : ∀ bucket src v, bucketFromPath ctx.path = some bucket → copySource ctx = some src →
      w.store.getObject src.1 src.2 = some v → cfg.inlineObjectThreshold < v.size →
      FreshHash cfg w bucket (keyFromPath ctx.path) ∧
        ∀ p, v.data = .fileRef p →
          nullPath cfg src.1 src.2 ≠ nullPath cfg bucket (keyFromPath ctx.path) →
          w.files.disk.Alone (nullPath cfg bucket (keyFromPath ctx.path))) :
    KeyInvariant cfg (handleCopyObject cfg draws w ctx).2 ∧
    Untouched w (handleCopyObject cfg draws w ctx).2 (target ctx) ∧
    ∀ out, (handleCopyObject cfg draws w ctx).1 = .ok out →
      ∃ bucket src v bytes version, bucketFromPath ctx.path = some bucket ∧
        copySource ctx = some src ∧ w.store.getObject src.1 src.2 = some v ∧
        w.files.readData v.data = some bytes ∧ w.store.bucketExists bucket = true ∧
        (handleCopyObject cfg draws w ctx).2.store.object? bucket (keyFromPath ctx.path) =
          some ⟨keyFromPath ctx.path, [version]⟩ ∧ version.deleteMarker = false ∧
        (handleCopyObject cfg draws w ctx).2.files.readData version.data = some bytes := by
  unfold handleCopyObject
  split
  · exact ⟨inv, (unchanged_spec inv _).2, by simp⟩
  · next bucket named =>
    simp only [target_of_bucket named]
    split
    · exact ⟨inv, (unchanged_spec inv _).2, by simp⟩
    · next src source =>
      split
      · next known =>
        split
        · exact ⟨inv, (unchanged_spec inv _).2, by simp⟩
        · next v found =>
          simp only [drawVersionId_null inv]
          obtain ⟨links, failed, copied⟩ := copyData_spec inv found bucket (keyFromPath ctx.path)
            (fun large => (safe bucket src v named source found large).2)
          split
          · next files out =>
            rw [out] at links failed
            obtain ⟨kept, untouched⟩ := files_spec inv links (failed rfl)
              (some (bucket, keyFromPath ctx.path))
            exact ⟨kept, untouched, by simp⟩
          · next data files out =>
            rw [out] at copied
            obtain ⟨large, bytes, read, stored⟩ := copied data rfl
            obtain ⟨kept, untouched, here, reads⟩ := putVersion_spec inv w.store
              { versionId := "null"
                lastModified := draws.now
                etag := v.etag
                contentType := v.contentType
                size := v.size
                metadata := v.metadata
                data
                deleteMarker := false }
              rfl rfl (fun _ _ h => h) known rfl rfl stored
              (fun isFile => (safe bucket src v named source found (large isFile)).1)
            exact ⟨kept, untouched, fun _ _ =>
              ⟨bucket, src, v, bytes, _, named, source, found, read, known, here, rfl, reads⟩⟩
      · exact ⟨inv, (unchanged_spec inv _).2, by simp⟩

theorem handleCreateMultipartUpload_spec (inv : KeyInvariant cfg w) (draws : Draws) (ctx : RequestContext) :
    KeyInvariant cfg (handleCreateMultipartUpload draws w ctx).2 ∧
      Untouched w (handleCreateMultipartUpload draws w ctx).2 none := by
  unfold handleCreateMultipartUpload
  split
  · exact unchanged_spec inv none
  · next bucket named =>
    split
    · next known =>
      refine quiet_spec inv ?_ ?_ ?_ ?_ inv.links (KeepsNull.refl _ _) none
      · exact fun _ _ => rfl
      · exact fun _ h => h
      · exact inv.unversioned
      · intro uid u found
        simp only [S3Store.createMultipartUpload, StrMap.getElem?_insert] at found
        split at found
        · cases found
          exact ⟨known, by simp⟩
        · exact inv.uploads uid u found
    · exact unchanged_spec inv none

variable (cfg) in
/-- A part file does not bear the name of a null version. -/
theorem not_isNullPath_part (bucket key uploadId : String) (partNumber : Nat) :
    ¬ IsNullPath (objectPath cfg (partLocation bucket key uploadId partNumber)) := by
  refine not_isNullPath_of_version ?_
  intro named
  have text := congrArg String.toList named
  rw [partLocation, String.toList_append] at text
  have first := congrArg List.head? text
  exact absurd first (by simp)

theorem handleUploadPart_spec (inv : KeyInvariant cfg w) (draws : Draws) (ctx : RequestContext) :
    KeyInvariant cfg (handleUploadPart cfg draws w ctx).2 ∧
      Untouched w (handleUploadPart cfg draws w ctx).2 none := by
  unfold handleUploadPart
  split
  · exact unchanged_spec inv none
  split
  · exact unchanged_spec inv none
  · next uploadId _ =>
    split
    · exact unchanged_spec inv none
    · next partNumber _ =>
      split
      · exact unchanged_spec inv none
      · next u requested =>
        have notNull := not_isNullPath_part cfg u.bucket u.key uploadId partNumber
        obtain ⟨links, keeps, failed, received⟩ := receiveBody_spec cfg inv.links ctx
          (partLocation u.bucket u.key uploadId partNumber) "Failed to store part"
        split
        · next e files out =>
          rw [out] at links failed
          exact files_spec inv links (failed e rfl) none
        · next etag size data files out =>
          rw [out] at links keeps received
          have keepsAll : KeepsNull w.files files [] := by
            intro p isNull _
            refine keeps p isNull fun mem => notNull ?_
            rwa [List.mem_singleton.mp mem] at isNull
          have placed : ∀ p, data = .fileRef p → ¬ IsNullPath p := by
            intro p isFile
            rcases received etag size data rfl with ⟨b, inline, _⟩ | ⟨_, place, _⟩
            · rw [inline] at isFile
              cases isFile
            · rw [place] at isFile
              exact ObjectDataRef.fileRef.inj isFile ▸ notNull
          have same : (w.store.uploadPartWithEtag draws.now uploadId partNumber data etag
              size).objects = w.store.objects ∧
              (w.store.uploadPartWithEtag draws.now uploadId partNumber data etag
                size).buckets = w.store.buckets := by
            unfold S3Store.uploadPartWithEtag
            split <;> exact ⟨rfl, rfl⟩
          refine quiet_spec inv (fun b k => object?_congr same.1 b k) ?_ ?_ ?_ links keepsAll none
          · intro b known
            rwa [bucketExists_congr same.2]
          · intro b
            rw [versioningEnabled_congr same.2]
            exact inv.unversioned b
          · intro uid u' found
            rw [bucketExists_congr same.2]
            unfold S3Store.uploadPartWithEtag at found
            split at found
            · exact inv.uploads uid u' found
            · next u₀ stored =>
              simp only [StrMap.getElem?_insert] at found
              split at found
              · cases found
                obtain ⟨known, parts⟩ := inv.uploads uploadId u₀ stored
                refine ⟨known, ?_⟩
                intro entry mem p isFile
                rcases List.mem_cons.mp mem with rfl | old
                · exact placed p isFile
                · exact parts entry (List.mem_of_mem_filter old) p isFile
              · exact inv.uploads uid u' found

theorem mem_of_lookup {α β : Type} [BEq α] [LawfulBEq α] {l : List (α × β)} {a : α} {b : β}
    (found : l.lookup a = some b) : (a, b) ∈ l := by
  induction l with
  | nil => cases found
  | cons entry rest ih =>
    rw [List.lookup_cons] at found
    split at found
    · next same =>
      cases found
      rw [beq_iff_eq.mp same]
      exact List.mem_cons_self
    · exact List.mem_cons_of_mem _ (ih found)

theorem handleCompleteMultipartUpload_spec (inv : KeyInvariant cfg w) (draws : Draws)
    (safe : ∀ bucket uploadId u, bucketFromPath ctx.path = some bucket →
      ctx.queryParams["uploadId"]? = some uploadId →
      requestedUpload w.store ctx bucket uploadId = some u →
      cfg.inlineObjectThreshold < estimatedSize (selectParts u (requestedParts ctx)) →
      FreshHash cfg w bucket (keyFromPath ctx.path)) :
    KeyInvariant cfg (handleCompleteMultipartUpload cfg draws w ctx).2 ∧
      Untouched w (handleCompleteMultipartUpload cfg draws w ctx).2 (target ctx) := by
  unfold handleCompleteMultipartUpload
  split
  · exact unchanged_spec inv _
  · next bucket named =>
    rw [target_of_bucket named]
    split
    · exact unchanged_spec inv _
    · next uploadId hasId =>
      split
      · exact unchanged_spec inv _
      · next u requested =>
        obtain ⟨stored, matching⟩ := Option.filter_eq_some_iff.mp requested
        obtain ⟨rfl, keyed⟩ := of_decide_eq_true matching
        obtain ⟨known, parts⟩ := inv.uploads uploadId u stored
        have notNull : ∀ part ∈ selectParts u (requestedParts ctx), ∀ p,
            part.data = .fileRef p → ¬ IsNullPath p := by
          intro part mem p isFile
          obtain ⟨pn, _, found⟩ := List.mem_filterMap.mp mem
          exact parts (pn, part) (mem_of_lookup found) p isFile
        simp only [drawVersionId_null inv]
        obtain ⟨links, failed, assembled⟩ := assembleParts_spec inv.links (requestedParts ctx)
          (selectParts u (requestedParts ctx)) u.bucket (keyFromPath ctx.path) notNull
        split
        · next e files out =>
          rw [out] at links failed
          exact files_spec inv links (failed e rfl) _
        · next etag size data files out =>
          rw [out] at assembled
          obtain ⟨⟨bytes, hstored⟩, large⟩ := assembled etag size data rfl
          obtain ⟨kept, untouched, _⟩ := putVersion_spec inv
            { w.store with multipartUploads := w.store.multipartUploads.erase uploadId }
            { versionId := "null"
              lastModified := draws.now
              etag
              contentType := u.contentType
              size
              metadata := u.metadata
              data
              deleteMarker := false }
            rfl rfl (fun uid u' found => by
              rw [StrMap.getElem?_erase] at found
              split at found
              · cases found
              · exact found)
            known rfl rfl hstored
            (fun isFile => safe u.bucket uploadId u named hasId requested (large isFile))
          simp only [S3Store.completeMultipartUploadWithVersion, stored, keyed]
          exact ⟨kept, untouched⟩

/-! ## Runs -/

variable (cfg)

/-- The step is safe at `w`: a file it writes at the path of its key is not the file
of another key, and a file that CopyObject overwrites with another file's bytes is
linked from nowhere else. -/
def SafeStep (w : World) (r : Request) : Prop :=
  match r.operation with
  | .putObject =>
    ∀ bucket, bucketFromPath r.ctx.path = some bucket → keptInline cfg r.ctx = false →
      FreshHash cfg w bucket (keyFromPath r.ctx.path)
  | .copyObject =>
    ∀ bucket src v, bucketFromPath r.ctx.path = some bucket → copySource r.ctx = some src →
      w.store.getObject src.1 src.2 = some v → cfg.inlineObjectThreshold < v.size →
      FreshHash cfg w bucket (keyFromPath r.ctx.path) ∧
        ∀ p, v.data = .fileRef p →
          nullPath cfg src.1 src.2 ≠ nullPath cfg bucket (keyFromPath r.ctx.path) →
          w.files.disk.Alone (nullPath cfg bucket (keyFromPath r.ctx.path))
  | .completeMultipartUpload =>
    ∀ bucket uploadId u, bucketFromPath r.ctx.path = some bucket →
      r.ctx.queryParams["uploadId"]? = some uploadId →
      requestedUpload w.store r.ctx bucket uploadId = some u →
      cfg.inlineObjectThreshold < estimatedSize (selectParts u (requestedParts r.ctx)) →
      FreshHash cfg w bucket (keyFromPath r.ctx.path)
  | .createBucket | .getObject | .deleteObject | .createMultipartUpload | .uploadPart => True

/-- What the step must not and must do: GetObject returns the same bytes as before for
every key but the destination, and after an accepted CopyObject it returns for the
destination what it returned for the source. -/
structure Isolates (w : World) (r : Request) : Prop where
  others : ∀ get, (∀ dest, r.destination = some dest → target get ≠ some dest) →
    getBody (w.step cfg r) get = getBody w get
  copied : r.operation = .copyObject →
    ∀ out, (handleCopyObject cfg r.draws w r.ctx).1 = .ok out →
      ∀ get get', get.queryParams["versionId"]? = none → get'.queryParams["versionId"]? = none →
        target get = copySource r.ctx → target get' = target r.ctx →
        ∃ bytes, getBody w get = some bytes ∧ getBody (w.step cfg r) get' = some bytes

variable {cfg}

theorem requestedVersion_mem (selected : requestedVersion store get bucket = some v) :
    ∃ obj, store.object? bucket (keyFromPath get.path) = some obj ∧ v ∈ obj.versions := by
  unfold requestedVersion at selected
  split at selected
  · obtain ⟨obj, found, here⟩ := Option.bind_eq_some_iff.mp selected
    exact ⟨obj, found, List.mem_of_find?_eq_some here⟩
  · obtain ⟨obj, found, here⟩ := Option.bind_eq_some_iff.mp selected
    exact ⟨obj, found, List.mem_of_head? (Option.filter_eq_some_iff.mp here).1⟩

theorem requestedVersion_congr
    (same : a.object? bucket (keyFromPath get.path) = b.object? bucket (keyFromPath get.path)) :
    requestedVersion a get bucket = requestedVersion b get bucket := by
  simp only [requestedVersion, S3Store.getObjectVersion, S3Store.getObject, same]

theorem getBody_eq (named : bucketFromPath get.path = some bucket) (known : w.store.bucketExists bucket = true) :
    getBody w get =
      (requestedVersion w.store get bucket).bind fun v => w.files.readData v.data := by
  simp only [getBody, handleGetObject, named, known, if_true]
  cases requestedVersion w.store get bucket with
  | none => rfl
  | some v => cases read : w.files.readData v.data <;> simp [read]

/-- Bytes are returned only for a stored version in an existing bucket. -/
theorem getBody_some (body : getBody w get = some bytes) :
    ∃ bucket v, bucketFromPath get.path = some bucket ∧ w.store.bucketExists bucket = true ∧
      requestedVersion w.store get bucket = some v ∧ w.files.readData v.data = some bytes := by
  cases named : bucketFromPath get.path with
  | none => simp [getBody, handleGetObject, named] at body
  | some bucket =>
    cases known : w.store.bucketExists bucket with
    | false => simp [getBody, handleGetObject, named, known] at body
    | true =>
      rw [getBody_eq named known] at body
      obtain ⟨v, selected, read⟩ := Option.bind_eq_some_iff.mp body
      exact ⟨bucket, v, rfl, known, selected, read⟩

/-- GetObject does not see a step that leaves the object untouched. -/
theorem Untouched.getBody {w w' : World} {dest : Option (String × String)}
    (inv : KeyInvariant cfg w) (untouched : Untouched w w' dest) (other : ∀ d, dest = some d → target get ≠ some d) :
    getBody w' get = getBody w get := by
  have apart : ∀ bucket, bucketFromPath get.path = some bucket →
      dest ≠ some (bucket, keyFromPath get.path) := by
    intro bucket named same
    exact other _ same (target_of_bucket named)
  refine Option.ext fun bytes => ?_
  constructor
  · intro body
    obtain ⟨bucket, v, named, known', selected, read⟩ := getBody_some body
    have objects := untouched.objects bucket _ (apart bucket named)
    rw [requestedVersion_congr objects] at selected
    obtain ⟨obj, found, mem⟩ := requestedVersion_mem selected
    have known := inv.bucketed bucket _ obj found
    rw [getBody_eq named known, selected, Option.bind_some,
      ← untouched.data bucket _ obj (apart bucket named) found v mem]
    exact read
  · intro body
    obtain ⟨bucket, v, named, known, selected, read⟩ := getBody_some body
    have objects := untouched.objects bucket _ (apart bucket named)
    obtain ⟨obj, found, mem⟩ := requestedVersion_mem selected
    rw [getBody_eq named (untouched.buckets bucket known), requestedVersion_congr objects,
      selected, Option.bind_some, untouched.data bucket _ obj (apart bucket named) found v mem]
    exact read

/-- A safe step keeps the invariant and isolates the keys. -/
theorem step_isolates (inv : KeyInvariant cfg w) (r : Request)
    (safe : SafeStep cfg w r) : KeyInvariant cfg (w.step cfg r) ∧ Isolates cfg w r := by
  obtain ⟨operation, ctx, draws⟩ := r
  have of_untouched : ∀ {w' dest}, operation ≠ .copyObject → w.step cfg ⟨operation, ctx, draws⟩ = w' →
      Request.destination ⟨operation, ctx, draws⟩ = dest → KeyInvariant cfg w' →
      Untouched w w' dest →
      KeyInvariant cfg (w.step cfg ⟨operation, ctx, draws⟩) ∧
        Isolates cfg w ⟨operation, ctx, draws⟩ := by
    intro w' dest notCopy stepped named inv' untouched
    subst stepped named
    exact ⟨inv', fun get other => untouched.getBody inv other, fun copy => absurd copy notCopy⟩
  cases operation with
  | createBucket =>
    obtain ⟨inv', untouched⟩ := handleCreateBucket_spec inv draws ctx
    exact of_untouched (by simp) rfl rfl inv' untouched
  | putObject =>
    obtain ⟨inv', untouched⟩ := handlePutObject_spec inv draws safe
    exact of_untouched (by simp) rfl rfl inv' untouched
  | getObject => exact of_untouched (by simp) rfl rfl inv (unchanged_spec inv none).2
  | deleteObject =>
    obtain ⟨inv', untouched⟩ := handleDeleteObject_spec inv draws ctx
    exact of_untouched (by simp) rfl rfl inv' untouched
  | createMultipartUpload =>
    obtain ⟨inv', untouched⟩ := handleCreateMultipartUpload_spec inv draws ctx
    exact of_untouched (by simp) rfl rfl inv' untouched
  | uploadPart =>
    obtain ⟨inv', untouched⟩ := handleUploadPart_spec inv draws ctx
    exact of_untouched (by simp) rfl rfl inv' untouched
  | completeMultipartUpload =>
    obtain ⟨inv', untouched⟩ := handleCompleteMultipartUpload_spec inv draws safe
    exact of_untouched (by simp) rfl rfl inv' untouched
  | copyObject =>
    obtain ⟨inv', untouched, copied⟩ := handleCopyObject_spec inv draws safe
    refine ⟨inv', fun get other => untouched.getBody inv other, ?_⟩
    intro _ out answered get get' plain plain' source dest
    obtain ⟨bucket, src, v, bytes, version, named, hsrc, found, read, known, here, real, reads⟩ :=
      copied out answered
    obtain ⟨obj, stored, _⟩ := Option.bind_eq_some_iff.mp found
    obtain ⟨srcBucket, srcNamed, pair⟩ := Option.map_eq_some_iff.mp (source.trans hsrc)
    obtain ⟨dstBucket, dstNamed, pair'⟩ :=
      Option.map_eq_some_iff.mp (dest.trans (target_of_bucket named))
    subst pair
    obtain ⟨rfl, sameKey⟩ := Prod.mk.inj pair'
    refine ⟨bytes, ?_, ?_⟩
    · have selected : requestedVersion w.store get srcBucket = some v := by
        simp [requestedVersion, plain, found]
      rw [getBody_eq srcNamed (inv.bucketed _ _ obj stored), selected, Option.bind_some, read]
    · have selected : requestedVersion (World.step cfg w ⟨.copyObject, ctx, draws⟩).store get'
          dstBucket = some version := by
        have found' : (World.step cfg w ⟨.copyObject, ctx, draws⟩).store.object? dstBucket
            (keyFromPath get'.path) = some ⟨keyFromPath ctx.path, [version]⟩ := by
          rw [sameKey]
          exact here
        simp [requestedVersion, plain', S3Store.getObject, found', S3Object.current, real]
      have known' : (World.step cfg w ⟨.copyObject, ctx, draws⟩).store.bucketExists dstBucket = true :=
        untouched.buckets dstBucket known
      rw [getBody_eq dstNamed known', selected, Option.bind_some]
      exact reads

/-- In every run from the empty store whose steps are all safe, every step isolates
the keys. -/
theorem keys_isolated_along_run (cfg : Config) (requests : List Request)
    (safe : Run.AllSteps (World.step cfg) (SafeStep cfg) {} requests) :
    Run.AllSteps (World.step cfg) (Isolates cfg) {} requests := by
  have preserved : ∀ (w : World) (r : Request), KeyInvariant cfg w → SafeStep cfg w r →
      KeyInvariant cfg (w.step cfg r) ∧ Isolates cfg w r :=
    fun _ r inv safe => step_isolates inv r safe
  exact Run.allSteps_of_invariant preserved {} requests keyInvariant_empty safe

/-! ## A copy over a linked file -/

/-- One key, or a key whose hash is another one. -/
theorem freshHash_of_objects {bucket key : String}
    (others : ∀ obj ∈ w.store.listObjects bucket,
      obj.key = key ∨ cfg.keyHash obj.key ≠ cfg.keyHash key) : FreshHash cfg w bucket key := by
  intro k obj found _ hash
  obtain ⟨objects, here, stored⟩ := Option.bind_eq_some_iff.mp found
  have keyed := objects.keyed k obj stored
  have listed : obj ∈ w.store.listObjects bucket := by
    simp only [S3Store.listObjects, here, Option.map_some, Option.getD_some]
    exact StrMap.mem_values.mpr ⟨k, stored⟩
  rcases others obj listed with same | differs
  · rw [← keyed, same]
  · rw [keyed] at differs
    exact absurd hash differs

/-- Objects of more than one byte go to files. The hashes are those of the keys and
bodies used below. -/
def tinyThreshold : Config where
  keyHash key :=
    match key with
    | "a" => "a96faf705af16834e6c632b61e964e1f"
    | "b" => "4b2212e31ac97fd4575a0b1c44d8843f"
    | "c" => "12d8bdd17f74de858c40219a46b9f81b"
    | _ => ""
  keyHashLegacySha256 key :=
    match key with
    | "a" => "ca978112ca1bbdcafac231b39a23dc4da786eff8147c4e72b9807785afee48bb"
    | "b" => "3e23e8160039594a33894f6564e1b1348bbd7a0088d42c4acb73eeaed59c009d"
    | "c" => "2e7d2c03a9507ae265ecf5b5356885a53393a2029d241394997265a1a25aefc6"
    | _ => ""
  md5 bytes :=
    if bytes = [65, 65] then [59, 152, 226, 223, 252, 108, 176, 106, 137, 220, 176, 213, 198, 10, 2, 6]
    else if bytes = [67, 67] then
      [170, 83, 202, 11, 101, 13, 253, 133, 196, 245, 159, 161, 86, 247, 162, 204]
    else []
  inlineObjectThreshold := 1

def request (path : String) (headers : Headers) (body : Bytes) : RequestContext :=
  ⟨path, "us-east-1", headers, ∅, none, some body, none⟩

def createBk : Request := ⟨.createBucket, request "/bk" [] [], ⟨0, ""⟩⟩

def putBk (key : String) (body : Bytes) : Request :=
  ⟨.putObject, request ("/bk/" ++ key) [] body, ⟨0, ""⟩⟩

def copyBk (src dst : String) : Request :=
  ⟨.copyObject, request ("/bk/" ++ dst) [("x-amz-copy-source", "/bk/" ++ src)] [], ⟨0, ""⟩⟩

def getBk (key : String) : RequestContext := request ("/bk/" ++ key) [] []

/-- Put `a` and copy it to `b`, where no file exists yet. -/
theorem keys_isolated_along_run_firstCopy :
    Run.AllSteps (World.step tinyThreshold) (Isolates tinyThreshold) {}
      [createBk, putBk "a" [65, 65], copyBk "a" "b"] := by
  refine keys_isolated_along_run tinyThreshold _ ⟨trivial, ?_, ?_, trivial⟩
  · intro bucket named _
    have bk : bucketFromPath (putBk "a" [65, 65]).ctx.path = some "bk" := by decide +kernel
    cases bk.symm.trans named
    exact freshHash_of_objects (by decide +kernel)
  · intro bucket src v named _ _ _
    have bk : bucketFromPath (copyBk "a" "b").ctx.path = some "bk" := by decide +kernel
    cases bk.symm.trans named
    refine ⟨freshHash_of_objects (by decide +kernel), fun _ _ _ q i absent => ?_⟩
    have missing : (World.step tinyThreshold (World.step tinyThreshold {} createBk)
        (putBk "a" [65, 65])).files.disk.entry
          (nullPath tinyThreshold "bk" (keyFromPath (copyBk "a" "b").ctx.path)) = none := by
      decide +kernel
    rw [missing] at absent
    cases absent

/-- After `a` was copied to `b`, copying `c` to `b` changes what `a` returns, and
copying `a` to `b` again leaves `b` empty. -/
theorem copy_rewrites_linked_file :
    ¬ Run.AllSteps (World.step tinyThreshold) (Isolates tinyThreshold) {}
        [createBk, putBk "a" [65, 65], copyBk "a" "b", putBk "c" [67, 67], copyBk "c" "b"] ∧
    ¬ Run.AllSteps (World.step tinyThreshold) (Isolates tinyThreshold) {}
        [createBk, putBk "a" [65, 65], copyBk "a" "b", copyBk "a" "b"] := by
  constructor
  · intro isolated
    obtain ⟨_, _, _, _, last, _⟩ := isolated
    have same := last.others (getBk "a") (by decide +kernel)
    exact absurd same (by decide +kernel)
  · intro isolated
    obtain ⟨_, _, _, last, _⟩ := isolated
    obtain ⟨bytes, before, after⟩ := last.copied rfl ⟨0, formatEtag (tinyThreshold.md5 [65, 65])⟩
      (by decide +kernel) (getBk "a") (getBk "b") (by decide +kernel) (by decide +kernel)
      (by decide +kernel) (by decide +kernel)
    exact absurd (before.trans after.symm) (by decide +kernel)

end Openstack.S3

import Openstack.S3.Requests

/-!
# Retention of versions

A version with an id of its own should stay until a delete names it. The store decides between
prepending, clearing and marking in `put_object_version`, `complete_multipart_upload_with_version`,
`delete_object` and `delete_object_version` (`store.rs:484-596`, `store.rs:876-907`): while a
bucket is not `"Enabled"`, a write clears the versions of its key and a delete removes them all.
`Advances` says what a call that spares the versions does to the world; the invariant and the
retention of every version follow from it.
-/
namespace Openstack.S3

open ObjectFileStore

variable {c : Call} {i : Nat} {s : S3Store} {drawn : List String}
  {names : String → String → String → Prop} {files : ObjectFileStore} {store : S3Store} {w' : World}
  {lost : Path → Prop} {v : ObjectVersion} {bucket : String}

/-! ## Statement -/

/-- The call is a delete that names the version. -/
def Call.Names (c : Call) (bucket key versionId : String) : Prop :=
  match c.action with
  | .deleteObject =>
    target c.ctx = some (bucket, key) ∧ c.ctx.queryParams["versionId"]? = some versionId
  | .deleteObjects =>
    bucketFromPath c.ctx.path = some bucket ∧ (key, some versionId) ∈ requestedDeletes c.ctx
  | _ => False

/-- The key has no version with an id of its own. -/
def OnlyNull (store : S3Store) (bucket key : String) : Prop :=
  ∀ v ∈ store.versions bucket key, v.versionId = "null"

section Statement

variable (cfg : Config)

/-- Every version with an id that GetObject returns before the call is returned with the same
bytes after it, unless the call names it; a version stored by the call can be read; and a call on
a bucket without versioning adds and removes null versions only. -/
structure Retains (w : World) (c : Call) : Prop where
  kept : ∀ get bucket key versionId bytes, target get = some (bucket, key) →
    get.queryParams["versionId"]? = some versionId → versionId ≠ "null" →
    ¬ c.Names bucket key versionId →
    getBody w get = some bytes → getBody (w.serve cfg c) get = some bytes
  stored : ∀ bucket key versionId v, versionId ≠ "null" →
    w.store.getObjectVersion bucket key versionId = none →
    (w.serve cfg c).store.getObjectVersion bucket key versionId = some v →
    (w.serve cfg c).files.readData v.data ≠ none
  suspended : ∀ target, bucketFromPath c.ctx.path = some target →
    w.store.versioningEnabled target = false →
    ∀ bucket key versionId, versionId ≠ "null" → ¬ c.Names bucket key versionId →
      (w.serve cfg c).store.getObjectVersion bucket key versionId =
        w.store.getObjectVersion bucket key versionId

/-- A write or a delete on a bucket without versioning meets no version with an id of its own,
except one that the same DeleteObjects names, and a CopyObject does not write into a file that
such a version is linked to. -/
def SparesVersions (w : World) (c : Call) : Prop :=
  match c.action with
  | .putObject =>
    ∀ bucket, bucketFromPath c.ctx.path = some bucket → w.store.versioningEnabled bucket = false →
      w.store.bucketExists bucket = true → (bodyStream c.ctx).fails = false →
      OnlyNull w.store bucket (keyFromPath c.ctx.path)
  | .copyObject =>
    ∀ bucket src v, bucketFromPath c.ctx.path = some bucket →
      w.store.versioningEnabled bucket = false → copySource c.ctx = some src →
      w.store.getObject src.1 src.2 = some v →
      OnlyNull w.store bucket (keyFromPath c.ctx.path) ∧
      (v.data.path?.isSome → cfg.inlineObjectThreshold < v.size →
        ∀ b k, ∀ u ∈ w.store.versions b k, u.versionId ≠ "null" → ∀ p, u.data = .fileRef p →
          ¬ Overwritten cfg w.files ⟨src.1, src.2, v.versionId⟩
            ⟨bucket, keyFromPath c.ctx.path, "null"⟩ p)
  | .completeMultipartUpload =>
    ∀ bucket uploadId u, bucketFromPath c.ctx.path = some bucket →
      w.store.versioningEnabled bucket = false → c.ctx.queryParams["uploadId"]? = some uploadId →
      requestedUpload w.store c.ctx bucket uploadId = some u →
      (multipartRead w.files ((selectParts u (requestedParts c.ctx)).map (·.data))).fails = false →
      OnlyNull w.store bucket (keyFromPath c.ctx.path)
  | .deleteObject =>
    ∀ bucket, bucketFromPath c.ctx.path = some bucket → w.store.versioningEnabled bucket = false →
      c.ctx.queryParams["versionId"]? = none →
      OnlyNull w.store bucket (keyFromPath c.ctx.path)
  | .deleteObjects =>
    ∀ bucket key, bucketFromPath c.ctx.path = some bucket →
      w.store.versioningEnabled bucket = false → (key, none) ∈ requestedDeletes c.ctx →
      ∀ v ∈ w.store.versions bucket key,
        v.versionId = "null" ∨ (key, some v.versionId) ∈ requestedDeletes c.ctx
  | .createBucket | .putBucketVersioning | .getObject | .createMultipartUpload | .uploadPart
  | .abortMultipartUpload => True

end Statement

/-! ## The invariant -/

structure VersionInvariant (cfg : Config) (w : World) : Prop where
  tmp : TmpFresh w.files
  named : ∀ b k, ∀ v ∈ w.store.versions b k, v.versionId = "null" ∨ IsUuid v.versionId
  placed : ∀ b k, ∀ v ∈ w.store.versions b k, ∀ p, v.data = .fileRef p →
    p = objectPath cfg ⟨b, k, v.versionId⟩
  parts : PartsPlaced w.store
  unique : ∀ b k b' k' v v', v ∈ w.store.versions b k → v' ∈ w.store.versions b' k' →
    v.versionId = v'.versionId → v.versionId ≠ "null" → b = b' ∧ k = k'

/-- The version is new: it is the null version or has an id the call drew, its file lies at its
path, and unless it is the null version its bytes can be read. -/
structure IsNew (cfg : Config) (files : ObjectFileStore) (drawn : List String) (b k : String)
    (v : ObjectVersion) : Prop where
  id : v.versionId = "null" ∨ v.versionId ∈ drawn
  placed : ∀ p, v.data = .fileRef p → p = objectPath cfg ⟨b, k, v.versionId⟩
  reads : v.versionId ≠ "null" → files.readData v.data ≠ none

/-- What a call may do that spares every version but those it names. -/
structure Advances (cfg : Config) (w w' : World) (names : String → String → String → Prop)
    (drawn : List String) : Prop where
  tmp : TmpFresh w'.files
  buckets : ∀ b, w.store.bucketExists b = true → w'.store.bucketExists b = true
  parts : PartsPlaced w'.store
  kept : ∀ b k versionId v, versionId ≠ "null" → ¬ names b k versionId →
    w.store.getObjectVersion b k versionId = some v →
    w'.store.getObjectVersion b k versionId = some v
  files : ∀ b k, ∀ v ∈ w.store.versions b k, v.versionId ≠ "null" → ¬ names b k v.versionId →
    ∀ bytes, w.files.readData v.data = some bytes → w'.files.readData v.data = some bytes
  new : ∀ b k, ∀ v ∈ w'.store.versions b k, v ∈ w.store.versions b k ∨
    IsNew cfg w'.files drawn b k v
  once : ∀ b k b' k' v v', v ∈ w'.store.versions b k → v' ∈ w'.store.versions b' k' →
    v.versionId = v'.versionId → v.versionId ∈ drawn → b = b' ∧ k = k'

variable {cfg : Config} {w : World}

theorem versionInvariant_empty (cfg : Config) : VersionInvariant cfg {} := by
  have none : ∀ b k, S3Store.versions {} b k = [] := by
    intro b k
    simp [S3Store.versions, S3Store.object?]
  refine ⟨tmpFresh_empty, ?_, ?_, ?_, ?_⟩
  · intro b k v member
    simp [none] at member
  · intro b k v member
    simp [none] at member
  · intro uploadId u found
    simp at found
  · intro b k b' k' v v' member
    simp [none] at member

/-- What advances keeps the invariant. -/
theorem VersionInvariant.advance (inv : VersionInvariant cfg w)
    (uuid : ∀ id ∈ drawn, IsUuid id) (step : Advances cfg w w' names drawn) : VersionInvariant cfg w' where
  tmp := step.tmp
  named := by
    intro b k v member
    rcases step.new b k v member with old | new
    · exact inv.named b k v old
    · exact new.id.imp_right (uuid _)
  placed := by
    intro b k v member
    rcases step.new b k v member with old | new
    · exact inv.placed b k v old
    · exact new.placed
  parts := step.parts
  unique := by
    intro b k b' k' v v' member member' same other
    by_cases fresh : v.versionId ∈ drawn
    · exact step.once b k b' k' v v' member member' same fresh
    · have old : ∀ b k u, u ∈ w'.store.versions b k → u.versionId = v.versionId →
          u ∈ w.store.versions b k := by
        intro b k u here id
        rcases step.new b k u here with old | new
        · exact old
        · rcases new.id with null | drawnId
          · exact absurd (id ▸ null) other
          · exact absurd (id ▸ drawnId) fresh
      exact inv.unique b k b' k' v v' (old b k v member rfl) (old b' k' v' member' same.symm)
        same other

/-- What advances retains every version. -/
theorem Advances.getBody (step : Advances cfg w w' names drawn) {get : RequestContext} {bucket key versionId : String}
    {bytes : Bytes} (here : target get = some (bucket, key))
    (named : get.queryParams["versionId"]? = some versionId) (other : versionId ≠ "null")
    (unnamed : ¬ names bucket key versionId) (read : S3.getBody w get = some bytes) :
    S3.getBody w' get = some bytes := by
  obtain ⟨b, fromPath, pair⟩ := Option.map_eq_some_iff.mp here
  obtain ⟨rfl, keyed⟩ := Prod.mk.inj pair
  obtain ⟨b', v, fromPath', known, selected, data⟩ := getBody_some read
  cases fromPath.symm.trans fromPath'
  have version : w.store.getObjectVersion b key versionId = some v := by
    simpa [requestedVersion, named, keyed] using selected
  have version' := step.kept b key versionId v other unnamed version
  rw [S3Store.getObjectVersion_eq] at version
  have id : v.versionId = versionId := by simpa using List.find?_some version
  have data' : w'.files.readData v.data = some bytes := by
    refine step.files b key v (List.mem_of_find?_eq_some version) (id ▸ other) (id ▸ unnamed) bytes data
  have selected' : requestedVersion w'.store get b = some v := by
    simpa [requestedVersion, named, keyed] using version'
  rw [getBody_eq fromPath (step.buckets b known), selected', Option.bind_some, data']

/-! ## Files of retained versions -/

/-- An operation on files that loses no file of a version that stays. -/
theorem VersionInvariant.readData (inv : VersionInvariant cfg w) (keeps : Keeps w.files files lost) {b k : String}
    (member : v ∈ w.store.versions b k)
    (spared : ∀ p, p = objectPath cfg ⟨b, k, v.versionId⟩ → v.data = .fileRef p → ¬ lost p)
    {bytes : Bytes} (read : w.files.readData v.data = some bytes) :
    files.readData v.data = some bytes := by
  cases data : v.data with
  | inline b =>
    rw [data] at read
    exact read
  | fileRef p =>
    rw [data] at read
    exact keeps p bytes (spared p (inv.placed b k v member p data) data) read

/-- A call that stores no object. -/
theorem Advances.of_objects (inv : VersionInvariant cfg w) (objects : store.objects = w.store.objects)
    (absent : ∀ id ∈ drawn, ∀ b k, ∀ v ∈ w.store.versions b k, v.versionId ≠ id)
    (buckets : ∀ b, w.store.bucketExists b = true → store.bucketExists b = true)
    (parts : PartsPlaced store) (tmp : TmpFresh files) (keeps : Keeps w.files files lost)
    (spared : ∀ b k, ∀ v ∈ w.store.versions b k, v.versionId ≠ "null" →
      ∀ p, p = objectPath cfg ⟨b, k, v.versionId⟩ → v.data = .fileRef p → ¬ lost p) :
    Advances cfg w ⟨store, files⟩ names drawn := by
  have same : ∀ b k, store.versions b k = w.store.versions b k := S3Store.versions_congr objects
  refine ⟨tmp, buckets, parts, ?_, ?_, ?_, ?_⟩
  · intro b k versionId v _ _ found
    rwa [S3Store.getObjectVersion_eq, same, ← S3Store.getObjectVersion_eq]
  · intro b k v member other _ bytes read
    exact inv.readData keeps member (spared b k v member other) read
  · intro b k v member
    rw [same] at member
    exact .inl member
  · intro b k b' k' v v' member _ _ drawnId
    rw [same] at member
    exact absurd rfl (absent _ drawnId b k v member)

/-! ## Storing a version -/

/-- The replaced file is that of the key's null version. -/
theorem removeReplaced_effects (inv : VersionInvariant cfg w)
    (objects : store.objects = w.store.objects) (tmp : TmpFresh files) (bucket key : String) (version : ObjectVersion)
    (null : version.versionId = "null" → OnlyNull w.store bucket key) :
    TmpFresh (files.removeReplaced (replacedFilePath version.versionId
      (store.putObjectVersion bucket key version).1 version.data)) ∧
    Keeps files (files.removeReplaced (replacedFilePath version.versionId
      (store.putObjectVersion bucket key version).1 version.data))
      (fun p => version.versionId = "null" ∧ p = objectPath cfg ⟨bucket, key, "null"⟩) := by
  cases replaced : replacedFilePath version.versionId
    (store.putObjectVersion bucket key version).1 version.data with
  | none => exact ⟨tmp, Keeps.refl _ _⟩
  | some path =>
    obtain ⟨tmp', kept⟩ := removeFile_effects tmp path
    refine ⟨tmp', kept.mono ?_⟩
    rintro p rfl
    unfold replacedFilePath at replaced
    split at replaced
    · next isNull =>
      refine ⟨isNull, ?_⟩
      split at replaced
      · next old prev =>
        rw [S3Store.putObjectVersion_prev, object?_congr objects] at prev
        obtain ⟨obj, found, head⟩ := Option.bind_eq_some_iff.mp prev
        obtain ⟨v, first, data⟩ := Option.map_eq_some_iff.mp head
        have member : v ∈ w.store.versions bucket key := by
          simp only [S3Store.versions, found, Option.map_some, Option.getD_some]
          exact List.mem_of_mem_head? first
        have place := inv.placed bucket key v member old data
        rw [null isNull v member] at place
        split at replaced
        · cases replaced
        · cases replaced
          exact place
      · cases replaced
    · cases replaced

/-- PutObject, CopyObject and CompleteMultipartUpload, once the bytes are stored. -/
theorem Advances.put (inv : VersionInvariant cfg w) (store : S3Store)
    (objects : store.objects = w.store.objects) (buckets : store.buckets = w.store.buckets)
    (absent : ∀ id ∈ drawn, ∀ b k, ∀ v ∈ w.store.versions b k, v.versionId ≠ id)
    (parts : PartsPlaced store) (tmp : TmpFresh files) (keeps : Keeps w.files files lost)
    (spared : ∀ b k, ∀ v ∈ w.store.versions b k, v.versionId ≠ "null" →
      ∀ p, p = objectPath cfg ⟨b, k, v.versionId⟩ → v.data = .fileRef p → ¬ lost p)
    (bucket key : String) (version : ObjectVersion)
    (id : version.versionId = "null" ∧ OnlyNull w.store bucket key ∨
      version.versionId ≠ "null" ∧ version.versionId ∈ drawn)
    (placed : (∃ b, version.data = .inline b) ∨
      version.data = .fileRef (objectPath cfg ⟨bucket, key, version.versionId⟩))
    (reads : files.readData version.data ≠ none) :
    Advances cfg w ⟨(store.putObjectVersion bucket key version).2,
      files.removeReplaced (replacedFilePath version.versionId
        (store.putObjectVersion bucket key version).1 version.data)⟩ names drawn := by
  have null : version.versionId = "null" → OnlyNull w.store bucket key := by
    intro isNull
    rcases id with ⟨_, only⟩ | ⟨other, _⟩
    · exact only
    · exact absurd isNull other
  obtain ⟨tmp', kept'⟩ := removeReplaced_effects inv objects tmp bucket key version null
  have versions : ∀ b k, (store.putObjectVersion bucket key version).2.versions b k =
      if b = bucket ∧ k = key then
        if version.versionId = "null" then [version] else version :: w.store.versions bucket key
      else w.store.versions b k := by
    intro b k
    rw [S3Store.versions_putObjectVersion, S3Store.versions_congr objects,
      S3Store.versions_congr objects]
  have member_cases : ∀ b k v, v ∈ (store.putObjectVersion bucket key version).2.versions b k →
      v ∈ w.store.versions b k ∨ b = bucket ∧ k = key ∧ v = version := by
    intro b k v member
    rw [versions] at member
    split at member
    · next here =>
      obtain ⟨rfl, rfl⟩ := here
      split at member
      · exact .inr ⟨rfl, rfl, List.mem_singleton.mp member⟩
      · rcases List.mem_cons.mp member with rfl | old
        · exact .inr ⟨rfl, rfl, rfl⟩
        · exact .inl old
    · exact .inl member
  refine ⟨tmp', ?_, ?_, ?_, ?_, ?_, ?_⟩
  · intro b known
    rwa [bucketExists_congr (S3Store.putObjectVersion_buckets store bucket key version),
      bucketExists_congr buckets]
  · intro uploadId u found
    rw [S3Store.putObjectVersion_uploads] at found
    exact parts uploadId u found
  · intro b k versionId v other _ found
    rw [S3Store.getObjectVersion_eq] at found ⊢
    rw [versions]
    split
    · next here =>
      obtain ⟨rfl, rfl⟩ := here
      have stored := List.mem_of_find?_eq_some found
      have same : v.versionId = versionId := by simpa using List.find?_some found
      split
      · next isNull => exact absurd (same ▸ null isNull v stored) other
      · next notNull =>
        have differs : version.versionId ≠ versionId := by
          rcases id with ⟨isNull, _⟩ | ⟨_, drawnId⟩
          · exact absurd isNull notNull
          · intro same'
            exact absent _ drawnId b k v stored (same.trans same'.symm)
        rw [List.find?_cons_of_neg (by simpa using differs), found]
    · exact found
  · intro b k v member other _ bytes read
    refine inv.readData (keeps.trans' kept') member ?_ read
    rintro p place data (gone | ⟨_, rfl⟩)
    · exact spared b k v member other p place data gone
    · have last := congrArg List.getLast? place
      rw [getLast?_objectPath, getLast?_objectPath] at last
      exact other (Option.some.inj last).symm
  · intro b k v member
    rcases member_cases b k v member with old | ⟨rfl, rfl, rfl⟩
    · exact .inl old
    · refine .inr ⟨id.imp And.left And.right, ?_, ?_⟩
      · intro p data
        rcases placed with ⟨bytes, inline⟩ | file
        · rw [inline] at data
          cases data
        · rw [file] at data
          exact (ObjectDataRef.fileRef.inj data).symm
      · intro other
        have unchanged : replacedFilePath v.versionId (store.putObjectVersion b k v).1 v.data =
            none := by simp [replacedFilePath, other]
        rw [unchanged]
        exact reads
  · intro b k b' k' v v' member member' same drawnId
    have here : ∀ b k u, u ∈ (store.putObjectVersion bucket key version).2.versions b k →
        u.versionId ∈ drawn → b = bucket ∧ k = key := by
      intro b k u stored isDrawn
      rcases member_cases b k u stored with old | ⟨hb, hk, _⟩
      · exact absurd rfl (absent _ isDrawn b k u old)
      · exact ⟨hb, hk⟩
    obtain ⟨rfl, rfl⟩ := here b k v member drawnId
    obtain ⟨rfl, rfl⟩ := here b' k' v' member' (same ▸ drawnId)
    exact ⟨rfl, rfl⟩

/-! ## Deleting -/

theorem find?_eraseP_of_ne {versions : List ObjectVersion} {versionId other : String}
    (ne : other ≠ versionId) :
    (versions.eraseP (·.versionId == versionId)).find? (·.versionId == other) =
      versions.find? (·.versionId == other) := by
  induction versions with
  | nil => rfl
  | cons v rest ih =>
    by_cases here : v.versionId = versionId
    · have notOther : (v.versionId == other) = false := by
        simpa [here] using ne.symm
      rw [List.eraseP_cons_of_pos (by simpa using here), List.find?_cons_of_neg (by simp [notOther])]
    · rw [List.eraseP_cons_of_neg (by simpa using here), List.find?_cons, List.find?_cons, ih]

section Deleting

variable (w) (bucket : String) (entries : List (String × Option String)) (markerIds : Nat → String)

/-- The store while a list of objects is deleted, before position `i`. -/
structure Deleting (i : Nat) (s : S3Store) : Prop where
  buckets : s.buckets = w.store.buckets
  uploads : s.multipartUploads = w.store.multipartUploads
  kept : ∀ b k versionId v, versionId ≠ "null" →
    ¬ (b = bucket ∧ (k, some versionId) ∈ entries) →
    w.store.getObjectVersion b k versionId = some v → s.getObjectVersion b k versionId = some v
  /-- Only delete markers are new. -/
  new : ∀ b k, ∀ v ∈ s.versions b k, v ∈ w.store.versions b k ∨
    b = bucket ∧ w.store.versioningEnabled bucket = true ∧ v.data = .inline [] ∧
      ∃ j < i, v.versionId = markerIds j ∧ entries[j]? = some (k, none)

/-- The file belongs to a null version or to a version that the list names. -/
def NamedFile (cfg : Config) (p : Path) : Prop :=
  ∃ k, ∃ v ∈ w.store.versions bucket k, p = objectPath cfg ⟨bucket, k, v.versionId⟩ ∧
    (v.versionId = "null" ∨ (k, some v.versionId) ∈ entries)

variable {w bucket entries markerIds}

theorem Deleting.start : Deleting w bucket entries markerIds 0 w.store :=
  ⟨rfl, rfl, fun _ _ _ _ _ _ found => found, fun _ _ _ member => .inl member⟩

/-- A stored version with a file is an old one. -/
theorem Deleting.old (here : Deleting w bucket entries markerIds i s)
    {b k : String} (member : v ∈ s.versions b k) {p : Path}
    (data : v.data = .fileRef p) : v ∈ w.store.versions b k := by
  rcases here.new b k v member with old | ⟨_, _, inline, _⟩
  · exact old
  · rw [inline] at data
    cases data

/-- The marker ids up to `n` are not in use. -/
def UnusedMarkers (w : World) (markerIds : Nat → String) (n : Nat) : Prop :=
  ∀ j < n, ∀ b k, ∀ v ∈ w.store.versions b k, v.versionId ≠ markerIds j

/-- A plain delete without versioning meets null versions and named versions only. -/
def SparedDeletes (w : World) (bucket : String) (entries : List (String × Option String)) : Prop :=
  w.store.versioningEnabled bucket = false → ∀ key, (key, none) ∈ entries →
    ∀ v ∈ w.store.versions bucket key, v.versionId = "null" ∨ (key, some v.versionId) ∈ entries

theorem Deleting.version (inv : VersionInvariant cfg w)
    (here : Deleting w bucket entries markerIds i s) {key versionId : String}
    (listed : (key, some versionId) ∈ entries) :
    Deleting w bucket entries markerIds (i + 1) (s.deleteObjectVersion bucket key versionId).2 ∧
    ∀ v p, (s.deleteObjectVersion bucket key versionId).1 = some v → v.data = .fileRef p →
      NamedFile w bucket entries cfg p := by
  obtain ⟨removed, versions⟩ := S3Store.deleteObjectVersion_versions s bucket key versionId
  obtain ⟨buckets, uploads⟩ := S3Store.deleteObjectVersion_rest s bucket key versionId
  refine ⟨⟨buckets.trans here.buckets, uploads.trans here.uploads, ?_, ?_⟩, ?_⟩
  · intro b k other v notNull unnamed found
    have before := here.kept b k other v notNull unnamed found
    rw [S3Store.getObjectVersion_eq] at before ⊢
    rw [versions]
    split
    · next same =>
      obtain ⟨rfl, rfl⟩ := same
      have ne : other ≠ versionId := by
        rintro rfl
        exact unnamed ⟨rfl, listed⟩
      rw [find?_eraseP_of_ne ne, before]
    · exact before
  · intro b k v member
    have before : v ∈ s.versions b k := by
      rw [versions] at member
      split at member
      · next same =>
        obtain ⟨rfl, rfl⟩ := same
        exact List.mem_of_mem_eraseP member
      · exact member
    refine (here.new b k v before).imp_right ?_
    rintro ⟨hb, enabled, data, j, earlier, id⟩
    exact ⟨hb, enabled, data, j, Nat.lt_succ_of_lt earlier, id⟩
  · intro v p gone data
    rw [removed] at gone
    have stored := here.old (List.mem_of_find?_eq_some gone) data
    have id : v.versionId = versionId := by simpa using List.find?_some gone
    exact ⟨key, v, stored, inv.placed bucket key v stored p data, .inr (id ▸ listed)⟩

theorem Deleting.marker (here : Deleting w bucket entries markerIds i s)
    (unused : UnusedMarkers w markerIds (i + 1)) {key : String}
    (listed : entries[i]? = some (key, none)) (now : Instant) (enabled : w.store.versioningEnabled bucket = true) :
    Deleting w bucket entries markerIds (i + 1)
      (s.deleteObject now (markerIds i) bucket key).2 ∧
    ∀ v, (s.deleteObject now (markerIds i) bucket key).1 = some v → v.deleteMarker = true := by
  have later : ∀ b k v, v ∈ s.versions b k → v ∈ w.store.versions b k ∨
      b = bucket ∧ w.store.versioningEnabled bucket = true ∧ v.data = .inline [] ∧
        ∃ j < i + 1, v.versionId = markerIds j ∧ entries[j]? = some (k, none) := by
    intro b k v member
    refine (here.new b k v member).imp_right ?_
    rintro ⟨hb, enabled, data, j, earlier, id⟩
    exact ⟨hb, enabled, data, j, Nat.lt_succ_of_lt earlier, id⟩
  obtain ⟨buckets, uploads⟩ := S3Store.deleteObject_rest s now (markerIds i) bucket key
  have enabledHere : s.versioningEnabled bucket = true := by
    rw [versioningEnabled_congr here.buckets, enabled]
  rcases S3Store.deleteObject_marker enabledHere now (markerIds i) key with
    unchanged | ⟨marker, id, data, isMarker, returned, versions⟩
  · rw [unchanged]
    exact ⟨⟨here.buckets, here.uploads, here.kept, later⟩, by simp⟩
  · refine ⟨⟨buckets.trans here.buckets, uploads.trans here.uploads, ?_, ?_⟩, ?_⟩
    · intro b k versionId v notNull unnamed found
      have before := here.kept b k versionId v notNull unnamed found
      rw [S3Store.getObjectVersion_eq] at before found ⊢
      rw [versions]
      split
      · next same =>
        obtain ⟨rfl, rfl⟩ := same
        have version : v.versionId = versionId := by simpa using List.find?_some found
        have ne : marker.versionId ≠ versionId := by
          rw [id, ← version]
          exact (unused i (Nat.lt_succ_self i) b k v (List.mem_of_find?_eq_some found)).symm
        rw [List.find?_cons_of_neg (by simpa using ne), before]
      · exact before
    · intro b k v member
      rw [versions] at member
      split at member
      · next same =>
        obtain ⟨rfl, rfl⟩ := same
        rcases List.mem_cons.mp member with rfl | before
        · exact .inr ⟨rfl, enabled, data, i, Nat.lt_succ_self i, id, listed⟩
        · exact later b k v before
      · exact later b k v member
    · intro v found
      rw [returned] at found
      cases found
      exact isMarker

theorem Deleting.plain (inv : VersionInvariant cfg w)
    (here : Deleting w bucket entries markerIds i s) (spared : SparedDeletes w bucket entries)
    {key : String} (listed : (key, none) ∈ entries) (now : Instant) (markerId : String)
    (disabled : w.store.versioningEnabled bucket = false) :
    Deleting w bucket entries markerIds (i + 1) (s.deleteObject now markerId bucket key).2 ∧
    ∀ v p, (s.deleteObject now markerId bucket key).1 = some v → v.data = .fileRef p →
      NamedFile w bucket entries cfg p := by
  have disabledHere : s.versioningEnabled bucket = false := by
    rw [versioningEnabled_congr here.buckets, disabled]
  obtain ⟨buckets, uploads⟩ := S3Store.deleteObject_rest s now markerId bucket key
  have versions := S3Store.versions_deleteObject disabledHere now markerId key
  refine ⟨⟨buckets.trans here.buckets, uploads.trans here.uploads, ?_, ?_⟩, ?_⟩
  · intro b k versionId v notNull unnamed found
    have before := here.kept b k versionId v notNull unnamed found
    rw [S3Store.getObjectVersion_eq] at before found ⊢
    rw [versions]
    split
    · next same =>
      obtain ⟨rfl, rfl⟩ := same
      have version : v.versionId = versionId := by simpa using List.find?_some found
      rcases spared disabled k listed v (List.mem_of_find?_eq_some found) with null | named
      · exact absurd (version ▸ null) notNull
      · exact absurd ⟨rfl, version ▸ named⟩ unnamed
    · exact before
  · intro b k v member
    rw [versions] at member
    split at member
    · simp at member
    · refine (here.new b k v member).imp_right ?_
      rintro ⟨hb, enabled, data, j, earlier, id⟩
      exact ⟨hb, enabled, data, j, Nat.lt_succ_of_lt earlier, id⟩
  · intro v p gone data
    rw [S3Store.deleteObject_head disabledHere] at gone
    have stored := here.old (List.mem_of_mem_head? gone) data
    exact ⟨key, v, stored, inv.placed bucket key v stored p data, spared disabled key listed v stored⟩

theorem Deleting.listed (inv : VersionInvariant cfg w)
    (here : Deleting w bucket entries markerIds i s) (spared : SparedDeletes w bucket entries)
    (unused : UnusedMarkers w markerIds (i + 1)) {entry : String × Option String}
    (listed : entries[i]? = some entry) (now : Instant) :
    Deleting w bucket entries markerIds (i + 1) (deleteListed now (markerIds i) s bucket entry).2 ∧
    ∀ p, (deleteListed now (markerIds i) s bucket entry).1 = some p →
      NamedFile w bucket entries cfg p := by
  obtain ⟨key, versionId⟩ := entry
  have member := List.mem_of_getElem? listed
  have path : ∀ {data : ObjectDataRef} {p : Path}, data.path? = some p → data = .fileRef p := by
    intro data p found
    cases data with
    | inline bytes => cases found
    | fileRef path => rw [Option.some.inj found]
  unfold deleteListed
  cases versionId with
  | some vid =>
    obtain ⟨next, files⟩ := here.version inv member
    refine ⟨next, ?_⟩
    intro p found
    obtain ⟨v, removed, data⟩ := Option.bind_eq_some_iff.mp found
    exact files v p removed (path data)
  | none =>
    cases enabled : w.store.versioningEnabled bucket with
    | true =>
      obtain ⟨next, markers⟩ := here.marker unused listed now enabled
      refine ⟨next, ?_⟩
      intro p found
      obtain ⟨v, removed, data⟩ := Option.bind_eq_some_iff.mp found
      simp [markers v removed] at data
    | false =>
      obtain ⟨next, files⟩ := here.plain inv spared member now (markerIds i) enabled
      refine ⟨next, ?_⟩
      intro p found
      obtain ⟨v, removed, data⟩ := Option.bind_eq_some_iff.mp found
      split at data
      · cases data
      · exact files v p removed (path data)

/-- The whole loop. -/
theorem Deleting.all (inv : VersionInvariant cfg w) (spared : SparedDeletes w bucket entries) (now : Instant)
    (rest : List (String × Option String)) (suffix : entries.drop i = rest)
    (unused : UnusedMarkers w markerIds entries.length) (here : Deleting w bucket entries markerIds i s) :
    (∃ j, Deleting w bucket entries markerIds j
      (deleteAllListed now markerIds bucket i s rest).2 ∧ j ≤ max entries.length i) ∧
    ∀ p ∈ (deleteAllListed now markerIds bucket i s rest).1, NamedFile w bucket entries cfg p := by
  induction rest generalizing i s with
  | nil => exact ⟨⟨i, here, le_max_right _ _⟩, by simp [deleteAllListed]⟩
  | cons entry rest ih =>
    have listed : entries[i]? = some entry := by
      rw [← List.head?_drop, suffix, List.head?_cons]
    have inside : i < entries.length := by
      by_contra outside
      rw [List.getElem?_eq_none (by omega)] at listed
      cases listed
    have tail : entries.drop (i + 1) = rest := by
      rw [← List.tail_drop, suffix, List.tail_cons]
    obtain ⟨next, file⟩ := here.listed inv spared
      (fun j earlier => unused j (by omega)) listed now
    obtain ⟨⟨j, last, bound⟩, files⟩ := ih tail next
    refine ⟨⟨j, last, by omega⟩, ?_⟩
    intro p member
    simp only [deleteAllListed, List.mem_append, Option.mem_toList] at member
    rcases member with first | later
    · exact file p first
    · exact files p later

/-- The world after a list of objects of the bucket was deleted. -/
def deleteWorld (w : World) (now : Instant) (markerIds : Nat → String) (bucket : String)
    (entries : List (String × Option String)) : World :=
  ⟨(deleteAllListed now markerIds bucket 0 w.store entries).2,
    (deleteAllListed now markerIds bucket 0 w.store entries).1.foldl removeFile w.files⟩

theorem Advances.delete (inv : VersionInvariant cfg w) (spared : SparedDeletes w bucket entries)
    (unused : UnusedMarkers w markerIds entries.length)
    (distinct : ((List.range entries.length).map markerIds).Nodup) (now : Instant) :
    Advances cfg w (deleteWorld w now markerIds bucket entries)
      (fun b k versionId => b = bucket ∧ (k, some versionId) ∈ entries)
      (if w.store.versioningEnabled bucket then (List.range entries.length).map markerIds else []) := by
  obtain ⟨⟨last, done, bound⟩, paths⟩ :=
    Deleting.start.all inv spared now entries (by simp) unused
  have bounded : last ≤ entries.length := by simpa using bound
  obtain ⟨tmp, kept⟩ := removeFiles_effects inv.tmp
    (deleteAllListed now markerIds bucket 0 w.store entries).1
  have used : ∀ b k v, v ∈ (deleteWorld w now markerIds bucket entries).store.versions b k →
      v ∈ w.store.versions b k ∨ b = bucket ∧ w.store.versioningEnabled bucket = true ∧
        v.data = .inline [] ∧
        ∃ j < entries.length, v.versionId = markerIds j ∧ entries[j]? = some (k, none) := by
    intro b k v member
    refine (done.new b k v member).imp_right ?_
    rintro ⟨hb, enabled, data, j, earlier, id⟩
    exact ⟨hb, enabled, data, j, by omega, id⟩
  have drawn : ∀ id, id ∈ (if w.store.versioningEnabled bucket then
      (List.range entries.length).map markerIds else []) → ∃ j < entries.length, markerIds j = id := by
    intro id member
    split at member
    · simpa using member
    · simp at member
  refine ⟨tmp, ?_, ?_, done.kept, ?_, ?_, ?_⟩
  · intro b known
    exact (bucketExists_congr done.buckets b).trans known
  · intro uploadId u found
    exact inv.parts uploadId u (done.uploads ▸ found)
  · intro b k v member other unnamed bytes read
    refine inv.readData kept member ?_ read
    intro p place _ gone
    obtain ⟨k', v', member', place', named⟩ := paths p gone
    have same : b = bucket ∧ cfg.keyHash k = cfg.keyHash k' ∧ v.versionId = v'.versionId := by
      simpa [objectPath, objectDir] using place.symm.trans place'
    obtain ⟨rfl, _, id⟩ := same
    obtain ⟨_, rfl⟩ := inv.unique b k b k' v v' member member' id other
    rcases named with null | listed
    · exact other (id.trans null)
    · exact unnamed ⟨rfl, id ▸ listed⟩
  · intro b k v member
    refine (used b k v member).imp_right ?_
    rintro ⟨rfl, enabled, data, j, earlier, id, _⟩
    refine ⟨.inr ?_, ?_, ?_⟩
    · rw [if_pos enabled, id]
      exact List.mem_map_of_mem (List.mem_range.mpr earlier)
    · intro p file
      rw [data] at file
      cases file
    · intro _
      rw [data]
      simp [readData]
  · intro b k b' k' v v' member member' same isDrawn
    have marker : ∀ b k u, u ∈ (deleteWorld w now markerIds bucket entries).store.versions b k →
        u.versionId = v.versionId → b = bucket ∧
          ∃ j < entries.length, v.versionId = markerIds j ∧ entries[j]? = some (k, none) := by
      intro b k u stored id
      rcases used b k u stored with old | ⟨hb, _, _, j, earlier, version, listed⟩
      · obtain ⟨j, earlier, markerId⟩ := drawn _ isDrawn
        exact absurd (id.trans markerId.symm) (unused j earlier b k u old)
      · exact ⟨hb, j, earlier, id.symm.trans version, listed⟩
    obtain ⟨rfl, j, earlier, id, listed⟩ := marker b k v member rfl
    obtain ⟨rfl, j', earlier', id', listed'⟩ := marker b' k' v' member' same.symm
    have index : j = j' := by
      refine List.inj_on_of_nodup_map distinct (List.mem_range.mpr earlier)
        (List.mem_range.mpr earlier') ?_
      rw [← id, ← id']
    subst index
    rw [listed] at listed'
    simp only [Option.some.injEq, Prod.mk.injEq, and_true] at listed'
    exact ⟨rfl, listed'⟩

end Deleting

/-! ## The handlers -/

/-- The ids that versions may get from the call. -/
def Call.versionIds (w : World) (c : Call) : List String :=
  if (bucketFromPath c.ctx.path).any w.store.versioningEnabled then c.drawn else []

theorem versionIds_drawn {id : String} (member : id ∈ c.versionIds w) : id ∈ c.drawn := by
  unfold Call.versionIds at member
  split at member
  · exact member
  · simp at member

/-- The call advances the world. -/
abbrev CallAdvances (cfg : Config) (w w' : World) (c : Call) : Prop :=
  Advances cfg w w' c.Names (c.versionIds w)

theorem NewIds.absent (ids : NewIds w c) :
    ∀ id ∈ c.versionIds w, ∀ b k, ∀ v ∈ w.store.versions b k, v.versionId ≠ id :=
  fun id member => ids.store id (versionIds_drawn member)

/-- A call that leaves the objects alone, and files of versions as well. -/
theorem CallAdvances.of_store (inv : VersionInvariant cfg w) (ids : NewIds w c)
     (objects : store.objects = w.store.objects)
    (buckets : ∀ b, w.store.bucketExists b = true → store.bucketExists b = true)
    (parts : PartsPlaced store) : CallAdvances cfg w { w with store } c :=
  Advances.of_objects inv objects ids.absent buckets parts inv.tmp (Keeps.refl _ fun _ => False)
    (fun _ _ _ _ _ _ _ _ gone => gone)

theorem CallAdvances.unchanged (inv : VersionInvariant cfg w) (ids : NewIds w c) :
    CallAdvances cfg w w c :=
  CallAdvances.of_store inv ids rfl (fun _ known => known) inv.parts

/-- Working on the file of a null version, of a part, or of a new version. -/
theorem spared_of_last (inv : VersionInvariant cfg w) (ids : NewIds w c) (lost : Path → Prop)
    (last : ∀ p, lost p → ∃ id, p.getLast? = some id ∧
      (id = "null" ∨ (∃ n : Nat, id = "part-" ++ toString n) ∨ id ∈ c.drawn)) :
    ∀ b k, ∀ v ∈ w.store.versions b k, v.versionId ≠ "null" →
      ∀ p, p = objectPath cfg ⟨b, k, v.versionId⟩ → v.data = .fileRef p → ¬ lost p := by
  rintro b k v member other p rfl _ gone
  obtain ⟨id, named, kind⟩ := last _ gone
  rw [getLast?_objectPath] at named
  cases named
  rcases kind with null | ⟨n, part⟩ | drawn
  · exact other null
  · rcases inv.named b k v member with null | uuid
    · exact other null
    · exact uuid.ne_part n part
  · exact ids.store _ drawn b k v member rfl

theorem spared_of_objectPath (inv : VersionInvariant cfg w) (ids : NewIds w c)
    (bucket key : String) {versionId : String} (kind : versionId = "null" ∨ versionId ∈ c.drawn) :
    ∀ b k, ∀ v ∈ w.store.versions b k, v.versionId ≠ "null" →
      ∀ p, p = objectPath cfg ⟨b, k, v.versionId⟩ → v.data = .fileRef p →
        ¬ p = objectPath cfg ⟨bucket, key, versionId⟩ := by
  refine spared_of_last inv ids (· = objectPath cfg ⟨bucket, key, versionId⟩) ?_
  rintro p rfl
  exact ⟨versionId, getLast?_objectPath _ _, kind.imp_right .inr⟩

theorem drawVersionId_cases (ids : NewIds w c)
    (named : bucketFromPath c.ctx.path = some bucket) (drawn : c.drawn = [c.draws.uuid]) :
    drawVersionId c.draws w.store bucket = "null" ∧ w.store.versioningEnabled bucket = false ∨
    drawVersionId c.draws w.store bucket ≠ "null" ∧
      drawVersionId c.draws w.store bucket ∈ c.versionIds w := by
  unfold drawVersionId
  cases enabled : w.store.versioningEnabled bucket with
  | false => exact .inl ⟨rfl, rfl⟩
  | true =>
    have uuid := ids.uuid c.draws.uuid (by simp [drawn])
    refine .inr ⟨uuid.ne_null, ?_⟩
    simp [Call.versionIds, named, enabled, drawn]

/-- A file under a drawn version id is new or a null version's. -/
theorem drawVersionId_kind (ids : NewIds w c)
    (named : bucketFromPath c.ctx.path = some bucket) (drawn : c.drawn = [c.draws.uuid]) :
    drawVersionId c.draws w.store bucket = "null" ∨ drawVersionId c.draws w.store bucket ∈ c.drawn := by
  rcases drawVersionId_cases ids named drawn with ⟨null, _⟩ | ⟨_, member⟩
  · exact .inl null
  · exact .inr (versionIds_drawn member)

theorem handlePutObject_advances (inv : VersionInvariant cfg w) (ids : NewIds w c)
    (put : c.action = .putObject) (spares : SparesVersions cfg w c) :
    CallAdvances cfg w (handlePutObject cfg c.draws w c.ctx).2 c := by
  have drawn : c.drawn = [c.draws.uuid] := by simp [Call.drawn, put]
  unfold handlePutObject
  cases named : bucketFromPath c.ctx.path with
  | none => exact CallAdvances.unchanged inv ids
  | some bucket =>
    simp only
    split
    · next known =>
      obtain ⟨versionId, version⟩ : ∃ id, drawVersionId c.draws w.store bucket = id := ⟨_, rfl⟩
      obtain ⟨plain, _⟩ := drawVersionId_plain (ids.uuid c.draws.uuid (by simp [drawn])) w.store bucket
      have kind := drawVersionId_kind ids named drawn
      have cases_ := drawVersionId_cases ids named drawn
      rw [version] at plain kind cases_ ⊢
      obtain ⟨tmp, kept, stored⟩ := receiveBody_effects cfg inv.tmp c.ctx
        ⟨bucket, keyFromPath c.ctx.path, versionId⟩ plain "Failed to store object"
      have spared := spared_of_objectPath inv ids bucket (keyFromPath c.ctx.path) kind
      split
      · next e files out =>
        rw [out] at tmp kept
        exact Advances.of_objects inv rfl ids.absent (fun _ known => known) inv.parts tmp kept spared
      · next etag size data files out =>
        rw [out] at tmp kept stored
        obtain ⟨works, _, _, place, reads⟩ := stored etag size data rfl
        refine Advances.put inv w.store rfl rfl ids.absent inv.parts tmp kept spared _ _ _ ?_ place reads
        rcases cases_ with ⟨null, disabled⟩ | ⟨other, member⟩
        · unfold SparesVersions at spares
          rw [put] at spares
          exact .inl ⟨null, spares bucket named disabled known works⟩
        · exact .inr ⟨other, member⟩
    · exact CallAdvances.unchanged inv ids

theorem handleCopyObject_advances (inv : VersionInvariant cfg w) (ids : NewIds w c)
    (copy : c.action = .copyObject) (spares : SparesVersions cfg w c) :
    CallAdvances cfg w (handleCopyObject cfg c.draws w c.ctx).2 c := by
  have drawn : c.drawn = [c.draws.uuid] := by simp [Call.drawn, copy]
  unfold SparesVersions at spares
  rw [copy] at spares
  unfold handleCopyObject
  cases named : bucketFromPath c.ctx.path with
  | none => exact CallAdvances.unchanged inv ids
  | some bucket =>
    simp only
    cases source : copySource c.ctx with
    | none => exact CallAdvances.unchanged inv ids
    | some src =>
      simp only
      split
      · cases found : w.store.getObject src.1 src.2 with
        | none => exact CallAdvances.unchanged inv ids
        | some v =>
          obtain ⟨versionId, version⟩ : ∃ id, drawVersionId c.draws w.store bucket = id := ⟨_, rfl⟩
          obtain ⟨plain, _⟩ :=
            drawVersionId_plain (ids.uuid c.draws.uuid (by simp [drawn])) w.store bucket
          have kind := drawVersionId_kind ids named drawn
          have cases_ := drawVersionId_cases ids named drawn
          rw [version] at plain kind cases_
          simp only [version]
          obtain ⟨tmp, kept, stored⟩ := copyData_effects cfg inv.tmp src v
            ⟨bucket, keyFromPath c.ctx.path, versionId⟩ plain
          have spared : ∀ b k, ∀ u ∈ w.store.versions b k, u.versionId ≠ "null" →
              ∀ p, p = objectPath cfg ⟨b, k, u.versionId⟩ → u.data = .fileRef p →
              ¬ (p = objectPath cfg ⟨bucket, keyFromPath c.ctx.path, versionId⟩ ∨
                v.data.path?.isSome ∧ cfg.inlineObjectThreshold < v.size ∧
                  Overwritten cfg w.files ⟨src.1, src.2, v.versionId⟩
                    ⟨bucket, keyFromPath c.ctx.path, versionId⟩ p) := by
            rintro b k u member other p place data (gone | ⟨file, large, written⟩)
            · exact spared_of_objectPath inv ids _ _ kind b k u member other p place data gone
            · rcases cases_ with ⟨rfl, disabled⟩ | ⟨_, drawnId⟩
              · exact (spares bucket src v named disabled source found).2 file large b k u member
                  other p data written
              · have free := ids.files versionId (versionIds_drawn drawnId)
                  (objectPath cfg ⟨bucket, keyFromPath c.ctx.path, versionId⟩)
                  (getLast?_objectPath _ _)
                exact written.2.1 free
          split
          · next files out =>
            rw [out] at tmp kept
            exact Advances.of_objects inv rfl ids.absent (fun _ known => known) inv.parts tmp kept
              spared
          · next data files out =>
            rw [out] at tmp kept stored
            obtain ⟨place, reads⟩ := stored data rfl
            refine Advances.put inv w.store rfl rfl ids.absent inv.parts tmp kept spared _ _ _ ?_ place reads
            rcases cases_ with ⟨null, disabled⟩ | ⟨other, member⟩
            · exact .inl ⟨null, (spares bucket src v named disabled source found).1⟩
            · exact .inr ⟨other, member⟩
      · exact CallAdvances.unchanged inv ids

theorem handleCompleteMultipartUpload_advances (inv : VersionInvariant cfg w)
    (ids : NewIds w c) (complete : c.action = .completeMultipartUpload) (spares : SparesVersions cfg w c) :
    CallAdvances cfg w (handleCompleteMultipartUpload cfg c.draws w c.ctx).2 c := by
  have drawn : c.drawn = [c.draws.uuid] := by simp [Call.drawn, complete]
  unfold SparesVersions at spares
  rw [complete] at spares
  unfold handleCompleteMultipartUpload
  cases named : bucketFromPath c.ctx.path with
  | none => exact CallAdvances.unchanged inv ids
  | some bucket =>
    simp only
    cases requested : c.ctx.queryParams["uploadId"]? with
    | none => exact CallAdvances.unchanged inv ids
    | some uploadId =>
      simp only
      cases found : requestedUpload w.store c.ctx bucket uploadId with
      | none => exact CallAdvances.unchanged inv ids
      | some u =>
        obtain ⟨upload, isTarget⟩ := Option.filter_eq_some_iff.mp found
        have place : u.bucket = bucket ∧ u.key = keyFromPath c.ctx.path := by simpa using isTarget
        obtain ⟨versionId, version⟩ : ∃ id, drawVersionId c.draws w.store bucket = id := ⟨_, rfl⟩
        obtain ⟨plain, notPart⟩ :=
          drawVersionId_plain (ids.uuid c.draws.uuid (by simp [drawn])) w.store bucket
        have kind := drawVersionId_kind ids named drawn
        have cases_ := drawVersionId_cases ids named drawn
        rw [version] at plain notPart kind cases_
        simp only [version]
        have partLast : ∀ part ∈ selectParts u (requestedParts c.ctx), ∀ p, part.data = .fileRef p →
            ∃ n : Nat, p.getLast? = some ("part-" ++ toString n) := by
          intro part member p data
          obtain ⟨n, stored⟩ := mem_selectParts member
          exact inv.parts uploadId u upload _ stored p data
        have apart := inv.parts.apart upload cfg ⟨bucket, keyFromPath c.ctx.path, versionId⟩ notPart
          (requestedParts c.ctx)
        obtain ⟨tmp, kept, _, stored⟩ := assembleParts_effects cfg inv.tmp (requestedParts c.ctx)
          (selectParts u (requestedParts c.ctx)) ⟨bucket, keyFromPath c.ctx.path, versionId⟩ plain apart
        have spared : ∀ b k, ∀ v ∈ w.store.versions b k, v.versionId ≠ "null" →
            ∀ p, p = objectPath cfg ⟨b, k, v.versionId⟩ → v.data = .fileRef p →
            ¬ (p = objectPath cfg ⟨bucket, keyFromPath c.ctx.path, versionId⟩ ∨
              ∃ part ∈ selectParts u (requestedParts c.ctx), part.data = .fileRef p) := by
          refine spared_of_last inv ids _ ?_
          rintro p (rfl | ⟨part, member, data⟩)
          · exact ⟨versionId, getLast?_objectPath _ _, kind.imp_right .inr⟩
          · obtain ⟨n, last⟩ := partLast part member p data
            exact ⟨_, last, .inr (.inl ⟨n, rfl⟩)⟩
        split
        · next e files out =>
          rw [out] at tmp kept
          exact Advances.of_objects inv rfl ids.absent (fun _ known => known) inv.parts tmp kept spared
        · next etag size data files out =>
          rw [out] at tmp kept stored
          obtain ⟨works, _, placed, read⟩ := stored etag size data rfl
          simp only [S3Store.completeMultipartUploadWithVersion, upload, place.1, place.2]
          have readable : files.readData data ≠ none := by simp [read]
          refine Advances.put inv
            { w.store with multipartUploads := w.store.multipartUploads.erase uploadId } rfl rfl
            ids.absent (inv.parts.erase uploadId) tmp kept spared _ _ _ ?_ placed readable
          rcases cases_ with ⟨null, disabled⟩ | ⟨other, member⟩
          · exact .inl ⟨null, spares bucket uploadId u named disabled requested found works⟩
          · exact .inr ⟨other, member⟩

theorem handleCreateBucket_advances (inv : VersionInvariant cfg w) (ids : NewIds w c) :
    CallAdvances cfg w (handleCreateBucket c.draws w c.ctx).2 c := by
  unfold handleCreateBucket
  cases bucketFromPath c.ctx.path with
  | none => exact CallAdvances.unchanged inv ids
  | some bucket =>
    simp only
    split
    · exact CallAdvances.unchanged inv ids
    · have same : ∀ b k, (w.store.createBucket c.draws.now bucket c.ctx.region).versions b k =
          w.store.versions b k := S3Store.versions_createBucket c.draws.now w.store bucket _
      refine ⟨inv.tmp, ?_, inv.parts, ?_, fun _ _ _ _ _ _ _ read => read, ?_, ?_⟩
      · intro b known
        simp only [S3Store.bucketExists, S3Store.createBucket] at known ⊢
        simp [known]
      · intro b k versionId v _ _ found
        rwa [S3Store.getObjectVersion_eq, same, ← S3Store.getObjectVersion_eq]
      · intro b k v member
        rw [same] at member
        exact .inl member
      · intro b k b' k' v v' member _ _ drawn
        rw [same] at member
        exact absurd rfl (ids.absent _ drawn b k v member)

theorem handlePutBucketVersioning_advances (inv : VersionInvariant cfg w)
    (ids : NewIds w c) : CallAdvances cfg w (handlePutBucketVersioning w c.ctx).2 c := by
  unfold handlePutBucketVersioning
  cases bucketFromPath c.ctx.path with
  | none => exact CallAdvances.unchanged inv ids
  | some bucket =>
    simp only
    split
    · refine CallAdvances.of_store inv ids rfl ?_ inv.parts
      intro b known
      simp only [S3Store.bucketExists] at known ⊢
      simp [known]
    · exact CallAdvances.unchanged inv ids

theorem handleCreateMultipartUpload_advances (inv : VersionInvariant cfg w)
    (ids : NewIds w c) : CallAdvances cfg w (handleCreateMultipartUpload c.draws w c.ctx).2 c := by
  unfold handleCreateMultipartUpload
  cases bucketFromPath c.ctx.path with
  | none => exact CallAdvances.unchanged inv ids
  | some bucket =>
    simp only
    split
    · refine CallAdvances.of_store inv ids rfl (fun _ known => known) ?_
      intro uploadId u found
      simp only [S3Store.createMultipartUpload, StrMap.getElem?_insert] at found
      split at found
      · cases found
        simp
      · exact inv.parts uploadId u found
    · exact CallAdvances.unchanged inv ids

theorem handleAbortMultipartUpload_advances (inv : VersionInvariant cfg w)
    (ids : NewIds w c) : CallAdvances cfg w (handleAbortMultipartUpload w c.ctx).2 c := by
  unfold handleAbortMultipartUpload
  split
  · exact CallAdvances.unchanged inv ids
  · split
    · exact CallAdvances.of_store inv ids rfl (fun _ known => known) (inv.parts.erase _)
    · exact CallAdvances.unchanged inv ids

theorem handleUploadPart_advances (inv : VersionInvariant cfg w) (ids : NewIds w c) :
    CallAdvances cfg w (handleUploadPart cfg c.draws w c.ctx).2 c := by
  unfold handleUploadPart
  cases bucketFromPath c.ctx.path with
  | none => exact CallAdvances.unchanged inv ids
  | some bucket =>
    simp only
    cases c.ctx.queryParams["uploadId"]? with
    | none => exact CallAdvances.unchanged inv ids
    | some uploadId =>
      simp only
      cases c.ctx.queryParams["partNumber"]?.bind (RustFmt.parseUnsigned 32) with
      | none => exact CallAdvances.unchanged inv ids
      | some partNumber =>
        simp only
        cases found : requestedUpload w.store c.ctx bucket uploadId with
        | none => exact CallAdvances.unchanged inv ids
        | some u =>
          obtain ⟨upload, _⟩ := Option.filter_eq_some_iff.mp found
          obtain ⟨tmp, kept, stored⟩ := receiveBody_effects cfg inv.tmp c.ctx
            (partLocation u.bucket u.key uploadId partNumber) (plain_part partNumber)
            "Failed to store part"
          have last : (objectPath cfg (partLocation u.bucket u.key uploadId partNumber)).getLast? =
              some ("part-" ++ toString partNumber) := getLast?_objectPath _ _
          have spared := spared_of_last inv ids
            (· = objectPath cfg (partLocation u.bucket u.key uploadId partNumber)) (by
              rintro p rfl
              exact ⟨_, last, .inr (.inl ⟨partNumber, rfl⟩)⟩)
          simp only
          split
          · next e files out =>
            rw [out] at tmp kept
            exact Advances.of_objects inv rfl ids.absent (fun _ known => known) inv.parts tmp kept
              spared
          · next etag size data files out =>
            rw [out] at tmp kept stored
            obtain ⟨_, _, _, place, _⟩ := stored etag size data rfl
            simp only [S3Store.uploadPartWithEtag, upload]
            refine Advances.of_objects inv rfl ids.absent (fun _ known => known) ?_ tmp kept spared
            intro id u' found' part member p file
            simp only [StrMap.getElem?_insert] at found'
            split at found'
            · cases found'
              rcases List.mem_cons.mp member with rfl | older
              · rcases place with ⟨bytes, rfl⟩ | rfl
                · cases file
                · cases file
                  exact ⟨partNumber, last⟩
              · exact inv.parts uploadId u upload part (List.mem_filter.mp older).1 p file
            · exact inv.parts id u' found' part member p file

theorem Advances.imp {names names' : String → String → String → Prop} (step : Advances cfg w w' names drawn)
    (more : ∀ b k versionId, names b k versionId → names' b k versionId) :
    Advances cfg w w' names' drawn where
  tmp := step.tmp
  buckets := step.buckets
  parts := step.parts
  kept := fun b k versionId v other unnamed =>
    step.kept b k versionId v other fun named => unnamed (more b k versionId named)
  files := fun b k v member other unnamed =>
    step.files b k v member other fun named => unnamed (more b k v.versionId named)
  new := step.new
  once := step.once

theorem handleDeleteObjects_advances (inv : VersionInvariant cfg w) (ids : NewIds w c)
    (delete : c.action = .deleteObjects) (spares : SparesVersions cfg w c) :
    CallAdvances cfg w (handleDeleteObjects c.draws.now c.markerIds w c.ctx).2 c := by
  have drawn : c.drawn = (List.range (requestedDeletes c.ctx).length).map c.markerIds := by
    simp [Call.drawn, delete]
  unfold SparesVersions at spares
  rw [delete] at spares
  unfold handleDeleteObjects
  cases named : bucketFromPath c.ctx.path with
  | none => exact CallAdvances.unchanged inv ids
  | some bucket =>
    simp only
    split
    · have used : c.versionIds w = if w.store.versioningEnabled bucket then
          (List.range (requestedDeletes c.ctx).length).map c.markerIds else [] := by
        simp [Call.versionIds, named, drawn]
      have unused : UnusedMarkers w c.markerIds (requestedDeletes c.ctx).length := by
        intro j inside
        refine ids.store _ ?_
        rw [drawn]
        exact List.mem_map_of_mem (List.mem_range.mpr inside)
      have step := Advances.delete inv (fun disabled key => spares bucket key named disabled) unused
        (drawn ▸ ids.nodup) c.draws.now
      rw [CallAdvances, used]
      refine step.imp ?_
      intro b k versionId listed
      simp only [Call.Names, delete]
      exact ⟨listed.1 ▸ named, listed.2⟩
    · exact CallAdvances.unchanged inv ids

/-- DeleteObject deletes a list of one object. -/
theorem handleDeleteObject_world
    (named : bucketFromPath c.ctx.path = some bucket) (known : w.store.bucketExists bucket = true) :
    (handleDeleteObject c.draws w c.ctx).2 =
      deleteWorld w c.draws.now (fun _ => c.draws.uuid) bucket
        [(keyFromPath c.ctx.path, c.ctx.queryParams["versionId"]?)] := by
  have remove : ∀ data : ObjectDataRef, w.files.removeData data =
      data.path?.toList.foldl removeFile w.files := by
    intro data
    cases data <;> rfl
  simp only [handleDeleteObject, named, known, if_true, deleteWorld, deleteAllListed, deleteListed,
    List.append_nil]
  cases c.ctx.queryParams["versionId"]? with
  | some vid =>
    simp only
    obtain ⟨⟨removed, store⟩, out⟩ : ∃ pair,
        w.store.deleteObjectVersion bucket (keyFromPath c.ctx.path) vid = pair := ⟨_, rfl⟩
    rw [out]
    cases removed with
    | none => rfl
    | some v => simp [remove]
  | none =>
    simp only
    obtain ⟨⟨removed, store⟩, out⟩ : ∃ pair,
        w.store.deleteObject c.draws.now c.draws.uuid bucket (keyFromPath c.ctx.path) = pair :=
      ⟨_, rfl⟩
    rw [out]
    cases removed with
    | none => rfl
    | some v =>
      cases marker : v.deleteMarker with
      | true => simp [marker]
      | false => simp [marker, remove]

theorem handleDeleteObject_advances (inv : VersionInvariant cfg w) (ids : NewIds w c)
    (delete : c.action = .deleteObject) (spares : SparesVersions cfg w c) :
    CallAdvances cfg w (handleDeleteObject c.draws w c.ctx).2 c := by
  have drawn : c.drawn = [c.draws.uuid] := by simp [Call.drawn, delete]
  unfold SparesVersions at spares
  rw [delete] at spares
  cases named : bucketFromPath c.ctx.path with
  | none =>
    simp only [handleDeleteObject, named]
    exact CallAdvances.unchanged inv ids
  | some bucket =>
    cases known : w.store.bucketExists bucket with
    | false =>
      simp only [handleDeleteObject, named, known, Bool.false_eq_true, if_false]
      exact CallAdvances.unchanged inv ids
    | true =>
      rw [handleDeleteObject_world named known]
      have used : c.versionIds w = if w.store.versioningEnabled bucket then
          (List.range 1).map (fun _ => c.draws.uuid) else [] := by
        simp [Call.versionIds, named, drawn]
      have spared : SparedDeletes w bucket
          [(keyFromPath c.ctx.path, c.ctx.queryParams["versionId"]?)] := by
        intro disabled key listed v member
        obtain ⟨rfl, plain⟩ := Prod.mk.inj (List.mem_singleton.mp listed)
        exact .inl (spares bucket named disabled plain.symm v member)
      have unused : UnusedMarkers w (fun _ => c.draws.uuid) 1 :=
        fun _ _ => ids.store c.draws.uuid (by simp [drawn])
      have step := Advances.delete inv spared unused (by simp) c.draws.now
      rw [CallAdvances, used]
      refine step.imp ?_
      rintro b k versionId ⟨rfl, listed⟩
      obtain ⟨rfl, version⟩ := Prod.mk.inj (List.mem_singleton.mp listed)
      simp only [Call.Names, delete]
      exact ⟨target_of_bucket named, version.symm⟩

/-! ## Runs -/

/-- One call. -/
theorem serve_advances (inv : VersionInvariant cfg w) (ids : NewIds w c)
    (spares : SparesVersions cfg w c) : CallAdvances cfg w (w.serve cfg c) c := by
  unfold World.serve
  cases action : c.action with
  | createBucket => exact handleCreateBucket_advances inv ids
  | putBucketVersioning => exact handlePutBucketVersioning_advances inv ids
  | putObject => exact handlePutObject_advances inv ids action spares
  | getObject => exact CallAdvances.unchanged inv ids
  | deleteObject => exact handleDeleteObject_advances inv ids action spares
  | deleteObjects => exact handleDeleteObjects_advances inv ids action spares
  | copyObject => exact handleCopyObject_advances inv ids action spares
  | createMultipartUpload => exact handleCreateMultipartUpload_advances inv ids
  | uploadPart => exact handleUploadPart_advances inv ids
  | completeMultipartUpload => exact handleCompleteMultipartUpload_advances inv ids action spares
  | abortMultipartUpload => exact handleAbortMultipartUpload_advances inv ids

theorem Advances.retains (step : CallAdvances cfg w (w.serve cfg c) c) :
    Retains cfg w c where
  kept := fun _ _ _ _ _ here named other unnamed read => step.getBody here named other unnamed read
  stored := by
    intro bucket key versionId v other missing found
    rw [S3Store.getObjectVersion_eq] at missing found
    have id : v.versionId = versionId := by simpa using List.find?_some found
    rcases step.new bucket key v (List.mem_of_find?_eq_some found) with old | new
    · exact absurd (List.find?_eq_none.mp missing v old) (by simp [id])
    · exact new.reads (id ▸ other)
  suspended := by
    intro bucket' named disabled bucket key versionId other unnamed
    have noIds : c.versionIds w = [] := by simp [Call.versionIds, named, disabled]
    cases before : w.store.getObjectVersion bucket key versionId with
    | some v => exact step.kept bucket key versionId v other unnamed before
    | none =>
      cases after : (w.serve cfg c).store.getObjectVersion bucket key versionId with
      | none => rfl
      | some v =>
        rw [S3Store.getObjectVersion_eq] at before after
        have id : v.versionId = versionId := by simpa using List.find?_some after
        rcases step.new bucket key v (List.mem_of_find?_eq_some after) with old | new
        · exact absurd (List.find?_eq_none.mp before v old) (by simp [id])
        · rw [noIds] at new
          rcases new.id with null | drawn
          · exact absurd (id ▸ null) other
          · simp at drawn

/-- The versions of all keys. -/
def S3Store.allVersions (store : S3Store) : List ObjectVersion :=
  (StrMap.values store.objects).flatMap fun objects =>
    (StrMap.values objects.map).flatMap (·.versions)

theorem S3Store.mem_allVersions {bucket key : String}
    (member : v ∈ store.versions bucket key) : v ∈ store.allVersions := by
  unfold S3Store.versions at member
  cases found : store.object? bucket key with
  | none => simp [found] at member
  | some obj =>
    rw [found, Option.map_some, Option.getD_some] at member
    obtain ⟨objects, here, stored⟩ := Option.bind_eq_some_iff.mp found
    exact List.mem_flatMap.mpr ⟨objects, StrMap.mem_values.mpr ⟨bucket, here⟩,
      List.mem_flatMap.mpr ⟨obj, StrMap.mem_values.mpr ⟨key, stored⟩, member⟩⟩

/-- The PutBucketVersioning body for a status. -/
def versioningBody (status : String) : Bytes :=
  ("<VersioningConfiguration><Status>" ++ status ++
    "</Status></VersioningConfiguration>").toUTF8.data.toList

def callBk (action : Action) (path : String) (body : Bytes) (uuid : String) : Call :=
  ⟨action, ⟨path, "us-east-1", [], ∅, none, none, some body⟩, ⟨0, uuid⟩, fun _ => ""⟩

def setVersioning (status : String) : Call :=
  callBk .putBucketVersioning "/bk" (versioningBody status) ""

def firstVersion : String := "9b2d3f60-5c1e-4a57-8f0e-2a6d1c9b7e31"

/-- Put `a` with versioning enabled. -/
def enabledPut : List Call :=
  [callBk .createBucket "/bk" [] "", setVersioning "Enabled",
    callBk .putObject "/bk/a" [65, 65] firstVersion]

/-- Then put it again while versioning is suspended. -/
def suspendedPut : List Call :=
  enabledPut ++ [setVersioning "Suspended",
    callBk .putObject "/bk/a" [67, 67] "0d1c8a52-7e94-4b3b-9a67-51f0c2de8b14"]

def getFirst : RequestContext :=
  ⟨"/bk/a", "us-east-1", [], Std.ExtTreeMap.ofList [("versionId", firstVersion)], none, none, none⟩

example : firstVersion.length = 36 := by decide +kernel

end Openstack.S3

import Openstack.S3.Concurrency

/-!
# DeleteBucket against concurrent writers

DeleteBucket looks whether the bucket is empty, removes its metadata and removes its directory,
each under a guard of its own, while writers look for the bucket once and store their version
later. PutObject looks again when it stores; CopyObject and CompleteMultipartUpload do not.
-/
namespace Openstack.S3

open ObjectFileStore Interleaving

variable {bucket : String} {p : Path}

/-! ## What a write stores -/

/-- The write is not refused when it is about to store its version. -/
def Prepared.accepted (next : Prepared) (store : S3Store) : Bool :=
  !next.recheck || store.bucketExists next.loc.bucket

/-- Bucket and key that the version goes to: those of the upload on record, if there is one. -/
def Prepared.target (next : Prepared) (store : S3Store) : Option (String × String) :=
  match next.uploadId with
  | some uploadId => store.multipartUploads[uploadId]?.map fun u => (u.bucket, u.key)
  | none => some (next.loc.bucket, next.loc.key)

/-- The store changes at the target only, and an upload may go. -/
theorem Prepared.stored_effects (next : Prepared) (store : S3Store) :
    (next.stored store).2.buckets = store.buckets ∧
    (∀ (id : String) u, (next.stored store).2.multipartUploads[id]? = some u →
      store.multipartUploads[id]? = some u) ∧
    (next.target store = none → (next.stored store).2 = store) ∧
    ∀ bucket key, next.target store = some (bucket, key) →
      ∀ b k, ∀ v ∈ (next.stored store).2.versions b k,
        v ∈ store.versions b k ∨ (b = bucket ∧ k = key ∧ v = next.version) := by
  have put : ∀ (s : S3Store) (bucket key b k : String),
      ∀ v ∈ (s.putObjectVersion bucket key next.version).2.versions b k,
        v ∈ s.versions b k ∨ (b = bucket ∧ k = key ∧ v = next.version) := by
    intro s bucket key b k v member
    rw [S3Store.versions_putObjectVersion] at member
    split at member
    · next here =>
      obtain ⟨rfl, rfl⟩ := here
      split at member
      · exact .inr ⟨rfl, rfl, List.mem_singleton.mp member⟩
      · rcases List.mem_cons.mp member with rfl | old
        · exact .inr ⟨rfl, rfl, rfl⟩
        · exact .inl old
    · exact .inl member
  unfold Prepared.stored Prepared.target
  cases next.uploadId with
  | none =>
    refine ⟨by simp, by simp, by simp, ?_⟩
    rintro bucket key ⟨⟩ b k v member
    exact put _ _ _ b k v member
  | some uploadId =>
    unfold S3Store.completeMultipartUploadWithVersion
    cases found : store.multipartUploads[uploadId]? with
    | none => simp [found]
    | some u =>
      simp only [found]
      refine ⟨by simp, ?_, by simp, ?_⟩
      · intro id u' kept
        rw [S3Store.putObjectVersion_uploads, StrMap.getElem?_erase] at kept
        split at kept
        · cases kept
        · exact kept
      · rintro bucket key ⟨⟩ b k v member
        exact put { store with multipartUploads := store.multipartUploads.erase uploadId } _ _ b k v
          member

/-! ## Files that a bucket refers to -/

/-- The bucket has the file at `p`: as an object version or as an uploaded part. -/
def Refers (store : S3Store) (bucket : String) (p : Path) : Prop :=
  (∃ key, ∃ v ∈ store.versions bucket key, v.data = .fileRef p) ∨
  ∃ (uploadId : String) (u : MultipartUpload), store.multipartUploads[uploadId]? = some u ∧
    u.bucket = bucket ∧ ∃ part ∈ u.parts, part.2.data = .fileRef p

/-- No object in the bucket, and no file of it. -/
def Vacant (store : S3Store) (bucket : String) : Prop :=
  (∀ key, store.versions bucket key = []) ∧ ∀ p, ¬ Refers store bucket p

theorem vacant_of_isBucketEmpty {store : S3Store} (empty : store.isBucketEmpty bucket = true)
    (noUploads : store.hasIncompleteMultipartUploads bucket = false) : Vacant store bucket := by
  have none : ∀ key, store.versions bucket key = [] := by
    intro key
    unfold S3Store.isBucketEmpty at empty
    unfold S3Store.versions S3Store.object?
    cases found : store.objects[bucket]? with
    | none => rfl
    | some objects =>
      rw [found, Option.map_some, Option.getD_some] at empty
      have emptied : objects.map = ∅ := Std.ExtTreeMap.isEmpty_iff.mp empty
      simp [emptied]
  refine ⟨none, ?_⟩
  rintro p (⟨key, v, member, _⟩ | ⟨uploadId, u, found, here, _⟩)
  · rw [none key] at member
    cases member
  · have listed : u ∈ StrMap.values store.multipartUploads := StrMap.mem_values.mpr ⟨uploadId, found⟩
    have other := List.any_eq_false.mp noUploads u listed
    exact other (by simp [here])

/-! ## What one step can do -/

/-- The bucket whose metadata the next step removes. -/
@[grind] def Stage.deleting : Stage → Option String
  | .deleteBucket bucket => some bucket
  | _ => none

/-- The bucket whose directory the next step removes. -/
@[grind] def Stage.sweeping : Stage → Option String
  | .removeDir bucket => some bucket
  | _ => none

/-- The upload that the request completes, and the bucket it names. -/
@[grind] def Stage.upload? : Stage → Option (String × String)
  | .uploadVersion _ bucket uploadId _ => some (uploadId, bucket)
  | .assemble _ loc uploadId _ => some (uploadId, loc.bucket)
  | .rename _ _ next => next.uploadId.map fun id => (id, next.loc.bucket)
  | .commit _ next => next.uploadId.map fun id => (id, next.loc.bucket)
  | _ => none

/-- What the request is about to store. -/
@[grind] def Stage.prepared : Stage → Option Prepared
  | .rename _ _ next => some next
  | .commit _ next => some next
  | _ => none

/-- The request is no DeleteObject. -/
@[grind] def Stage.NoDelete : Stage → Prop
  | .start c => c.kind ≠ .deleteObject
  | .delete _ _ => False
  | _ => True

section Step

variable {cfg : Config} {stage : Stage} {w : World}

/-- The prepared version goes to `loc`, with its data in memory or in the file there. -/
structure Prepared.Writes (cfg : Config) (loc : ObjectLocation) (uploadId : Option String)
    (next : Prepared) : Prop where
  place : next.loc = loc
  upload : next.uploadId = uploadId
  data : (∃ bytes, next.version.data = .inline bytes) ∨
    next.version.data = .fileRef (objectPath cfg loc)

/-- The next stage of a writer that took in its data: an answer, or a version to store. -/
def Stage.Writes (cfg : Config) (loc : ObjectLocation) (uploadId : Option String) : Stage → Prop
  | .done _ => True
  | .rename _ _ next => next.Writes cfg loc uploadId
  | .commit _ next => next.Writes cfg loc uploadId
  | _ => False

theorem writeTmp_writes {loc : ObjectLocation} {uploadId : Option String} (bytes : Bytes)
    (fails : Bool) (notStored : String) (parts : List Path) {next : Prepared}
    (writes : next.Writes cfg loc uploadId) :
    (writeTmp cfg w loc bytes fails notStored parts next).2.store = w.store ∧
      (writeTmp cfg w loc bytes fails notStored parts next).1.Writes cfg loc uploadId := by
  unfold writeTmp
  cases fails with
  | true => exact ⟨rfl, trivial⟩
  | false => exact ⟨rfl, writes⟩

variable (cfg w) in
theorem receiveStep_writes (c : Job) (loc : ObjectLocation) :
    (receiveStep cfg c loc w).2.store = w.store ∧
      (receiveStep cfg c loc w).1.Writes cfg loc none := by
  unfold receiveStep
  simp only
  split
  · split
    · exact ⟨rfl, trivial⟩
    · exact ⟨rfl, rfl, rfl, .inl ⟨_, rfl⟩⟩
  · exact writeTmp_writes _ _ _ _ ⟨rfl, rfl, .inr rfl⟩

theorem copyObject_path {files files' : ObjectFileStore} {src dst : ObjectLocation} {path : Path}
    (copied : files.copyObject cfg src dst = (some path, files')) : path = objectPath cfg dst := by
  unfold copyObject at copied
  simp only at copied
  repeat' split at copied
  all_goals
    cases copied
    try rfl

variable (cfg w) in
theorem copyStep_writes (c : Job) (loc : ObjectLocation) (src : String × String)
    (v : ObjectVersion) :
    (copyStep cfg c loc src v w).2.store = w.store ∧
      (copyStep cfg c loc src v w).1.Writes cfg loc none := by
  unfold copyStep
  simp only
  split
  · split
    · exact ⟨rfl, rfl, rfl, .inl ⟨_, rfl⟩⟩
    · exact writeTmp_writes _ _ _ _ ⟨rfl, rfl, .inr rfl⟩
  · split
    · split
      · exact ⟨rfl, rfl, rfl, .inl ⟨_, rfl⟩⟩
      · exact ⟨rfl, trivial⟩
    · split
      · next copied => exact ⟨rfl, rfl, rfl, .inr (congrArg _ (copyObject_path copied))⟩
      · exact ⟨rfl, trivial⟩

variable (cfg w) in
theorem assembleStep_writes (c : Job) (loc : ObjectLocation) (uploadId : String)
    (u : MultipartUpload) :
    (assembleStep cfg c loc uploadId u w).2.store = w.store ∧
      (assembleStep cfg c loc uploadId u w).1.Writes cfg loc (some uploadId) := by
  unfold assembleStep
  simp only
  split
  · split
    · exact ⟨rfl, trivial⟩
    · exact ⟨rfl, rfl, rfl, .inl ⟨_, rfl⟩⟩
  · exact writeTmp_writes _ _ _ _ ⟨rfl, rfl, .inr rfl⟩

/-- The first look at the store leads to no deletion of a bucket and to no stored version. -/
theorem startStep_next (c : Job) (other : c.kind ≠ .deleteObject) :
    (∃ answer w', startStep c w = (.done answer, w')) ∨
    (∃ loc, startStep c w = (.receive c loc, w)) ∨
    (∃ bucket src v, startStep c w = (.copyVersion c bucket src v, w)) ∨
    ∃ bucket uploadId u, startStep c w = (.uploadVersion c bucket uploadId u, w) ∧
      requestedUpload w.store c.ctx bucket uploadId = some u := by
  unfold startStep
  cases bucketFromPath c.ctx.path with
  | none => exact .inl ⟨_, _, rfl⟩
  | some bucket =>
    simp only
    cases kind : c.kind with
    | createBucket => exact .inl ⟨_, _, rfl⟩
    | createMultipartUpload => exact .inl ⟨_, _, rfl⟩
    | deleteObject => exact absurd kind other
    | putObject =>
      simp only
      split
      · exact .inr (.inl ⟨_, rfl⟩)
      · exact .inl ⟨_, _, rfl⟩
    | copyObject =>
      simp only
      split
      · exact .inl ⟨_, _, rfl⟩
      split
      · split
        · exact .inl ⟨_, _, rfl⟩
        · exact .inr (.inr (.inl ⟨_, _, _, rfl⟩))
      · exact .inl ⟨_, _, rfl⟩
    | completeMultipartUpload =>
      simp only
      split
      · exact .inl ⟨_, _, rfl⟩
      split
      · exact .inl ⟨_, _, rfl⟩
      · next found => exact .inr (.inr (.inr ⟨_, _, _, rfl, found⟩))

/-- What is behind the next stage: a bucket about to be deleted was found empty, a directory about
to be removed is that of a deleted bucket, and a request completes the upload it has looked up. -/
structure Follows (cfg : Config) (w : World) (stage : Stage) (after : Stage × World) : Prop where
  noDelete : after.1.NoDelete
  deleting : ∀ bucket, after.1.deleting = some bucket → after.2 = w ∧ Vacant w.store bucket
  sweeping : ∀ bucket, after.1.sweeping = some bucket → stage = .deleteBucket bucket
  upload : ∀ id bucket, after.1.upload? = some (id, bucket) → stage.upload? = some (id, bucket) ∨
    after.2 = w ∧ ∃ u, w.store.multipartUploads[id]? = some u ∧ u.bucket = bucket
  placed : ∀ next, after.1.prepared = some next → stage.prepared = some next ∨
    next.Writes cfg next.loc next.uploadId

variable {w' : World}

theorem follows_done (answer : Answer) : Follows cfg w stage (.done answer, w') := by
  constructor <;> simp [Stage.NoDelete, Stage.deleting, Stage.sweeping, Stage.upload?, Stage.prepared]

theorem follows_removeThen (file : Option Path) (answer : Answer) :
    Follows cfg w stage (removeThen file answer, w') := by
  cases file with
  | none => exact follows_done answer
  | some path =>
    constructor <;>
      simp [removeThen, Stage.NoDelete, Stage.deleting, Stage.sweeping, Stage.upload?, Stage.prepared]

theorem follows_writes {loc : ObjectLocation} {uploadId : Option String} {after : Stage × World}
    (writes : after.1.Writes cfg loc uploadId)
    (held : ∀ id, uploadId = some id → stage.upload? = some (id, loc.bucket)) :
    Follows cfg w stage after := by
  obtain ⟨next, w'⟩ := after
  have prepared : ∀ p : Prepared, p.Writes cfg loc uploadId →
      (∀ id bucket, (p.uploadId.map fun id => (id, p.loc.bucket)) = some (id, bucket) →
        stage.upload? = some (id, bucket)) ∧ p.Writes cfg p.loc p.uploadId := by
    rintro p ⟨place, upload, data⟩
    refine ⟨?_, rfl, rfl, place ▸ data⟩
    intro id bucket found
    rw [upload, place] at found
    obtain ⟨id', known, same⟩ := Option.map_eq_some_iff.mp found
    cases same
    exact held _ known
  cases next with
  | done answer => exact follows_done answer
  | rename tmp parts p =>
    obtain ⟨uploads, here⟩ := prepared p writes
    refine ⟨trivial, by simp [Stage.deleting], by simp [Stage.sweeping],
      fun id bucket found => .inl (uploads id bucket found), ?_⟩
    rintro _ ⟨⟩
    exact .inr here
  | commit parts p =>
    obtain ⟨uploads, here⟩ := prepared p writes
    refine ⟨trivial, by simp [Stage.deleting], by simp [Stage.sweeping],
      fun id bucket found => .inl (uploads id bucket found), ?_⟩
    rintro _ ⟨⟩
    exact .inr here
  | start | receive | copyVersion | copy | uploadVersion | assemble | delete | remove | checkEmpty |
    deleteBucket | removeDir => exact absurd writes id

variable (cfg w) in
theorem step_follows (noDelete : stage.NoDelete) : Follows cfg w stage (stage.step cfg w) := by
  cases stage with
  | start c =>
    obtain ⟨answer, w', next⟩ | ⟨loc, next⟩ | ⟨bucket, src, v, next⟩ | ⟨bucket, id, u, next, found⟩ :=
      startStep_next (w := w) c noDelete
    · simp only [Stage.step, next]
      exact follows_done answer
    · simp only [Stage.step, next]
      constructor <;> simp [Stage.NoDelete, Stage.deleting, Stage.sweeping, Stage.upload?, Stage.prepared]
    · simp only [Stage.step, next]
      constructor <;> simp [Stage.NoDelete, Stage.deleting, Stage.sweeping, Stage.upload?, Stage.prepared]
    · simp only [Stage.step, next]
      obtain ⟨stored, same⟩ := Option.filter_eq_some_iff.mp found
      refine ⟨trivial, by simp [Stage.deleting], by simp [Stage.sweeping], ?_, by simp [Stage.prepared]⟩
      rintro _ _ ⟨⟩
      exact .inr ⟨rfl, u, stored, by simpa using (of_decide_eq_true same).1⟩
  | receive c loc => exact follows_writes (receiveStep_writes cfg w c loc).2 (by simp)
  | copyVersion c bucket src v =>
    constructor <;>
      simp [Stage.step, Stage.NoDelete, Stage.deleting, Stage.sweeping, Stage.upload?, Stage.prepared]
  | copy c loc src v => exact follows_writes (copyStep_writes cfg w c loc src v).2 (by simp)
  | uploadVersion c bucket uploadId u =>
    refine ⟨trivial, by simp [Stage.step, Stage.deleting], by simp [Stage.step, Stage.sweeping],
      fun id bucket found => .inl found, by simp [Stage.step, Stage.prepared]⟩
  | assemble c loc uploadId u =>
    obtain ⟨_, writes⟩ := assembleStep_writes cfg w c loc uploadId u
    rw [Stage.step]
    apply follows_writes writes
    rintro _ ⟨⟩
    rfl
  | rename tmp parts next =>
    simp only [Stage.step]
    split
    · exact ⟨trivial, by simp [Stage.deleting], by simp [Stage.sweeping],
        fun id bucket found => .inl found, fun p here => .inl here⟩
    · exact follows_done _
  | commit parts next =>
    cases parts with
    | nil =>
      simp only [Stage.step, commitStep]
      split
      · exact follows_removeThen _ _
      · exact follows_removeThen _ _
    | cons path parts =>
      exact ⟨trivial, by simp [Stage.step, Stage.deleting], by simp [Stage.step, Stage.sweeping],
        fun id bucket found => .inl found, fun p here => .inl here⟩
  | delete c bucket => exact absurd noDelete id
  | remove path answer => exact follows_done _
  | checkEmpty ctx =>
    simp only [Stage.step, checkEmptyStep]
    split
    · exact follows_done _
    split
    · split
      · next bucket _ _ empty =>
        refine ⟨trivial, ?_, by simp [Stage.sweeping], by simp [Stage.upload?], by simp [Stage.prepared]⟩
        rintro _ ⟨⟩
        exact ⟨rfl, vacant_of_isBucketEmpty empty.1 (by simpa using empty.2)⟩
      · exact follows_done _
    · exact follows_done _
  | deleteBucket bucket =>
    refine ⟨trivial, by simp [Stage.step, Stage.deleting], ?_, by simp [Stage.step, Stage.upload?],
      by simp [Stage.step, Stage.prepared]⟩
    rintro _ ⟨⟩
    rfl
  | removeDir bucket => exact follows_done _
  | done answer => exact follows_done _

variable (cfg w) in
/-- The steps that change the store. -/
theorem step_store (noDelete : stage.NoDelete) :
    (stage.step cfg w).2.store = w.store ∨
    (∃ c bucket, stage = .start c ∧ c.kind = .createBucket ∧
      bucketFromPath c.ctx.path = some bucket ∧ w.store.bucketExists bucket = false ∧
      (stage.step cfg w).2.store = w.store.createBucket c.draws.now bucket c.ctx.region) ∨
    (∃ c bucket contentType metadata, stage = .start c ∧ c.kind = .createMultipartUpload ∧
      (stage.step cfg w).2.store = w.store.createMultipartUpload c.draws.now c.draws.uuid bucket
        (keyFromPath c.ctx.path) contentType metadata) ∨
    (∃ next, stage = .commit [] next ∧ next.accepted w.store = true ∧
      (stage.step cfg w).2.store = (next.stored w.store).2) ∨
    ∃ bucket, stage = .deleteBucket bucket ∧
      (stage.step cfg w).2.store = w.store.deleteBucket bucket := by
  cases stage with
  | start c =>
    simp only [Stage.step, startStep]
    cases named : bucketFromPath c.ctx.path with
    | none => exact .inl rfl
    | some bucket =>
      simp only
      cases kind : c.kind with
      | createBucket =>
        simp only [handleCreateBucket, named]
        cases found : w.store.bucketExists bucket with
        | true => exact .inl rfl
        | false => exact .inr (.inl ⟨c, bucket, rfl, kind, named, found, rfl⟩)
      | createMultipartUpload =>
        simp only [handleCreateMultipartUpload, named]
        split
        · exact .inr (.inr (.inl ⟨c, bucket, _, _, rfl, kind, rfl⟩))
        · exact .inl rfl
      | deleteObject => exact absurd kind noDelete
      | putObject =>
        simp only
        split <;> exact .inl rfl
      | copyObject =>
        simp only
        repeat' split
        all_goals exact .inl rfl
      | completeMultipartUpload =>
        simp only
        repeat' split
        all_goals exact .inl rfl
  | receive c loc => exact .inl (receiveStep_writes cfg w c loc).1
  | copy c loc src v => exact .inl (copyStep_writes cfg w c loc src v).1
  | assemble c loc uploadId u =>
    rw [Stage.step]
    exact .inl (assembleStep_writes cfg w c loc uploadId u).1
  | rename tmp parts next =>
    simp only [Stage.step]
    split <;> exact .inl rfl
  | commit parts next =>
    cases parts with
    | nil =>
      simp only [Stage.step, commitStep]
      split
      · exact .inl rfl
      · next accepted =>
        refine .inr (.inr (.inr (.inl ⟨next, rfl, ?_, rfl⟩)))
        unfold Prepared.accepted
        cases again : next.recheck <;> simp_all
    | cons path parts => exact .inl rfl
  | delete c bucket => exact absurd noDelete id
  | checkEmpty ctx =>
    simp only [Stage.step, checkEmptyStep]
    repeat' split
    all_goals exact .inl rfl
  | deleteBucket bucket => exact .inr (.inr (.inr (.inr ⟨bucket, rfl, rfl⟩)))
  | copyVersion | uploadVersion | remove | removeDir | done => exact .inl rfl

end Step

/-! ## Changes of the store -/

theorem versions_deleteBucket (store : S3Store) (bucket b k : String) :
    (store.deleteBucket bucket).versions b k =
      if store.bucketExists bucket ∧ b = bucket then [] else store.versions b k := by
  unfold S3Store.deleteBucket
  by_cases found : store.bucketExists bucket = true
  · simp only [found, if_true, true_and, S3Store.versions, S3Store.object?, StrMap.getElem?_erase]
    by_cases here : bucket = b
    · simp [here]
    · simp [here, Ne.symm here]
  · simp [found]

theorem bucketExists_deleteBucket (store : S3Store) (bucket b : String) :
    (store.deleteBucket bucket).bucketExists b = (store.bucketExists b && b ≠ bucket) := by
  unfold S3Store.deleteBucket
  by_cases found : store.bucketExists bucket = true
  · simp only [found, if_true]
    by_cases here : b = bucket
    · simp [S3Store.bucketExists, here]
    · simp [S3Store.bucketExists, here, Ne.symm here]
  · by_cases here : b = bucket <;> simp [here, found]

theorem deleteBucket_uploads (store : S3Store) (bucket : String) :
    (store.deleteBucket bucket).multipartUploads = store.multipartUploads := by
  unfold S3Store.deleteBucket
  split <;> rfl

theorem bucketExists_createBucket (now : Instant) (store : S3Store) (name region b : String) :
    (store.createBucket now name region).bucketExists b = (store.bucketExists b || b = name) := by
  by_cases here : b = name
  · simp [S3Store.createBucket, S3Store.bucketExists, here]
  · simp [S3Store.createBucket, S3Store.bucketExists, here, Ne.symm here]

/-- A step adds no version but the one it stores and no part of an upload, and takes a bucket away
with its objects. -/
structure StoreEffect (stage : Stage) (old new : S3Store) : Prop where
  versions : ∀ b k, ∀ v ∈ new.versions b k, v ∈ old.versions b k ∨
    ∃ next, stage = .commit [] next ∧ next.accepted old = true ∧
      next.target old = some (b, k) ∧ v = next.version
  uploads : ∀ (id : String) u, new.multipartUploads[id]? = some u →
    old.multipartUploads[id]? = some u ∨
      u.parts = [] ∧ ∃ c, stage = .start c ∧ c.kind = .createMultipartUpload ∧ c.draws.uuid = id
  buckets : ∀ b, new.bucketExists b = false →
    old.bucketExists b = false ∨ ∀ k, new.versions b k = []

theorem storeEffect_refl (stage : Stage) (store : S3Store) : StoreEffect stage store store :=
  ⟨fun _ _ _ member => .inl member, fun _ _ found => .inl found, fun _ missing => .inl missing⟩

theorem step_effect (cfg : Config) (w : World) {stage : Stage} (noDelete : stage.NoDelete) :
    StoreEffect stage w.store (stage.step cfg w).2.store := by
  obtain same | ⟨c, bucket, _, _, _, _, created⟩ | ⟨c, bucket, _, _, here, kind, created⟩ |
    ⟨next, here, accepted, stored⟩ | ⟨bucket, here, deleted⟩ := step_store cfg w noDelete
  · rw [same]
    exact storeEffect_refl _ _
  · rw [created]
    refine ⟨?_, fun _ _ found => .inl found, ?_⟩
    · intro b k v member
      rw [S3Store.versions_createBucket] at member
      exact .inl member
    · intro b missing
      rw [bucketExists_createBucket, Bool.or_eq_false_iff] at missing
      exact .inl missing.1
  · rw [created]
    refine ⟨fun b k v member => .inl member, ?_, fun b missing => .inl missing⟩
    intro id u found
    rw [S3Store.createMultipartUpload, StrMap.getElem?_insert] at found
    split at found
    · next same =>
      cases found
      exact .inr ⟨rfl, c, here, kind, same⟩
    · exact .inl found
  · obtain ⟨buckets, uploads, untouched, added⟩ := next.stored_effects w.store
    rw [stored]
    refine ⟨?_, fun id u found => .inl (uploads id u found), ?_⟩
    · intro b k v member
      cases target : next.target w.store with
      | none =>
        rw [untouched target] at member
        exact .inl member
      | some place =>
        obtain old | ⟨rfl, rfl, rfl⟩ := added place.1 place.2 target b k v member
        · exact .inl old
        · exact .inr ⟨next, here, accepted, target, rfl⟩
    · intro b missing
      rw [bucketExists_congr buckets] at missing
      exact .inl missing
  · rw [deleted]
    refine ⟨?_, ?_, ?_⟩
    · intro b k v member
      rw [versions_deleteBucket] at member
      split at member
      · cases member
      · exact .inl member
    · intro id u found
      rw [deleteBucket_uploads] at found
      exact .inl found
    · intro b missing
      cases found : w.store.bucketExists b with
      | false => exact .inl rfl
      | true =>
        rw [bucketExists_deleteBucket, found, Bool.true_and] at missing
        have same : b = bucket := by simpa using missing
        refine .inr fun k => ?_
        rw [versions_deleteBucket, if_pos ⟨same ▸ found, same⟩]

/-! ## The run -/

section Run

variable {ι : Type} [DecidableEq ι]

/-- The requests, with the files that a removed directory took along and that were not written
again since. -/
structure Watched (ι : Type) where
  sys : Sys ι
  swept : Path → Bool

def Watched.advance (cfg : Config) (s : Watched ι) (i : ι) : Watched ι where
  sys := s.sys.advance cfg i
  swept p :=
    match (s.sys.stage i).sweeping with
    | some bucket => s.swept p || (p.head? = some bucket && (s.sys.shared.files.disk.entry p).isSome)
    | none => s.swept p && ((s.sys.advance cfg i).shared.files.disk.entry p).isNone

/-- No object in a bucket that does not exist. -/
def NoOrphans (store : S3Store) : Prop :=
  ∀ bucket, store.bucketExists bucket = false → ∀ key, store.versions bucket key = []

/-- The files of a bucket are in its directory. -/
def FilesInBucket (store : S3Store) : Prop := ∀ bucket p, Refers store bucket p → p.head? = some bucket

/-- One step of some request is safe: a deleted bucket had no objects, a new one has none, no object
is left without a bucket, and no bucket refers to a file that a removed directory took along. -/
structure DeletesSafely (cfg : Config) (s : Watched ι) (i : ι) : Prop where
  discarded : ∀ bucket, s.sys.stage i = .deleteBucket bucket →
    ∀ key, s.sys.shared.store.versions bucket key = []
  orphans : NoOrphans (s.advance cfg i).sys.shared.store
  created : ∀ c bucket, s.sys.stage i = .start c → c.kind = .createBucket →
    bucketFromPath c.ctx.path = some bucket → s.sys.shared.store.bucketExists bucket = false →
    ∀ key, (s.advance cfg i).sys.shared.store.versions bucket key = []
  files : ∀ bucket p, Refers (s.advance cfg i).sys.shared.store bucket p →
    (s.advance cfg i).swept p = false

/-- A version is stored in a bucket that exists and that no DeleteBucket has found empty and not yet
removed; one with a file, only while the directory is not about to go, and with its file not gone
with it. -/
def StoresUndisturbed (s : Watched ι) (i : ι) : Prop :=
  ∀ next, s.sys.stage i = .commit [] next → next.accepted s.sys.shared.store = true →
    ∀ bucket key, next.target s.sys.shared.store = some (bucket, key) →
      s.sys.shared.store.bucketExists bucket = true ∧
      (∀ j, (s.sys.stage j).deleting ≠ some bucket) ∧
      ∀ p, next.version.data = .fileRef p →
        (∀ j, (s.sys.stage j).sweeping ≠ some bucket) ∧ s.swept p = false

/-- `Uuid::new_v4`: the id of a new upload is not that of an upload some request completes. -/
def NewUploadId (s : Watched ι) (i : ι) : Prop :=
  ∀ c, s.sys.stage i = .start c → c.kind = .createMultipartUpload →
    ∀ j bucket, (s.sys.stage j).upload? ≠ some (c.draws.uuid, bucket)

structure DeletionInvariant (cfg : Config) (s : Watched ι) : Prop where
  orphans : NoOrphans s.sys.shared.store
  inBucket : FilesInBucket s.sys.shared.store
  unswept : ∀ bucket p, Refers s.sys.shared.store bucket p → s.swept p = false
  deleting : ∀ j bucket, (s.sys.stage j).deleting = some bucket → Vacant s.sys.shared.store bucket
  sweeping : ∀ j bucket, (s.sys.stage j).sweeping = some bucket →
    ∀ p, ¬ Refers s.sys.shared.store bucket p
  noDelete : ∀ j, (s.sys.stage j).NoDelete
  upload : ∀ j id bucket, (s.sys.stage j).upload? = some (id, bucket) →
    ∀ u, s.sys.shared.store.multipartUploads[id]? = some u → u.bucket = bucket
  placed : ∀ j p, (s.sys.stage j).prepared = some p → p.Writes cfg p.loc p.uploadId


/-! ## One step -/

section Advance

variable {cfg : Config} {s : Watched ι} {i : ι}

/-- A file that a bucket refers to after the step is one it referred to, or that of the stored
version. -/
theorem refers_advance (inv : DeletionInvariant cfg s) (refers : Refers (s.advance cfg i).sys.shared.store bucket p) :
    Refers s.sys.shared.store bucket p ∨
    ∃ next key, s.sys.stage i = .commit [] next ∧ next.accepted s.sys.shared.store = true ∧
      next.target s.sys.shared.store = some (bucket, key) ∧ next.version.data = .fileRef p := by
  have effect := step_effect cfg s.sys.shared (inv.noDelete i)
  rcases refers with ⟨key, v, member, data⟩ | ⟨id, u, found, here, part, member, data⟩
  · obtain old | ⟨next, stage, accepted, target, rfl⟩ := effect.versions bucket key v member
    · exact .inl (.inl ⟨key, v, old, data⟩)
    · exact .inr ⟨next, key, stage, accepted, target, data⟩
  · obtain old | ⟨empty, _⟩ := effect.uploads id u found
    · exact .inl (.inr ⟨id, u, old, here, part, member, data⟩)
    · rw [empty] at member
      cases member

omit [DecidableEq ι] in
/-- The file of a stored version is in the directory of the bucket it is stored in. -/
theorem target_placed (inv : DeletionInvariant cfg s) {next : Prepared} {bucket key : String}
     (stage : s.sys.stage i = .commit [] next) (target : next.target s.sys.shared.store = some (bucket, key))
    (data : next.version.data = .fileRef p) : p.head? = some bucket := by
  obtain ⟨_, _, kept⟩ := inv.placed i next (by rw [stage]; rfl)
  have path : p = objectPath cfg next.loc := by
    rcases kept with ⟨bytes, inline⟩ | file
    · rw [inline] at data
      cases data
    · rw [file] at data
      cases data
      rfl
  have same : next.loc.bucket = bucket := by
    unfold Prepared.target at target
    cases upload : next.uploadId with
    | none =>
      rw [upload] at target
      cases target
      rfl
    | some id =>
      rw [upload] at target
      obtain ⟨u, found, here⟩ := Option.map_eq_some_iff.mp target
      have held : (s.sys.stage i).upload? = some (id, next.loc.bucket) := by
        rw [stage, Stage.upload?, upload]
        rfl
      have known := inv.upload i id next.loc.bucket held u found
      cases here
      exact known.symm
  rw [path, ← same]
  rfl

theorem vacant_advance (inv : DeletionInvariant cfg s) (undisturbed : StoresUndisturbed s i) {j : ι}
     (deleting : (s.sys.stage j).deleting = some bucket) :
    Vacant (s.advance cfg i).sys.shared.store bucket := by
  have effect := step_effect cfg s.sys.shared (inv.noDelete i)
  have vacant := inv.deleting j bucket deleting
  constructor
  · intro key
    refine List.eq_nil_iff_forall_not_mem.mpr ?_
    intro v member
    obtain old | ⟨next, stage, accepted, target, _⟩ := effect.versions bucket key v member
    · rw [vacant.1 key] at old
      cases old
    · exact (undisturbed next stage accepted bucket key target).2.1 j deleting
  · intro p refers
    obtain old | ⟨next, key, stage, accepted, target, _⟩ := refers_advance inv refers
    · exact vacant.2 p old
    · exact (undisturbed next stage accepted bucket key target).2.1 j deleting

theorem swept_advance (clean : s.swept p = false) (place : p.head? = some bucket)
    (other : (s.sys.stage i).sweeping ≠ some bucket) : (s.advance cfg i).swept p = false := by
  unfold Watched.advance
  cases sweeping : (s.sys.stage i).sweeping with
  | none => simp [clean]
  | some removed =>
    have ne : bucket ≠ removed := by
      rintro rfl
      exact other sweeping
    simp [clean, place, ne]

theorem noOrphans_advance (inv : DeletionInvariant cfg s) (undisturbed : StoresUndisturbed s i) :
    NoOrphans (s.advance cfg i).sys.shared.store := by
  have effect := step_effect cfg s.sys.shared (inv.noDelete i)
  intro bucket missing key
  obtain old | gone := effect.buckets bucket missing
  · refine List.eq_nil_iff_forall_not_mem.mpr ?_
    intro v member
    obtain kept | ⟨next, stage, accepted, target, _⟩ := effect.versions bucket key v member
    · rw [inv.orphans bucket old key] at kept
      cases kept
    · have found := (undisturbed next stage accepted bucket key target).1
      rw [old] at found
      cases found
  · exact gone key

theorem unswept_advance (inv : DeletionInvariant cfg s) (undisturbed : StoresUndisturbed s i)
      (refers : Refers (s.advance cfg i).sys.shared.store bucket p) :
    (s.advance cfg i).swept p = false := by
  obtain old | ⟨next, key, stage, accepted, target, data⟩ := refers_advance inv refers
  · exact swept_advance (inv.unswept bucket p old) (inv.inBucket bucket p old)
      fun sweeping => inv.sweeping i bucket sweeping p old
  · obtain ⟨still, clean⟩ := (undisturbed next stage accepted bucket key target).2.2 p data
    exact swept_advance clean (target_placed inv stage target data) (still i)

/-- No bucket whose directory is about to go refers to a file. -/
theorem unreferred_advance (inv : DeletionInvariant cfg s) (undisturbed : StoresUndisturbed s i)
    {j : ι} (sweeping : (s.sys.stage j).sweeping = some bucket) (p : Path) :
    ¬ Refers (s.advance cfg i).sys.shared.store bucket p := by
  intro refers
  obtain old | ⟨next, key, stage, accepted, target, data⟩ := refers_advance inv refers
  · exact inv.sweeping j bucket sweeping p old
  · exact ((undisturbed next stage accepted bucket key target).2.2 p data).1 j sweeping

theorem upload_advance (inv : DeletionInvariant cfg s) (newId : NewUploadId s i) {j : ι}
    {id bucket : String} (held : (s.sys.stage j).upload? = some (id, bucket)) {u : MultipartUpload}
    (found : (s.advance cfg i).sys.shared.store.multipartUploads[id]? = some u) :
    u.bucket = bucket := by
  obtain old | ⟨_, c, stage, kind, same⟩ :=
    (step_effect cfg s.sys.shared (inv.noDelete i)).uploads id u found
  · exact inv.upload j id bucket held u old
  · subst same
    exact absurd held (newId c stage kind j bucket)

theorem deletionInvariant_advance (inv : DeletionInvariant cfg s) (newId : NewUploadId s i)
    (undisturbed : StoresUndisturbed s i) : DeletionInvariant cfg (s.advance cfg i) := by
  have follows := step_follows cfg s.sys.shared (inv.noDelete i)
  have stages : ∀ {P : ι → Stage → Prop},
      P i ((s.sys.stage i).step cfg s.sys.shared).1 → (∀ j, j ≠ i → P j (s.sys.stage j)) →
      ∀ j, P j ((s.advance cfg i).sys.stage j) := fun moved others =>
    Pool.forall_advance (Stage.step cfg) moved others
  refine ⟨noOrphans_advance inv undisturbed, ?_, fun _ _ refers => unswept_advance inv undisturbed refers,
    ?_, ?_, ?_, ?_, ?_⟩
  · intro bucket p refers
    obtain old | ⟨next, key, stage, _, target, data⟩ := refers_advance inv refers
    · exact inv.inBucket bucket p old
    · exact target_placed inv stage target data
  · refine stages (P := fun _ stage => ∀ bucket, stage.deleting = some bucket →
      Vacant (s.advance cfg i).sys.shared.store bucket) ?_ ?_
    · intro bucket deleting
      obtain ⟨same, vacant⟩ := follows.deleting bucket deleting
      have kept : (s.advance cfg i).sys.shared = s.sys.shared := same
      rw [kept]
      exact vacant
    · intro j _ bucket deleting
      exact vacant_advance inv undisturbed deleting
  · refine stages (P := fun _ stage => ∀ bucket, stage.sweeping = some bucket →
      ∀ p, ¬ Refers (s.advance cfg i).sys.shared.store bucket p) ?_ ?_
    · intro bucket sweeping
      have deleting := follows.sweeping bucket sweeping
      exact (vacant_advance inv undisturbed (j := i) (by rw [deleting]; rfl)).2
    · intro j _ bucket sweeping p
      exact unreferred_advance inv undisturbed sweeping p
  · exact stages (P := fun _ stage => stage.NoDelete) follows.noDelete fun j _ => inv.noDelete j
  · refine stages (P := fun _ stage => ∀ id bucket, stage.upload? = some (id, bucket) →
      ∀ u, (s.advance cfg i).sys.shared.store.multipartUploads[id]? = some u → u.bucket = bucket) ?_ ?_
    · intro id bucket held u found
      obtain before | ⟨same, u', stored, here⟩ := follows.upload id bucket held
      · exact upload_advance inv newId before found
      · have kept : (s.advance cfg i).sys.shared = s.sys.shared := same
        rw [kept, stored] at found
        cases found
        exact here
    · intro j _ id bucket held u found
      exact upload_advance inv newId held found
  · refine stages (P := fun _ stage => ∀ p, stage.prepared = some p → p.Writes cfg p.loc p.uploadId) ?_ ?_
    · intro p prepared
      obtain before | writes := follows.placed p prepared
      · exact inv.placed i p before
      · exact writes
    · exact fun j _ => inv.placed j

theorem deletesSafely_of_invariant (inv : DeletionInvariant cfg s)
    (undisturbed : StoresUndisturbed s i) : DeletesSafely cfg s i := by
  refine ⟨?_, noOrphans_advance inv undisturbed, ?_,
    fun bucket p refers => unswept_advance inv undisturbed refers⟩
  · intro bucket stage
    exact (inv.deleting i bucket (by rw [stage]; rfl)).1
  · intro c bucket stage kind named missing key
    have created : (s.advance cfg i).sys.shared.store =
        s.sys.shared.store.createBucket c.draws.now bucket c.ctx.region := by
      have step : (s.advance cfg i).sys.shared = (startStep c s.sys.shared).2 := by
        simp only [Watched.advance, Sys.advance, Pool.advance_shared, stage, Stage.step]
      rw [step]
      simp [startStep, named, kind, handleCreateBucket, missing]
    rw [created, S3Store.versions_createBucket]
    exact inv.orphans bucket missing key

end Advance

/-- A request that has not begun: DeleteBucket, CreateBucket, PutObject, CopyObject,
CreateMultipartUpload or CompleteMultipartUpload. -/
def Stage.Begins : Stage → Prop
  | .start c => c.kind ≠ .deleteObject
  | .checkEmpty _ => True
  | _ => False

/-- Any number of requests in any order: as long as every write is stored undisturbed, no step of a
run discards an object, leaves one without a bucket or takes a file from a bucket. -/
theorem bucket_deletion_safe (cfg : Config) (s : Sys ι) (order : List ι)
    (begins : ∀ j, (s.stage j).Begins) (orphans : NoOrphans s.shared.store)
    (inBucket : FilesInBucket s.shared.store)
    (newIds : Run.AllSteps (Watched.advance cfg) NewUploadId ⟨s, fun _ => false⟩ order)
    (undisturbed : Run.AllSteps (Watched.advance cfg) StoresUndisturbed ⟨s, fun _ => false⟩ order) :
    Run.AllSteps (Watched.advance cfg) (DeletesSafely cfg) ⟨s, fun _ => false⟩ order := by
  refine Run.allSteps_of_invariant (P := DeletionInvariant cfg) ?_ _ order ?_
    (Run.allSteps_and newIds undisturbed)
  · intro s i inv cond
    exact ⟨deletionInvariant_advance inv cond.1 cond.2, deletesSafely_of_invariant inv cond.2⟩
  · have idle : ∀ j, (s.stage j).NoDelete ∧ (s.stage j).deleting = none ∧
        (s.stage j).sweeping = none ∧ (s.stage j).upload? = none ∧ (s.stage j).prepared = none := by
      intro j
      have first := begins j
      cases stage : s.stage j <;> rw [stage] at first
      case start c => exact ⟨first, rfl, rfl, rfl, rfl⟩
      case checkEmpty => exact ⟨trivial, rfl, rfl, rfl, rfl⟩
      all_goals exact absurd first id
    refine ⟨orphans, inBucket, fun _ _ _ => rfl, ?_, ?_, fun j => (idle j).1, ?_, ?_⟩
    · intro j bucket deleting
      rw [(idle j).2.1] at deleting
      cases deleting
    · intro j bucket sweeping
      rw [(idle j).2.2.1] at sweeping
      cases sweeping
    · intro j id bucket held
      rw [(idle j).2.2.2.1] at held
      cases held
    · intro j p prepared
      rw [(idle j).2.2.2.2] at prepared
      cases prepared

end Run

/-! ## A put and a DeleteBucket -/

/-- The status of the answer, once there is one. -/
def Stage.status? : Stage → Option Nat
  | .done answer => some answer.status
  | _ => none

/-- The version that the next step stores. -/
def Stage.storing : Stage → Option Prepared
  | .commit [] next => some next
  | _ => none

def Stage.kind? : Stage → Option JobKind
  | .start c => some c.kind
  | _ => none

theorem newUploadId_of_kind {ι : Type} {s : Watched ι} {i : ι}
    (other : (s.sys.stage i).kind? ≠ some .createMultipartUpload) : NewUploadId s i := by
  intro c stage kind
  refine absurd ?_ other
  rw [stage, Stage.kind?, kind]

theorem storesUndisturbed_of_storing {ι : Type} {s : Watched ι} {i : ι}
    (quiet : (s.sys.stage i).storing.isSome = false) : StoresUndisturbed s i := by
  intro next stage
  rw [stage] at quiet
  cases quiet

/-- Put `a` into the empty bucket `bk`, and delete the bucket. -/
def putAndDelete : Sys Bool where
  shared := { store := S3Store.createBucket 0 {} "bk" "us-east-1" }
  stage deletes :=
    if deletes then .checkEmpty (request "/bk" [] [])
    else .start ⟨.putObject, request "/bk/a" [] [65, 65], ⟨0, ""⟩⟩

/-- The put first: DeleteBucket finds the bucket not empty. -/
theorem bucket_deletion_safe_put_first :
    Run.AllSteps (Watched.advance tinyThreshold) (DeletesSafely tinyThreshold)
      ⟨putAndDelete, fun _ => false⟩ [false, false, false, false, true] := by
  have none : ∀ b k, putAndDelete.shared.store.versions b k = [] := by
    intro b k
    rw [putAndDelete, S3Store.versions_createBucket]
    simp [S3Store.versions, S3Store.object?]
  refine bucket_deletion_safe tinyThreshold putAndDelete _ ?_ (fun b _ k => none b k) ?_ ?_ ?_
  · intro j
    cases j <;> simp [putAndDelete, Stage.Begins]
  · rintro b p (⟨k, v, member, _⟩ | ⟨id, u, found, _⟩)
    · rw [none b k] at member
      cases member
    · simp [putAndDelete, S3Store.createBucket] at found
  · refine ⟨?_, ?_, ?_, ?_, ?_, trivial⟩ <;> exact newUploadId_of_kind (by decide +kernel)
  · refine ⟨?_, ?_, ?_, ?_, ?_, trivial⟩
    iterate 3 exact storesUndisturbed_of_storing (by decide +kernel)
    · obtain ⟨s, reached⟩ : ∃ s, [false, false, false].foldl (Watched.advance tinyThreshold)
        ⟨putAndDelete, fun _ => false⟩ = s := ⟨_, rfl⟩
      change StoresUndisturbed ([false, false, false].foldl (Watched.advance tinyThreshold)
        ⟨putAndDelete, fun _ => false⟩) false
      have place : ((s.sys.stage false).storing.map fun next => next.target s.sys.shared.store) =
          some (some ("bk", "a")) := by
        rw [← reached]
        decide +kernel
      have found : s.sys.shared.store.bucketExists "bk" = true := by
        rw [← reached]
        decide +kernel
      have idle : ∀ j, (s.sys.stage j).deleting = Option.none ∧
          (s.sys.stage j).sweeping = Option.none := by
        rw [← reached]
        decide +kernel
      have clean : ∀ p, s.swept p = false := by
        rw [← reached]
        exact fun p => rfl
      rw [reached]
      intro next stage _ bucket key target
      rw [stage, Stage.storing, Option.map_some, target] at place
      cases place
      refine ⟨found, ?_, fun p _ => ⟨?_, clean p⟩⟩
      · intro j
        rw [(idle j).1]
        exact (Option.some_ne_none _).symm
      · intro j
        rw [(idle j).2]
        exact (Option.some_ne_none _).symm
    · exact storesUndisturbed_of_storing (by decide +kernel)

/-- A put stored between the check and the removal is answered with 200, and then discarded. -/
theorem delete_discards_acknowledged_put :
    (([false, false, false, true, false].foldl (Watched.advance tinyThreshold)
      ⟨putAndDelete, fun _ => false⟩).sys.stage false).status? = some 200 ∧
    ¬ Run.AllSteps (Watched.advance tinyThreshold) (DeletesSafely tinyThreshold)
      ⟨putAndDelete, fun _ => false⟩ [false, false, false, true, false, true] := by
  refine ⟨by decide +kernel, ?_⟩
  rintro ⟨_, _, _, _, _, last, _⟩
  have gone := last.discarded "bk" rfl "a"
  have length := congrArg List.length gone
  exact absurd length (by decide +kernel)

end Openstack.S3

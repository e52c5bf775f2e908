import Openstack.S3.BucketDeletion
import Openstack.S3.MultipartExactness

/-!
# Files between placing and storing

PutObject, CopyObject, CompleteMultipartUpload and DeleteObject on one key of a bucket without versioning,
step by step. A file is placed at the path of the key before its version is stored, and the file of a
version that was replaced or deleted is removed after that.
-/
namespace Openstack.S3

open ObjectFileStore Interleaving

/-- The tag of an object that was assembled from parts. -/
def multipartTag (cfg : Config) (parts : List Bytes) : String :=
  "\"" ++ hexEncode (cfg.md5 (parts.flatMap cfg.md5)) ++ "-" ++ toString parts.length ++ "\""

/-- Size and entity tag of the version are those of the bytes. -/
structure Belongs (cfg : Config) (v : ObjectVersion) (bytes : Bytes) : Prop where
  size : v.size = bytes.length
  tag : v.etag = formatEtag (cfg.md5 bytes) ∨
    ∃ parts : List Bytes, parts.flatten = bytes ∧ v.etag = multipartTag cfg parts

/-- The version has its bytes, and it belongs to them. -/
def Whole (cfg : Config) (files : ObjectFileStore) (v : ObjectVersion) : Prop :=
  ∃ bytes, files.readData v.data = some bytes ∧ Belongs cfg v bytes

def Consistent (cfg : Config) (w : World) : Prop :=
  ∀ b k, ∀ v ∈ w.store.versions b k, v.deleteMarker = false → Whole cfg w.files v

/-- The request has not begun, or has answered. -/
def Stage.resting : Stage → Bool
  | .start _ | .done _ => true
  | _ => false

/-- A request of one of the four kinds, on the key. -/
structure Job.OnKey (bucket key : String) (c : Job) : Prop where
  kind : c.kind ≠ .createBucket ∧ c.kind ≠ .createMultipartUpload
  bucket : bucketFromPath c.ctx.path = some bucket
  key : keyFromPath c.ctx.path = key

/-- The file that a request has placed and whose version it is still to store. -/
def Stage.placed : Stage → Option Path
  | .commit _ next => next.version.data.path?
  | _ => none

/-- The temporary file that a request is about to place. -/
def Stage.tmp? : Stage → Option Path
  | .rename tmp _ _ => some tmp
  | _ => none

/-- Requests at their stages, and the one that placed a file at the path of the key last. -/
structure Traced (ι : Type) where
  sys : Sys ι
  placer : Option ι

section Condition

variable {ι : Type} (cfg : Config) (bucket key : String)

def Traced.advance [DecidableEq ι] (s : Traced ι) (i : ι) : Traced ι where
  sys := s.sys.advance cfg i
  placer :=
    if (s.sys.stage i).placed = none ∧
      ((s.sys.advance cfg i).stage i).placed = some (nullPath cfg bucket key) then some i else s.placer

variable (s : Traced ι)

/-- Neither an object version nor a request in progress has the file. -/
structure Unused (p : Path) : Prop where
  stored : ∀ b k, ∀ v ∈ s.sys.shared.store.versions b k, v.data ≠ .fileRef p
  placed : ∀ j, (s.sys.stage j).placed ≠ some p
  tmp : ∀ j, (s.sys.stage j).tmp? ≠ some p

/-- The request that placed a file last is still to store its version. -/
def Unsettled : Prop :=
  ∃ j, s.placer = some j ∧ (s.sys.stage j).placed = some (nullPath cfg bucket key)

/-- The version that is copied from the file `p` is still stored, and its file not yet that of another
version; a copy to a file reads that file, and what it overwrites is linked with no file in use. -/
structure CopiesWhole (src : String × String) (v : ObjectVersion) (p : Path) : Prop where
  stored : v ∈ s.sys.shared.store.versions src.1 src.2
  settled : p = nullPath cfg bucket key → ¬ Unsettled cfg bucket key s
  resolved : cfg.inlineObjectThreshold < v.size →
    s.sys.shared.files.resolveExistingObjectPath cfg ⟨src.1, src.2, v.versionId⟩ = some p
  linked : cfg.inlineObjectThreshold < v.size → ∀ q,
    Overwritten cfg s.sys.shared.files ⟨src.1, src.2, v.versionId⟩ ⟨bucket, key, "null"⟩ q →
      q ≠ nullPath cfg bucket key → Unused s q

/-- The parts have the sizes on record, and the request lists their tags. -/
def PartsMatch (files : ObjectFileStore) (ctx : RequestContext) (u : MultipartUpload) : Prop :=
  ∀ part ∈ selectParts u (requestedParts ctx), ∀ bytes, files.readData part.data = some bytes →
    part.size = bytes.length ∧ suppliedDigest (requestedParts ctx) part.partNumber = cfg.md5 bytes

/-- What a step needs: a body for a file is as long as announced; what is copied or assembled is whole; a
file that is removed is unused; a completed upload is still on record; and when a version is stored with
its file, the request that placed a file last, this one or another, is still to store its version. -/
def Undisturbed (i : ι) : Prop :=
  match s.sys.stage i with
  | .receive c _ => keptInline cfg c.ctx = true ∨ (bodyStream c.ctx).fails = true ∨
      (announcedLength c.ctx).getD 0 ≤ (bodyStream c.ctx).bytes.length
  | .copy _ _ src v => ∀ p, v.data = .fileRef p → CopiesWhole cfg bucket key s src v p
  | .assemble c _ _ u => PartsMatch cfg s.sys.shared.files c.ctx u
  | .commit (path :: _) _ => Unused s path
  | .commit [] next => next.target s.sys.shared.store = some (bucket, key) ∧
      (next.version.data.path? ≠ none → Unsettled cfg bucket key s)
  | .remove path _ => Unused s path
  | _ => True

end Condition

/-- Requests on the key that have not begun, over a consistent world in which the file of the key is that
of no other object and no temporary name is taken. -/
structure Begun {ι : Type} (cfg : Config) (bucket key : String) (s : Sys ι) : Prop where
  jobs : ∀ i, ∃ c : Job, s.stage i = .start c ∧ c.OnKey bucket key
  consistent : Consistent cfg s.shared
  unversioned : s.shared.store.versioningEnabled bucket = false
  own : ∀ b k, ∀ v ∈ s.shared.store.versions b k, v.data = .fileRef (nullPath cfg bucket key) →
    b = bucket ∧ k = key
  fresh : TmpFresh s.shared.files

section Files

variable {cfg : Config} {w : World} {old new : ObjectFileStore} {lost : Path → Prop} {v : ObjectVersion}

theorem Whole.keep (whole : Whole cfg old v) (kept : Keeps old new lost)
    (spared : ∀ p, v.data = .fileRef p → ¬ lost p) : Whole cfg new v := by
  obtain ⟨bytes, read, belongs⟩ := whole
  refine ⟨bytes, ?_, belongs⟩
  cases data : v.data with
  | inline held =>
    rw [data] at read
    exact read
  | fileRef p =>
    rw [data] at read
    exact kept p bytes (spared p data) read

variable (cfg) in
/-- The temporary file that a writer creates. -/
theorem create_effects (fresh : TmpFresh old) (loc : ObjectLocation) (bytes : Bytes) :
    let tmp := tmpPath cfg loc old.tmpCounter
    let new : ObjectFileStore := ⟨old.disk.create tmp bytes, old.tmpCounter + 1⟩
    old.disk.entry tmp = none ∧ TmpFresh new ∧ Keeps old new (fun _ => False) ∧
      new.disk.read tmp = some bytes := by
  intro tmp new
  have free : old.disk.entry tmp = none :=
    fresh _ loc.versionId old.tmpCounter le_rfl (getLast?_tmpPath cfg loc _)
  have alone : old.disk.Alone tmp := by
    intro q i taken
    rw [free] at taken
    cases taken
  refine ⟨free, ?_, ?_, Disk.read_create_self _ _ _⟩
  · intro p versionId n behind named
    have drawn : old.tmpCounter + 1 ≤ n := behind
    have ne : p ≠ tmp := by
      rintro rfl
      have counter := tmpName_counter (Option.some.inj (named.symm.trans (getLast?_tmpPath cfg loc _)))
      omega
    have absent := fresh p versionId n (by omega) named
    rwa [Disk.entry_create_of_ne _ _ ne]
  · intro p was _ read
    have ne : p ≠ tmp := by
      rintro rfl
      rw [Disk.read_eq_none_iff.mpr free] at read
      cases read
    rwa [Disk.read_create_of_ne _ _ ne alone]

theorem rename_effects (fresh : TmpFresh old) {tmp : Path} {loc : ObjectLocation}
    (plain : Plain loc.versionId) {disk : Disk Path UInt8}
    (renamed : old.disk.rename tmp (objectPath cfg loc) = some disk) :
    TmpFresh { old with disk } ∧ disk.read (objectPath cfg loc) = old.disk.read tmp ∧
      Keeps old { old with disk } (fun p => p = tmp ∨ p = objectPath cfg loc) := by
  obtain ⟨moved, others, absent⟩ := Disk.rename_reads renamed
  refine ⟨?_, moved, ?_⟩
  · intro p versionId n behind named
    have ne : p ≠ objectPath cfg loc := by
      rintro rfl
      have same := named.symm.trans (getLast?_objectPath cfg loc)
      exact tmpName_ne_plain plain _ _ (Option.some.inj same)
    exact absent p ne (fresh p versionId n behind named)
  · intro p bytes kept read
    rw [not_or] at kept
    exact (others p kept.1 kept.2).trans read

end Files

/-- A copy that fails changes nothing. -/
theorem copyObject_failed {cfg : Config} {files files' : ObjectFileStore} {src dst : ObjectLocation}
    (failed : files.copyObject cfg src dst = (none, files')) : files' = files := by
  unfold copyObject at failed
  dsimp only at failed
  repeat' split at failed
  all_goals
    cases failed
    try rfl

theorem deleteListed_versions (now : Instant) (markerId : String) (store : S3Store) (bucket : String)
    (entry : String × Option String) (b k : String) :
    ∀ v ∈ (deleteListed now markerId store bucket entry).2.versions b k,
      v ∈ store.versions b k ∨ v.deleteMarker = true ∧ v.data = .inline [] := by
  intro v member
  unfold deleteListed at member
  cases given : entry.2 with
  | some vid =>
    simp only [given] at member
    rw [(store.deleteObjectVersion_versions bucket entry.1 vid).2] at member
    split at member
    · next here =>
      rw [here.1, here.2]
      exact .inl (List.mem_of_mem_eraseP member)
    · exact .inl member
  | none =>
    simp only [given] at member
    cases versioned : store.versioningEnabled bucket with
    | false =>
      rw [S3Store.versions_deleteObject versioned] at member
      split at member
      · cases member
      · exact .inl member
    | true =>
      rcases S3Store.deleteObject_marker versioned now markerId entry.1 with
        same | ⟨marker, -, data, isMarker, -, versions⟩
      · rw [same] at member
        exact .inl member
      · rw [versions] at member
        split at member
        · next here =>
          rcases List.mem_cons.mp member with rfl | old
          · exact .inr ⟨isMarker, data⟩
          · rw [here.1, here.2]
            exact .inl old
        · exact .inl member

theorem deleteListed_buckets (now : Instant) (markerId : String) (store : S3Store) (bucket : String)
    (entry : String × Option String) :
    (deleteListed now markerId store bucket entry).2.buckets = store.buckets := by
  unfold deleteListed
  cases entry.2 with
  | some vid => exact (S3Store.deleteObjectVersion_rest store bucket entry.1 vid).1
  | none => exact (S3Store.deleteObject_rest store now markerId bucket entry.1).1

/-- The version that a write stores, instead of those that it replaces. -/
theorem stored_null {next : Prepared} {store : S3Store} (null : next.version.versionId = "null")
    {b k : String} (target : next.target store = some (b, k)) :
    (next.stored store).2.versions b k = [next.version] := by
  unfold Prepared.target at target
  unfold Prepared.stored
  cases upload : next.uploadId with
  | none =>
    rw [upload] at target
    cases target
    simp [S3Store.versions_putObjectVersion, null]
  | some uploadId =>
    rw [upload] at target
    obtain ⟨u, found, place⟩ := Option.map_eq_some_iff.mp target
    cases place
    simp [S3Store.completeMultipartUploadWithVersion, found, S3Store.versions_putObjectVersion,
      null]

/-- A version that goes to the key. -/
structure Prepared.OnKey (bucket key : String) (w : World) (next : Prepared) : Prop where
  place : next.loc = ⟨bucket, key, "null"⟩
  versionId : next.version.versionId = "null"
  object : next.version.deleteMarker = false
  bucket : next.recheck = true → w.store.bucketExists bucket = true

/-- A version that was read to be copied. -/
structure Copied (cfg : Config) (v : ObjectVersion) : Prop where
  object : v.deleteMarker = false
  inline : ∀ bytes, v.data = .inline bytes → Belongs cfg v bytes

/-- What is known of a request at its stage; `last` says that it placed a file at the path last. -/
def Stage.Fits (cfg : Config) (bucket key : String) (w : World) (last : Prop) : Stage → Prop
  | .start c => c.OnKey bucket key
  | .receive _ loc => loc = ⟨bucket, key, "null"⟩ ∧ w.store.bucketExists bucket = true
  | .copyVersion c b _ v => c.OnKey bucket key ∧ b = bucket ∧ Copied cfg v
  | .copy _ loc _ v => loc = ⟨bucket, key, "null"⟩ ∧ Copied cfg v
  | .uploadVersion c b _ _ => c.OnKey bucket key ∧ b = bucket
  | .assemble _ loc _ _ => loc = ⟨bucket, key, "null"⟩
  | .rename tmp _ next => next.OnKey bucket key w ∧
      next.version.data = .fileRef (nullPath cfg bucket key) ∧ tmp ≠ nullPath cfg bucket key ∧
      ∃ bytes, w.files.disk.read tmp = some bytes ∧ Belongs cfg next.version bytes
  | .commit _ next => next.OnKey bucket key w ∧
      ((∃ bytes, next.version.data = .inline bytes ∧ Belongs cfg next.version bytes) ∨
        next.version.data = .fileRef (nullPath cfg bucket key) ∧
          (last → Whole cfg w.files next.version))
  | .delete c b => c.OnKey bucket key ∧ b = bucket
  | .remove _ _ | .done _ => True
  | .checkEmpty _ | .deleteBucket _ | .removeDir _ => False

/-- An object version is whole, unless its file has been replaced and the new version is still to be
stored. -/
structure Tidy {ι : Type} (cfg : Config) (bucket key : String) (s : Traced ι) : Prop where
  fresh : TmpFresh s.sys.shared.files
  unversioned : s.sys.shared.store.versioningEnabled bucket = false
  stored : ∀ b k, ∀ v ∈ s.sys.shared.store.versions b k, v.deleteMarker = false →
    v.data = .fileRef (nullPath cfg bucket key) ∧ Unsettled cfg bucket key s ∨
      Whole cfg s.sys.shared.files v
  own : ∀ b k, ∀ v ∈ s.sys.shared.store.versions b k, v.data = .fileRef (nullPath cfg bucket key) →
    b = bucket ∧ k = key
  fits : ∀ i, (s.sys.stage i).Fits cfg bucket key s.sys.shared (s.placer = some i)
  apart : ∀ i j t, (s.sys.stage i).tmp? = some t → (s.sys.stage j).tmp? = some t → i = j
  unstored : ∀ i t, (s.sys.stage i).tmp? = some t → ∀ b k, ∀ v ∈ s.sys.shared.store.versions b k,
    v.deleteMarker = false → v.data ≠ .fileRef t

section Invariant

variable {ι : Type} [DecidableEq ι] {cfg : Config} {bucket key : String} {s : Traced ι} {i : ι}
  {stage next : Stage} {w w' : World} {lost : Path → Prop} {last last' : Prop}

theorem Stage.Fits.tmp {t : Path} (fits : stage.Fits cfg bucket key w last) (tmp : stage.tmp? = some t) :
    t ≠ nullPath cfg bucket key ∧ w.files.disk.entry t ≠ none := by
  cases stage with
  | rename held parts next =>
    cases tmp
    obtain ⟨-, -, ne, bytes, read, -⟩ := fits
    refine ⟨ne, fun free => ?_⟩
    rw [Disk.read_eq_none_iff.mpr free] at read
    cases read
  | start | receive | copyVersion | copy | uploadVersion | assemble | commit | delete | remove | checkEmpty |
    deleteBucket | removeDir | done => cases tmp

theorem Prepared.OnKey.keep {next : Prepared} (onKey : next.OnKey bucket key w)
    (buckets : w'.store.buckets = w.store.buckets) : next.OnKey bucket key w' :=
  { onKey with bucket := fun again => by rw [bucketExists_congr buckets, onKey.bucket again] }

/-- Another request moves. -/
theorem Stage.Fits.keep (fits : stage.Fits cfg bucket key w last) (kept : Keeps w.files w'.files lost)
    (buckets : w'.store.buckets = w.store.buckets) (tmp : ∀ t, stage.tmp? = some t → ¬ lost t)
    (still : last' → last ∧ (stage.placed = some (nullPath cfg bucket key) →
      ¬ lost (nullPath cfg bucket key))) : stage.Fits cfg bucket key w' last' := by
  cases stage with
  | receive c loc =>
    refine ⟨fits.1, ?_⟩
    rw [bucketExists_congr buckets, fits.2]
  | rename held parts next =>
    obtain ⟨onKey, data, ne, bytes, read, belongs⟩ := fits
    exact ⟨onKey.keep buckets, data, ne, bytes, kept held bytes (tmp held rfl) read, belongs⟩
  | commit parts next =>
    obtain ⟨onKey, inline | ⟨data, whole⟩⟩ := fits
    · exact ⟨onKey.keep buckets, .inl inline⟩
    · refine ⟨onKey.keep buckets, .inr ⟨data, fun mine => ?_⟩⟩
      obtain ⟨was, spared⟩ := still mine
      refine (whole was).keep kept fun p here => ?_
      rw [data] at here
      cases here
      exact spared (by rw [Stage.placed, data]; rfl)
  | start | copyVersion | copy | uploadVersion | assemble | delete | remove | done => exact fits
  | checkEmpty | deleteBucket | removeDir => exact fits

/-- A step of the request `i`, from what is known of it. -/
structure Stepped (cfg : Config) (bucket key : String) (s : Traced ι) (i : ι) (next : Stage) (w : World)
    (lost : Path → Prop) : Prop where
  moved : (s.sys.stage i).step cfg s.sys.shared = (next, w)
  fresh : TmpFresh w.files
  kept : Keeps s.sys.shared.files w.files lost
  buckets : w.store.buckets = s.sys.shared.store.buckets
  fits : next.Fits cfg bucket key w ((s.advance cfg bucket key i).placer = some i)
  spared : ∀ p, lost p → p = nullPath cfg bucket key ∧ (s.advance cfg bucket key i).placer = some i ∧
      next.placed = some p ∨ (s.sys.stage i).tmp? = some p ∨ Unused s p
  created : ∀ t, next.tmp? = some t →
    s.sys.shared.files.disk.entry t = none ∧ w.store = s.sys.shared.store
  versions : ∀ b k, ∀ v ∈ w.store.versions b k, v.deleteMarker = false →
    v ∈ s.sys.shared.store.versions b k ∧ (v.data = .fileRef (nullPath cfg bucket key) →
      Unsettled cfg bucket key s → Unsettled cfg bucket key (s.advance cfg bucket key i)) ∨
    b = bucket ∧ k = key ∧ (∀ p, v.data = .fileRef p → p = nullPath cfg bucket key) ∧
      (v.data = .fileRef (nullPath cfg bucket key) ∧
        Unsettled cfg bucket key (s.advance cfg bucket key i) ∨ Whole cfg w.files v)
  own : ∀ b k, ∀ v ∈ w.store.versions b k, v.data = .fileRef (nullPath cfg bucket key) →
    b = bucket ∧ k = key

theorem advance_shared (moved : (s.sys.stage i).step cfg s.sys.shared = (next, w)) :
    (s.advance cfg bucket key i).sys.shared = w := by
  change ((s.sys.stage i).step cfg s.sys.shared).2 = w
  rw [moved]

theorem advance_stage (moved : (s.sys.stage i).step cfg s.sys.shared = (next, w)) :
    (s.advance cfg bucket key i).sys.stage i = next := by
  change (Pool.advance (Stage.step cfg) s.sys i).stage i = next
  rw [Pool.advance_stage_self, moved]

variable (cfg bucket key s) in
theorem advance_other {j : ι} (other : j ≠ i) :
    (s.advance cfg bucket key i).sys.stage j = s.sys.stage j :=
  Pool.advance_stage_of_ne (Stage.step cfg) s.sys other

theorem placer_advance (moved : (s.sys.stage i).step cfg s.sys.shared = (next, w)) :
    (s.advance cfg bucket key i).placer =
      if (s.sys.stage i).placed = none ∧ next.placed = some (nullPath cfg bucket key) then some i
      else s.placer := by
  have after := @advance_stage ι _ cfg bucket key s i next w moved
  unfold Traced.advance at after ⊢
  dsimp only at after ⊢
  rw [after]

theorem placer_other (moved : (s.sys.stage i).step cfg s.sys.shared = (next, w)) {j : ι} (other : j ≠ i)
    (placer : (s.advance cfg bucket key i).placer = some j) : s.placer = some j := by
  rw [placer_advance moved] at placer
  split at placer
  · exact absurd (Option.some.inj placer).symm other
  · exact placer

/-- A request that has a file in place already does not place another. -/
theorem placer_busy (moved : (s.sys.stage i).step cfg s.sys.shared = (next, w))
    (busy : (s.sys.stage i).placed ≠ none) : (s.advance cfg bucket key i).placer = s.placer := by
  rw [placer_advance moved, if_neg fun places => busy places.1]

/-- A request between placing and storing stays there, or another one comes to be. -/
theorem unsettled_advance (moved : (s.sys.stage i).step cfg s.sys.shared = (next, w))
    (still : (s.sys.stage i).placed ≠ none → next.placed = (s.sys.stage i).placed)
    (unsettled : Unsettled cfg bucket key s) :
    Unsettled cfg bucket key (s.advance cfg bucket key i) := by
  have after := @advance_stage ι _ cfg bucket key s i next w moved
  by_cases places : (s.sys.stage i).placed = none ∧ next.placed = some (nullPath cfg bucket key)
  · exact ⟨i, by rw [placer_advance moved, if_pos places], by rw [after, places.2]⟩
  · obtain ⟨j, last, placed⟩ := unsettled
    refine ⟨j, by rw [placer_advance moved, if_neg places, last], ?_⟩
    by_cases here : j = i
    · subst here
      rw [after, still (by rw [placed]; simp), placed]
    · rw [advance_other cfg bucket key s here, placed]

theorem Tidy.advance (tidy : Tidy cfg bucket key s) (step : Stepped cfg bucket key s i next w lost) :
    Tidy cfg bucket key (s.advance cfg bucket key i) := by
  have shared := @advance_shared ι _ cfg bucket key s i next w step.moved
  have after := @advance_stage ι _ cfg bucket key s i next w step.moved
  have other (j : ι) (ne : j ≠ i) := advance_other cfg bucket key s ne
  have exists_ (j : ι) (t : Path) (tmp : (s.sys.stage j).tmp? = some t) := (tidy.fits j).tmp tmp
  refine ⟨by rw [shared]; exact step.fresh, ?_, ?_, by rw [shared]; exact step.own, fun j => ?_, ?_, ?_⟩
  · rw [shared, versioningEnabled_congr step.buckets, tidy.unversioned]
  · rw [shared]
    intro b k v member object
    rcases step.versions b k v member object with ⟨old, still⟩ | ⟨-, -, -, new⟩
    · rcases tidy.stored b k v old object with ⟨data, unsettled⟩ | whole
      · exact .inl ⟨data, still data unsettled⟩
      · by_cases gone : ∃ p, v.data = .fileRef p ∧ lost p
        · obtain ⟨p, data, gone⟩ := gone
          rcases step.spared p gone with ⟨rfl, placer, placed⟩ | tmp | unused
          · exact .inl ⟨data, i, placer, by rw [after, placed]⟩
          · exact absurd data (tidy.unstored i p tmp b k v old object)
          · exact absurd data (unused.stored b k v old)
        · exact .inr (whole.keep step.kept fun p data lost => gone ⟨p, data, lost⟩)
    · exact new
  · by_cases here : j = i
    · subst here
      rw [after, shared]
      exact step.fits
    · rw [other j here, shared]
      refine (tidy.fits j).keep step.kept step.buckets (fun t tmp gone => ?_) fun mine => ?_
      · rcases step.spared t gone with ⟨same, -⟩ | own | unused
        · exact (exists_ j t tmp).1 same
        · exact here (tidy.apart j i t tmp own)
        · exact unused.tmp j tmp
      · refine ⟨placer_other step.moved here mine, fun placed gone => ?_⟩
        rcases step.spared _ gone with ⟨-, placer, -⟩ | own | unused
        · exact here (Option.some.inj (mine.symm.trans placer))
        · exact (exists_ i _ own).1 rfl
        · exact unused.placed j placed
  · -- a temporary file that is created has a name of its own
    have new (j : ι) (ne : j ≠ i) (t : Path) (mine : next.tmp? = some t)
        (tmp : (s.sys.stage j).tmp? = some t) : False :=
      (exists_ j t tmp).2 (step.created t mine).1
    intro a b t first second
    by_cases ha : a = i
    · subst ha
      by_contra ne
      rw [after] at first
      rw [other b (Ne.symm ne)] at second
      exact new b (Ne.symm ne) t first second
    · rw [other a ha] at first
      by_cases hb : b = i
      · subst hb
        rw [after] at second
        exact (new a ha t second first).elim
      · rw [other b hb] at second
        exact tidy.apart a b t first second
  · rw [shared]
    intro j t tmp b k v member object data
    by_cases here : j = i
    · subst here
      rw [after] at tmp
      obtain ⟨free, store⟩ := step.created t tmp
      rw [store] at member
      rcases tidy.stored b k v member object with ⟨place, -⟩ | ⟨bytes, read, -⟩
      · have same : t = nullPath cfg bucket key := by
          rw [data] at place
          injection place
        exact (step.fits.tmp tmp).1 same
      · rw [data] at read
        change s.sys.shared.files.disk.read t = _ at read
        rw [Disk.read_eq_none_iff.mpr free] at read
        cases read
    · rw [other j here] at tmp
      rcases step.versions b k v member object with ⟨old, -⟩ | ⟨-, -, place, -⟩
      · exact tidy.unstored j t tmp b k v old object data
      · exact (exists_ j t tmp).1 (place t data)

end Invariant

end Openstack.S3

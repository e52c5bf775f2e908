import Openstack.S3.FilePlacement

/-!
# Concurrent writers of one key

Each step of PutObject, CopyObject, CompleteMultipartUpload and DeleteObject (`provider.rs`, lines 506-731
and 945-1006; `object_store.rs`, lines 179-252) keeps the versions whole, but for one whose file has been
replaced by that of a version still to be stored, when nothing disturbs the step.
-/
namespace Openstack.S3

open ObjectFileStore Interleaving

variable {c : Job} {prepared : Prepared} {parts : List Path} {bytes : Bytes} {v : ObjectVersion}
  {loc : ObjectLocation}

/-! ## Requests -/

section Requests

variable {ι : Type} [DecidableEq ι] {cfg : Config} {bucket key : String} {s : Traced ι} {i : ι}
  {next : Stage} {w : World} {lost : Path → Prop}

/-- A step that leaves the store alone. -/
theorem Tidy.files (tidy : Tidy cfg bucket key s)
    (moved : (s.sys.stage i).step cfg s.sys.shared = (next, w))
    (store : w.store = s.sys.shared.store) (fresh : TmpFresh w.files)
    (kept : Keeps s.sys.shared.files w.files lost)
    (fits : next.Fits cfg bucket key w ((s.advance cfg bucket key i).placer = some i))
    (spared : ∀ p, lost p → p = nullPath cfg bucket key ∧ (s.advance cfg bucket key i).placer = some i ∧
      next.placed = some p ∨ (s.sys.stage i).tmp? = some p ∨ Unused s p)
    (created : ∀ t, next.tmp? = some t → s.sys.shared.files.disk.entry t = none)
    (still : (s.sys.stage i).placed ≠ none → next.placed = (s.sys.stage i).placed) :
    Tidy cfg bucket key (s.advance cfg bucket key i) := by
  refine tidy.advance ⟨moved, fresh, kept, by rw [store], fits, spared,
    fun t tmp => ⟨created t tmp, store⟩, ?_, by rw [store]; exact tidy.own⟩
  rw [store]
  exact fun b k v member _ => .inl ⟨member, fun _ => unsettled_advance moved still⟩

/-- A step that changes neither the store nor a file. -/
theorem Tidy.quiet (tidy : Tidy cfg bucket key s)
    (moved : (s.sys.stage i).step cfg s.sys.shared = (next, s.sys.shared))
    (fits : ∀ last, next.Fits cfg bucket key s.sys.shared last) (idle : (s.sys.stage i).placed = none)
    (created : next.tmp? = none) : Tidy cfg bucket key (s.advance cfg bucket key i) := by
  refine tidy.files moved rfl tidy.fresh (Keeps.refl _ fun _ => False) (fits _)
    (fun p gone => gone.elim) ?_ fun placed => absurd idle placed
  intro t tmp
  rw [created] at tmp
  cases tmp

theorem getObject_mem {store : S3Store} {b k : String}
    (found : store.getObject b k = some v) : v ∈ store.versions b k ∧ v.deleteMarker = false := by
  unfold S3Store.getObject at found
  obtain ⟨obj, object, current⟩ := Option.bind_eq_some_iff.mp found
  obtain ⟨head, kept⟩ := Option.filter_eq_some_iff.mp current
  refine ⟨?_, by simpa using kept⟩
  rw [S3Store.versions, object]
  exact List.mem_of_mem_head? head

omit [DecidableEq ι] in
theorem Tidy.copied (tidy : Tidy cfg bucket key s) {src : String × String}
    (found : s.sys.shared.store.getObject src.1 src.2 = some v) : Copied cfg v := by
  obtain ⟨member, object⟩ := getObject_mem found
  refine ⟨object, fun bytes data => ?_⟩
  rcases tidy.stored _ _ v member object with ⟨file, -⟩ | ⟨held, read, belongs⟩
  · rw [data] at file
    cases file
  · rw [data] at read
    cases read
    exact belongs

omit [DecidableEq ι] in
theorem location_null (tidy : Tidy cfg bucket key s) (onKey : c.OnKey bucket key) :
    c.location bucket s.sys.shared.store = ⟨bucket, key, "null"⟩ := by
  rw [Job.location, drawVersionId, tidy.unversioned, onKey.key]
  rfl

theorem tidy_start (tidy : Tidy cfg bucket key s) (here : s.sys.stage i = .start c) :
    Tidy cfg bucket key (s.advance cfg bucket key i) := by
  have onKey : c.OnKey bucket key := by
    have fits := tidy.fits i
    rw [here] at fits
    exact fits
  obtain ⟨next, moved, fits, created⟩ : ∃ next, startStep c s.sys.shared = (next, s.sys.shared) ∧
      (∀ last, next.Fits cfg bucket key s.sys.shared last) ∧ next.tmp? = none := by
    unfold startStep
    rw [onKey.bucket]
    dsimp only
    cases kind : c.kind with
    | createBucket => exact absurd kind onKey.kind.1
    | createMultipartUpload => exact absurd kind onKey.kind.2
    | putObject =>
      by_cases found : s.sys.shared.store.bucketExists bucket = true
      · exact ⟨_, if_pos found, fun _ => ⟨location_null tidy onKey, found⟩, rfl⟩
      · exact ⟨_, if_neg found, fun _ => trivial, rfl⟩
    | deleteObject =>
      by_cases found : s.sys.shared.store.bucketExists bucket = true
      · exact ⟨_, if_pos found, fun _ => ⟨onKey, rfl⟩, rfl⟩
      · exact ⟨_, if_neg found, fun _ => trivial, rfl⟩
    | copyObject =>
      dsimp only
      cases copySource c.ctx with
      | none => exact ⟨_, rfl, fun _ => trivial, rfl⟩
      | some src =>
        dsimp only
        by_cases found : s.sys.shared.store.bucketExists bucket = true
        · rw [if_pos found]
          cases read : s.sys.shared.store.getObject src.1 src.2 with
          | none => exact ⟨_, rfl, fun _ => trivial, rfl⟩
          | some v => exact ⟨_, rfl, fun _ => ⟨onKey, rfl, tidy.copied read⟩, rfl⟩
        · exact ⟨_, if_neg found, fun _ => trivial, rfl⟩
    | completeMultipartUpload =>
      dsimp only
      cases c.ctx.queryParams["uploadId"]? with
      | none => exact ⟨_, rfl, fun _ => trivial, rfl⟩
      | some uploadId =>
        dsimp only
        cases requestedUpload s.sys.shared.store c.ctx bucket uploadId with
        | none => exact ⟨_, rfl, fun _ => trivial, rfl⟩
        | some u => exact ⟨_, rfl, fun _ => ⟨onKey, rfl⟩, rfl⟩
  exact tidy.quiet (by rw [here]; exact moved) fits (by rw [here]; rfl) created

/-- A request that took in its data and keeps it in memory. -/
theorem tidy_inline (tidy : Tidy cfg bucket key s)
    (moved : (s.sys.stage i).step cfg s.sys.shared = (.commit parts prepared, s.sys.shared))
    (idle : (s.sys.stage i).placed = none) (onKey : prepared.OnKey bucket key s.sys.shared)
    (data : prepared.version.data = .inline bytes) (belongs : Belongs cfg prepared.version bytes) :
    Tidy cfg bucket key (s.advance cfg bucket key i) :=
  tidy.quiet moved (fun _ => ⟨onKey, .inl ⟨bytes, data, belongs⟩⟩) idle rfl

theorem tidy_refuse (tidy : Tidy cfg bucket key s) {e : S3Error}
    (moved : (s.sys.stage i).step cfg s.sys.shared = (refuse e, s.sys.shared))
    (idle : (s.sys.stage i).placed = none) : Tidy cfg bucket key (s.advance cfg bucket key i) :=
  tidy.quiet moved (fun _ => trivial) idle rfl

/-- A request that took in its data and wrote it to a temporary file. -/
theorem tidy_writeTmp (tidy : Tidy cfg bucket key s) {fails : Bool} {notStored : String}
    (moved : (s.sys.stage i).step cfg s.sys.shared =
      writeTmp cfg s.sys.shared ⟨bucket, key, "null"⟩ bytes fails notStored parts prepared)
    (idle : (s.sys.stage i).placed = none) (onKey : prepared.OnKey bucket key s.sys.shared)
    (data : prepared.version.data = .fileRef (nullPath cfg bucket key))
    (belongs : fails = false → Belongs cfg prepared.version bytes) :
    Tidy cfg bucket key (s.advance cfg bucket key i) := by
  obtain ⟨free, fresh, kept, read⟩ := create_effects cfg tidy.fresh ⟨bucket, key, "null"⟩ bytes
  cases fails with
  | true =>
    exact tidy.files moved rfl fresh kept trivial (fun p gone => gone.elim)
      (fun t tmp => by cases tmp) fun placed => absurd idle placed
  | false =>
    refine tidy.files moved rfl fresh kept ?_ (fun p gone => gone.elim) (fun t tmp => ?_)
      fun placed => absurd idle placed
    · exact ⟨onKey.keep rfl, data, tmpPath_ne_objectPath cfg _ _, bytes, read, belongs rfl⟩
    · cases tmp
      exact free

theorem preallocated_eq {len : Option Nat} (enough : len.getD 0 ≤ bytes.length) :
    preallocated len bytes = bytes := by
  rw [preallocated, Nat.sub_eq_zero_of_le enough, List.replicate_zero, List.append_nil]

theorem tidy_receive (tidy : Tidy cfg bucket key s) (here : s.sys.stage i = .receive c loc)
    (undisturbed : keptInline cfg c.ctx = true ∨ (bodyStream c.ctx).fails = true ∨
      (announcedLength c.ctx).getD 0 ≤ (bodyStream c.ctx).bytes.length) :
    Tidy cfg bucket key (s.advance cfg bucket key i) := by
  have fits := tidy.fits i
  rw [here] at fits
  obtain ⟨rfl, found⟩ := fits
  have idle : (s.sys.stage i).placed = none := by rw [here]; rfl
  have moved : (s.sys.stage i).step cfg s.sys.shared =
      receiveStep cfg c ⟨bucket, key, "null"⟩ s.sys.shared := by rw [here]; rfl
  by_cases inline : keptInline cfg c.ctx = true
  · have step : receiveStep cfg c ⟨bucket, key, "null"⟩ s.sys.shared = _ := if_pos inline
    by_cases fails : (bodyStream c.ctx).fails = true
    · exact tidy_refuse tidy (moved.trans (step.trans (if_pos fails))) idle
    · exact tidy_inline tidy (moved.trans (step.trans (if_neg fails))) idle
        ⟨rfl, rfl, rfl, fun _ => found⟩ rfl ⟨rfl, .inl rfl⟩
  · have step : receiveStep cfg c ⟨bucket, key, "null"⟩ s.sys.shared = _ := if_neg inline
    refine tidy_writeTmp tidy (moved.trans step) idle ⟨rfl, rfl, rfl, fun _ => found⟩ rfl fun works => ?_
    rw [preallocated_eq]
    · exact ⟨rfl, .inl rfl⟩
    · rcases undisturbed with small | fails | enough
      · exact absurd small inline
      · rw [fails] at works
        cases works
      · exact enough

/-! ### CopyObject -/

/-- A copy of a file that is not linked with the target. -/
theorem copyObject_reads {files files' : ObjectFileStore} {src dst : ObjectLocation} {p path : Path}
     (resolved : files.resolveExistingObjectPath cfg src = some p) (read : files.disk.read p = some bytes)
    (apart : p ≠ objectPath cfg dst → files.disk.entry (objectPath cfg dst) ≠ none →
      files.disk.entry p ≠ files.disk.entry (objectPath cfg dst))
    (copied : files.copyObject cfg src dst = (some path, files')) :
    files'.disk.read (objectPath cfg dst) = some bytes := by
  have present : files.disk.entry p ≠ none := fun missing => by
    rw [Disk.read_eq_none_iff.mpr missing] at read
    cases read
  rw [copyObject, resolved] at copied
  dsimp only at copied
  by_cases same : p = objectPath cfg dst
  · rw [if_pos same] at copied
    cases copied
    rw [← same, read]
  · rw [if_neg same] at copied
    by_cases free : files.disk.entry (objectPath cfg dst) = none
    · rw [Disk.hardLink_eq_some present free] at copied
      cases copied
      exact (Disk.read_link_self _ _ _).trans read
    · rw [Disk.hardLink_eq_none free] at copied
      dsimp only at copied
      cases made : files.disk.copy p (objectPath cfg dst) with
      | none =>
        rw [made] at copied
        cases copied
      | some disk =>
        rw [made] at copied
        cases copied
        exact (Disk.copy_reads (apart same free) made).trans read

theorem tidy_copy (tidy : Tidy cfg bucket key s) {src : String × String} (here : s.sys.stage i = .copy c loc src v)
    (undisturbed : ∀ p, v.data = .fileRef p → CopiesWhole cfg bucket key s src v p) :
    Tidy cfg bucket key (s.advance cfg bucket key i) := by
  have fits := tidy.fits i
  rw [here] at fits
  obtain ⟨rfl, copied⟩ := fits
  have idle : (s.sys.stage i).placed = none := by rw [here]; rfl
  have moved : (s.sys.stage i).step cfg s.sys.shared =
      copyStep cfg c ⟨bucket, key, "null"⟩ src v s.sys.shared := by rw [here]; rfl
  have onKey (data : ObjectDataRef) : (Prepared.mk ⟨bucket, key, "null"⟩
      (c.copyVersion "null" v data) none false).OnKey bucket key s.sys.shared :=
    ⟨rfl, rfl, rfl, fun again => by cases again⟩
  -- size and tag are those of the copied version
  have belongs {bytes : Bytes} (data : ObjectDataRef) (whole : Belongs cfg v bytes) :
      Belongs cfg (c.copyVersion "null" v data) bytes := ⟨whole.size, whole.tag⟩
  unfold copyStep at moved
  cases source : v.data with
  | inline bytes =>
    rw [source] at moved
    dsimp only at moved
    have whole := copied.inline bytes source
    by_cases small : v.size ≤ cfg.inlineObjectThreshold
    · rw [if_pos small] at moved
      exact tidy_inline tidy moved idle (onKey _) rfl (belongs _ whole)
    · rw [if_neg small] at moved
      exact tidy_writeTmp tidy moved idle (onKey _) rfl fun _ => belongs _ whole
  | fileRef p =>
    rw [source] at moved
    dsimp only at moved
    have copies := undisturbed p source
    obtain ⟨bytes, read, whole⟩ : ∃ bytes, s.sys.shared.files.disk.read p = some bytes ∧
        Belongs cfg v bytes := by
      rcases tidy.stored _ _ v copies.stored copied.object with ⟨data, unsettled⟩ | whole
      · have same : p = nullPath cfg bucket key := by
          rw [source] at data
          injection data
        exact absurd unsettled (copies.settled same)
      · rw [Whole, source] at whole
        exact whole
    by_cases small : v.size ≤ cfg.inlineObjectThreshold
    · rw [if_pos small, read] at moved
      exact tidy_inline tidy moved idle (onKey _) rfl (belongs _ whole)
    · rw [if_neg small] at moved
      have large : cfg.inlineObjectThreshold < v.size := Nat.lt_of_not_le small
      obtain ⟨fresh, kept, place⟩ := copyObject_effects cfg tidy.fresh ⟨src.1, src.2, v.versionId⟩
        ⟨bucket, key, "null"⟩ plain_null
      cases out : s.sys.shared.files.copyObject cfg ⟨src.1, src.2, v.versionId⟩ ⟨bucket, key, "null"⟩ with
      | mk result files =>
        rw [out] at moved fresh kept
        cases result with
        | none =>
          have same : files = s.sys.shared.files := copyObject_failed out
          subst same
          exact tidy_refuse tidy moved idle
        | some path =>
          obtain rfl : path = nullPath cfg bucket key := copyObject_path out
          dsimp only at moved
          -- the target is not linked with the source, which is in use
          have apart : p ≠ nullPath cfg bucket key →
              s.sys.shared.files.disk.entry (nullPath cfg bucket key) ≠ none →
              s.sys.shared.files.disk.entry p ≠
                s.sys.shared.files.disk.entry (nullPath cfg bucket key) := by
            intro ne taken linked
            have unused := copies.linked large p ⟨⟨p, copies.resolved large, ne⟩, taken, linked⟩ ne
            exact unused.stored _ _ v copies.stored source
          have written := copyObject_reads (copies.resolved large) read apart out
          have placer : (s.advance cfg bucket key i).placer = some i := by
            rw [placer_advance moved, if_pos ⟨idle, rfl⟩]
          refine tidy.files moved rfl fresh kept ?_ (fun q gone => ?_) (fun t tmp => by cases tmp)
            fun placed => absurd idle placed
          · exact ⟨(onKey _).keep rfl, .inr ⟨rfl, fun _ => ⟨bytes, written, belongs _ whole⟩⟩⟩
          · by_cases same : q = nullPath cfg bucket key
            · exact .inl ⟨same, placer, by rw [same]; rfl⟩
            · exact .inr (.inr (copies.linked large q gone same))

/-! ### CompleteMultipartUpload -/

variable (cfg) in
/-- Parts that can be read, one after the other. -/
theorem multipartRead_parts {files : ObjectFileStore} {supplied : Nat → Bytes} (selected : List UploadPart)
    (matched : ∀ part ∈ selected, ∀ bytes, files.readData part.data = some bytes →
      part.size = bytes.length ∧ supplied part.partNumber = cfg.md5 bytes)
    (works : (multipartRead files (selected.map (·.data))).fails = false) :
    ∃ parts : List Bytes, parts.flatten = (multipartRead files (selected.map (·.data))).bytes ∧
      estimatedSize selected = parts.flatten.length ∧ parts.length = selected.length ∧
        (selected.flatMap fun part => supplied part.partNumber) = parts.flatMap cfg.md5 := by
  induction selected with
  | nil => exact ⟨[], rfl, rfl, rfl, rfl⟩
  | cons part rest ih =>
    rw [List.map_cons, multipartRead] at works ⊢
    cases read : files.readData part.data with
    | none =>
      rw [read] at works
      cases works
    | some bytes =>
      rw [read] at works
      obtain ⟨size, digest⟩ := matched part List.mem_cons_self bytes read
      obtain ⟨parts, flat, sizes, lengths, digests⟩ :=
        ih (fun other member => matched other (List.mem_cons_of_mem _ member)) works
      refine ⟨bytes :: parts, ?_, ?_, ?_, ?_⟩
      · rw [List.flatten_cons, flat]
      · rw [List.flatten_cons, List.length_append, ← sizes, ← size]
        rfl
      · rw [List.length_cons, List.length_cons, lengths]
      · rw [List.flatMap_cons, List.flatMap_cons, digest, digests]

theorem tidy_assemble (tidy : Tidy cfg bucket key s) {uploadId : String}
    {u : MultipartUpload} (here : s.sys.stage i = .assemble c loc uploadId u)
    (undisturbed : PartsMatch cfg s.sys.shared.files c.ctx u) :
    Tidy cfg bucket key (s.advance cfg bucket key i) := by
  have fits := tidy.fits i
  rw [here] at fits
  obtain rfl : loc = ⟨bucket, key, "null"⟩ := fits
  have idle : (s.sys.stage i).placed = none := by rw [here]; rfl
  have moved : (s.sys.stage i).step cfg s.sys.shared =
      assembleStep cfg c ⟨bucket, key, "null"⟩ uploadId u s.sys.shared := by rw [here]; rfl
  have onKey (etag : String) (size : Nat) (data : ObjectDataRef) : (Prepared.mk ⟨bucket, key, "null"⟩
      (c.completeVersion "null" etag size data u) (some uploadId) false).OnKey bucket key s.sys.shared :=
    ⟨rfl, rfl, rfl, fun again => by cases again⟩
  unfold assembleStep at moved
  dsimp only at moved
  have assembled := multipartRead_parts cfg (selectParts u (requestedParts c.ctx)) undisturbed
  generalize selected : selectParts u (requestedParts c.ctx) = chosen at moved assembled
  generalize reader : multipartRead s.sys.shared.files (chosen.map (·.data)) = stream at moved assembled
  have belongs (data : ObjectDataRef) (works : stream.fails = false) : Belongs cfg
      (c.completeVersion "null" ((multipartEtag cfg (requestedParts c.ctx) chosen).getD
        (formatEtag (cfg.md5 stream.bytes))) stream.bytes.length data u) stream.bytes := by
    obtain ⟨parts, flat, -, lengths, digests⟩ := assembled works
    refine ⟨rfl, ?_⟩
    rw [Job.completeVersion, multipartEtag_eq, digests]
    dsimp only
    split
    · exact .inr ⟨parts, flat, by rw [multipartTag, lengths]; rfl⟩
    · exact .inl rfl
  by_cases small : estimatedSize chosen ≤ cfg.inlineObjectThreshold
  · rw [if_pos small] at moved
    by_cases fails : stream.fails = true
    · rw [if_pos fails] at moved
      exact tidy_refuse tidy moved idle
    · rw [if_neg fails] at moved
      exact tidy_inline tidy moved idle (onKey _ _ _) rfl (belongs _ (Bool.not_eq_true _ ▸ fails))
  · rw [if_neg small] at moved
    refine tidy_writeTmp tidy moved idle (onKey _ _ _) rfl fun works => ?_
    obtain ⟨parts, flat, sizes, -⟩ := assembled works
    rw [preallocated_eq (by rw [Option.getD_some, sizes, flat])]
    exact belongs _ works

/-! ### Placing, storing and removing -/

theorem tidy_rename (tidy : Tidy cfg bucket key s) {tmp : Path} (here : s.sys.stage i = .rename tmp parts prepared) :
    Tidy cfg bucket key (s.advance cfg bucket key i) := by
  have fits := tidy.fits i
  rw [here] at fits
  obtain ⟨onKey, data, -, bytes, read, belongs⟩ := fits
  have idle : (s.sys.stage i).placed = none := by rw [here]; rfl
  cases renamed : s.sys.shared.files.disk.rename tmp (objectPath cfg ⟨bucket, key, "null"⟩) with
  | none =>
    refine tidy_refuse tidy (e := internalError "Failed to store object") ?_ idle
    rw [here, Stage.step, onKey.place, renamed]
  | some disk =>
    have moved : (s.sys.stage i).step cfg s.sys.shared = (.commit parts prepared,
        { s.sys.shared with files := { s.sys.shared.files with disk } }) := by
      rw [here, Stage.step, onKey.place, renamed]
    obtain ⟨fresh, written, kept⟩ := rename_effects tidy.fresh plain_null renamed
    have placed : (Stage.commit parts prepared).placed = some (nullPath cfg bucket key) := by
      rw [Stage.placed, data]
      rfl
    have placer : (s.advance cfg bucket key i).placer = some i := by
      rw [placer_advance moved, if_pos ⟨idle, placed⟩]
    refine tidy.files moved rfl fresh kept ?_ (fun p gone => ?_) (fun t made => by cases made)
      fun busy => absurd idle busy
    · refine ⟨onKey.keep rfl, .inr ⟨data, fun _ => ⟨bytes, ?_, belongs⟩⟩⟩
      rw [data]
      exact written.trans read
    · rcases gone with rfl | rfl
      · exact .inr (.inl (by rw [here]; rfl))
      · exact .inl ⟨rfl, placer, placed⟩

theorem tidy_removeFile (tidy : Tidy cfg bucket key s) {path : Path} (unused : Unused s path)
    (moved : (s.sys.stage i).step cfg s.sys.shared =
      (next, { s.sys.shared with files := s.sys.shared.files.removeFile path }))
    (fits : next.Fits cfg bucket key
      { s.sys.shared with files := s.sys.shared.files.removeFile path }
      ((s.advance cfg bucket key i).placer = some i))
    (created : next.tmp? = none)
    (still : (s.sys.stage i).placed ≠ none → next.placed = (s.sys.stage i).placed) :
    Tidy cfg bucket key (s.advance cfg bucket key i) := by
  obtain ⟨fresh, kept⟩ := removeFile_effects tidy.fresh path
  refine tidy.files moved rfl fresh kept fits (fun p gone => ?_) (fun t tmp => ?_) still
  · obtain rfl : p = path := gone
    exact .inr (.inr unused)
  · rw [created] at tmp
    cases tmp

theorem tidy_removePart (tidy : Tidy cfg bucket key s) {path : Path}
     (here : s.sys.stage i = .commit (path :: parts) prepared)
    (unused : Unused s path) : Tidy cfg bucket key (s.advance cfg bucket key i) := by
  have fits := tidy.fits i
  rw [here] at fits
  have moved : (s.sys.stage i).step cfg s.sys.shared = (.commit parts prepared,
      { s.sys.shared with files := s.sys.shared.files.removeFile path }) := by rw [here]; rfl
  have placer : (s.advance cfg bucket key i).placer = some i → s.placer = some i := by
    intro last
    rw [placer_advance moved, here] at last
    split at last
    · next places =>
      have same : (Stage.commit parts prepared).placed = (Stage.commit (path :: parts) prepared).placed := rfl
      rw [same, places.1] at places
      cases places.2
    · exact last
  refine tidy_removeFile tidy unused moved ?_ rfl fun _ => by rw [here]; rfl
  refine @Stage.Fits.keep cfg bucket key (.commit parts prepared) _ _ (· = path) _ _ fits
    (removeFile_effects tidy.fresh path).2 rfl (fun t tmp => by cases tmp) fun last => ⟨placer last, ?_⟩
  rintro placed rfl
  exact unused.placed i (by rw [here]; exact placed)

variable (cfg bucket key w) in
theorem finishWrite_fits (prepared : Prepared) (prev : Option ObjectDataRef) (last : Prop) :
    (finishWrite prepared prev).Fits cfg bucket key w last ∧ (finishWrite prepared prev).tmp? = none ∧
      (finishWrite prepared prev).placed = none := by
  unfold finishWrite
  cases replacedFilePath prepared.version.versionId prev prepared.version.data with
  | none => exact ⟨trivial, rfl, rfl⟩
  | some path => exact ⟨trivial, rfl, rfl⟩

/-- A step that leaves the files alone and stores or removes versions. -/
theorem Tidy.store (tidy : Tidy cfg bucket key s) {store : S3Store}
    (moved : (s.sys.stage i).step cfg s.sys.shared = (next, { s.sys.shared with store }))
    (buckets : store.buckets = s.sys.shared.store.buckets)
    (fits : next.Fits cfg bucket key { s.sys.shared with store } ((s.advance cfg bucket key i).placer = some i))
    (created : next.tmp? = none)
    (versions : ∀ b k, ∀ v ∈ store.versions b k, v.deleteMarker = false →
      v ∈ s.sys.shared.store.versions b k ∧ (v.data = .fileRef (nullPath cfg bucket key) →
        Unsettled cfg bucket key s → Unsettled cfg bucket key (s.advance cfg bucket key i)) ∨
      b = bucket ∧ k = key ∧ (∀ p, v.data = .fileRef p → p = nullPath cfg bucket key) ∧
        (v.data = .fileRef (nullPath cfg bucket key) ∧
          Unsettled cfg bucket key (s.advance cfg bucket key i) ∨ Whole cfg s.sys.shared.files v))
    (own : ∀ b k, ∀ v ∈ store.versions b k, v.data = .fileRef (nullPath cfg bucket key) →
      b = bucket ∧ k = key) : Tidy cfg bucket key (s.advance cfg bucket key i) := by
  refine tidy.advance ⟨moved, tidy.fresh, Keeps.refl _ fun _ => False, buckets, fits,
    fun p gone => gone.elim, fun t tmp => ?_, versions, own⟩
  rw [created] at tmp
  cases tmp

theorem tidy_commit (tidy : Tidy cfg bucket key s) (here : s.sys.stage i = .commit [] prepared)
    (target : prepared.target s.sys.shared.store = some (bucket, key))
    (settles : prepared.version.data.path? ≠ none → Unsettled cfg bucket key s) :
    Tidy cfg bucket key (s.advance cfg bucket key i) := by
  have fits := tidy.fits i
  rw [here] at fits
  obtain ⟨onKey, data⟩ := fits
  obtain ⟨buckets, -, -, effects⟩ := prepared.stored_effects s.sys.shared.store
  have replaced := stored_null onKey.versionId target
  have found : ¬ (prepared.recheck = true ∧ ¬ s.sys.shared.store.bucketExists prepared.loc.bucket = true) := by
    rintro ⟨again, missing⟩
    rw [onKey.place] at missing
    exact missing (onKey.bucket again)
  have moved : (s.sys.stage i).step cfg s.sys.shared =
      (finishWrite prepared (prepared.stored s.sys.shared.store).1,
        { s.sys.shared with store := (prepared.stored s.sys.shared.store).2 }) := by
    rw [here, Stage.step, commitStep, if_neg found]
  obtain ⟨done, created, -⟩ := finishWrite_fits cfg bucket key
    { s.sys.shared with store := (prepared.stored s.sys.shared.store).2 } prepared
    (prepared.stored s.sys.shared.store).1 ((s.advance cfg bucket key i).placer = some i)
  -- a version that is stored where another request has placed its file waits for that request
  have new : prepared.version.data = .fileRef (nullPath cfg bucket key) ∧
      Unsettled cfg bucket key (s.advance cfg bucket key i) ∨ Whole cfg s.sys.shared.files prepared.version := by
    rcases data with ⟨bytes, inline, belongs⟩ | ⟨file, whole⟩
    · exact .inr ⟨bytes, by rw [inline]; rfl, belongs⟩
    · obtain ⟨j, last, placed⟩ := settles (by rw [file]; simp [ObjectDataRef.path?])
      by_cases same : j = i
      · subst same
        exact .inr (whole last)
      · have busy : (s.sys.stage i).placed ≠ none := by
          rw [here, Stage.placed, file]
          exact Option.some_ne_none _
        exact .inl ⟨file, j, (placer_busy moved busy).trans last,
          by rw [advance_other cfg bucket key s same, placed]⟩
  have place : ∀ p, prepared.version.data = .fileRef p → p = nullPath cfg bucket key := by
    intro p file
    rcases data with ⟨bytes, inline, -⟩ | ⟨placed, -⟩
    · rw [inline] at file
      cases file
    · rw [placed] at file
      injection file with same
      exact same.symm
  refine tidy.store moved buckets done created (fun b k v member object => ?_) fun b k v member file => ?_
  · by_cases there : b = bucket ∧ k = key
    · obtain ⟨rfl, rfl⟩ := there
      rw [replaced] at member
      obtain rfl := List.mem_singleton.mp member
      exact .inr ⟨rfl, rfl, place, new⟩
    · rcases effects bucket key target b k v member with old | ⟨rfl, rfl, -⟩
      · exact .inl ⟨old, fun file => absurd (tidy.own b k v old file) there⟩
      · exact absurd ⟨rfl, rfl⟩ there
  · rcases effects bucket key target b k v member with old | ⟨rfl, rfl, -⟩
    · exact tidy.own b k v old file
    · exact ⟨rfl, rfl⟩

theorem tidy_delete (tidy : Tidy cfg bucket key s) {b : String}
    (here : s.sys.stage i = .delete c b) : Tidy cfg bucket key (s.advance cfg bucket key i) := by
  have idle : (s.sys.stage i).placed = none := by rw [here]; rfl
  have moved : (s.sys.stage i).step cfg s.sys.shared = deleteStep c b s.sys.shared := by rw [here]; rfl
  unfold deleteStep at moved
  dsimp only at moved
  have versions := deleteListed_versions c.draws.now c.draws.uuid s.sys.shared.store b
    (keyFromPath c.ctx.path, c.ctx.queryParams["versionId"]?)
  have buckets := deleteListed_buckets c.draws.now c.draws.uuid s.sys.shared.store b
    (keyFromPath c.ctx.path, c.ctx.queryParams["versionId"]?)
  generalize deleteListed c.draws.now c.draws.uuid s.sys.shared.store b
    (keyFromPath c.ctx.path, c.ctx.queryParams["versionId"]?) = result at moved versions buckets
  obtain ⟨file, store⟩ := result
  dsimp only at moved
  have answered : (removeThen file ⟨204, none⟩).Fits cfg bucket key { s.sys.shared with store }
      ((s.advance cfg bucket key i).placer = some i) ∧ (removeThen file ⟨204, none⟩).tmp? = none := by
    cases file with
    | none => exact ⟨trivial, rfl⟩
    | some path => exact ⟨trivial, rfl⟩
  refine tidy.store moved buckets answered.1 answered.2 (fun b k v member object => ?_)
    fun b k v member file => ?_
  · rcases versions b k v member with old | ⟨marker, -⟩
    · exact .inl ⟨old, fun _ => unsettled_advance moved fun busy => absurd idle busy⟩
    · rw [object] at marker
      cases marker
  · rcases versions b k v member with old | ⟨-, inline⟩
    · exact tidy.own b k v old file
    · rw [inline] at file
      cases file

/-- Every step that nothing disturbs. -/
theorem tidy_step (tidy : Tidy cfg bucket key s) (undisturbed : Undisturbed cfg bucket key s i) :
    Tidy cfg bucket key (s.advance cfg bucket key i) := by
  rw [Undisturbed] at undisturbed
  have fits := tidy.fits i
  cases here : s.sys.stage i with
  | start c => exact tidy_start tidy here
  | receive c loc =>
    rw [here] at undisturbed
    exact tidy_receive tidy here undisturbed
  | copyVersion c b src v =>
    rw [here] at fits
    obtain ⟨onKey, rfl, copied⟩ := fits
    have moved : (s.sys.stage i).step cfg s.sys.shared =
        (.copy c (c.location b s.sys.shared.store) src v, s.sys.shared) := by rw [here]; rfl
    exact tidy.quiet moved (fun _ => ⟨location_null tidy onKey, copied⟩) (by rw [here]; rfl) rfl
  | copy c loc src v =>
    rw [here] at undisturbed
    exact tidy_copy tidy here undisturbed
  | uploadVersion c b uploadId u =>
    rw [here] at fits
    obtain ⟨onKey, rfl⟩ := fits
    have moved : (s.sys.stage i).step cfg s.sys.shared =
        (.assemble c (c.location b s.sys.shared.store) uploadId u, s.sys.shared) := by rw [here]; rfl
    exact tidy.quiet moved (fun _ => location_null tidy onKey) (by rw [here]; rfl) rfl
  | assemble c loc uploadId u =>
    rw [here] at undisturbed
    exact tidy_assemble tidy here undisturbed
  | rename tmp parts prepared => exact tidy_rename tidy here
  | commit parts prepared =>
    rw [here] at undisturbed
    cases parts with
    | nil => exact tidy_commit tidy here undisturbed.1 undisturbed.2
    | cons path parts => exact tidy_removePart tidy here undisturbed
  | delete c b => exact tidy_delete tidy here
  | remove path answer =>
    rw [here] at undisturbed
    have moved : (s.sys.stage i).step cfg s.sys.shared = (.done answer,
        { s.sys.shared with files := s.sys.shared.files.removeFile path }) := by rw [here]; rfl
    exact tidy_removeFile tidy undisturbed moved trivial rfl fun busy => absurd (by rw [here]; rfl) busy
  | done answer =>
    have moved : (s.sys.stage i).step cfg s.sys.shared = (.done answer, s.sys.shared) := by rw [here]; rfl
    exact tidy.quiet moved (fun _ => trivial) (by rw [here]; rfl) rfl
  | checkEmpty | deleteBucket | removeDir =>
    rw [here] at fits
    exact fits.elim

end Requests

/-! ## Every run -/

def Sys.AtRest {ι : Type} (s : Sys ι) : Prop := ∀ i, (s.stage i).resting = true

theorem tidy_begun {ι : Type} {cfg : Config} {bucket key : String} {s : Sys ι}
    (begun : Begun cfg bucket key s) : Tidy cfg bucket key ⟨s, none⟩ := by
  have idle (i : ι) : (s.stage i).tmp? = none := by
    obtain ⟨c, stage, -⟩ := begun.jobs i
    rw [stage]
    rfl
  refine ⟨begun.fresh, begun.unversioned, fun b k v member object =>
    .inr (begun.consistent b k v member object), begun.own, fun i => ?_, fun i j t tmp => ?_,
    fun i t tmp => ?_⟩
  · obtain ⟨c, stage, onKey⟩ := begun.jobs i
    change (s.stage i).Fits cfg bucket key s.shared _
    rw [stage]
    exact onKey
  · rw [idle i] at tmp
    cases tmp
  · rw [idle i] at tmp
    cases tmp

theorem consistent_of_tidy {ι : Type} {cfg : Config} {bucket key : String} {s : Traced ι}
    (tidy : Tidy cfg bucket key s) (rest : s.sys.AtRest) : Consistent cfg s.sys.shared := by
  intro b k v member object
  refine (tidy.stored b k v member object).resolve_left ?_
  rintro ⟨-, j, -, placed⟩
  have resting := rest j
  cases stage : s.sys.stage j with
  | start c =>
    rw [stage] at placed
    cases placed
  | done answer =>
    rw [stage] at placed
    cases placed
  | receive | copyVersion | copy | uploadVersion | assemble | rename | commit | delete | remove | checkEmpty |
    deleteBucket | removeDir =>
    rw [stage] at resting
    cases resting

/-- When nothing disturbs a step of the run, every object has its bytes with its size and tag whenever no
request is in progress. -/
theorem writes_keep_together {ι : Type} [DecidableEq ι] (cfg : Config) (bucket key : String) (s : Sys ι)
    (begun : Begun cfg bucket key s) (order : List ι)
    (undisturbed : Run.AllSteps (Traced.advance cfg bucket key) (Undisturbed cfg bucket key) ⟨s, none⟩ order) :
    Run.AllStates (Traced.advance cfg bucket key) (fun t => t.sys.AtRest → Consistent cfg t.sys.shared)
      ⟨s, none⟩ order := by
  have states := Run.allStates_of_allSteps (P := Tidy cfg bucket key)
    (fun _ _ tidy undisturbed => tidy_step tidy undisturbed) _ order (tidy_begun begun) undisturbed
  exact states.imp (fun _ tidy rest => consistent_of_tidy tidy rest) _ _

section Example

/-- Two writers of `a` in the empty bucket `bk`, both with a file. -/
def twoWriters : Sys Bool where
  shared := { store := S3Store.createBucket 0 {} "bk" "us-east-1" }
  stage second :=
    .start ⟨.putObject, request "/bk/a" [] (if second then [66, 66, 66] else [65, 65]), ⟨0, ""⟩⟩

theorem twoWriters_begun : Begun tinyThreshold "bk" "a" twoWriters := by
  have none (b k : String) : twoWriters.shared.store.versions b k = [] := by
    rw [twoWriters, S3Store.versions_createBucket]
    simp [S3Store.versions, S3Store.object?]
  have named : bucketFromPath "/bk/a" = some "bk" ∧ keyFromPath "/bk/a" = "a" := by decide +kernel
  refine ⟨fun i => ⟨_, rfl, by simp, named.1, named.2⟩, fun b k v member => ?_, by decide +kernel,
    fun b k v member => ?_, tmpFresh_empty⟩
  · rw [none] at member
    cases member
  · rw [none] at member
    cases member

/-- The next step of the request needs nothing of the others, and its own file was placed last. -/
def Traced.inOrder (s : Traced Bool) (i : Bool) : Bool :=
  match s.sys.stage i with
  | .start _ | .rename _ _ _ => true
  | .receive c _ => decide ((announcedLength c.ctx).getD 0 ≤ (bodyStream c.ctx).bytes.length)
  | .commit [] next => decide (next.target s.sys.shared.store = some ("bk", "a") ∧ s.placer = some i ∧
      next.version.data.path? = some (nullPath tinyThreshold "bk" "a"))
  | _ => false

theorem undisturbed_of_inOrder {s : Traced Bool} {i : Bool} (inOrder : s.inOrder i = true) :
    Undisturbed tinyThreshold "bk" "a" s i := by
  rw [Traced.inOrder] at inOrder
  rw [Undisturbed]
  cases stage : s.sys.stage i with
  | receive c loc =>
    rw [stage] at inOrder
    exact .inr (.inr (of_decide_eq_true inOrder))
  | commit parts next =>
    rw [stage] at inOrder
    cases parts with
    | nil =>
      obtain ⟨target, last, placed⟩ := of_decide_eq_true inOrder
      exact ⟨target, fun _ => ⟨i, last, by rw [stage]; exact placed⟩⟩
    | cons path parts => cases inOrder
  | start | rename => trivial
  | copyVersion | copy | uploadVersion | assemble | delete | remove | checkEmpty | deleteBucket | removeDir |
    done =>
    rw [stage] at inOrder
    cases inOrder

/-- Both write their temporary files; then one after the other places its file and stores its version. -/
theorem writes_keep_together_inOrder :
    Run.AllStates (Traced.advance tinyThreshold "bk" "a")
      (fun t => t.sys.AtRest → Consistent tinyThreshold t.sys.shared) ⟨twoWriters, none⟩
      [false, true, false, true, false, false, true, true] := by
  refine writes_keep_together tinyThreshold "bk" "a" twoWriters twoWriters_begun _ ?_
  have inOrder : Run.AllSteps (Traced.advance tinyThreshold "bk" "a") (fun s i => s.inOrder i = true)
      ⟨twoWriters, none⟩ [false, true, false, true, false, false, true, true] := by decide +kernel
  exact inOrder.imp fun _ _ => undisturbed_of_inOrder

/-- The first places its file before the second, and stores its version after it. -/
theorem first_version_second_file : ¬ Run.AllStates (Traced.advance tinyThreshold "bk" "a")
    (fun t => t.sys.AtRest → Consistent tinyThreshold t.sys.shared) ⟨twoWriters, none⟩
    [false, true, false, true, false, true, true, false] := by
  intro states
  have consistent := states.last
  generalize made : [false, true, false, true, false, true, true, false].foldl
    (Traced.advance tinyThreshold "bk" "a") ⟨twoWriters, none⟩ = t at consistent
  have rest : t.sys.AtRest := by
    subst made
    unfold Sys.AtRest
    decide +kernel
  have recorded : (t.sys.shared.store.versions "bk" "a").map (fun v =>
      (v.deleteMarker, v.size, (t.sys.shared.files.readData v.data).map List.length)) =
        [(false, 2, some 3)] := by
    subst made
    decide +kernel
  have member := List.mem_singleton_self (false, 2, some 3)
  rw [← recorded] at member
  obtain ⟨v, stored, same⟩ := List.mem_map.mp member
  simp only [Prod.mk.injEq] at same
  obtain ⟨object, size, length⟩ := same
  obtain ⟨bytes, read, belongs⟩ := consistent rest "bk" "a" v stored object
  rw [read, Option.map_some, ← belongs.size, size] at length
  cases length

end Example

end Openstack.S3

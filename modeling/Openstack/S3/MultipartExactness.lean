import Openstack.S3.Requests

/-!
# Completing a multipart upload

`handle_complete_multipart_upload_async` (`provider.rs:1839-2106`) reads the listed parts from the
body, sorts their numbers, looks each one up and drops what it does not find, and builds the
entity tag from the tags in the request. The specification speaks of every `<Part>` element of the
body and of the bodies that the UploadPart requests brought.
-/
namespace Openstack.S3

open ObjectFileStore

variable {draws : Draws} {c : Call} {n : Nat} {w' : World} {s : Session}

/-! ## What was uploaded -/

/-- The world, and the body of the last accepted UploadPart for each upload id and number. -/
structure Session where
  world : World
  sent : String → Nat → Option Bytes

/-- Upload id and part number of an UploadPart that the handler accepts. -/
def acceptedPart (cfg : Config) (w : World) (c : Call) : Option (String × Nat) :=
  if c.action = .uploadPart ∧ (handleUploadPart cfg c.draws w c.ctx).1.toOption.isSome then
    c.ctx.queryParams["uploadId"]?.bind fun uploadId =>
      (c.ctx.queryParams["partNumber"]?.bind (RustFmt.parseUnsigned 32)).map fun n => (uploadId, n)
  else none

def Session.serve (cfg : Config) (s : Session) (c : Call) : Session where
  world := s.world.serve cfg c
  sent uploadId n :=
    if acceptedPart cfg s.world c = some (uploadId, n) then some (bodyStream c.ctx).bytes
    else s.sent uploadId n

def Session.empty : Session := ⟨{}, fun _ _ => none⟩

/-! ## What the request lists -/

/-- Every `<Part>` element: its number, if it has one, and its tag. -/
def listedFrom : (fuel : Nat) → List Char → List (Option Nat × String)
  | 0, _ => []
  | fuel + 1, remaining =>
    match RustStr.after "<Part>".toList remaining with
    | none => []
    | some rest =>
      let partXml := (RustStr.before "</Part>".toList rest).getD rest
      ((extractXmlText partXml "PartNumber").bind fun v =>
          RustFmt.parseUnsigned 32 (String.ofList (RustStr.trim v)),
        String.ofList (((extractXmlText partXml "ETag").map RustStr.trim).getD [])) ::
        listedFrom fuel rest

def listedParts (ctx : RequestContext) : List (Option Nat × String) :=
  listedFrom (bodyText ctx).length (bodyText ctx)

def listedNumbers (ctx : RequestContext) : List Nat := (listedParts ctx).filterMap Prod.fst

/-- The tag without quotation marks around it. -/
def bareTag (tag : String) : List Char :=
  (tag.toList.dropWhile (· = '"')).rdropWhile (· = '"')

/-- The listed part exists in the upload, with the listed tag. -/
def ListedAs (u : MultipartUpload) (entry : Option Nat × String) (n : Nat) : Prop :=
  entry.1 = some n ∧ ∃ part, u.parts.lookup n = some part ∧ bareTag entry.2 = bareTag part.etag

/-! ## Statement -/

/-- The bucket, upload id and upload that the request completes. -/
def completing (store : S3Store) (ctx : RequestContext) :
    Option (String × String × MultipartUpload) :=
  (bucketFromPath ctx.path).bind fun bucket =>
    ctx.queryParams["uploadId"]?.bind fun uploadId =>
      (requestedUpload store ctx bucket uploadId).map fun u => (bucket, uploadId, u)

section Statement

variable (cfg : Config) (s : Session) (ctx : RequestContext)

/-- The listed parts as they were uploaded, in increasing part number. -/
def sentBytes (uploadId : String) : Bytes :=
  ((listedNumbers ctx).insertionSort (· ≤ ·)).flatMap fun n => (s.sent uploadId n).getD []

/-- The digest of their digests, and their number. -/
def expectedEtag (uploadId : String) : String :=
  "\"" ++ hexEncode (cfg.md5 (((listedNumbers ctx).insertionSort (· ≤ ·)).flatMap fun n =>
    cfg.md5 ((s.sent uploadId n).getD []))) ++ "-" ++ toString (listedParts ctx).length ++ "\""

/-- What an answer 200 promises: every listed part exists with its tag and none is listed twice,
the object holds their bytes in increasing part number, and its tag is the digest of their
digests with their number. -/
structure Assembled (after : World) (etag : String) : Prop where
  distinct : (listedNumbers ctx).Nodup
  exact : ∃ bucket uploadId u, completing s.world.store ctx = some (bucket, uploadId, u) ∧
    (∀ entry ∈ listedParts ctx, ∃ n, ListedAs u entry n) ∧
    etag = expectedEtag cfg s ctx uploadId ∧
    ∃ v, after.store.getObject bucket (keyFromPath ctx.path) = some v ∧ v.etag = etag ∧
      after.files.readData v.data = some (sentBytes s ctx uploadId)

/-- An error leaves the metadata as it is and every stored byte readable. -/
structure Untroubled (before after : World) : Prop where
  store : after.store = before.store
  files : ∀ data bytes, before.files.readData data = some bytes →
    after.files.readData data = some bytes

/-- CompleteMultipartUpload is exact or refuses. -/
def CompletesExactly (draws : Draws) : Prop :=
  (∀ e, (handleCompleteMultipartUpload cfg draws s.world ctx).1 = .error e →
    Untroubled s.world (handleCompleteMultipartUpload cfg draws s.world ctx).2) ∧
  ∀ out, (handleCompleteMultipartUpload cfg draws s.world ctx).1 = .ok out →
    Assembled cfg s ctx (handleCompleteMultipartUpload cfg draws s.world ctx).2 out.etag

/-- The parts of the upload that the handler finds among the listed ones. -/
abbrev found (u : MultipartUpload) : List UploadPart := selectParts u (requestedParts ctx)

/-- The upload is unknown, or one of the parts cannot be read. -/
def Refused : Prop :=
  completing s.world.store ctx = none ∨
  ∃ bucket uploadId u, completing s.world.store ctx = some (bucket, uploadId, u) ∧
    (multipartRead s.world.files ((found ctx u).map (·.data))).fails = true

/-- The request lists parts of the upload by positive numbers and with their tags, none of them
twice, and the stored parts still read as they were uploaded. -/
def Matching : Prop :=
  (listedNumbers ctx).Nodup ∧
  ∃ bucket uploadId u, completing s.world.store ctx = some (bucket, uploadId, u) ∧
    (∀ entry ∈ listedParts ctx, ∃ n, 0 < n ∧ ListedAs u entry n) ∧
    assembled cfg (found ctx u)
      (multipartRead s.world.files ((found ctx u).map (·.data))).bytes = sentBytes s ctx uploadId

end Statement

/-! ## Entity tags -/

theorem hexDigit_digitChar (digit : n < 16) : hexDigit n.digitChar = some n := by
  revert n
  decide

theorem digitChar_ne_quote (digit : n < 16) : n.digitChar ≠ '"' := by
  revert n
  decide

theorem toList_hexEncode_cons (b : UInt8) (digest : Bytes) : (hexEncode (b :: digest)).toList =
    (b.toNat / 16).digitChar :: (b.toNat % 16).digitChar :: (hexEncode digest).toList := by
  simp [hexEncode, RustFmt.toList_hex_two b.toNat_lt]

theorem hexDecode_hexEncode (digest : Bytes) :
    hexDecode (hexEncode digest).toList = some digest := by
  induction digest with
  | nil => rfl
  | cons b digest ih =>
    have byte := b.toNat_lt
    rw [toList_hexEncode_cons, hexDecode, hexDigit_digitChar (by omega), hexDigit_digitChar (by omega), ih]
    simp [Nat.div_add_mod]

theorem quote_notMem_hexEncode (digest : Bytes) : '"' ∉ (hexEncode digest).toList := by
  induction digest with
  | nil => simp [hexEncode]
  | cons b digest ih =>
    have byte := b.toNat_lt
    rw [toList_hexEncode_cons, List.mem_cons, List.mem_cons]
    rintro (high | low | later)
    · exact digitChar_ne_quote (by omega) high.symm
    · exact digitChar_ne_quote (by omega) low.symm
    · exact ih later

/-- The quotation marks of a tag are all at its ends. -/
theorem bareTag_formatEtag (digest : Bytes) :
    bareTag (formatEtag digest) = (hexEncode digest).toList := by
  have text : (formatEtag digest).toList = '"' :: ((hexEncode digest).toList ++ ['"']) := by
    simp [formatEtag]
  have plain := quote_notMem_hexEncode digest
  rw [bareTag, text, List.dropWhile_cons_of_pos (by simp)]
  generalize (hexEncode digest).toList = hex at plain
  cases hex with
  | nil => rfl
  | cons c rest =>
    have first : c ≠ '"' := fun same => plain (same ▸ List.mem_cons_self)
    rw [List.cons_append, List.dropWhile_cons_of_neg (by simpa using first), ← List.cons_append,
      List.rdropWhile_concat_pos _ _ _ (by simp), List.rdropWhile_eq_self_iff]
    intro nonempty
    have last := List.getLast_mem nonempty
    simp only [decide_eq_true_eq]
    intro quote
    exact plain (quote ▸ last)

/-! ## What the handler selects -/

theorem requestedParts_eq (ctx : RequestContext) : requestedParts ctx =
    (listedParts ctx).filterMap fun entry =>
      if 0 < entry.1.getD 0 then some (entry.1.getD 0, entry.2) else none := by
  have parse : ∀ fuel text, parseParts fuel text = (listedFrom fuel text).filterMap fun entry =>
      if 0 < entry.1.getD 0 then some (entry.1.getD 0, entry.2) else none := by
    intro fuel
    induction fuel with
    | zero => exact fun _ => rfl
    | succ fuel ih =>
      intro text
      rw [parseParts, listedFrom]
      cases RustStr.after "<Part>".toList text with
      | none => rfl
      | some rest =>
        simp only [ih rest, List.filterMap_cons]
        generalize ((extractXmlText ((RustStr.before "</Part>".toList rest).getD rest)
          "PartNumber").bind fun v => RustFmt.parseUnsigned 32 (String.ofList (RustStr.trim v))) = number
        by_cases positive : 0 < number.getD 0
        · rw [if_pos positive, if_pos positive]
        · rw [if_neg positive, if_neg positive]
  exact parse _ _

/-- The numbers the handler looks up. -/
theorem map_fst_requestedParts (ctx : RequestContext) :
    (requestedParts ctx).map Prod.fst = (listedNumbers ctx).filter (0 < ·) := by
  rw [requestedParts_eq, listedNumbers]
  induction listedParts ctx with
  | nil => rfl
  | cons entry rest ih =>
    obtain ⟨number, etag⟩ := entry
    cases number with
    | none => simpa using ih
    | some n =>
      by_cases positive : 0 < n
      · simpa [positive] using ih
      · simpa [positive] using ih

/-! ## Stored parts along a run -/

/-- Every stored part is filed under its number and carries the tag and the size of the body it
was uploaded with. -/
structure UploadInvariant (cfg : Config) (s : Session) : Prop where
  tmp : TmpFresh s.world.files
  parts : PartsPlaced s.world.store
  recorded : ∀ (uploadId : String) u, s.world.store.multipartUploads[uploadId]? = some u →
    ∀ n part, u.parts.lookup n = some part → part.partNumber = n ∧
      ∃ body, s.sent uploadId n = some body ∧ part.etag = formatEtag (cfg.md5 body) ∧
        part.size = body.length

/-- A call that leaves the temporary names free and uploads at most without parts. -/
structure LeavesUploads (w w' : World) : Prop where
  tmp : TmpFresh w'.files
  uploads : ∀ (uploadId : String) u, w'.store.multipartUploads[uploadId]? = some u →
    w.store.multipartUploads[uploadId]? = some u ∨ u.parts = []

section Uploads

variable {cfg : Config} {w : World}

theorem LeavesUploads.of_eq (tmp : TmpFresh w'.files)
    (same : w'.store.multipartUploads = w.store.multipartUploads) : LeavesUploads w w' :=
  ⟨tmp, fun _ _ found => .inl (same ▸ found)⟩

theorem LeavesUploads.erase (tmp : TmpFresh w'.files) {id : String}
    (erased : w'.store.multipartUploads = w.store.multipartUploads.erase id) : LeavesUploads w w' := by
  refine ⟨tmp, ?_⟩
  intro uploadId u found
  rw [erased, StrMap.getElem?_erase] at found
  split at found
  · cases found
  · exact .inl found

theorem removeReplaced_tmp {files : ObjectFileStore} (tmp : TmpFresh files) (path : Option Path) :
    TmpFresh (files.removeReplaced path) := by
  cases path with
  | none => exact tmp
  | some path => exact (removeFile_effects tmp path).1

theorem handlePutObject_uploads (tmp : TmpFresh w.files) (uuid : IsUuid draws.uuid)
    (ctx : RequestContext) : LeavesUploads w (handlePutObject cfg draws w ctx).2 := by
  unfold handlePutObject
  cases bucketFromPath ctx.path with
  | none => exact .of_eq tmp rfl
  | some bucket =>
    simp only
    split
    · obtain ⟨plain, _⟩ := drawVersionId_plain uuid w.store bucket
      obtain ⟨tmp', _⟩ := receiveBody_effects cfg tmp ctx
        ⟨bucket, keyFromPath ctx.path, drawVersionId draws w.store bucket⟩ plain
        "Failed to store object"
      split
      · next e files out =>
        rw [out] at tmp'
        exact .of_eq tmp' rfl
      · next etag size data files out =>
        rw [out] at tmp'
        exact .of_eq (removeReplaced_tmp tmp' _) (S3Store.putObjectVersion_uploads _ _ _ _)
    · exact .of_eq tmp rfl

theorem handleCopyObject_uploads (tmp : TmpFresh w.files) (uuid : IsUuid draws.uuid)
    (ctx : RequestContext) : LeavesUploads w (handleCopyObject cfg draws w ctx).2 := by
  unfold handleCopyObject
  cases bucketFromPath ctx.path with
  | none => exact .of_eq tmp rfl
  | some bucket =>
    simp only
    cases copySource ctx with
    | none => exact .of_eq tmp rfl
    | some src =>
      simp only
      split
      · cases w.store.getObject src.1 src.2 with
        | none => exact .of_eq tmp rfl
        | some v =>
          obtain ⟨plain, _⟩ := drawVersionId_plain uuid w.store bucket
          obtain ⟨tmp', _⟩ := copyData_effects cfg tmp src v
            ⟨bucket, keyFromPath ctx.path, drawVersionId draws w.store bucket⟩ plain
          simp only
          split
          · next files out =>
            rw [out] at tmp'
            exact .of_eq tmp' rfl
          · next data files out =>
            rw [out] at tmp'
            exact .of_eq (removeReplaced_tmp tmp' _) (S3Store.putObjectVersion_uploads _ _ _ _)
      · exact .of_eq tmp rfl

theorem handleDeleteObject_uploads (tmp : TmpFresh w.files) (draws : Draws) (ctx : RequestContext) :
    LeavesUploads w (handleDeleteObject draws w ctx).2 := by
  unfold handleDeleteObject
  cases bucketFromPath ctx.path with
  | none => exact .of_eq tmp rfl
  | some bucket =>
    simp only
    split
    · split
      · next vid _ =>
        have rest := S3Store.deleteObjectVersion_rest w.store bucket (keyFromPath ctx.path) vid
        split
        · next removed store out =>
          rw [out] at rest
          exact .of_eq (removeData_effects tmp removed.data).1 rest.2
        · next store out =>
          rw [out] at rest
          exact .of_eq tmp rest.2
      · have rest := S3Store.deleteObject_rest w.store draws.now draws.uuid bucket
          (keyFromPath ctx.path)
        split
        · next deleted store out =>
          rw [out] at rest
          split
          · exact .of_eq tmp rest.2
          · exact .of_eq (removeData_effects tmp deleted.data).1 rest.2
        · next store out =>
          rw [out] at rest
          exact .of_eq tmp rest.2
    · exact .of_eq tmp rfl

theorem handleDeleteObjects_uploads (tmp : TmpFresh w.files) (now : Instant)
    (markerIds : Nat → String) (ctx : RequestContext) :
    LeavesUploads w (handleDeleteObjects now markerIds w ctx).2 := by
  unfold handleDeleteObjects
  cases bucketFromPath ctx.path with
  | none => exact .of_eq tmp rfl
  | some bucket =>
    simp only
    split
    · exact .of_eq (removeFiles_effects tmp _).1 (deleteAllListed_rest _ _ _ _ _ _).2
    · exact .of_eq tmp rfl

theorem handleCreateMultipartUpload_uploads (tmp : TmpFresh w.files) (draws : Draws)
    (ctx : RequestContext) : LeavesUploads w (handleCreateMultipartUpload draws w ctx).2 := by
  unfold handleCreateMultipartUpload
  cases bucketFromPath ctx.path with
  | none => exact .of_eq tmp rfl
  | some bucket =>
    simp only
    split
    · refine ⟨tmp, ?_⟩
      intro uploadId u found
      simp only [S3Store.createMultipartUpload, StrMap.getElem?_insert] at found
      split at found
      · cases found
        exact .inr rfl
      · exact .inl found
    · exact .of_eq tmp rfl

theorem handleCompleteMultipartUpload_uploads (tmp : TmpFresh w.files) (parts : PartsPlaced w.store)
     (uuid : IsUuid draws.uuid) (ctx : RequestContext) :
    LeavesUploads w (handleCompleteMultipartUpload cfg draws w ctx).2 := by
  unfold handleCompleteMultipartUpload
  cases bucketFromPath ctx.path with
  | none => exact .of_eq tmp rfl
  | some bucket =>
    simp only
    cases ctx.queryParams["uploadId"]? with
    | none => exact .of_eq tmp rfl
    | some uploadId =>
      simp only
      cases found : requestedUpload w.store ctx bucket uploadId with
      | none => exact .of_eq tmp rfl
      | some u =>
        obtain ⟨upload, _⟩ := Option.filter_eq_some_iff.mp found
        obtain ⟨plain, notPart⟩ := drawVersionId_plain uuid w.store bucket
        obtain ⟨tmp', _⟩ := assembleParts_effects cfg tmp (requestedParts ctx)
          (selectParts u (requestedParts ctx))
          ⟨bucket, keyFromPath ctx.path, drawVersionId draws w.store bucket⟩ plain
          (parts.apart upload cfg _ notPart _)
        simp only
        split
        · next e files out =>
          rw [out] at tmp'
          exact .of_eq tmp' rfl
        · next etag size data files out =>
          rw [out] at tmp'
          simp only [S3Store.completeMultipartUploadWithVersion, upload]
          exact .erase (removeReplaced_tmp tmp' _) (S3Store.putObjectVersion_uploads _ _ _ _)

variable (cfg) in
/-- Every call but UploadPart. -/
theorem serve_leavesUploads (tmp : TmpFresh w.files) (parts : PartsPlaced w.store)
    (uuids : ∀ id ∈ c.drawn, IsUuid id) (other : c.action ≠ .uploadPart) :
    LeavesUploads w (w.serve cfg c) := by
  have uuid : c.drawn = [c.draws.uuid] → IsUuid c.draws.uuid := by
    intro drawn
    exact uuids _ (by simp [drawn])
  unfold World.serve
  cases action : c.action with
  | createBucket =>
    simp only [handleCreateBucket]
    split
    · exact .of_eq tmp rfl
    · split <;> exact .of_eq tmp rfl
  | putBucketVersioning =>
    simp only [handlePutBucketVersioning]
    split
    · exact .of_eq tmp rfl
    · split <;> exact .of_eq tmp rfl
  | putObject => exact handlePutObject_uploads tmp (uuid (by simp [Call.drawn, action])) c.ctx
  | getObject => exact .of_eq tmp rfl
  | deleteObject => exact handleDeleteObject_uploads tmp c.draws c.ctx
  | deleteObjects => exact handleDeleteObjects_uploads tmp c.draws.now c.markerIds c.ctx
  | copyObject => exact handleCopyObject_uploads tmp (uuid (by simp [Call.drawn, action])) c.ctx
  | createMultipartUpload => exact handleCreateMultipartUpload_uploads tmp c.draws c.ctx
  | uploadPart => exact absurd action other
  | completeMultipartUpload =>
    exact handleCompleteMultipartUpload_uploads tmp parts (uuid (by simp [Call.drawn, action])) c.ctx
  | abortMultipartUpload =>
    simp only [handleAbortMultipartUpload]
    split
    · exact .of_eq tmp rfl
    · split
      · exact .erase tmp rfl
      · exact .of_eq tmp rfl

theorem lookup_insertPart (u : MultipartUpload) (part : UploadPart) (m : Nat) :
    (u.insertPart part).parts.lookup m =
      if m = part.partNumber then some part else u.parts.lookup m := by
  unfold MultipartUpload.insertPart
  simp only [List.lookup_cons]
  by_cases here : m = part.partNumber
  · simp [here]
  · have other : (m == part.partNumber) = false := by simpa using here
    simp only [other, if_neg here]
    induction u.parts with
    | nil => rfl
    | cons entry rest ih =>
      obtain ⟨number, stored⟩ := entry
      by_cases same : number = part.partNumber
      · simpa [same, List.lookup_cons, other] using ih
      · simp only [List.filter_cons, same, ne_eq, not_false_eq_true, decide_true, if_true,
          List.lookup_cons, ih]

variable (cfg) in
/-- UploadPart fails and leaves the metadata, or files the part it received. -/
theorem handleUploadPart_cases (tmp : TmpFresh w.files) (draws : Draws) (ctx : RequestContext) :
    TmpFresh (handleUploadPart cfg draws w ctx).2.files ∧
    ((∃ e, (handleUploadPart cfg draws w ctx).1 = .error e ∧
      (handleUploadPart cfg draws w ctx).2.store = w.store) ∨
    ∃ uploadId n u data, (handleUploadPart cfg draws w ctx).1.toOption.isSome ∧
      ctx.queryParams["uploadId"]? = some uploadId ∧
      ctx.queryParams["partNumber"]?.bind (RustFmt.parseUnsigned 32) = some n ∧
      w.store.multipartUploads[uploadId]? = some u ∧
      (∀ p, data = .fileRef p → ∃ n : Nat, p.getLast? = some ("part-" ++ toString n)) ∧
      (handleUploadPart cfg draws w ctx).2.store.multipartUploads =
        w.store.multipartUploads.insert uploadId
          (u.insertPart ⟨n, formatEtag (cfg.md5 (bodyStream ctx).bytes),
            (bodyStream ctx).bytes.length, data, draws.now⟩)) := by
  unfold handleUploadPart
  cases bucketFromPath ctx.path with
  | none => exact ⟨tmp, .inl ⟨_, rfl, rfl⟩⟩
  | some bucket =>
    simp only
    cases id : ctx.queryParams["uploadId"]? with
    | none => exact ⟨tmp, .inl ⟨_, rfl, rfl⟩⟩
    | some uploadId =>
      simp only
      cases number : ctx.queryParams["partNumber"]?.bind (RustFmt.parseUnsigned 32) with
      | none => exact ⟨tmp, .inl ⟨_, rfl, rfl⟩⟩
      | some n =>
        simp only
        cases found : requestedUpload w.store ctx bucket uploadId with
        | none => exact ⟨tmp, .inl ⟨_, rfl, rfl⟩⟩
        | some u =>
          obtain ⟨upload, _⟩ := Option.filter_eq_some_iff.mp found
          obtain ⟨tmp', _, stored⟩ := receiveBody_effects cfg tmp ctx
            (partLocation u.bucket u.key uploadId n) (plain_part n) "Failed to store part"
          simp only
          split
          · next e files out =>
            rw [out] at tmp'
            exact ⟨tmp', .inl ⟨_, rfl, rfl⟩⟩
          · next etag size data files out =>
            rw [out] at tmp' stored
            obtain ⟨_, rfl, rfl, place, _⟩ := stored etag size data rfl
            refine ⟨tmp', .inr ⟨uploadId, n, u, data, rfl, rfl, rfl, upload, ?_, ?_⟩⟩
            · rintro p rfl
              rcases place with ⟨bytes, inline⟩ | file
              · cases inline
              · rw [ObjectDataRef.fileRef.inj file]
                exact ⟨n, getLast?_objectPath _ _⟩
            · simp only [S3Store.uploadPartWithEtag, upload]

theorem acceptedPart_of_other (other : c.action ≠ .uploadPart) :
    acceptedPart cfg w c = none := by
  simp [acceptedPart, other]

/-- A call that leaves the uploads keeps the invariant. -/
theorem UploadInvariant.leave (inv : UploadInvariant cfg s)
    (step : LeavesUploads s.world w') : UploadInvariant cfg ⟨w', s.sent⟩ where
  tmp := step.tmp
  parts := by
    intro uploadId u found
    rcases step.uploads uploadId u found with old | none
    · exact inv.parts uploadId u old
    · simp [none]
  recorded := by
    intro uploadId u found n part stored
    rcases step.uploads uploadId u found with old | none
    · exact inv.recorded uploadId u old n part stored
    · simp [none] at stored

theorem UploadInvariant.upload (inv : UploadInvariant cfg s)
    (upload : c.action = .uploadPart) : UploadInvariant cfg (s.serve cfg c) := by
  have served : s.world.serve cfg c = (handleUploadPart cfg c.draws s.world c.ctx).2 := by
    simp [World.serve, upload]
  obtain ⟨tmp, ⟨e, failed, same⟩ | ⟨id, n, u, data, ok, hid, hn, found, place, uploads⟩⟩ :=
    handleUploadPart_cases cfg inv.tmp c.draws c.ctx
  · have unsent : acceptedPart cfg s.world c = none := by simp [acceptedPart, failed, Except.toOption]
    have left : LeavesUploads s.world (s.world.serve cfg c) :=
      .of_eq (served ▸ tmp) (by rw [served, same])
    have step := inv.leave left
    have unchanged : s.serve cfg c = ⟨s.world.serve cfg c, s.sent⟩ := by
      simp [Session.serve, unsent]
    rw [unchanged]
    exact step
  · have sent : acceptedPart cfg s.world c = some (id, n) := by
      simp [acceptedPart, upload, ok, hid, hn]
    rw [← served] at tmp uploads
    refine ⟨tmp, ?_, ?_⟩
    · intro uploadId u' found' part member p file
      rw [Session.serve] at found'
      rw [uploads, StrMap.getElem?_insert] at found'
      split at found'
      · cases found'
        rcases List.mem_cons.mp member with rfl | older
        · exact place p file
        · exact inv.parts id u found part (List.mem_filter.mp older).1 p file
      · exact inv.parts uploadId u' found' part member p file
    · intro uploadId u' found' m part stored
      rw [Session.serve] at found'
      rw [uploads, StrMap.getElem?_insert] at found'
      simp only [Session.serve, sent, Option.some.injEq, Prod.mk.injEq]
      split at found'
      · next here =>
        subst here
        cases found'
        rw [lookup_insertPart] at stored
        split at stored
        · next here =>
          cases stored
          exact ⟨here.symm, _, if_pos ⟨rfl, here.symm⟩, rfl, rfl⟩
        · next other =>
          rw [if_neg (fun same => other same.2.symm)]
          exact inv.recorded id u found m part stored
      · next other =>
        rw [if_neg (fun same => other same.1)]
        exact inv.recorded uploadId u' found' m part stored

theorem UploadInvariant.serve (inv : UploadInvariant cfg s)
    (uuids : ∀ id ∈ c.drawn, IsUuid id) : UploadInvariant cfg (s.serve cfg c) := by
  by_cases upload : c.action = .uploadPart
  · exact inv.upload upload
  · have step := inv.leave (serve_leavesUploads cfg inv.tmp inv.parts uuids upload)
    have unchanged : s.serve cfg c = ⟨s.world.serve cfg c, s.sent⟩ := by
      simp [Session.serve, acceptedPart_of_other upload]
    rw [unchanged]
    exact step

theorem uploadInvariant_empty (cfg : Config) : UploadInvariant cfg .empty := by
  refine ⟨tmpFresh_empty, ?_, ?_⟩
  · intro uploadId u found
    simp [Session.empty] at found
  · intro uploadId u found
    simp [Session.empty] at found

/-- Along every run whose drawn ids are uuids. -/
theorem uploadInvariant_run (cfg : Config) (calls : List Call)
    (uuids : ∀ c ∈ calls, ∀ id ∈ c.drawn, IsUuid id) :
    UploadInvariant cfg (calls.foldl (Session.serve cfg) .empty) := by
  have run : ∀ s, UploadInvariant cfg s → UploadInvariant cfg (calls.foldl (Session.serve cfg) s) := by
    induction calls with
    | nil => exact fun _ inv => inv
    | cons c rest ih =>
      intro s inv
      exact ih (fun c' later => uuids c' (List.mem_cons_of_mem _ later)) _
        (inv.serve (uuids c List.mem_cons_self))
  exact run _ (uploadInvariant_empty cfg)

end Uploads
/-! ## What the handler answers -/

section Answers

variable {cfg : Config} {w : World} {ctx : RequestContext}

variable (cfg) in
theorem complete_unknown (draws : Draws) (unknown : completing w.store ctx = none) :
    ∃ e, handleCompleteMultipartUpload cfg draws w ctx = (.error e, w) := by
  unfold handleCompleteMultipartUpload
  unfold completing at unknown
  cases bucket : bucketFromPath ctx.path with
  | none => exact ⟨_, rfl⟩
  | some b =>
    simp only
    cases uploadId : ctx.queryParams["uploadId"]? with
    | none => exact ⟨_, rfl⟩
    | some id =>
      simp only
      cases upload : requestedUpload w.store ctx b id with
      | none => exact ⟨_, rfl⟩
      | some u => simp [bucket, uploadId, upload] at unknown

theorem completing_some {bucket uploadId : String} {u : MultipartUpload}
    (known : completing w.store ctx = some (bucket, uploadId, u)) :
    bucketFromPath ctx.path = some bucket ∧ ctx.queryParams["uploadId"]? = some uploadId ∧
      requestedUpload w.store ctx bucket uploadId = some u := by
  unfold completing at known
  obtain ⟨b, hb, rest⟩ := Option.bind_eq_some_iff.mp known
  obtain ⟨id, hid, rest⟩ := Option.bind_eq_some_iff.mp rest
  obtain ⟨u', hu, same⟩ := Option.map_eq_some_iff.mp rest
  cases same
  exact ⟨hb, hid, hu⟩

/-- The version on top after a put. -/
theorem getObject_putObjectVersion (store : S3Store) (bucket key : String) {version : ObjectVersion}
    (real : version.deleteMarker = false) :
    (store.putObjectVersion bucket key version).2.getObject bucket key = some version := by
  have top : ((store.putObjectVersion bucket key version).2.versions bucket key).head? =
      some version := by
    rw [S3Store.versions_putObjectVersion, if_pos ⟨rfl, rfl⟩]
    split <;> rfl
  unfold S3Store.versions at top
  unfold S3Store.getObject S3Object.current
  cases found : (store.putObjectVersion bucket key version).2.object? bucket key with
  | none => simp [found] at top
  | some obj =>
    have head : obj.versions.head? = some version := by simpa [found] using top
    simp [head, real]

/-- The replaced file is never the file of the new version. -/
theorem removeReplaced_reads {files : ObjectFileStore} (tmp : TmpFresh files) (versionId : String)
    (prev : Option ObjectDataRef) {data : ObjectDataRef} {bytes : Bytes}
    (read : files.readData data = some bytes) :
    (files.removeReplaced (replacedFilePath versionId prev data)).readData data = some bytes := by
  cases replaced : replacedFilePath versionId prev data with
  | none => exact read
  | some path =>
    have other : data ≠ .fileRef path := by
      unfold replacedFilePath at replaced
      split at replaced
      · split at replaced
        · split at replaced
          · cases replaced
          · next differs =>
            cases replaced
            exact differs
        · cases replaced
      · cases replaced
    cases data with
    | inline b => exact read
    | fileRef p =>
      refine (removeFile_effects tmp path).2 p bytes ?_ read
      rintro rfl
      exact other rfl

section Known

variable {s : Session} {bucket uploadId : String} {u : MultipartUpload} {draws : Draws}

theorem complete_unreadable (inv : UploadInvariant cfg s) (uuid : IsUuid draws.uuid)
    (known : completing s.world.store ctx = some (bucket, uploadId, u))
    (fails : (multipartRead s.world.files ((found ctx u).map (·.data))).fails = true) :
    ∃ e, (handleCompleteMultipartUpload cfg draws s.world ctx).1 = .error e ∧
      Untroubled s.world (handleCompleteMultipartUpload cfg draws s.world ctx).2 := by
  obtain ⟨named, requested, upload⟩ := completing_some known
  obtain ⟨stored, _⟩ := Option.filter_eq_some_iff.mp upload
  obtain ⟨plain, notPart⟩ := drawVersionId_plain uuid s.world.store bucket
  obtain ⟨_, _, failed, done⟩ := assembleParts_effects cfg inv.tmp (requestedParts ctx) (found ctx u)
    ⟨bucket, keyFromPath ctx.path, drawVersionId draws s.world.store bucket⟩ plain
    (inv.parts.apart stored cfg _ notPart _)
  unfold handleCompleteMultipartUpload
  simp only [named, requested, upload]
  split
  · next e files out =>
    rw [out] at failed
    obtain ⟨_, kept⟩ := failed e rfl
    refine ⟨e, rfl, rfl, ?_⟩
    intro data bytes read
    cases data with
    | inline b => exact read
    | fileRef p => exact kept p bytes id read
  · next etag size data files out =>
    rw [out] at done
    obtain ⟨works, _⟩ := done etag size data rfl
    rw [works] at fails
    cases fails

theorem complete_readable (inv : UploadInvariant cfg s) (uuid : IsUuid draws.uuid)
    (known : completing s.world.store ctx = some (bucket, uploadId, u))
    (works : (multipartRead s.world.files ((found ctx u).map (·.data))).fails = false) :
    ∃ v, (handleCompleteMultipartUpload cfg draws s.world ctx).1 =
        .ok ⟨bucket, keyFromPath ctx.path, v.etag⟩ ∧
      (handleCompleteMultipartUpload cfg draws s.world ctx).2.store.getObject bucket
        (keyFromPath ctx.path) = some v ∧
      (handleCompleteMultipartUpload cfg draws s.world ctx).2.files.readData v.data =
        some (assembled cfg (found ctx u)
          (multipartRead s.world.files ((found ctx u).map (·.data))).bytes) ∧
      v.etag = (multipartEtag cfg (requestedParts ctx) (found ctx u)).getD
        (formatEtag (cfg.md5 (multipartRead s.world.files ((found ctx u).map (·.data))).bytes)) := by
  obtain ⟨named, requested, upload⟩ := completing_some known
  obtain ⟨stored, isTarget⟩ := Option.filter_eq_some_iff.mp upload
  have place : u.bucket = bucket ∧ u.key = keyFromPath ctx.path := by simpa using isTarget
  obtain ⟨plain, notPart⟩ := drawVersionId_plain uuid s.world.store bucket
  obtain ⟨tmp, _, failed, done⟩ := assembleParts_effects cfg inv.tmp (requestedParts ctx)
    (found ctx u) ⟨bucket, keyFromPath ctx.path, drawVersionId draws s.world.store bucket⟩ plain
    (inv.parts.apart stored cfg _ notPart _)
  unfold handleCompleteMultipartUpload
  simp only [named, requested, upload]
  split
  · next e files out =>
    rw [out] at failed
    obtain ⟨fails, _⟩ := failed e rfl
    rw [works] at fails
    cases fails
  · next etag size data files out =>
    rw [out] at tmp done
    obtain ⟨_, tag, _, read⟩ := done etag size data rfl
    simp only [S3Store.completeMultipartUploadWithVersion, stored, place.1, place.2]
    exact ⟨_, rfl, getObject_putObjectVersion _ _ _ rfl, removeReplaced_reads tmp _ _ read, tag⟩

end Known
end Answers

/-! ## The tag and the bytes of the listed parts -/

section Listed

variable {cfg : Config} {s : Session} {ctx : RequestContext} {uploadId : String}
  {u : MultipartUpload}

theorem flatMap_lookup {parts : List (Nat × UploadPart)} {f : UploadPart → Bytes}
    {g : Nat → Bytes} {numbers : List Nat}
    (each : ∀ n ∈ numbers, ∃ part, parts.lookup n = some part ∧ f part = g n) :
    (numbers.filterMap fun n => parts.lookup n).flatMap f = numbers.flatMap g ∧
      (numbers.filterMap fun n => parts.lookup n).length = numbers.length := by
  induction numbers with
  | nil => exact ⟨rfl, rfl⟩
  | cons n rest ih =>
    obtain ⟨part, here, same⟩ := each n List.mem_cons_self
    obtain ⟨bytes, length⟩ := ih fun m later => each m (List.mem_cons_of_mem _ later)
    rw [List.filterMap_cons, here]
    exact ⟨by simp [same, bytes], by simp [length]⟩

theorem length_flatMap_digests (digests : ∀ b, (cfg.md5 b).length = 16) (body : Nat → Bytes)
    (numbers : List Nat) :
    (numbers.flatMap fun n => cfg.md5 (body n)).length = numbers.length * 16 := by
  induction numbers with
  | nil => rfl
  | cons n rest ih =>
    simp only [List.flatMap_cons, List.length_append, digests, ih, List.length_cons]
    omega

/-- The tag that the request gives for a selected part is the tag of the uploaded body. -/
theorem listed_digest (inv : UploadInvariant cfg s) (stored : s.world.store.multipartUploads[uploadId]? = some u)
    (each : ∀ entry ∈ listedParts ctx, ∃ n, ListedAs u entry n) (member : n ∈ listedNumbers ctx) (positive : 0 < n) :
    ∃ part, u.parts.lookup n = some part ∧ part.partNumber = n ∧
      ∃ etag, (requestedParts ctx).lookup n = some etag ∧
        hexDecode (bareTag etag) = some (cfg.md5 ((s.sent uploadId n).getD [])) := by
  obtain ⟨entry, listed, number⟩ := List.mem_filterMap.mp member
  obtain ⟨m, number', part, here, _⟩ := each entry listed
  cases number.symm.trans number'
  obtain ⟨filed, body, sent, tag, _⟩ := inv.recorded uploadId u stored n part here
  have requested : n ∈ (requestedParts ctx).map Prod.fst := by
    rw [map_fst_requestedParts]
    exact List.mem_filter.mpr ⟨member, by simpa using positive⟩
  have some_tag : ((requestedParts ctx).lookup n).isSome := by
    obtain ⟨pair, inside, rfl⟩ := List.mem_map.mp requested
    rw [List.lookup_isSome_iff]
    exact ⟨pair, inside, beq_self_eq_true _⟩
  obtain ⟨etag, found⟩ := Option.isSome_iff_exists.mp some_tag
  refine ⟨part, here, filed, etag, found, ?_⟩
  have pair := mem_of_lookup found
  rw [requestedParts_eq] at pair
  obtain ⟨entry', listed', selected⟩ := List.mem_filterMap.mp pair
  obtain ⟨m, number', part', here', same⟩ := each entry' listed'
  rw [number'] at selected
  simp only [Option.getD_some, Option.ite_none_right_eq_some, Option.some.injEq,
    Prod.mk.injEq] at selected
  obtain ⟨_, rfl, rfl⟩ := selected
  rw [here] at here'
  cases here'
  rw [same, tag, bareTag_formatEtag, hexDecode_hexEncode, sent, Option.getD_some]

/-- The digest that the request gives for a part. -/
def suppliedDigest (parts : List (Nat × String)) (n : Nat) : Bytes :=
  match (parts.lookup n).bind fun etag => hexDecode (bareTag etag) with
  | some bytes => if bytes.length = 16 then bytes else []
  | none => []

theorem multipartEtag_eq (parts : List (Nat × String)) (selected : List UploadPart) :
    multipartEtag cfg parts selected =
      if (selected.flatMap fun part => suppliedDigest parts part.partNumber).length =
          selected.length * 16 then
        some ("\"" ++ hexEncode (cfg.md5 (selected.flatMap fun part =>
          suppliedDigest parts part.partNumber)) ++ "-" ++ toString selected.length ++ "\"")
      else none := rfl

/-- The handler's tag, when every listed part exists with its tag. -/
theorem multipartEtag_of_listed (digests : ∀ b, (cfg.md5 b).length = 16)
    (inv : UploadInvariant cfg s) (stored : s.world.store.multipartUploads[uploadId]? = some u)
    (each : ∀ entry ∈ listedParts ctx, ∃ n, ListedAs u entry n) :
    multipartEtag cfg (requestedParts ctx) (found ctx u) =
      some ("\"" ++ hexEncode (cfg.md5 ((((listedNumbers ctx).filter (0 < ·)).insertionSort
          (· ≤ ·)).flatMap fun n => cfg.md5 ((s.sent uploadId n).getD []))) ++ "-" ++
        toString ((listedNumbers ctx).filter (0 < ·)).length ++ "\"") := by
  have pieces : ∀ n ∈ ((listedNumbers ctx).filter (0 < ·)).insertionSort (· ≤ ·),
      ∃ part, u.parts.lookup n = some part ∧
        suppliedDigest (requestedParts ctx) part.partNumber =
          cfg.md5 ((s.sent uploadId n).getD []) := by
    intro n member
    rw [List.mem_insertionSort, List.mem_filter] at member
    obtain ⟨part, here, filed, etag, tag, decoded⟩ :=
      listed_digest inv stored each member.1 (by simpa using member.2)
    exact ⟨part, here, by simp [suppliedDigest, filed, tag, decoded, digests]⟩
  obtain ⟨concat, length⟩ := flatMap_lookup pieces
  rw [List.length_insertionSort] at length
  have selected : found ctx u = (((listedNumbers ctx).filter (0 < ·)).insertionSort
      (· ≤ ·)).filterMap fun n => u.parts.lookup n := by
    rw [found, selectParts, map_fst_requestedParts]
  rw [multipartEtag_eq, selected, concat, length, length_flatMap_digests digests,
    List.length_insertionSort, if_pos rfl]

theorem length_listedNumbers (each : ∀ entry ∈ listedParts ctx, ∃ n, ListedAs u entry n) :
    (listedNumbers ctx).length = (listedParts ctx).length := by
  unfold listedNumbers
  generalize listedParts ctx = listed at each
  induction listed with
  | nil => rfl
  | cons entry rest ih =>
    obtain ⟨n, number, _⟩ := each entry List.mem_cons_self
    rw [List.filterMap_cons_some number, List.length_cons, List.length_cons,
      ih fun entry' later => each entry' (List.mem_cons_of_mem _ later)]

/-- The handler counts the parts it looked up, so a tag with the number of listed parts says
that all of them have positive numbers. -/
theorem positive_of_etag (each : ∀ entry ∈ listedParts ctx, ∃ n, ListedAs u entry n)
    {digest : String}
    (same : "\"" ++ digest ++ "-" ++ toString ((listedNumbers ctx).filter (0 < ·)).length ++ "\"" =
      expectedEtag cfg s ctx uploadId) : ∀ n ∈ listedNumbers ctx, 0 < n := by
  have count := RustFmt.number_of_hyphen "\"" same
  rw [← length_listedNumbers each, List.length_filter_eq_length_iff] at count
  simpa using count

/-- With positive numbers the handler's tag is the expected one. -/
theorem etag_of_listed (digests : ∀ b, (cfg.md5 b).length = 16) (inv : UploadInvariant cfg s)
    (stored : s.world.store.multipartUploads[uploadId]? = some u)
    (each : ∀ entry ∈ listedParts ctx, ∃ n, ListedAs u entry n)
    (positive : ∀ n ∈ listedNumbers ctx, 0 < n) :
    multipartEtag cfg (requestedParts ctx) (found ctx u) = some (expectedEtag cfg s ctx uploadId) := by
  have all : (listedNumbers ctx).filter (0 < ·) = listedNumbers ctx := by
    simpa [List.filter_eq_self] using positive
  rw [multipartEtag_of_listed digests inv stored each, all, length_listedNumbers each]
  rfl

/-- From any session in which the stored parts are as they were uploaded. -/
theorem completesExactly_iff (digests : ∀ b, (cfg.md5 b).length = 16) (inv : UploadInvariant cfg s)
     (uuid : IsUuid draws.uuid) :
    CompletesExactly cfg s ctx draws ↔ Refused s ctx ∨ Matching cfg s ctx := by
  cases known : completing s.world.store ctx with
  | none =>
    obtain ⟨e, answer⟩ := complete_unknown cfg draws known
    refine iff_of_true ⟨?_, ?_⟩ (.inl (.inl known))
    · intro _ _
      rw [answer]
      exact ⟨rfl, fun _ _ read => read⟩
    · intro out ok
      rw [answer] at ok
      cases ok
  | some triple =>
    obtain ⟨bucket, id, u⟩ := triple
    obtain ⟨_, _, upload⟩ := completing_some known
    obtain ⟨stored, _⟩ := Option.filter_eq_some_iff.mp upload
    cases works : (multipartRead s.world.files ((found ctx u).map (·.data))).fails with
    | true =>
      obtain ⟨e, refused, untroubled⟩ := complete_unreadable inv uuid known works
      refine iff_of_true ⟨fun _ _ => untroubled, ?_⟩ (.inl (.inr ⟨bucket, id, u, known, works⟩))
      intro out ok
      rw [refused] at ok
      cases ok
    | false =>
      obtain ⟨v, answer, current, read, tag⟩ := complete_readable inv uuid known works
      have accepted : ¬ Refused s ctx := by
        rintro (unknown | ⟨b, id', u', known', fails⟩)
        · rw [known] at unknown
          cases unknown
        · rw [known] at known'
          cases known'
          rw [works] at fails
          cases fails
      rw [or_iff_right accepted]
      constructor
      · rintro ⟨_, exactly⟩
        obtain ⟨distinct, b, id', u', known', each, etag, v', current', _, bytes⟩ :=
          exactly _ answer
        rw [known] at known'
        cases known'
        rw [current] at current'
        cases current'
        have expected := tag
        rw [multipartEtag_of_listed digests inv stored each, Option.getD_some] at expected
        have positive := positive_of_etag each (expected.symm.trans etag)
        refine ⟨distinct, bucket, id, u, known, ?_, Option.some.inj (read.symm.trans bytes)⟩
        intro entry listed
        obtain ⟨n, number, part⟩ := each entry listed
        exact ⟨n, positive n (List.mem_filterMap.mpr ⟨entry, listed, number⟩), number, part⟩
      · rintro ⟨distinct, b, id', u', known', each, held⟩
        rw [known] at known'
        cases known'
        have listed : ∀ entry ∈ listedParts ctx, ∃ n, ListedAs u entry n := by
          intro entry member
          obtain ⟨n, _, here⟩ := each entry member
          exact ⟨n, here⟩
        have positive : ∀ n ∈ listedNumbers ctx, 0 < n := by
          intro n member
          obtain ⟨entry, inside, number⟩ := List.mem_filterMap.mp member
          obtain ⟨m, large, number', _⟩ := each entry inside
          cases number.symm.trans number'
          exact large
        have etag : v.etag = expectedEtag cfg s ctx id := by
          rw [tag, etag_of_listed digests inv stored listed positive, Option.getD_some]
        refine ⟨fun e refused => ?_, fun out ok => ?_⟩
        · rw [answer] at refused
          cases refused
        · rw [answer] at ok
          cases ok
          exact ⟨distinct, bucket, id, u, known, listed, etag, v, current, rfl, held ▸ read⟩

end Listed

/-- The digests of the one-byte part and of its digest; small objects stay in memory. -/
def partDigests : Config :=
  { tinyThreshold with
    md5 := fun bytes =>
      if bytes = [65] then
        [127, 197, 98, 112, 231, 167, 15, 168, 26, 89, 53, 183, 46, 172, 190, 41]
      else if bytes = [127, 197, 98, 112, 231, 167, 15, 168, 26, 89, 53, 183, 46, 172, 190, 41] then
        [143, 40, 242, 231, 35, 24, 96, 17, 93, 42, 140, 172, 186, 1, 157, 190]
      else List.replicate 16 0
    inlineObjectThreshold := 1048576 }

def partContext (path : String) (query : List (String × String)) (body : Bytes) : RequestContext :=
  ⟨path, "us-east-1", [], Std.ExtTreeMap.ofList query, none, none, some body⟩

def uploadOne : String := "5f4c1e9a-30b7-4f1d-9d52-8e6b7a2c4d10"

/-- An upload of `a` with one part, `A`. -/
def onePartUploaded : List Call :=
  [⟨.createBucket, partContext "/bk" [] [], ⟨0, ""⟩, fun _ => ""⟩,
    ⟨.createMultipartUpload, partContext "/bk/a" [] [], ⟨0, uploadOne⟩, fun _ => ""⟩,
    ⟨.uploadPart, partContext "/bk/a" [("uploadId", uploadOne), ("partNumber", "1")] [65],
      ⟨0, ""⟩, fun _ => ""⟩]

def partXml (number : String) : String :=
  "<Part><PartNumber>" ++ number ++
    "</PartNumber><ETag>7fc56270e7a70fa81a5935b72eacbe29</ETag></Part>"

def completeContext (parts : String) : RequestContext :=
  partContext "/bk/a" [("uploadId", uploadOne)]
    ("<CompleteMultipartUpload>" ++ parts ++ "</CompleteMultipartUpload>").toUTF8.data.toList

def completeDraws : Draws := ⟨0, "c2a7f3d8-94b1-4e60-8d25-7b0e5f1a6c93"⟩

theorem partDigests_length (bytes : Bytes) : (partDigests.md5 bytes).length = 16 := by
  simp only [partDigests]
  split
  · rfl
  · split
    · rfl
    · simp

example : onePartUploaded.length = 3 := by decide +kernel

end Openstack.S3

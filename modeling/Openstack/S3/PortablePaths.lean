import Openstack.Lib.Base64
import Openstack.Lib.JsonCodec
import Openstack.Lib.RustFmt
import Openstack.S3.SnapshotRoundTrip

/-!
# A store as JSON, with paths that can move

What the derived serialisers of `crates/services/s3/src/store.rs` write for a store and read back,
around the data references of `serde_object_data_ref`. Fields that the stores here do not have are not
written. The texts of instants come from outside the repository.
-/
namespace Openstack.S3

open JsonCodec (writeList readList writeMap readMap readField)
open State (Serde)

/-- `DateTime<Utc>` as `chrono` writes and reads it. -/
structure Timestamps where
  write : Instant → Json
  read : Json → Option Instant

section Values

variable (b64 : Base64) (time : Timestamps)

def Bucket.toJson (b : Bucket) : Json :=
  .obj [("name", .str b.name), ("creation_date", time.write b.creationDate),
    ("region", .str b.region), ("versioning", .str b.versioning)]

def Bucket.ofJson (v : Json) : Option Bucket := do
  let name ← readField Json.asStr? v "name"
  let creationDate ← readField time.read v "creation_date"
  let region ← readField Json.asStr? v "region"
  let versioning ← readField Json.asStr? v "versioning"
  pure { name, creationDate, region, versioning }

def ObjectVersion.toJson (v : ObjectVersion) : Json :=
  .obj [("version_id", .str v.versionId), ("last_modified", time.write v.lastModified),
    ("etag", .str v.etag), ("content_type", .str v.contentType), ("size", .posInt v.size),
    ("metadata", writeMap Json.str v.metadata), ("data", v.data.serialize b64),
    ("delete_marker", .bool v.deleteMarker)]

def ObjectVersion.ofJson (v : Json) : Option ObjectVersion := do
  let versionId ← readField Json.asStr? v "version_id"
  let lastModified ← readField time.read v "last_modified"
  let etag ← readField Json.asStr? v "etag"
  let contentType ← readField Json.asStr? v "content_type"
  let size ← readField Json.asU64? v "size"
  let metadata ← readField (readMap Json.asStr?) v "metadata"
  let data ← readField (ObjectDataRef.deserialize b64) v "data"
  let deleteMarker ← readField Json.asBool? v "delete_marker"
  pure { versionId, lastModified, etag, contentType, size, metadata, data, deleteMarker }

def S3Object.toJson (obj : S3Object) : Json :=
  .obj [("key", .str obj.key), ("versions", writeList (·.toJson b64 time) obj.versions)]

def S3Object.ofJson (v : Json) : Option S3Object := do
  let key ← readField Json.asStr? v "key"
  let versions ← readField (readList (ObjectVersion.ofJson b64 time)) v "versions"
  pure { key, versions }

def Objects.toJson (o : Objects) : Json := writeMap (·.toJson b64 time) o.map

/-- Objects under other keys than their own are never written. -/
def Objects.ofMap (map : StrMap S3Object) : Option Objects :=
  if keyed : ∀ e ∈ map.toList, e.2.key = e.1 then
    some ⟨map, fun key obj found =>
      keyed (key, obj) (Std.ExtTreeMap.mem_toList_iff_getElem?_eq_some.mpr found)⟩
  else none

def Objects.ofJson (v : Json) : Option Objects :=
  (readMap (S3Object.ofJson b64 time) v).bind Objects.ofMap

def UploadPart.toJson (part : UploadPart) : Json :=
  .obj [("part_number", .posInt part.partNumber), ("etag", .str part.etag),
    ("size", .posInt part.size), ("data", part.data.serialize b64),
    ("last_modified", time.write part.lastModified)]

def UploadPart.ofJson (v : Json) : Option UploadPart := do
  let partNumber ← readField Json.asU64? v "part_number"
  let etag ← readField Json.asStr? v "etag"
  let size ← readField Json.asU64? v "size"
  let data ← readField (ObjectDataRef.deserialize b64) v "data"
  let lastModified ← readField time.read v "last_modified"
  pure { partNumber, etag, size, data, lastModified }

/-- The keys of an object are texts, so the part numbers are written in decimal. -/
def partsToJson (parts : List (Nat × UploadPart)) : Json :=
  .obj (parts.map fun p => (toString p.1, p.2.toJson b64 time))

def partOfEntry (e : String × Json) : Option (Nat × UploadPart) := do
  let number ← RustFmt.parseUnsigned 32 e.1
  let part ← UploadPart.ofJson b64 time e.2
  pure (number, part)

def partsOfJson : Json → Option (List (Nat × UploadPart))
  | .obj fields => fields.mapM (partOfEntry b64 time)
  | _ => none

def MultipartUpload.toJson (u : MultipartUpload) : Json :=
  .obj [("upload_id", .str u.uploadId), ("bucket", .str u.bucket), ("key", .str u.key),
    ("initiated", time.write u.initiated), ("content_type", .str u.contentType),
    ("metadata", writeMap Json.str u.metadata), ("parts", partsToJson b64 time u.parts)]

def MultipartUpload.ofJson (v : Json) : Option MultipartUpload := do
  let uploadId ← readField Json.asStr? v "upload_id"
  let bucket ← readField Json.asStr? v "bucket"
  let key ← readField Json.asStr? v "key"
  let initiated ← readField time.read v "initiated"
  let contentType ← readField Json.asStr? v "content_type"
  let metadata ← readField (readMap Json.asStr?) v "metadata"
  let parts ← readField (partsOfJson b64 time) v "parts"
  pure { uploadId, bucket, key, initiated, contentType, metadata, parts }

def S3Store.toJson (s : S3Store) : Json :=
  .obj [("buckets", writeMap (·.toJson time) s.buckets),
    ("objects", writeMap (·.toJson b64 time) s.objects),
    ("multipart_uploads", writeMap (·.toJson b64 time) s.multipartUploads)]

def S3Store.ofJson (v : Json) : Option S3Store := do
  let buckets ← readField (readMap (Bucket.ofJson time)) v "buckets"
  let objects ← readField (readMap (Objects.ofJson b64 time)) v "objects"
  let multipartUploads ←
    readField (readMap (MultipartUpload.ofJson b64 time)) v "multipart_uploads"
  pure { buckets, objects, multipartUploads }

/-- The store through its JSON and the text of it. -/
def storeSerde (json : Serde Json) : Serde S3Store where
  toVecPretty s := json.toVecPretty (s.toJson b64 time)
  fromSlice bytes := (json.fromSlice bytes).bind (S3Store.ofJson b64 time)

end Values

section RoundTrip

/-- A data reference that comes back from its JSON. -/
def ObjectDataRef.Reads (b64 : Base64) (d : ObjectDataRef) : Prop :=
  ObjectDataRef.deserialize b64 (d.serialize b64) = some d

variable {b64 : Base64} {time : Timestamps} (timed : ∀ t, time.read (time.write t) = some t)

theorem readMap_metadata (m : StrMap String) : readMap Json.asStr? (writeMap Json.str m) = some m :=
  JsonCodec.readMap_writeMap fun _ _ _ => rfl

include timed

theorem Bucket.ofJson_toJson (b : Bucket) : Bucket.ofJson time (b.toJson time) = some b := by
  simp [Bucket.toJson, Bucket.ofJson, Json.asStr?, timed]

theorem ObjectVersion.ofJson_toJson {v : ObjectVersion} (reads : v.data.Reads b64) :
    ObjectVersion.ofJson b64 time (v.toJson b64 time) = some v := by
  unfold ObjectDataRef.Reads at reads
  simp [ObjectVersion.toJson, ObjectVersion.ofJson, Json.asStr?,
    Json.asU64?, Json.asBool?, readMap_metadata, timed, reads]

theorem S3Object.ofJson_toJson {obj : S3Object} (reads : ∀ v ∈ obj.versions, v.data.Reads b64) :
    S3Object.ofJson b64 time (obj.toJson b64 time) = some obj := by
  have versions : readList (ObjectVersion.ofJson b64 time)
      (writeList (·.toJson b64 time) obj.versions) = some obj.versions :=
    JsonCodec.readList_writeList fun v member => ObjectVersion.ofJson_toJson timed (reads v member)
  simp [S3Object.toJson, S3Object.ofJson, Json.asStr?, versions]

omit timed in
theorem Objects.ofMap_map (o : Objects) : Objects.ofMap o.map = some o := by
  have keyed : ∀ e ∈ o.map.toList, e.2.key = e.1 := fun e member =>
    o.keyed e.1 e.2 (Std.ExtTreeMap.mem_toList_iff_getElem?_eq_some.mp member)
  rw [Objects.ofMap, dif_pos keyed]

theorem Objects.ofJson_toJson {o : Objects}
    (reads : ∀ (key : String) (obj : S3Object), o.map[key]? = some obj →
      ∀ v ∈ obj.versions, v.data.Reads b64) :
    Objects.ofJson b64 time (o.toJson b64 time) = some o := by
  have map : readMap (S3Object.ofJson b64 time) (o.toJson b64 time) = some o.map :=
    JsonCodec.readMap_writeMap fun key obj found => S3Object.ofJson_toJson timed (reads key obj found)
  rw [Objects.ofJson, map, Option.bind_some, Objects.ofMap_map]

theorem UploadPart.ofJson_toJson {part : UploadPart} (reads : part.data.Reads b64) :
    UploadPart.ofJson b64 time (part.toJson b64 time) = some part := by
  unfold ObjectDataRef.Reads at reads
  simp [UploadPart.toJson, UploadPart.ofJson, Json.asStr?,
    Json.asU64?, timed, reads]

theorem MultipartUpload.ofJson_toJson {u : MultipartUpload} (numbers : ∀ p ∈ u.parts, p.1 < 2 ^ 32)
    (reads : ∀ p ∈ u.parts, p.2.data.Reads b64) :
    MultipartUpload.ofJson b64 time (u.toJson b64 time) = some u := by
  have parts : partsOfJson b64 time (partsToJson b64 time u.parts) = some u.parts := by
    apply JsonCodec.mapM_map_eq_some
    intro p member
    rw [partOfEntry, RustFmt.parseUnsigned_toString, if_pos (numbers p member),
      UploadPart.ofJson_toJson timed (reads p member)]
    rfl
  simp [MultipartUpload.toJson, MultipartUpload.ofJson,
    Json.asStr?, readMap_metadata, timed, parts]

/-- The part numbers are of type `u32`. -/
def S3Store.PartNumbers (s : S3Store) : Prop :=
  ∀ (id : String) (u : MultipartUpload), s.multipartUploads[id]? = some u → ∀ p ∈ u.parts, p.1 < 2 ^ 32

theorem S3Store.ofJson_toJson {s : S3Store} (numbers : s.PartNumbers)
    (reads : ∀ d ∈ s.dataRefs, d.Reads b64) :
    S3Store.ofJson b64 time (s.toJson b64 time) = some s := by
  have buckets : readMap (Bucket.ofJson time) (writeMap (·.toJson time) s.buckets) =
      some s.buckets :=
    JsonCodec.readMap_writeMap fun _ b _ => Bucket.ofJson_toJson timed b
  have objects : readMap (Objects.ofJson b64 time) (writeMap (·.toJson b64 time) s.objects) =
      some s.objects := by
    apply JsonCodec.readMap_writeMap
    intro bucket o found
    apply Objects.ofJson_toJson timed
    intro key obj stored v member
    exact reads _ (mem_dataRefs.mpr (.inl ⟨bucket, key, o, obj, found, stored, v, member, rfl⟩))
  have uploads : readMap (MultipartUpload.ofJson b64 time)
      (writeMap (·.toJson b64 time) s.multipartUploads) = some s.multipartUploads := by
    apply JsonCodec.readMap_writeMap
    intro id u found
    apply MultipartUpload.ofJson_toJson timed (numbers id u found)
    intro p member
    exact reads _ (mem_dataRefs.mpr (.inr ⟨id, u, found, p, member, rfl⟩))
  simp [S3Store.toJson, S3Store.ofJson, buckets, objects, uploads]

end RoundTrip

/-- The reference is a file below the absolute directory `base`, or inline. -/
def ObjectDataRef.Below (base : Path) (d : ObjectDataRef) : Prop :=
  ∀ p, d = .fileRef p → IsPathBuf p ∧ base <+: p

/-- The part of the path after `base`, below `base'`. -/
def ObjectDataRef.reroot (base base' : Path) : ObjectDataRef → ObjectDataRef
  | .fileRef p => .fileRef (base' ++ p.drop base.length)
  | data => data

def S3Store.reroot (base base' : Path) (s : S3Store) : S3Store := s.mapData (·.reroot base base')

variable {base base' : Path} {d : ObjectDataRef}

theorem isRelative_rest (absolute : isRelative base = false) {rest : Path}
    (valid : IsPathBuf (base ++ rest)) : isRelative rest = true := by
  cases base with
  | nil => cases absolute
  | cons first more =>
    cases rest with
    | nil => rfl
    | cons c others =>
      have other := (valid.tail c (by simp)).1
      simpa [isRelative] using other

theorem resolve_relativize (absolute : isRelative base = false) (below : d.Below base) :
    (d.relativize base).resolve base' = d.reroot base base' := by
  cases d with
  | inline bytes => rfl
  | fileRef p =>
    obtain ⟨valid, rest, rfl⟩ := below p rfl
    have relative := isRelative_rest absolute valid
    simp [ObjectDataRef.relativize, stripBase_of_prefix rest rfl, ObjectDataRef.resolve,
      ObjectDataRef.reroot, joinPath, relative]

theorem reroot_same (below : d.Below base) : d.reroot base base = d := by
  cases d with
  | inline bytes => rfl
  | fileRef p =>
    obtain ⟨_, rest, rfl⟩ := below p rfl
    simp [ObjectDataRef.reroot]

theorem mapValues_congr {V W : Type} {f g : V → W} {m : StrMap V}
    (same : ∀ (k : String) v, m[k]? = some v → f v = g v) :
    StrMap.mapValues f m = StrMap.mapValues g m := by
  refine Std.ExtTreeMap.ext_getElem? fun k => ?_
  rw [StrMap.getElem?_mapValues, StrMap.getElem?_mapValues]
  cases found : m[k]? with
  | none => rfl
  | some v => rw [Option.map_some, Option.map_some, same k v found]

/-- Every data reference of the store decides on its own. -/
theorem mapData_congr {f g : ObjectDataRef → ObjectDataRef} {s : S3Store}
    (same : ∀ d ∈ s.dataRefs, f d = g d) : s.mapData f = s.mapData g := by
  have objects : StrMap.mapValues (·.mapData f) s.objects =
      StrMap.mapValues (·.mapData g) s.objects := by
    apply mapValues_congr
    intro bucket o found
    rw [Objects.mapData, Objects.mapData, Objects.mk.injEq]
    apply mapValues_congr
    intro key obj stored
    rw [S3Object.mk.injEq]
    refine ⟨rfl, List.map_congr_left fun v member => ?_⟩
    rw [same v.data (mem_dataRefs.mpr (.inl ⟨bucket, key, o, obj, found, stored, v, member, rfl⟩))]
  have uploads : StrMap.mapValues (fun u : MultipartUpload =>
      { u with parts := u.parts.map fun p : Nat × UploadPart => (p.1, { p.2 with data := f p.2.data }) })
        s.multipartUploads =
      StrMap.mapValues (fun u : MultipartUpload =>
        { u with parts := u.parts.map fun p : Nat × UploadPart => (p.1, { p.2 with data := g p.2.data }) })
        s.multipartUploads := by
    apply mapValues_congr
    intro id u found
    rw [MultipartUpload.mk.injEq]
    refine ⟨rfl, rfl, rfl, rfl, rfl, rfl, List.map_congr_left fun p member => ?_⟩
    rw [same p.2.data (mem_dataRefs.mpr (.inr ⟨id, u, found, p, member, rfl⟩))]
  rw [S3Store.mapData, S3Store.mapData, objects, uploads]

theorem partNumbers_mapData {f : ObjectDataRef → ObjectDataRef} {s : S3Store}
    (numbers : s.PartNumbers) : (s.mapData f).PartNumbers := by
  intro id u found p member
  simp only [S3Store.mapData, StrMap.getElem?_mapValues] at found
  obtain ⟨old, stored, rfl⟩ := Option.map_eq_some_iff.mp found
  obtain ⟨q, inside, rfl⟩ := List.mem_map.mp member
  exact numbers id old stored q inside

/-- An upload with a part in a file. -/
def oneUpload : S3Store where
  multipartUploads := (∅ : StrMap MultipartUpload).insert "u"
    ⟨"u", "b", "k", 0, "text/plain", ∅, [(1, ⟨1, "e", 9, .fileRef ["/", "data", "s3", "b", "1"], 0⟩)]⟩

/-- The alphabet and padding of `general_purpose::STANDARD`. -/
def standardBase64 : Base64 where
  encode bytes := String.ofList (Openstack.Base64.encode bytes)
  decode text := Openstack.Base64.decode text.toList

/-- The start of the epoch as a text, other instants as numbers. -/
def epochText : Timestamps where
  write
    | .ofNat 0 => .str "1970-01-01T00:00:00Z"
    | .ofNat n => .posInt n
    | .negSucc n => .negInt n
  read
    | .str text => if text = "1970-01-01T00:00:00Z" then some 0 else none
    | .posInt n => some n
    | .negInt n => some (.negSucc n)
    | _ => none

theorem epochText_read_write (t : Instant) : epochText.read (epochText.write t) = some t := by
  cases t with
  | ofNat n => cases n <;> rfl
  | negSucc n => rfl

/-- The value that a save prints. -/
def oneUploadJson : Json :=
  (oneUpload.relativizePaths ["/", "data", "s3"]).toJson standardBase64 epochText

/-- What `to_vec_pretty` prints for it. -/
def oneUploadText : Bytes :=
  ("\x7b\n  \"buckets\": \x7b\x7d,\n  \"objects\": \x7b\x7d,\n  \"multipart_uploads\": \x7b\n" ++
    "    \"u\": \x7b\n      \"upload_id\": \"u\",\n      \"bucket\": \"b\",\n" ++
    "      \"key\": \"k\",\n      \"initiated\": \"1970-01-01T00:00:00Z\",\n" ++
    "      \"content_type\": \"text/plain\",\n      \"metadata\": \x7b\x7d,\n" ++
    "      \"parts\": \x7b\n        \"1\": \x7b\n          \"part_number\": 1,\n" ++
    "          \"etag\": \"e\",\n          \"size\": 9,\n          \"data\": \x7b\n" ++
    "            \"file_ref\": \"b/1\"\n          \x7d,\n" ++
    "          \"last_modified\": \"1970-01-01T00:00:00Z\"\n        \x7d\n      \x7d\n    \x7d\n" ++
    "  \x7d\n\x7d").toUTF8.data.toList

/-- The printer and the parser on that value and text. -/
def oneUploadSerde : Serde Json :=
  ⟨fun _ => oneUploadText, fun bytes => if bytes = oneUploadText then some oneUploadJson else none⟩

theorem mem_oneUpload {d : ObjectDataRef} (member : d ∈ oneUpload.dataRefs) :
    d = .fileRef ["/", "data", "s3", "b", "1"] := by
  have one : oneUpload.dataRefs = [.fileRef ["/", "data", "s3", "b", "1"]] := by decide +kernel
  rw [one] at member
  exact List.mem_singleton.mp member

end Openstack.S3

import Openstack.Lib.Paths
import Openstack.S3.Provider

/-!
# Where the files of a bucket lie

The paths that `ObjectFileStore` builds (`object_store.rs:93-168`, `object_store.rs:429-459`),
resolved as the operating system walks them. A key and an upload id only enter through a hash,
a version id is drawn, but a bucket name is the first segment of the request path as it stands
(`provider.rs:279-290`) and is joined as a component of its own.
-/
namespace Openstack.S3

open Paths (Normal Below Apart resolve)

/-- The account and region of a request. The gateway takes the account id from the access key,
twelve digits, and the region from its list of regions. -/
structure Tenant where
  accountId : String
  region : String
  accountNormal : Normal accountId
  regionNormal : Normal region

/-- The base directory, an absolute path without `.` and `..`. -/
structure BaseDir where
  components : Path
  normal : ∀ c ∈ components, Normal c

/-- Hexadecimal text. -/
def IsHex (text : String) : Prop :=
  text ≠ "" ∧ text.toList.all (fun c => c.isDigit || "abcdef".toList.contains c) = true

/-- The two digests print in hexadecimal. -/
structure HexHashes (cfg : Config) : Prop where
  keyHash : ∀ key, IsHex (cfg.keyHash key)
  keyHashLegacySha256 : ∀ key, IsHex (cfg.keyHashLegacySha256 key)

/-- `"null"` or a drawn id: letters, digits and hyphens. -/
def IsId (text : String) : Prop :=
  text ≠ "" ∧ text.toList.all (fun c => c.isAlphanum || c = '-') = true

/-- A bucket name the handlers accept: the first segment of some request path. -/
structure BucketName where
  name : String
  accepted : ∃ path, bucketFromPath path = some name

section Paths

variable (base : BaseDir) (tenant : Tenant)

/-- `base_dir/account/region`. -/
def tenantDir : Path := base.components ++ [tenant.accountId, tenant.region]

/-- `bucket_dir`. -/
def bucketDir (bucket : String) : Path := tenantDir base tenant ++ [bucket]

/-- The paths below the tenant's directory that an operation on one location uses: the directory
it makes sure of, the file itself in the current and in the legacy layout, and the temporary
file. -/
def locationPaths (cfg : Config) (loc : ObjectLocation) (tmpId : Nat) : List Path :=
  [ObjectFileStore.objectDir cfg loc.bucket loc.key, ObjectFileStore.objectPath cfg loc,
    ObjectFileStore.objectPathLegacy cfg loc, ObjectFileStore.tmpPath cfg loc tmpId]

/-- The paths of a request on a key: those of the object, and those of a part of an upload. -/
def requestPaths (cfg : Config) (bucket key versionId uploadId : String) (partNumber tmpId : Nat) :
    List Path :=
  locationPaths cfg ⟨bucket, key, versionId⟩ tmpId ++
    locationPaths cfg (partLocation bucket key uploadId partNumber) tmpId

/-- Every path of a request on the bucket resolves to strictly below `base_dir/account/region/bucket`,
so does every entry that a write or a copy changes, and the directory that DeleteBucket removes
is that directory. -/
structure Confined (cfg : Config) (bucket : String) : Prop where
  files : ∀ key versionId uploadId partNumber tmpId, IsId versionId →
    ∀ p ∈ requestPaths cfg bucket key versionId uploadId partNumber tmpId,
      Below (bucketDir base tenant bucket) (resolve (tenantDir base tenant ++ p))
  writes : ∀ (fs : ObjectFileStore) loc bytes fails p, loc.bucket = bucket → IsId loc.versionId →
    (fs.installFile cfg loc bytes fails).2.disk.entry p ≠ fs.disk.entry p →
    Below (bucketDir base tenant bucket) (resolve (tenantDir base tenant ++ p))
  copies : ∀ (fs : ObjectFileStore) src dst p, dst.bucket = bucket → IsId dst.versionId →
    (fs.copyObject cfg src dst).2.disk.entry p ≠ fs.disk.entry p →
    Below (bucketDir base tenant bucket) (resolve (tenantDir base tenant ++ p))
  removed : resolve (bucketDir base tenant bucket) = bucketDir base tenant bucket

end Paths

theorem normal_of_head {text : String} (head : text.toList.head? ≠ some '.') : Normal text := by
  constructor
  · rintro rfl
    exact head rfl
  · rintro rfl
    exact head rfl

theorem normal_of_last {text : String} (last : text.toList.getLast? ≠ some '.') : Normal text := by
  constructor
  · rintro rfl
    exact last rfl
  · rintro rfl
    exact last rfl

theorem IsHex.normal {text : String} (hex : IsHex text) : Normal text := by
  apply normal_of_head
  intro head
  exact absurd (List.all_eq_true.mp hex.2 '.' (List.mem_of_mem_head? head)) (by decide)

theorem IsId.normal {text : String} (id : IsId text) : Normal text := by
  apply normal_of_head
  intro head
  exact absurd (List.all_eq_true.mp id.2 '.' (List.mem_of_mem_head? head)) (by decide)

theorem partName_normal (partNumber : Nat) : Normal ("part-" ++ toString partNumber) := by
  apply normal_of_head
  rw [String.toList_append]
  exact (by decide : some 'p' ≠ some '.')

theorem tmpName_normal (versionId : String) (tmpId : Nat) :
    Normal (versionId ++ "-" ++ toString tmpId ++ ".tmp") := by
  apply normal_of_last
  rw [String.toList_append, List.getLast?_append_of_ne_nil _ (by decide)]
  decide

theorem tenantDir_normal (base : BaseDir) (tenant : Tenant) :
    ∀ c ∈ tenantDir base tenant, Normal c := by
  intro c member
  simp only [tenantDir, List.mem_append, List.mem_cons, List.not_mem_nil, or_false] at member
  rcases member with inBase | rfl | rfl
  · exact base.normal c inBase
  · exact tenant.accountNormal
  · exact tenant.regionNormal

section Confinement

variable {cfg : Config} {base : BaseDir} {tenant : Tenant}

/-- The paths at one location go down from the bucket's directory by normal components. -/
theorem locationPaths_normal (hashes : HexHashes cfg) {loc : ObjectLocation}
    (version : Normal loc.versionId) {tmpId : Nat} {p : Path}
    (member : p ∈ locationPaths cfg loc tmpId) :
    ∃ rest, p = loc.bucket :: rest ∧ rest ≠ [] ∧ ∀ c ∈ rest, Normal c := by
  have current := (hashes.keyHash loc.key).normal
  have legacy := (hashes.keyHashLegacySha256 loc.key).normal
  have tmp := tmpName_normal loc.versionId tmpId
  simp only [locationPaths, List.mem_cons, List.not_mem_nil, or_false] at member
  rcases member with rfl | rfl | rfl | rfl
  · exact ⟨[cfg.keyHash loc.key], rfl, by simp, by simpa using current⟩
  · exact ⟨[cfg.keyHash loc.key, loc.versionId], rfl, by simp, by simp [current, version]⟩
  · exact ⟨[cfg.keyHashLegacySha256 loc.key, loc.versionId], rfl, by simp,
      by simp [legacy, version]⟩
  · refine ⟨[cfg.keyHash loc.key, loc.versionId ++ "-" ++ toString tmpId ++ ".tmp"], rfl, by simp, ?_⟩
    intro c listed
    rcases List.mem_cons.mp listed with rfl | last
    · exact current
    · rw [List.mem_singleton.mp last]
      exact tmp

theorem requestPaths_normal (hashes : HexHashes cfg) {bucket key versionId uploadId : String}
    {partNumber tmpId : Nat} (id : IsId versionId) {p : Path}
    (member : p ∈ requestPaths cfg bucket key versionId uploadId partNumber tmpId) :
    ∃ rest, p = bucket :: rest ∧ rest ≠ [] ∧ ∀ c ∈ rest, Normal c := by
  rw [requestPaths, List.mem_append] at member
  rcases member with atObject | atPart
  · exact locationPaths_normal hashes id.normal atObject
  · exact locationPaths_normal hashes (partName_normal partNumber) atPart

theorem bucketDir_normal {bucket : String} (normal : Normal bucket) :
    ∀ c ∈ bucketDir base tenant bucket, Normal c := by
  intro c member
  rw [bucketDir, List.mem_append, List.mem_singleton] at member
  rcases member with inTenant | rfl
  · exact tenantDir_normal base tenant c inTenant
  · exact normal

/-- Normal components below a bucket with a normal name. -/
theorem below_of_normal {bucket : String} (normal : Normal bucket) {rest : Path}
    (nonempty : rest ≠ []) (normalRest : ∀ c ∈ rest, Normal c) :
    Below (bucketDir base tenant bucket) (resolve (tenantDir base tenant ++ bucket :: rest)) := by
  have path : tenantDir base tenant ++ bucket :: rest = bucketDir base tenant bucket ++ rest := by
    simp [bucketDir]
  have all : ∀ c ∈ bucketDir base tenant bucket ++ rest, Normal c := by
    intro c inPath
    rcases List.mem_append.mp inPath with inDir | inRest
    · exact bucketDir_normal normal c inDir
    · exact normalRest c inRest
  rw [path, Paths.resolve_normal all]
  exact Paths.below_append nonempty

/-- A write changes no other entry than its temporary file and its file. -/
theorem installFile_entry (fs : ObjectFileStore) (loc : ObjectLocation) (bytes : Bytes)
    (fails : Bool) (p : Path)
    (changed : (fs.installFile cfg loc bytes fails).2.disk.entry p ≠ fs.disk.entry p) :
    p ∈ locationPaths cfg loc fs.tmpCounter := by
  by_contra elsewhere
  simp only [locationPaths, List.mem_cons, List.not_mem_nil, or_false, not_or] at elsewhere
  obtain ⟨_, notFile, _, notTmp⟩ := elsewhere
  have created := Disk.entry_create_of_ne fs.disk bytes notTmp
  apply changed
  unfold ObjectFileStore.installFile
  dsimp only
  split
  · exact created
  · split
    · exact created
    · next d renamed =>
      unfold Disk.rename at renamed
      split at renamed
      · cases renamed
      · split at renamed
        · cases renamed
          exact created
        · cases renamed
          simp [Disk.unlink, Disk.link, notTmp, notFile, created]

/-- A copy changes no other entry than its target. -/
theorem copyObject_entry (fs : ObjectFileStore) (src dst : ObjectLocation) (p : Path)
    (changed : (fs.copyObject cfg src dst).2.disk.entry p ≠ fs.disk.entry p) :
    p = ObjectFileStore.objectPath cfg dst := by
  by_contra elsewhere
  apply changed
  unfold ObjectFileStore.copyObject
  split
  · rfl
  · dsimp only
    split
    · rfl
    · split
      · next d linked =>
        unfold Disk.hardLink at linked
        split at linked
        · cases linked
        · cases linked
          simp [Disk.link, elsewhere]
      · split
        · next d copied =>
          unfold Disk.copy at copied
          split at copied
          · cases copied
          · cases copied
            simp [Disk.entry_create_of_ne, elsewhere]
        · rfl

theorem confined_of_normal (hashes : HexHashes cfg) {bucket : String} (normal : Normal bucket) :
    Confined base tenant cfg bucket where
  files key versionId uploadId partNumber tmpId id p member := by
    obtain ⟨rest, rfl, nonempty, normalRest⟩ := requestPaths_normal hashes id member
    exact below_of_normal normal nonempty normalRest
  writes fs loc bytes fails p same id changed := by
    obtain ⟨rest, rfl, nonempty, normalRest⟩ :=
      locationPaths_normal hashes id.normal (installFile_entry fs loc bytes fails p changed)
    rw [same]
    exact below_of_normal normal nonempty normalRest
  copies fs src dst p same id changed := by
    have member : p ∈ locationPaths cfg dst 0 := by
      rw [copyObject_entry fs src dst p changed]
      simp [locationPaths]
    obtain ⟨rest, rfl, nonempty, normalRest⟩ := locationPaths_normal hashes id.normal member
    rw [same]
    exact below_of_normal normal nonempty normalRest
  removed := Paths.resolve_normal (bucketDir_normal normal)

/-- The directory of `.` is that of the region, the directory of `..` that of the account. -/
theorem normal_of_removed {bucket : String}
    (removed : resolve (bucketDir base tenant bucket) = bucketDir base tenant bucket) :
    Normal bucket := by
  have size := congrArg List.length removed
  rw [bucketDir, Paths.resolve_append, Paths.resolve_normal (tenantDir_normal base tenant)] at size
  constructor
  · rintro rfl
    simp [Paths.walk] at size
  · rintro rfl
    simp [Paths.walk] at size

theorem apart_of_normal {tenant' : Tenant} {bucket bucket' : String} (normal : Normal bucket)
    (normal' : Normal bucket')
    (different : tenant.accountId ≠ tenant'.accountId ∨ tenant.region ≠ tenant'.region ∨
      bucket ≠ bucket') :
    Apart (resolve (bucketDir base tenant bucket)) (resolve (bucketDir base tenant' bucket')) := by
  rw [Paths.resolve_normal (bucketDir_normal normal), Paths.resolve_normal (bucketDir_normal normal')]
  simp only [bucketDir, tenantDir, List.append_assoc, List.cons_append, List.nil_append]
  by_cases account : tenant.accountId = tenant'.accountId
  · by_cases region : tenant.region = tenant'.region
    · have buckets : bucket ≠ bucket' := by
        rcases different with h | h | h
        · exact absurd account h
        · exact absurd region h
        · exact h
      rw [account, region]
      have apart := Paths.apart_of_ne (base.components ++ [tenant'.accountId, tenant'.region])
        [] [] buckets
      simpa using apart
    · rw [account]
      have apart := Paths.apart_of_ne (base.components ++ [tenant'.accountId]) [bucket] [bucket']
        region
      simpa using apart
  · exact Paths.apart_of_ne base.components _ _ account

end Confinement

/-- The digests of the empty text under every key. -/
def emptyDigests : Config where
  keyHash _ := "99aa06d3014798d86001c324468d497f"
  keyHashLegacySha256 _ := "e3b0c44298fc1c149afbf4c8996fb92427ae41e4649b934ca495991b7852b855"
  md5 _ := []
  inlineObjectThreshold := 1048576

def exampleTenant : Tenant := ⟨"000000000000", "us-east-1", by decide, by decide⟩

def exampleBase : BaseDir := ⟨["data"], by decide⟩

theorem emptyDigests_hex : HexHashes emptyDigests where
  keyHash key := by
    have hex : IsHex "99aa06d3014798d86001c324468d497f" := ⟨by decide, by decide +kernel⟩
    exact hex
  keyHashLegacySha256 key := by
    have hex : IsHex "e3b0c44298fc1c149afbf4c8996fb92427ae41e4649b934ca495991b7852b855" :=
      ⟨by decide, by decide +kernel⟩
    exact hex

end Openstack.S3

import Openstack.Lib.Disk
import Openstack.S3.Store

/-!
# Object files

`crates/services/s3/src/object_store.rs`: objects as files below the directory of
one account in one region, at `bucket/key_hash/version_id`. The two hash functions
come from other crates and are parameters. Directories exist where they are needed,
and file operations fail only for the reasons a `Disk` has. Buffer sizes do not
matter for what ends up in a file.
-/
namespace Openstack.S3

/-- What the handlers take from other crates and from the environment. -/
structure Config where
  /-- XXH3-128 in hexadecimal. -/
  keyHash : String → String
  /-- SHA-256 in hexadecimal. -/
  keyHashLegacySha256 : String → String
  md5 : Bytes → Bytes
  /-- `S3_INLINE_OBJECT_THRESHOLD_BYTES`, 1 MiB by default. -/
  inlineObjectThreshold : Nat

/-- What a reader delivers, and whether it then fails. -/
structure Stream where
  bytes : Bytes
  fails : Bool
  deriving DecidableEq, Repr

/-- `ObjectFileStore` with the process-wide `TMP_COUNTER`. -/
structure ObjectFileStore where
  disk : Disk Path UInt8 := .empty
  tmpCounter : Nat := 0

structure ObjectLocation where
  bucket : String
  key : String
  versionId : String

namespace ObjectFileStore

variable (cfg : Config)

def objectDir (bucket key : String) : Path := [bucket, cfg.keyHash key]

def objectDirLegacy (bucket key : String) : Path := [bucket, cfg.keyHashLegacySha256 key]

def objectPath (loc : ObjectLocation) : Path := objectDir cfg loc.bucket loc.key ++ [loc.versionId]

def objectPathLegacy (loc : ObjectLocation) : Path :=
  objectDirLegacy cfg loc.bucket loc.key ++ [loc.versionId]

def resolveExistingObjectPath (fs : ObjectFileStore) (loc : ObjectLocation) : Option Path :=
  if fs.disk.entry (objectPath cfg loc) ≠ none then some (objectPath cfg loc)
  else if fs.disk.entry (objectPathLegacy cfg loc) ≠ none then some (objectPathLegacy cfg loc)
  else none

/-- `{version_id}-{tmp_id}.tmp` in the directory of the key. -/
def tmpPath (loc : ObjectLocation) (tmpId : Nat) : Path :=
  objectDir cfg loc.bucket loc.key ++ [loc.versionId ++ "-" ++ toString tmpId ++ ".tmp"]

/-- Create a temporary file with the given bytes and, unless its writer failed,
rename it to its final path. -/
def installFile (fs : ObjectFileStore) (loc : ObjectLocation) (bytes : Bytes) (fails : Bool) :
    Option Path × ObjectFileStore :=
  let tmp := tmpPath cfg loc fs.tmpCounter
  let created := fs.disk.create tmp bytes
  let left : ObjectFileStore := ⟨created, fs.tmpCounter + 1⟩
  if fails then (none, left)
  else
    match created.rename tmp (objectPath cfg loc) with
    | none => (none, left)
    | some disk => (some (objectPath cfg loc), { left with disk })

def writeObject (fs : ObjectFileStore) (loc : ObjectLocation) (data : Bytes) :
    Option Path × ObjectFileStore :=
  fs.installFile cfg loc data false

/-- A file of the announced length in which `bytes` were written from the start. -/
def preallocated (contentLength : Option Nat) (bytes : Bytes) : Bytes :=
  bytes ++ List.replicate (contentLength.getD 0 - bytes.length) 0

/-- The path and the number of bytes written. -/
def writeObjectFromReader (fs : ObjectFileStore) (loc : ObjectLocation) (reader : Stream)
    (contentLength : Option Nat) : Option (Path × Nat) × ObjectFileStore :=
  let written := fs.installFile cfg loc (preallocated contentLength reader.bytes) reader.fails
  (written.1.map fun path => (path, reader.bytes.length), written.2)

def writeObjectFromSyncReader (fs : ObjectFileStore) (loc : ObjectLocation) (reader : Stream)
    (contentLength : Option Nat) : Option (Path × Nat) × ObjectFileStore :=
  fs.writeObjectFromReader cfg loc reader contentLength

/-- A hard link, or a byte copy when linking fails. -/
def copyObject (fs : ObjectFileStore) (src dst : ObjectLocation) :
    Option Path × ObjectFileStore :=
  match fs.resolveExistingObjectPath cfg src with
  | none => (none, fs)
  | some srcPath =>
    let dstPath := objectPath cfg dst
    if srcPath = dstPath then (some dstPath, fs)
    else
      match fs.disk.hardLink srcPath dstPath with
      | some disk => (some dstPath, { fs with disk })
      | none =>
        match fs.disk.copy srcPath dstPath with
        | some disk => (some dstPath, { fs with disk })
        | none => (none, fs)

/-- `let _ = tokio::fs::remove_file(path)`. -/
def removeFile (fs : ObjectFileStore) (path : Path) : ObjectFileStore :=
  { fs with disk := (fs.disk.removeFile path).getD fs.disk }

/-- The bytes behind a reference. -/
def readData (fs : ObjectFileStore) : ObjectDataRef → Option Bytes
  | .inline bytes => some bytes
  | .fileRef path => fs.disk.read path

/-- The path of the null version of some object. -/
def IsNullPath (p : Path) : Prop := ∃ bucket hash, p = [bucket, hash, "null"]

/-- The file of the null version of a key. -/
def nullPath (bucket key : String) : Path := objectPath cfg ⟨bucket, key, "null"⟩

theorem isNullPath_nullPath (bucket key : String) : IsNullPath (nullPath cfg bucket key) :=
  ⟨bucket, cfg.keyHash key, rfl⟩

variable {cfg}

theorem nullPath_eq_iff {bucket bucket' key key' : String} :
    nullPath cfg bucket key = nullPath cfg bucket' key' ↔
      bucket = bucket' ∧ cfg.keyHash key = cfg.keyHash key' := by
  simp [nullPath, objectPath, objectDir]

theorem not_isNullPath_of_version {loc : ObjectLocation} (named : loc.versionId ≠ "null") :
    ¬ IsNullPath (objectPath cfg loc) := by
  intro isNull
  obtain ⟨bucket, hash, eq⟩ := isNull
  have parts : loc.bucket = bucket ∧ cfg.keyHash loc.key = hash ∧ loc.versionId = "null" := by
    simpa [objectPath, objectDir] using eq
  exact named parts.2.2

variable (cfg) in
/-- A temporary name ends in `p`, the null version's in `l`. -/
theorem not_isNullPath_tmpPath (loc : ObjectLocation) (tmpId : Nat) :
    ¬ IsNullPath (tmpPath cfg loc tmpId) := by
  intro isNull
  obtain ⟨bucket, hash, eq⟩ := isNull
  have name : loc.versionId ++ "-" ++ toString tmpId ++ ".tmp" = "null" := by
    have parts : loc.bucket = bucket ∧ cfg.keyHash loc.key = hash ∧
        loc.versionId ++ "-" ++ toString tmpId ++ ".tmp" = "null" := by
      simpa [tmpPath, objectDir] using eq
    exact parts.2.2
  have text := congrArg String.toList name
  rw [String.toList_append] at text
  have last := congrArg List.getLast? text
  rw [List.getLast?_append_of_ne_nil _ (by decide)] at last
  exact absurd last (by decide)

variable (cfg) in
theorem tmpPath_ne_objectPath (loc : ObjectLocation) (tmpId : Nat) :
    tmpPath cfg loc tmpId ≠ objectPath cfg loc := by
  intro eq
  have name : loc.versionId ++ "-" ++ toString tmpId ++ ".tmp" = loc.versionId := by
    simpa [tmpPath, objectPath, objectDir] using eq
  have lengths := congrArg String.length name
  simp only [String.length_append] at lengths
  have dash : "-".length = 1 := rfl
  omega

/-- Files share bytes only when both belong to null versions. -/
def LinksNull (fs : ObjectFileStore) : Prop := fs.disk.SharedWithin IsNullPath

/-- The files of null versions hold the same bytes, except for those at `paths`. -/
def KeepsNull (old new : ObjectFileStore) (paths : List Path) : Prop :=
  ∀ p, IsNullPath p → p ∉ paths → new.disk.read p = old.disk.read p

theorem KeepsNull.refl (fs : ObjectFileStore) (paths : List Path) : KeepsNull fs fs paths :=
  fun _ _ _ => rfl

theorem KeepsNull.trans {a b c : ObjectFileStore} {paths : List Path} (ab : KeepsNull a b paths)
    (bc : KeepsNull b c paths) : KeepsNull a c paths :=
  fun p isNull out => (bc p isNull out).trans (ab p isNull out)

theorem KeepsNull.mono {a b : ObjectFileStore} {paths more : List Path} (keeps : KeepsNull a b paths)
    (sub : paths ⊆ more) : KeepsNull a b more :=
  fun p isNull out => keeps p isNull fun mem => out (sub mem)

variable {fs : ObjectFileStore} {loc : ObjectLocation}

variable (cfg loc) in
/-- Writing a file through a temporary name. -/
theorem installFile_spec (links : fs.LinksNull) (bytes : Bytes) (fails : Bool) :
    (fs.installFile cfg loc bytes fails).2.LinksNull ∧
    KeepsNull fs (fs.installFile cfg loc bytes fails).2 [objectPath cfg loc] ∧
    (∀ path, (fs.installFile cfg loc bytes fails).1 = some path →
      path = objectPath cfg loc ∧
        (fs.installFile cfg loc bytes fails).2.disk.read path = some bytes) ∧
    ((fs.installFile cfg loc bytes fails).1 = none →
      KeepsNull fs (fs.installFile cfg loc bytes fails).2 []) := by
  have temporary := not_isNullPath_tmpPath cfg loc fs.tmpCounter
  have alone := links.alone temporary
  have created := links.create temporary bytes
  obtain ⟨d, renamed, written, gone, _, _, others⟩ :=
    Disk.create_rename bytes (tmpPath_ne_objectPath cfg loc fs.tmpCounter) alone
  have notTemporary : ∀ p, IsNullPath p → p ≠ tmpPath cfg loc fs.tmpCounter := by
    intro p isNull same
    exact temporary (same ▸ isNull)
  unfold installFile
  cases fails with
  | true =>
    refine ⟨created, ?_, by simp, fun _ => ?_⟩
    · exact fun p isNull _ => Disk.read_create_of_ne _ _ (notTemporary p isNull) alone
    · exact fun p isNull _ => Disk.read_create_of_ne _ _ (notTemporary p isNull) alone
  | false =>
    simp only [renamed, Bool.false_eq_true, if_false]
    refine ⟨created.rename temporary renamed, ?_, ?_, by simp⟩
    · intro p isNull out
      exact others p (notTemporary p isNull) (by simpa using out)
    · intro path found
      cases found
      exact ⟨rfl, written⟩

theorem removeFile_keeps (links : fs.LinksNull) (path : Path) :
    (fs.removeFile path).LinksNull ∧ KeepsNull fs (fs.removeFile path) [path] := by
  unfold removeFile LinksNull KeepsNull
  simp only [Disk.removeFile_getD]
  refine ⟨links.unlink path, ?_⟩
  intro p _ out
  exact Disk.read_unlink_of_ne _ (by simpa using out)

theorem resolveExistingObjectPath_of_exists (found : fs.disk.read (objectPath cfg loc) ≠ none) :
    fs.resolveExistingObjectPath cfg loc = some (objectPath cfg loc) := by
  have present : fs.disk.entry (objectPath cfg loc) ≠ none := by
    intro missing
    exact found (Disk.read_eq_none_iff.mpr missing)
  simp [resolveExistingObjectPath, present]

variable (cfg) in
/-- Copying an existing null version over a file that shares its bytes with no other:
the destination gets the bytes of the source and nothing else changes. -/
theorem copyObject_spec (src dst : ObjectLocation) {bytes : Bytes} (links : fs.LinksNull)
    (srcNull : src.versionId = "null") (dstNull : dst.versionId = "null")
    (found : fs.disk.read (objectPath cfg src) = some bytes)
    (alone : objectPath cfg src ≠ objectPath cfg dst → fs.disk.Alone (objectPath cfg dst)) :
    (fs.copyObject cfg src dst).1 = some (objectPath cfg dst) ∧
    (fs.copyObject cfg src dst).2.LinksNull ∧
    (fs.copyObject cfg src dst).2.disk.read (objectPath cfg dst) = some bytes ∧
    KeepsNull fs (fs.copyObject cfg src dst).2 [objectPath cfg dst] := by
  have resolved : fs.resolveExistingObjectPath cfg src = some (objectPath cfg src) :=
    resolveExistingObjectPath_of_exists (by simp [found])
  have present : fs.disk.entry (objectPath cfg src) ≠ none := by
    intro missing
    rw [Disk.read_eq_none_iff.mpr missing] at found
    cases found
  have isNull : ∀ loc : ObjectLocation, loc.versionId = "null" → IsNullPath (objectPath cfg loc) := by
    intro loc named
    exact ⟨loc.bucket, cfg.keyHash loc.key, by simp [objectPath, objectDir, named]⟩
  unfold copyObject
  simp only [resolved]
  split
  · next same => exact ⟨rfl, links, by rw [← same, found], KeepsNull.refl _ _⟩
  · next ne =>
    by_cases exists_ : fs.disk.entry (objectPath cfg dst) = none
    · rw [Disk.hardLink_eq_some present exists_]
      refine ⟨rfl, links.link (isNull src srcNull) (isNull dst dstNull), ?_, ?_⟩
      · simp only [Disk.read_link_self, found]
      · intro p _ out
        exact Disk.read_link_of_ne _ (by simpa using out)
    · rw [Disk.hardLink_eq_none exists_]
      obtain ⟨d, copied, written, entries, aloneAfter, others⟩ :=
        Disk.copy_of_alone ne found (alone ne)
      rw [copied]
      refine ⟨rfl, ?_, written, ?_⟩
      · refine Disk.SharedWithin.of_alone links (p := objectPath cfg dst) ?_ aloneAfter
        intro q i hq entry
        rwa [entries q hq] at entry
      · intro p _ out
        exact others p (by simpa using out)

end ObjectFileStore
end Openstack.S3

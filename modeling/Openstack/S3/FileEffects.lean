import Openstack.Lib.RustFmt
import Openstack.S3.FileStore

/-!
# What file operations leave alone

`installFile`, `copyObject` and `removeFile` for any version id. A temporary name carries the
process-wide counter, so it is free when it is taken, and a file that exists keeps its bytes
unless an operation works on its path. Only a copy over an existing file reaches further, to the
files linked with it.
-/
namespace Openstack.S3

/-- `Uuid::new_v4().to_string()`: hexadecimal digits and hyphens. -/
def IsUuid (text : String) : Prop :=
  text ≠ "" ∧ text.toList.all (fun c => c.isDigit || "abcdef-".toList.contains c) = true

theorem IsUuid.ne_of_mem {text other : String} (uuid : IsUuid text) {c : Char}
    (member : c ∈ other.toList) (foreign : (c.isDigit || "abcdef-".toList.contains c) = false) :
    text ≠ other := by
  rintro rfl
  have digit := List.all_eq_true.mp uuid.2 c member
  rw [foreign] at digit
  cases digit

theorem IsUuid.ne_null {text : String} (uuid : IsUuid text) : text ≠ "null" :=
  uuid.ne_of_mem (c := 'n') (by decide) (by decide)

theorem IsUuid.ne_part {text : String} (uuid : IsUuid text) (partNumber : Nat) :
    text ≠ "part-" ++ toString partNumber := by
  refine uuid.ne_of_mem (c := 'p') ?_ (by decide)
  rw [String.toList_append]
  exact List.mem_append_left _ (by decide)

namespace ObjectFileStore

/-- The name does not end like a temporary one. -/
def Plain (versionId : String) : Prop := versionId.toList.getLast? ≠ some 'p'

theorem plain_null : Plain "null" := by
  unfold Plain
  decide

theorem plain_uuid {text : String} (uuid : IsUuid text) : Plain text := by
  intro last
  have digit := List.all_eq_true.mp uuid.2 'p' (List.mem_of_mem_getLast? last)
  exact absurd digit (by decide)

theorem plain_part (partNumber : Nat) : Plain ("part-" ++ toString partNumber) := by
  intro last
  rw [String.toList_append, RustFmt.toList_toString,
    List.getLast?_append_of_ne_nil _ (Nat.toDigits_ne_nil)] at last
  have digit := Nat.isDigit_of_mem_toDigits (by decide) (by decide) (List.mem_of_mem_getLast? last)
  exact absurd digit (by decide)

def tmpName (versionId : String) (tmpId : Nat) : String :=
  versionId ++ "-" ++ toString tmpId ++ ".tmp"

theorem tmpName_ne_plain {versionId : String} (plain : Plain versionId) (other : String)
    (tmpId : Nat) : tmpName other tmpId ≠ versionId := by
  rintro rfl
  refine plain ?_
  rw [tmpName, String.toList_append, List.getLast?_append_of_ne_nil _ (by decide)]
  decide

/-- The counter can be read off a temporary name. -/
theorem tmpName_counter {a b : String} {n m : Nat} (same : tmpName a n = tmpName b m) : n = m :=
  RustFmt.number_of_hyphen ".tmp" same

/-- No temporary name with a counter yet to come is taken. -/
def TmpFresh (fs : ObjectFileStore) : Prop :=
  ∀ p versionId n, fs.tmpCounter ≤ n → p.getLast? = some (tmpName versionId n) →
    fs.disk.entry p = none

theorem tmpFresh_empty : TmpFresh {} := fun _ _ _ _ _ => rfl

/-- Every file keeps its bytes, except where `lost`. -/
def Keeps (old new : ObjectFileStore) (lost : Path → Prop) : Prop :=
  ∀ p bytes, ¬ lost p → old.disk.read p = some bytes → new.disk.read p = some bytes

theorem Keeps.refl (fs : ObjectFileStore) (lost : Path → Prop) : Keeps fs fs lost :=
  fun _ _ _ read => read

theorem Keeps.trans {a b c : ObjectFileStore} {lost : Path → Prop} (ab : Keeps a b lost)
    (bc : Keeps b c lost) : Keeps a c lost :=
  fun p bytes kept read => bc p bytes kept (ab p bytes kept read)

/-- What two operations lose, one after the other. -/
theorem Keeps.trans' {a b c : ObjectFileStore} {lost lost' : Path → Prop} (ab : Keeps a b lost)
    (bc : Keeps b c lost') : Keeps a c fun p => lost p ∨ lost' p :=
  fun p bytes kept read =>
    bc p bytes (fun gone => kept (.inr gone)) (ab p bytes (fun gone => kept (.inl gone)) read)

theorem Keeps.mono {a b : ObjectFileStore} {lost more : Path → Prop} (keeps : Keeps a b lost)
    (sub : ∀ p, lost p → more p) : Keeps a b more :=
  fun p bytes kept read => keeps p bytes (fun gone => kept (sub p gone)) read

variable {cfg : Config} {fs : ObjectFileStore} {loc : ObjectLocation}

theorem getLast?_objectPath (cfg : Config) (loc : ObjectLocation) :
    (objectPath cfg loc).getLast? = some loc.versionId := by
  simp [objectPath]

theorem getLast?_tmpPath (cfg : Config) (loc : ObjectLocation) (tmpId : Nat) :
    (tmpPath cfg loc tmpId).getLast? = some (tmpName loc.versionId tmpId) := by
  simp [tmpPath, tmpName]

variable (cfg loc) in
/-- Writing a file through a temporary name, whatever the disk holds. -/
theorem installFile_effects (fresh : TmpFresh fs) (plain : Plain loc.versionId) (bytes : Bytes)
    (fails : Bool) :
    TmpFresh (fs.installFile cfg loc bytes fails).2 ∧
    Keeps fs (fs.installFile cfg loc bytes fails).2 (· = objectPath cfg loc) ∧
    (fails = true → (fs.installFile cfg loc bytes fails).1 = none ∧
      Keeps fs (fs.installFile cfg loc bytes fails).2 fun _ => False) ∧
    (fails = false → (fs.installFile cfg loc bytes fails).1 = some (objectPath cfg loc) ∧
      (fs.installFile cfg loc bytes fails).2.disk.read (objectPath cfg loc) = some bytes) := by
  have free : fs.disk.entry (tmpPath cfg loc fs.tmpCounter) = none :=
    fresh _ loc.versionId fs.tmpCounter le_rfl (getLast?_tmpPath cfg loc _)
  have alone : fs.disk.Alone (tmpPath cfg loc fs.tmpCounter) := by
    intro q i taken
    rw [free] at taken
    cases taken
  obtain ⟨d, renamed, written, gone, _, entries, others⟩ :=
    Disk.create_rename bytes (tmpPath_ne_objectPath cfg loc fs.tmpCounter) alone
  have later : ∀ p versionId n, fs.tmpCounter + 1 ≤ n → p.getLast? = some (tmpName versionId n) →
      p ≠ tmpPath cfg loc fs.tmpCounter ∧ p ≠ objectPath cfg loc := by
    intro p versionId n behind named
    constructor
    · rintro rfl
      have same := named.symm.trans (getLast?_tmpPath cfg loc fs.tmpCounter)
      have counter := tmpName_counter (Option.some.inj same)
      omega
    · rintro rfl
      have same := named.symm.trans (getLast?_objectPath cfg loc)
      exact tmpName_ne_plain plain _ _ (Option.some.inj same)
  have existing : ∀ p bytes, fs.disk.read p = some bytes → p ≠ tmpPath cfg loc fs.tmpCounter := by
    rintro p bytes read rfl
    rw [Disk.read_eq_none_iff.mpr free] at read
    cases read
  unfold installFile
  cases fails with
  | true =>
    have kept : Keeps fs ⟨fs.disk.create (tmpPath cfg loc fs.tmpCounter) bytes, fs.tmpCounter + 1⟩
        fun _ => False := by
      intro p old _ read
      rw [Disk.read_create_of_ne _ _ (existing p old read) alone, read]
    refine ⟨?_, kept.mono (fun _ gone => gone.elim), fun _ => ⟨rfl, kept⟩, by simp⟩
    intro p versionId n behind named
    rw [if_pos rfl, Disk.entry_create_of_ne _ _ (later p versionId n behind named).1]
    exact fresh p versionId n (Nat.le_of_succ_le behind) named
  | false =>
    simp only [renamed, Bool.false_eq_true, if_false]
    refine ⟨?_, ?_, by simp, fun _ => ⟨trivial, written⟩⟩
    · intro p versionId n behind named
      obtain ⟨notTmp, notFinal⟩ := later p versionId n behind named
      rw [entries p notTmp notFinal]
      exact fresh p versionId n (Nat.le_of_succ_le behind) named
    · intro p old notFinal read
      rw [others p (existing p old read) notFinal, read]

theorem removeFile_effects (fresh : TmpFresh fs) (path : Path) :
    TmpFresh (fs.removeFile path) ∧ Keeps fs (fs.removeFile path) (· = path) := by
  unfold removeFile
  simp only [Disk.removeFile_getD]
  constructor
  · intro p versionId n behind named
    have free := fresh p versionId n behind named
    by_cases same : p = path <;> simp [Disk.unlink, same, free]
  · intro p bytes other read
    rw [Disk.read_unlink_of_ne _ other, read]

/-- A copy of `src` to `dst` writes into the file at `p`: the destination exists, is another file
than the source, and `p` is it or is linked with it. -/
def Overwritten (cfg : Config) (fs : ObjectFileStore) (src dst : ObjectLocation) (p : Path) : Prop :=
  (∃ srcPath, fs.resolveExistingObjectPath cfg src = some srcPath ∧
    srcPath ≠ objectPath cfg dst) ∧
  fs.disk.entry (objectPath cfg dst) ≠ none ∧ fs.disk.entry p = fs.disk.entry (objectPath cfg dst)

theorem copyObject_effects (cfg : Config) (fresh : TmpFresh fs) (src dst : ObjectLocation)
    (plain : Plain dst.versionId) :
    TmpFresh (fs.copyObject cfg src dst).2 ∧
    Keeps fs (fs.copyObject cfg src dst).2 (Overwritten cfg fs src dst) ∧
    ∀ path, (fs.copyObject cfg src dst).1 = some path →
      path = objectPath cfg dst ∧ (fs.copyObject cfg src dst).2.disk.entry path ≠ none := by
  have notTmp : ∀ p versionId n, p.getLast? = some (tmpName versionId n) → p ≠ objectPath cfg dst := by
    rintro p versionId n named rfl
    have same := named.symm.trans (getLast?_objectPath cfg dst)
    exact tmpName_ne_plain plain _ _ (Option.some.inj same)
  unfold copyObject
  cases resolved : fs.resolveExistingObjectPath cfg src with
  | none => exact ⟨fresh, Keeps.refl _ _, by simp⟩
  | some srcPath =>
    have present : fs.disk.entry srcPath ≠ none := by
      unfold resolveExistingObjectPath at resolved
      split at resolved
      · next here =>
        cases resolved
        exact here
      split at resolved
      · next here =>
        cases resolved
        exact here
      · cases resolved
    simp only
    split
    · next same =>
      refine ⟨fresh, Keeps.refl _ _, ?_⟩
      intro path found
      cases found
      exact ⟨rfl, same ▸ present⟩
    · next ne =>
      by_cases free : fs.disk.entry (objectPath cfg dst) = none
      · rw [Disk.hardLink_eq_some present free]
        refine ⟨?_, ?_, ?_⟩
        · intro p versionId n behind named
          simp only [Disk.link, Function.update_of_ne (notTmp p versionId n named)]
          exact fresh p versionId n behind named
        · intro p bytes other read
          have otherPath : p ≠ objectPath cfg dst := by
            rintro rfl
            rw [Disk.read_eq_none_iff.mpr free] at read
            cases read
          rw [Disk.read_link_of_ne _ otherPath, read]
        · intro path found
          cases found
          refine ⟨rfl, ?_⟩
          simpa [Disk.link] using present
      · rw [Disk.hardLink_eq_none free]
        obtain ⟨d, copied, entries, others⟩ := Disk.copy_over present free
        rw [copied]
        refine ⟨?_, ?_, ?_⟩
        · intro p versionId n behind named
          rw [entries]
          exact fresh p versionId n behind named
        · intro p bytes other read
          have apart : fs.disk.entry p ≠ fs.disk.entry (objectPath cfg dst) :=
            fun linked => other ⟨⟨srcPath, resolved, ne⟩, free, linked⟩
          rw [others p apart, read]
        · intro path found
          cases found
          exact ⟨rfl, by rw [entries]; exact free⟩

variable (cfg loc) in
theorem writeObjectFromReader_effects (fresh : TmpFresh fs) (plain : Plain loc.versionId)
    (stream : Stream) (len : Option Nat) :
    TmpFresh (fs.writeObjectFromReader cfg loc stream len).2 ∧
    Keeps fs (fs.writeObjectFromReader cfg loc stream len).2 (· = objectPath cfg loc) ∧
    (stream.fails = true → (fs.writeObjectFromReader cfg loc stream len).1 = none ∧
      Keeps fs (fs.writeObjectFromReader cfg loc stream len).2 fun _ => False) ∧
    (stream.fails = false →
      (fs.writeObjectFromReader cfg loc stream len).1 =
        some (objectPath cfg loc, stream.bytes.length) ∧
      (fs.writeObjectFromReader cfg loc stream len).2.disk.read (objectPath cfg loc) =
        some (preallocated len stream.bytes)) := by
  obtain ⟨fresh', kept, failed, written⟩ := installFile_effects cfg loc fresh plain
    (preallocated len stream.bytes) stream.fails
  unfold writeObjectFromReader
  refine ⟨fresh', kept, ?_, ?_⟩
  · intro fails
    obtain ⟨none, keptAll⟩ := failed fails
    exact ⟨by simp [none], keptAll⟩
  · intro works
    obtain ⟨path, read⟩ := written works
    exact ⟨by simp [path], read⟩

end ObjectFileStore
end Openstack.S3

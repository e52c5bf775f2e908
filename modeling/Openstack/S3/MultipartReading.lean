import Openstack.S3.Provider

/-!
# Reading the parts of an upload

The readers of `crates/services/s3/src/provider.rs` (`MultipartPartReader`, `MultipartRead`) and the
write loop of `crates/services/s3/src/object_store.rs` (`write_object_from_sync_reader`), one `read`
and one `write` at a time. `multipartRead` and `writeObjectFromSyncReader` are what they come to.
-/
namespace Openstack.S3

/-! ## The readers -/

/-- One call of `read`: the length of the buffer, and how much of it a file fills at once. -/
structure ReadCall where
  size : Nat
  ready : Nat

/-- `File::read`: nothing at the end or into an empty buffer, otherwise at least one byte. -/
def ReadCall.transfer (call : ReadCall) (rest : Bytes) : Bytes :=
  rest.take (min call.size (max call.ready 1))

/-- An open file is its inode and the position of the cursor. -/
inductive MultipartPartReader where
  | inline (rest : Bytes)
  | pendingFile (path : Path)
  | file (inode pos : Nat)

namespace MultipartPartReader

/-- Files are opened on the first read. -/
def ofDataRef : ObjectDataRef → MultipartPartReader
  | .inline bytes => .inline bytes
  | .fileRef path => .pendingFile path

def read (d : Disk Path UInt8) (call : ReadCall) :
    MultipartPartReader → Option (Bytes × MultipartPartReader)
  | .inline rest => some (rest.take call.size, .inline (rest.drop call.size))
  | .pendingFile path =>
    match d.entry path with
    | none => none
    | some inode =>
      let got := call.transfer (d.content inode)
      some (got, .file inode got.length)
  | .file inode pos =>
    let got := call.transfer ((d.content inode).drop pos)
    some (got, .file inode (pos + got.length))

end MultipartPartReader

/-- The parts not yet read to their end. -/
abbrev MultipartRead := List MultipartPartReader

namespace MultipartRead

def fromDataRefs (dataRefs : List ObjectDataRef) : MultipartRead :=
  dataRefs.map MultipartPartReader.ofDataRef

/-- A part that delivers nothing is dropped for good. -/
def read (d : Disk Path UInt8) (call : ReadCall) : MultipartRead → Option (Bytes × MultipartRead)
  | [] => some ([], [])
  | reader :: readers =>
    match reader.read d call with
    | none => none
    | some (got, reader) => if got ≠ [] then some (got, reader :: readers) else read d call readers

/-- Read until nothing comes or a read fails; `none` is out of fuel. -/
def readToEnd (d : Disk Path UInt8) (calls : Nat → ReadCall) :
    (fuel : Nat) → MultipartRead → Option Stream
  | 0, _ => none
  | fuel + 1, reader =>
    match reader.read d (calls 0) with
    | none => some ⟨[], true⟩
    | some (got, reader) =>
      if got = [] then some ⟨[], false⟩
      else (reader.readToEnd d (fun n => calls (n + 1)) fuel).map fun stream =>
        ⟨got ++ stream.bytes, stream.fails⟩

end MultipartRead

/-- The loop that assembles a small object; `none` when a part cannot be read. -/
def collectParts (files : ObjectFileStore) : (combined : Bytes) → List ObjectDataRef → Option Bytes
  | combined, [] => some combined
  | combined, .inline bytes :: rest => collectParts files (combined ++ bytes) rest
  | combined, .fileRef path :: rest =>
    match files.disk.read path with
    | none => none
    | some bytes => collectParts files (combined ++ bytes) rest

/-! ## The write loop -/

/-- Write `bytes` at `pos`, which is not past the end. -/
def overwrite (content : Bytes) (pos : Nat) (bytes : Bytes) : Bytes :=
  content.take pos ++ bytes ++ content.drop (pos + bytes.length)

/-- `std::io::BufWriter` over an open file. -/
structure BufWriter where
  inode : Nat
  pos : Nat
  buffer : Bytes
  capacity : Nat

namespace BufWriter

def writeFile (d : Disk Path UInt8) (w : BufWriter) (bytes : Bytes) : Disk Path UInt8 × BufWriter :=
  (d.setContent w.inode (overwrite (d.content w.inode) w.pos bytes),
    { w with pos := w.pos + bytes.length })

def flush (d : Disk Path UInt8) (w : BufWriter) : Disk Path UInt8 × BufWriter :=
  let flushed := w.writeFile d w.buffer
  (flushed.1, { flushed.2 with buffer := [] })

/-- What does not fit flushes the buffer, and what never fits goes past it. -/
def writeAll (d : Disk Path UInt8) (w : BufWriter) (bytes : Bytes) : Disk Path UInt8 × BufWriter :=
  let room := if w.capacity - w.buffer.length < bytes.length then w.flush d else (d, w)
  if w.capacity ≤ bytes.length then room.2.writeFile room.1 bytes
  else (room.1, { room.2 with buffer := room.2.buffer ++ bytes })

end BufWriter

/-- `READ_BUF`. -/
def readBuf : Nat := 1024 * 1024

def writeBuf : Option Nat → Nat
  | some len =>
    if 128 * 1024 * 1024 < len then 16 * 1024 * 1024
    else if 50 * 1024 * 1024 ≤ len then 8 * 1024 * 1024
    else if 4 * 1024 * 1024 < len then 4 * 1024 * 1024
    else 2 * 1024 * 1024
  | none => 2 * 1024 * 1024

/-- Whether a read failed, the bytes counted, the disk and the writer; `none` is out of fuel. -/
def copyLoop (ready : Nat → Nat) : (fuel : Nat) → Disk Path UInt8 → MultipartRead → BufWriter →
    (bytesWritten : Nat) → Option (Bool × Nat × Disk Path UInt8 × BufWriter)
  | 0, _, _, _, _ => none
  | fuel + 1, d, reader, w, bytesWritten =>
    match reader.read d ⟨readBuf, ready 0⟩ with
    | none => some (true, bytesWritten, d, w)
    | some (got, reader) =>
      if got = [] then some (false, bytesWritten, d, w)
      else
        let written := w.writeAll d got
        copyLoop (fun n => ready (n + 1)) fuel written.1 reader written.2 (bytesWritten + got.length)

/-- `write_object_from_sync_reader` with a `MultipartRead`. A failed read also flushes, when the
writer is dropped. -/
def ObjectFileStore.streamParts (cfg : Config) (fs : ObjectFileStore) (loc : ObjectLocation)
    (reader : MultipartRead) (contentLength : Option Nat) (ready : Nat → Nat) (fuel : Nat) :
    Option (Option (Path × Nat) × ObjectFileStore) :=
  let tmp := tmpPath cfg loc fs.tmpCounter
  let created := fs.disk.create tmp []
  let inode := (created.entry tmp).getD created.fresh
  let allocated := created.setContent inode (List.replicate (contentLength.getD 0) 0)
  match copyLoop ready fuel allocated reader ⟨inode, 0, [], writeBuf contentLength⟩ 0 with
  | none => none
  | some (failed, bytesWritten, d, w) =>
    let left : ObjectFileStore := ⟨(w.flush d).1, fs.tmpCounter + 1⟩
    if failed then some (none, left)
    else
      match left.disk.rename tmp (objectPath cfg loc) with
      | none => some (none, left)
      | some disk => some (some (objectPath cfg loc, bytesWritten), { left with disk })

/-! ## What the readers deliver -/

theorem ReadCall.transfer_append (call : ReadCall) (rest : Bytes) :
    call.transfer rest ++ rest.drop (call.transfer rest).length = rest := by
  unfold ReadCall.transfer
  rw [List.length_take, ← List.drop_eq_drop_min, List.take_append_drop]

theorem ReadCall.transfer_eq_nil_iff {call : ReadCall} (nonzero : 0 < call.size) (rest : Bytes) :
    call.transfer rest = [] ↔ rest = [] := by
  rw [ReadCall.transfer, List.take_eq_nil_iff]
  have some : min call.size (max call.ready 1) ≠ 0 := by omega
  simp only [some, false_or]

namespace MultipartPartReader

/-- The unread bytes; `none` when the file cannot be opened. -/
def rest (d : Disk Path UInt8) : MultipartPartReader → Option Bytes
  | .inline rest => some rest
  | .pendingFile path => d.read path
  | .file inode pos => some ((d.content inode).drop pos)

/-- The reader does not read from the inode `t`. -/
def Avoids (d : Disk Path UInt8) (t : Nat) : MultipartPartReader → Prop
  | .inline _ => True
  | .pendingFile path => d.entry path ≠ some t
  | .file inode _ => inode ≠ t

theorem rest_ofDataRef (files : ObjectFileStore) (dataRef : ObjectDataRef) :
    (ofDataRef dataRef).rest files.disk = files.readData dataRef := by
  cases dataRef <;> rfl

variable {d : Disk Path UInt8} {t : Nat}

/-- One read takes bytes off the front, and none only when none are left. -/
theorem read_spec {call : ReadCall} (nonzero : 0 < call.size) (reader : MultipartPartReader) :
    reader.rest d = none ∧ reader.read d call = none ∨
    ∃ got next left, reader.read d call = some (got, next) ∧ next.rest d = some left ∧
      reader.rest d = some (got ++ left) ∧ (got = [] → left = []) ∧
      (reader.Avoids d t → next.Avoids d t) := by
  cases reader with
  | inline rest =>
    refine .inr ⟨_, _, rest.drop call.size, rfl, rfl, by simp [MultipartPartReader.rest], ?_,
      by simp [Avoids]⟩
    intro none
    rcases List.take_eq_nil_iff.mp none with zero | empty
    · omega
    · simp [empty]
  | pendingFile path =>
    cases entry : d.entry path with
    | none => exact .inl ⟨Disk.read_eq_none_iff.mpr entry, by simp [read, entry]⟩
    | some inode =>
      have whole := call.transfer_append (d.content inode)
      refine .inr ⟨_, _, _, by simp only [read, entry]; rfl, rfl, ?_, ?_, ?_⟩
      · rw [whole]
        simp [MultipartPartReader.rest, Disk.read, entry]
      · intro none
        simp [(ReadCall.transfer_eq_nil_iff nonzero _).mp none]
      · simp [Avoids, entry]
  | file inode pos =>
    have whole := call.transfer_append ((d.content inode).drop pos)
    refine .inr ⟨_, _, _, rfl, rfl, ?_, ?_, by simp [Avoids]⟩
    · rw [← List.drop_drop, whole]
      rfl
    · intro none
      rw [← List.drop_drop, (ReadCall.transfer_eq_nil_iff nonzero _).mp none, List.drop_nil]

end MultipartPartReader

namespace MultipartRead

/-- What reading the parts delivers: all of them, or up to one that cannot be opened. -/
def left (d : Disk Path UInt8) : MultipartRead → Stream
  | [] => ⟨[], false⟩
  | reader :: readers =>
    match reader.rest d with
    | none => ⟨[], true⟩
    | some bytes => ⟨bytes ++ (left d readers).bytes, (left d readers).fails⟩

theorem left_fromDataRefs (files : ObjectFileStore) (dataRefs : List ObjectDataRef) :
    (fromDataRefs dataRefs).left files.disk = multipartRead files dataRefs := by
  induction dataRefs with
  | nil => rfl
  | cons dataRef rest ih =>
    rw [multipartRead, ← ih, ← MultipartPartReader.rest_ofDataRef]
    rfl

variable {d : Disk Path UInt8} {t : Nat}

/-- A read fails, finds nothing left, or takes bytes off the front. -/
theorem read_spec {call : ReadCall} (nonzero : 0 < call.size) (reader : MultipartRead) :
    reader.read d call = none ∧ reader.left d = ⟨[], true⟩ ∨
    (∃ next, reader.read d call = some ([], next) ∧ reader.left d = ⟨[], false⟩) ∨
    ∃ got next, got ≠ [] ∧ reader.read d call = some (got, next) ∧
      reader.left d = ⟨got ++ (left d next).bytes, (left d next).fails⟩ ∧
      ((∀ r ∈ reader, r.Avoids d t) → ∀ r ∈ next, r.Avoids d t) := by
  induction reader with
  | nil => exact .inr (.inl ⟨[], rfl, rfl⟩)
  | cons first readers ih =>
    rcases first.read_spec (d := d) (t := t) nonzero with
      ⟨closed, failed⟩ | ⟨got, next, rest, ran, after, whole, last, keeps⟩
    · exact .inl ⟨by simp [read, failed], by simp [left, closed]⟩
    · by_cases nothing : got = []
      · -- an exhausted part is dropped and the same call goes on with the next one
        have empty : first.rest d = some [] := by simpa [nothing, last nothing] using whole
        have same : left d (first :: readers) = left d readers := by simp [left, empty]
        have moved : read d call (first :: readers) = read d call readers := by
          simp [read, ran, nothing]
        rw [same, moved]
        rcases ih with failed | done | ⟨got, next, some, ran, delivered, keeps⟩
        · exact .inl failed
        · exact .inr (.inl done)
        · refine .inr (.inr ⟨got, next, some, ran, delivered, fun avoids => keeps ?_⟩)
          exact (List.forall_mem_cons.mp avoids).2
      · refine .inr (.inr ⟨got, next :: readers, nothing, by simp [read, ran, nothing], ?_, ?_⟩)
        · simp [left, whole, after]
        · intro avoids
          obtain ⟨here, others⟩ := List.forall_mem_cons.mp avoids
          exact List.forall_mem_cons.mpr ⟨keeps here, others⟩

/-- Reading to the end delivers the parts, whatever the sizes of the buffers. -/
theorem readToEnd_eq {calls : Nat → ReadCall} (nonzero : ∀ n, 0 < (calls n).size)
    {reader : MultipartRead} {fuel : Nat} (enough : (reader.left d).bytes.length < fuel) :
    reader.readToEnd d calls fuel = some (reader.left d) := by
  induction fuel generalizing calls reader with
  | zero => omega
  | succ fuel ih =>
    rcases read_spec (d := d) (t := 0) (nonzero 0) reader with
      ⟨failed, delivered⟩ | ⟨next, ended, delivered⟩ | ⟨got, next, some, ran, delivered, _⟩
    · simp [readToEnd, failed, delivered]
    · simp [readToEnd, ended, delivered]
    · have first : 0 < got.length := List.length_pos_iff.mpr some
      have fewer : (next.left d).bytes.length < fuel := by
        rw [delivered, List.length_append] at enough
        omega
      simp [readToEnd, ran, some, delivered, ih (fun n => nonzero (n + 1)) fewer]

end MultipartRead

theorem collectParts_eq (files : ObjectFileStore) (combined : Bytes) (dataRefs : List ObjectDataRef) :
    collectParts files combined dataRefs =
      if (multipartRead files dataRefs).fails then none
      else some (combined ++ (multipartRead files dataRefs).bytes) := by
  induction dataRefs generalizing combined with
  | nil => simp [collectParts, multipartRead]
  | cons dataRef rest ih =>
    cases dataRef with
    | inline bytes =>
      rw [collectParts, ih, List.append_assoc]
      rfl
    | fileRef path =>
      cases read : files.disk.read path with
      | none => simp [collectParts, multipartRead, ObjectFileStore.readData, read]
      | some bytes =>
        simp [collectParts, multipartRead, ObjectFileStore.readData, read, ih]

/-! ## The stored file -/

theorem overwrite_end (written initial bytes : Bytes) :
    overwrite (written ++ initial.drop written.length) written.length bytes =
      (written ++ bytes) ++ initial.drop (written ++ bytes).length := by
  simp [overwrite, List.drop_append, List.drop_drop]

/-- Only the bytes of the inode `t` differ. -/
def OnlyInode (t : Nat) (d d' : Disk Path UInt8) : Prop :=
  d' = d.setContent t (d'.content t)

theorem OnlyInode.refl (t : Nat) (d : Disk Path UInt8) : OnlyInode t d d := by
  simp [OnlyInode, Disk.setContent]

theorem onlyInode_setContent (t : Nat) (d : Disk Path UInt8) (bytes : Bytes) :
    OnlyInode t d (d.setContent t bytes) := by
  simp [OnlyInode, Disk.setContent]

theorem OnlyInode.trans {t : Nat} {a b c : Disk Path UInt8} (ab : OnlyInode t a b)
    (bc : OnlyInode t b c) : OnlyInode t a c := by
  unfold OnlyInode at *
  rw [bc, ab]
  simp [Disk.setContent]

namespace MultipartPartReader

variable {d d' : Disk Path UInt8} {t : Nat} {reader : MultipartPartReader}

theorem Avoids.of_onlyInode (only : OnlyInode t d d') (avoids : reader.Avoids d t) :
    reader.Avoids d' t := by
  rw [only]
  exact avoids

theorem rest_of_onlyInode (only : OnlyInode t d d') (avoids : reader.Avoids d t) :
    reader.rest d' = reader.rest d := by
  rw [only]
  cases reader with
  | inline rest => rfl
  | pendingFile path => exact Disk.read_setContent_of_ne d _ avoids
  | file inode pos => simp [rest, Disk.setContent, Function.update_of_ne avoids]

end MultipartPartReader

theorem MultipartRead.left_of_onlyInode {d d' : Disk Path UInt8} {t : Nat} (only : OnlyInode t d d')
    {reader : MultipartRead} (avoids : ∀ r ∈ reader, r.Avoids d t) :
    reader.left d' = reader.left d := by
  induction reader with
  | nil => rfl
  | cons first readers ih =>
    obtain ⟨here, others⟩ := List.forall_mem_cons.mp avoids
    simp only [left, MultipartPartReader.rest_of_onlyInode only here, ih others]

namespace BufWriter

/-- The writer was given `written` for a file that held `initial`. -/
def Wrote (initial : Bytes) (d : Disk Path UInt8) (w : BufWriter) (written : Bytes) : Prop :=
  ∃ flushed, written = flushed ++ w.buffer ∧ w.pos = flushed.length ∧
    d.content w.inode = flushed ++ initial.drop flushed.length

variable {initial : Bytes} {d : Disk Path UInt8} {w : BufWriter} {written : Bytes}

theorem writeFile_spec (wrote : w.Wrote initial d written) (empty : w.buffer = []) (bytes : Bytes) :
    OnlyInode w.inode d (w.writeFile d bytes).1 ∧ (w.writeFile d bytes).2.inode = w.inode ∧
      (w.writeFile d bytes).2.Wrote initial (w.writeFile d bytes).1 (written ++ bytes) := by
  obtain ⟨flushed, whole, pos, content⟩ := wrote
  refine ⟨onlyInode_setContent _ _ _, rfl, flushed ++ bytes, ?_, ?_, ?_⟩
  · simp [writeFile, whole, empty]
  · simp [writeFile, pos]
  · simp [writeFile, Disk.setContent, content, pos, overwrite_end]

theorem flush_spec (wrote : w.Wrote initial d written) :
    OnlyInode w.inode d (w.flush d).1 ∧ (w.flush d).2.inode = w.inode ∧
      (w.flush d).2.buffer = [] ∧ (w.flush d).2.Wrote initial (w.flush d).1 written := by
  obtain ⟨flushed, whole, pos, content⟩ := wrote
  refine ⟨onlyInode_setContent _ _ _, rfl, rfl, written, by simp [flush], ?_, ?_⟩
  · simp [flush, writeFile, pos, whole]
  · simp [flush, writeFile, Disk.setContent, content, pos, overwrite_end, whole]

/-- A flushed file holds what the writer was given, over what it held before. -/
theorem content_flush (wrote : w.Wrote initial d written) :
    (w.flush d).1.content w.inode = written ++ initial.drop written.length := by
  obtain ⟨_, same, empty, flushed, whole, _, content⟩ := flush_spec wrote
  rw [same] at content
  rw [content, whole, empty, List.append_nil]

theorem writeAll_spec (wrote : w.Wrote initial d written) {bytes : Bytes} (some : bytes ≠ []) :
    OnlyInode w.inode d (w.writeAll d bytes).1 ∧ (w.writeAll d bytes).2.inode = w.inode ∧
      (w.writeAll d bytes).2.Wrote initial (w.writeAll d bytes).1 (written ++ bytes) := by
  have long : 0 < bytes.length := List.length_pos_iff.mpr some
  obtain ⟨room, made⟩ : ∃ room, (if w.capacity - w.buffer.length < bytes.length then w.flush d
      else (d, w)) = room := ⟨_, rfl⟩
  have ready : OnlyInode w.inode d room.1 ∧ room.2.inode = w.inode ∧
      room.2.Wrote initial room.1 written ∧ (w.capacity ≤ bytes.length → room.2.buffer = []) := by
    by_cases full : w.capacity - w.buffer.length < bytes.length
    · rw [if_pos full] at made
      obtain ⟨only, same, empty, kept⟩ := flush_spec wrote
      rw [← made]
      exact ⟨only, same, kept, fun _ => empty⟩
    · rw [if_neg full] at made
      rw [← made]
      refine ⟨OnlyInode.refl _ _, rfl, wrote, fun large => ?_⟩
      have none : w.buffer.length = 0 := by omega
      exact List.eq_nil_of_length_eq_zero none
  obtain ⟨only, same, kept, empty⟩ := ready
  unfold writeAll
  rw [made]
  by_cases large : w.capacity ≤ bytes.length
  · obtain ⟨next, inode, stored⟩ := writeFile_spec kept (empty large) bytes
    rw [same] at next
    simp only [large, if_true]
    exact ⟨only.trans next, inode.trans same, stored⟩
  · simp only [large, if_false]
    obtain ⟨flushed, whole, pos, content⟩ := kept
    exact ⟨only, same, flushed, by simp [whole], pos, content⟩

end BufWriter

/-- The loop copies what the readers deliver and counts it. -/
theorem copyLoop_spec {ready : Nat → Nat} {fuel : Nat} {d : Disk Path UInt8} {reader : MultipartRead}
    {w : BufWriter} {initial written : Bytes} (bytesWritten : Nat)
    (wrote : w.Wrote initial d written) (avoids : ∀ r ∈ reader, r.Avoids d w.inode)
    (enough : (reader.left d).bytes.length < fuel) :
    ∃ d' w', copyLoop ready fuel d reader w bytesWritten =
        some ((reader.left d).fails, bytesWritten + (reader.left d).bytes.length, d', w') ∧
      OnlyInode w.inode d d' ∧ w'.inode = w.inode ∧
      w'.Wrote initial d' (written ++ (reader.left d).bytes) := by
  induction fuel generalizing ready d reader w written bytesWritten with
  | zero => omega
  | succ fuel ih =>
    have nonzero : 0 < (⟨readBuf, ready 0⟩ : ReadCall).size := by simp [readBuf]
    rcases reader.read_spec (d := d) (t := w.inode) nonzero with
      ⟨failed, delivered⟩ | ⟨next, ended, delivered⟩ | ⟨got, next, some, ran, delivered, keeps⟩
    · refine ⟨d, w, by simp [copyLoop, failed, delivered], OnlyInode.refl _ _, rfl, ?_⟩
      simpa [delivered] using wrote
    · refine ⟨d, w, by simp [copyLoop, ended, delivered], OnlyInode.refl _ _, rfl, ?_⟩
      simpa [delivered] using wrote
    · obtain ⟨only, same, stored⟩ := BufWriter.writeAll_spec wrote some
      have first : 0 < got.length := List.length_pos_iff.mpr some
      have apart := keeps avoids
      have kept := MultipartRead.left_of_onlyInode only apart
      rw [delivered, List.length_append] at enough
      obtain ⟨d', w', copied, onlyRest, sameRest, storedRest⟩ :=
        @ih (fun n => ready (n + 1)) _ _ _ _ (bytesWritten + got.length) stored
          (fun r member => same ▸ (apart r member).of_onlyInode only)
          (by rw [kept]; omega)
      rw [same] at onlyRest
      refine ⟨d', w', ?_, only.trans onlyRest, sameRest.trans same, ?_⟩
      · simp only [copyLoop, ran, some, if_false, copied, kept, delivered, List.length_append,
          Nat.add_assoc]
      · rw [delivered, ← List.append_assoc, ← kept]
        exact storedRest

/-- The temporary file about to be written shares its bytes with no other file and is no part. -/
def TmpApart (cfg : Config) (files : ObjectFileStore) (loc : ObjectLocation)
    (dataRefs : List ObjectDataRef) : Prop :=
  files.disk.Alone (ObjectFileStore.tmpPath cfg loc files.tmpCounter) ∧
    .fileRef (ObjectFileStore.tmpPath cfg loc files.tmpCounter) ∉ dataRefs

theorem avoids_created {d : Disk Path UInt8} {tmp : Path} {i : Nat} (alone : d.Alone tmp)
    (found : (d.create tmp []).entry tmp = some i) {dataRefs : List ObjectDataRef}
    (apart : .fileRef tmp ∉ dataRefs) :
    ∀ r ∈ MultipartRead.fromDataRefs dataRefs, r.Avoids (d.create tmp []) i := by
  intro r member
  obtain ⟨dataRef, listed, rfl⟩ := List.mem_map.mp member
  cases dataRef with
  | inline bytes => trivial
  | fileRef path =>
    intro shared
    have same : path = tmp := alone.create [] path i found shared
    exact apart (same ▸ listed)

theorem left_created {d : Disk Path UInt8} {tmp : Path} (alone : d.Alone tmp)
    {dataRefs : List ObjectDataRef} (apart : .fileRef tmp ∉ dataRefs) :
    (MultipartRead.fromDataRefs dataRefs).left (d.create tmp []) =
      (MultipartRead.fromDataRefs dataRefs).left d := by
  induction dataRefs with
  | nil => rfl
  | cons dataRef rest ih =>
    obtain ⟨other, others⟩ := not_or.mp (mt List.mem_cons.mpr apart)
    have same : (MultipartPartReader.ofDataRef dataRef).rest (d.create tmp []) =
        (MultipartPartReader.ofDataRef dataRef).rest d := by
      cases dataRef with
      | inline bytes => rfl
      | fileRef path =>
        refine Disk.read_create_of_ne d [] ?_ alone
        rintro rfl
        exact other rfl
    have tail := ih others
    unfold MultipartRead.fromDataRefs at tail ⊢
    simp [MultipartRead.left, same, tail]

/-- The write loop stores what the readers deliver, after a failed read as well. -/
theorem streamParts_eq (cfg : Config) (files : ObjectFileStore) (loc : ObjectLocation)
    (dataRefs : List ObjectDataRef) (apart : TmpApart cfg files loc dataRefs)
    (contentLength : Option Nat) (ready : Nat → Nat) {fuel : Nat}
    (enough : (multipartRead files dataRefs).bytes.length < fuel) :
    files.streamParts cfg loc (MultipartRead.fromDataRefs dataRefs) contentLength ready fuel =
      some (files.writeObjectFromSyncReader cfg loc (multipartRead files dataRefs) contentLength) := by
  obtain ⟨tmp, name⟩ : ∃ tmp, ObjectFileStore.tmpPath cfg loc files.tmpCounter = tmp := ⟨_, rfl⟩
  rw [TmpApart, name] at apart
  obtain ⟨alone, noPart⟩ := apart
  obtain ⟨i, found⟩ := Option.ne_none_iff_exists'.mp (files.disk.entry_create_self_ne_none tmp [])
  obtain ⟨initial, zeros⟩ : ∃ initial, List.replicate (contentLength.getD 0) (0 : UInt8) = initial :=
    ⟨_, rfl⟩
  obtain ⟨stream, reads⟩ : ∃ stream, multipartRead files dataRefs = stream := ⟨_, rfl⟩
  have only := onlyInode_setContent i (files.disk.create tmp []) initial
  have avoids := avoids_created alone found noPart
  have delivers : (MultipartRead.fromDataRefs dataRefs).left
      ((files.disk.create tmp []).setContent i initial) = stream := by
    rw [MultipartRead.left_of_onlyInode only avoids, left_created alone noPart,
      MultipartRead.left_fromDataRefs, reads]
  have wrote : BufWriter.Wrote initial ((files.disk.create tmp []).setContent i initial)
      ⟨i, 0, [], writeBuf contentLength⟩ [] := by
    exact ⟨[], rfl, rfl, by simp [Disk.setContent]⟩
  obtain ⟨d, w, copied, onlyCopy, same, stored⟩ := @copyLoop_spec ready _ _ _ _ _ _ 0 wrote
    (fun r member => (avoids r member).of_onlyInode only) (by rwa [delivers, ← reads])
  rw [delivers] at copied stored
  -- the flushed file is the one that a single write of all bytes makes
  have flushed : (w.flush d).1 = files.disk.create tmp
      (ObjectFileStore.preallocated contentLength stream.bytes) := by
    have onlyFlush := (BufWriter.flush_spec stored).1
    have content := BufWriter.content_flush stored
    rw [same] at onlyFlush content
    have all := (only.trans onlyCopy).trans onlyFlush
    rw [all, Disk.create_setContent found, content, ← zeros]
    simp [ObjectFileStore.preallocated]
  unfold ObjectFileStore.streamParts ObjectFileStore.writeObjectFromSyncReader
    ObjectFileStore.writeObjectFromReader ObjectFileStore.installFile
  simp only [name, found, Option.getD_some, zeros, copied, flushed, reads]
  cases failed : stream.fails with
  | true => simp
  | false =>
    simp only [Bool.false_eq_true, if_false]
    cases (files.disk.create tmp (ObjectFileStore.preallocated contentLength stream.bytes)).rename tmp
      (ObjectFileStore.objectPath cfg loc) with
    | none => simp
    | some disk => simp

/-! ## The ways to assemble agree -/

theorem multipartRead_of_readable {files : ObjectFileStore} {dataRefs : List ObjectDataRef}
    {contents : List Bytes} (readable : dataRefs.map files.readData = contents.map some) :
    multipartRead files dataRefs = ⟨contents.flatten, false⟩ := by
  induction dataRefs generalizing contents with
  | nil =>
    have none : contents = [] := by simpa using readable.symm
    simp [none, multipartRead]
  | cons dataRef rest ih =>
    cases contents with
    | nil => cases readable
    | cons bytes contents =>
      obtain ⟨here, others⟩ := List.cons.inj readable
      rw [multipartRead, here, ih others]
      rfl

/-- A file written whole holds its bytes under the final name. -/
theorem read_installFile (cfg : Config) (files : ObjectFileStore) (loc : ObjectLocation)
    (bytes : Bytes) :
    ∃ files', files.installFile cfg loc bytes false =
        (some (ObjectFileStore.objectPath cfg loc), files') ∧
      files'.disk.read (ObjectFileStore.objectPath cfg loc) = some bytes := by
  obtain ⟨tmp, name⟩ : ∃ tmp, ObjectFileStore.tmpPath cfg loc files.tmpCounter = tmp := ⟨_, rfl⟩
  have present := files.disk.entry_create_self_ne_none tmp bytes
  have content := files.disk.read_create_self tmp bytes
  have apart : ObjectFileStore.objectPath cfg loc ≠ tmp := by
    rw [← name]
    exact (ObjectFileStore.tmpPath_ne_objectPath cfg loc files.tmpCounter).symm
  unfold ObjectFileStore.installFile Disk.rename
  simp only [name, present, if_false, Bool.false_eq_true]
  by_cases linked : (files.disk.create tmp bytes).entry (ObjectFileStore.objectPath cfg loc) =
      (files.disk.create tmp bytes).entry tmp
  · refine ⟨_, by simp only [linked, if_true]; rfl, ?_⟩
    simpa [Disk.read, linked] using content
  · refine ⟨_, by simp only [linked, if_false]; rfl, ?_⟩
    rw [Disk.read_unlink_of_ne _ apart, Disk.read_link_self, content]

/-- Reading the parts through any buffers, collecting them in memory and, with the sizes on record,
streaming them to a file give their concatenation. -/
theorem multipart_assembly (cfg : Config) (files : ObjectFileStore) (loc : ObjectLocation)
    (parts : List UploadPart) (contents : List Bytes)
    (readable : parts.map (fun part => files.readData part.data) = contents.map some)
    (calls : Nat → ReadCall) (nonzero : ∀ n, 0 < (calls n).size) (ready : Nat → Nat)
    (fuel : Nat) (enough : contents.flatten.length < fuel) :
    (MultipartRead.fromDataRefs (parts.map (·.data))).readToEnd files.disk calls fuel =
      some ⟨contents.flatten, false⟩ ∧
    collectParts files [] (parts.map (·.data)) = some contents.flatten ∧
    (parts.map (·.size) = contents.map (·.length) →
      TmpApart cfg files loc (parts.map (·.data)) →
      ∃ files', files.streamParts cfg loc (MultipartRead.fromDataRefs (parts.map (·.data)))
          (some (estimatedSize parts)) ready fuel =
            some (some (ObjectFileStore.objectPath cfg loc, contents.flatten.length), files') ∧
        files'.readData (.fileRef (ObjectFileStore.objectPath cfg loc)) = some contents.flatten) := by
  have reads : multipartRead files (parts.map (·.data)) = ⟨contents.flatten, false⟩ := by
    apply multipartRead_of_readable
    rw [List.map_map]
    exact readable
  refine ⟨?_, ?_, ?_⟩
  · rw [MultipartRead.readToEnd_eq nonzero (by rwa [MultipartRead.left_fromDataRefs, reads]),
      MultipartRead.left_fromDataRefs, reads]
  · simp [collectParts_eq, reads]
  · intro recorded apart
    have size : estimatedSize parts = contents.flatten.length := by
      rw [estimatedSize, recorded, List.length_flatten]
    obtain ⟨files', installed, stored⟩ := read_installFile cfg files loc contents.flatten
    refine ⟨files', ?_, stored⟩
    rw [streamParts_eq cfg files loc _ apart _ ready (by rwa [reads]), reads, size]
    simp [ObjectFileStore.writeObjectFromSyncReader, ObjectFileStore.writeObjectFromReader,
      ObjectFileStore.preallocated, installed]

/-- A part file of two bytes. -/
def onePartFile : ObjectFileStore := { disk := Disk.empty.create ["b", ".uploads", "2"] [7, 8] }

/-- An empty part in memory, the file, and a part in memory. -/
def threeParts : List UploadPart :=
  [⟨1, "", 0, .inline [], default⟩, ⟨2, "", 2, .fileRef ["b", ".uploads", "2"], default⟩,
    ⟨3, "", 1, .inline [9], default⟩]

/-- The file is read one byte at a time. -/
theorem threeParts_assembled :
    (MultipartRead.fromDataRefs (threeParts.map (·.data))).readToEnd onePartFile.disk
        (fun _ => ⟨4, 1⟩) 4 = some ⟨[7, 8, 9], false⟩ ∧
    collectParts onePartFile [] (threeParts.map (·.data)) = some [7, 8, 9] ∧
    ∃ files', onePartFile.streamParts ⟨id, id, id, 0⟩ ⟨"b", "k", "null"⟩
        (MultipartRead.fromDataRefs (threeParts.map (·.data))) (some 3) (fun _ => 1) 4 =
          some (some (["b", "k", "null"], 3), files') ∧
      files'.readData (.fileRef ["b", "k", "null"]) = some [7, 8, 9] := by
  have readable : threeParts.map (fun part => onePartFile.readData part.data) =
      [[], [7, 8], [9]].map some := by
    simp [threeParts, onePartFile, ObjectFileStore.readData]
  have apart : TmpApart ⟨id, id, id, 0⟩ onePartFile ⟨"b", "k", "null"⟩ (threeParts.map (·.data)) := by
    refine ⟨?_, by decide⟩
    intro q i found
    simp [onePartFile, ObjectFileStore.tmpPath, ObjectFileStore.objectDir, Disk.empty,
      Disk.create, Disk.alloc] at found
  obtain ⟨read, collected, streamed⟩ := multipart_assembly ⟨id, id, id, 0⟩ onePartFile
    ⟨"b", "k", "null"⟩ threeParts [[], [7, 8], [9]] readable (fun _ => ⟨4, 1⟩) (by simp) (fun _ => 1)
    4 (by decide)
  exact ⟨read, collected, streamed rfl apart⟩

/-- A read into an empty buffer returns nothing and drops the part. -/
theorem empty_buffer_ends_reading :
    ¬ ∀ calls : Nat → ReadCall, ∃ fuel,
      (MultipartRead.fromDataRefs [.inline [7]]).readToEnd Disk.empty calls fuel =
        some ⟨[7], false⟩ := by
  intro claimed
  obtain ⟨fuel, read⟩ := claimed fun _ => ⟨0, 1⟩
  cases fuel with
  | zero => cases read
  | succ fuel =>
    simp [MultipartRead.readToEnd, MultipartRead.read, MultipartPartReader.read,
      MultipartRead.fromDataRefs, MultipartPartReader.ofDataRef] at read

end Openstack.S3

import Openstack.Lib.Run

/-!
# Spooled bodies

`crates/service-framework/src/spooled.rs`, lines 16-161. Reading and appending share the one cursor of the file
below, and the length is kept beside it.
-/
namespace Openstack.Spooled

abbrev Bytes := List UInt8

/-- A file of bytes with one cursor. -/
structure ByteFile where
  data : Bytes
  cursor : Nat
  inside : cursor ≤ data.length
  deriving DecidableEq

namespace ByteFile

variable (f : ByteFile)

def empty : ByteFile := ⟨[], 0, Nat.le_refl _⟩

/-- What stands under the cursor is overwritten, what is behind it is kept. -/
def write (chunk : Bytes) : ByteFile where
  data := f.data.take f.cursor ++ chunk ++ f.data.drop (f.cursor + chunk.length)
  cursor := f.cursor + chunk.length
  inside := by
    have inside := f.inside
    simp only [List.length_append, List.length_take, List.length_drop]
    omega

def rewind : ByteFile := ⟨f.data, 0, Nat.zero_le _⟩

/-- What is still to be read. -/
def rest : Bytes := f.data.drop f.cursor

/-- The cursor after some bytes of the rest. -/
def advance (n : Nat) : ByteFile := ⟨f.data, min (f.cursor + n) f.data.length, Nat.min_le_right _ _⟩

end ByteFile

/-- `tempfile::SpooledTempFile`: on either side of the threshold it behaves as a file of bytes, `view`, and a
read may be short. -/
structure SpooledTempFile where
  File : Type
  Error : Type
  new : (threshold : Nat) → File
  writeAll : File → Bytes → Except Error Unit × File
  readToEnd : File → Except Error Bytes × File
  readExact : File → (len : Nat) → Except Error Bytes × File
  read : File → (len : Nat) → Except Error Bytes × File
  rewind : File → Except Error Unit × File
  isRolled : File → Bool
  view : File → ByteFile
  new_view : ∀ threshold, view (new threshold) = .empty
  writeAll_view : ∀ f chunk, (writeAll f chunk).1 = .ok () ∧ view (writeAll f chunk).2 = (view f).write chunk
  readToEnd_view : ∀ f, (readToEnd f).1 = .ok (view f).rest ∧
    view (readToEnd f).2 = (view f).advance (view f).rest.length
  readExact_enough : ∀ f len, len ≤ (view f).rest.length →
    (readExact f len).1 = .ok ((view f).rest.take len) ∧ view (readExact f len).2 = (view f).advance len
  readExact_short : ∀ f len, (view f).rest.length < len →
    (∃ e, (readExact f len).1 = .error e) ∧ (view (readExact f len).2).data = (view f).data
  read_view : ∀ f len, ∃ n ≤ len, (read f len).1 = .ok ((view f).rest.take n) ∧
    view (read f len).2 = (view f).advance n
  rewind_view : ∀ f, (rewind f).1 = .ok () ∧ view (rewind f).2 = (view f).rewind

section Body

variable (api : SpooledTempFile)

structure SpooledBody where
  inner : api.File
  len : Nat

/-- A method of the body: its result and the body after it. -/
abbrev Method (α : Type) := ExceptT api.Error (StateM (SpooledBody api)) α

variable {api}

def onInner {α : Type} (op : api.File → Except api.Error α × api.File) : Method api α := fun b =>
  ((op b.inner).1, { b with inner := (op b.inner).2 })

variable (api)

def new (threshold : Nat) : SpooledBody api := ⟨api.new threshold, 0⟩

def writeChunk (chunk : Bytes) : Method api Unit := do
  onInner fun f => api.writeAll f chunk
  modify fun b => { b with len := b.len + chunk.length }

def rewind : Method api Unit := onInner api.rewind

def fromBytes (bytes : Bytes) (threshold : Nat) : Except api.Error (SpooledBody api) :=
  let (result, body) := (do writeChunk api bytes; rewind api : Method api Unit) (new api threshold)
  result.map fun _ => body

/-- The body is consumed; what is left of it nobody sees. -/
def intoBytes : Method api Bytes := do
  onInner api.rewind
  onInner api.readToEnd

def toBytes : Method api Bytes := do
  onInner api.rewind
  let buf ← onInner api.readToEnd
  onInner api.rewind
  return buf

def peekBytes (n : Nat) : Method api Bytes := do
  onInner api.rewind
  let take := min n (← get).len
  let buf ← onInner fun f => api.readExact f take
  onInner api.rewind
  return buf

/-- `std::io::Read::read`. -/
def read (len : Nat) : Method api Bytes := onInner fun f => api.read f len

inductive Call where
  | writeChunk (chunk : Bytes)
  | rewind
  | toBytes
  | peekBytes (n : Nat)
  | read (len : Nat)
  deriving DecidableEq, Repr

/-- A body, and the chunks that were written to it, one after the other. -/
structure Traced where
  body : SpooledBody api
  written : Bytes

def step (s : Traced api) : Call → Traced api
  | .writeChunk chunk => ⟨(writeChunk api chunk s.body).2, s.written ++ chunk⟩
  | .rewind => { s with body := (rewind api s.body).2 }
  | .toBytes => { s with body := (toBytes api s.body).2 }
  | .peekBytes n => { s with body := (peekBytes api n s.body).2 }
  | .read len => { s with body := (read api len s.body).2 }

/-- A body as it is made. -/
structure Created where
  start : Traced api
  made : (∃ threshold, start = ⟨new api threshold, []⟩) ∨
    ∃ threshold, fromBytes api start.written threshold = .ok start.body

/-- The body holds what was written, and all of it. -/
structure Holds (s : Traced api) : Prop where
  toBytes : (toBytes api s.body).1 = .ok s.written
  intoBytes : (intoBytes api s.body).1 = .ok s.written
  len : s.body.len = s.written.length
  peekBytes : ∀ n, (peekBytes api n s.body).1 = .ok (s.written.take (min n s.body.len))

/-- A chunk is written at the end of the file, if there is anything in it. -/
def Appends (s : Traced api) : Call → Prop
  | .writeChunk chunk => chunk ≠ [] → (api.view s.body.inner).rest = []
  | _ => True

end Body

section Methods

variable {api : SpooledTempFile}

/-- The bytes of the file. -/
def SpooledBody.contents (b : SpooledBody api) : Bytes := (api.view b.inner).data

theorem bind_ok {α β : Type} {x : Method api α} {f : α → Method api β} {b b' : SpooledBody api} {a : α}
    (ran : x b = (.ok a, b')) : (x >>= f) b = f a b' := by
  change ExceptT.bindCont f (x b).1 (x b).2 = f a b'
  rw [ran]
  rfl

theorem bind_error {α β : Type} {x : Method api α} (f : α → Method api β) {b : SpooledBody api} {e : api.Error}
    (ran : (x b).1 = .error e) : (x >>= f) b = (.error e, (x b).2) := by
  change ExceptT.bindCont f (x b).1 (x b).2 = (.error e, (x b).2)
  rw [ran]
  rfl

theorem rewind_eq (b : SpooledBody api) : rewind api b = (.ok (), { b with inner := (api.rewind b.inner).2 }) :=
  Prod.ext (api.rewind_view b.inner).1 rfl

theorem contents_rewind (b : SpooledBody api) : (rewind api b).2.contents = b.contents := by
  rw [rewind_eq, SpooledBody.contents, (api.rewind_view b.inner).2]
  rfl

theorem rest_rewind (b : SpooledBody api) : (api.view (rewind api b).2.inner).rest = b.contents := by
  rw [rewind_eq, (api.rewind_view b.inner).2]
  exact List.drop_zero

theorem writeChunk_eq (chunk : Bytes) (b : SpooledBody api) : writeChunk api chunk b =
    (.ok (), ⟨(api.writeAll b.inner chunk).2, b.len + chunk.length⟩) := by
  have written : (onInner fun f => api.writeAll f chunk : Method api Unit) b =
      (.ok (), { b with inner := (api.writeAll b.inner chunk).2 }) :=
    Prod.ext (api.writeAll_view b.inner chunk).1 rfl
  rw [writeChunk, bind_ok written]
  rfl

theorem contents_writeChunk (chunk : Bytes) (b : SpooledBody api) :
    (writeChunk api chunk b).2.contents = ((api.view b.inner).write chunk).data := by
  rw [writeChunk_eq, SpooledBody.contents, (api.writeAll_view b.inner chunk).2]

theorem readAll_eq (b : SpooledBody api) :
    (onInner api.readToEnd : Method api Bytes) (rewind api b).2 =
      (.ok b.contents, { (rewind api b).2 with inner := (api.readToEnd (rewind api b).2.inner).2 }) := by
  refine Prod.ext ?_ rfl
  have read := (api.readToEnd_view (rewind api b).2.inner).1
  rw [rest_rewind] at read
  exact read

theorem intoBytes_eq (b : SpooledBody api) : (intoBytes api b).1 = .ok b.contents := by
  have start : (onInner api.rewind : Method api Unit) b = (.ok (), (rewind api b).2) := rewind_eq b
  rw [intoBytes, bind_ok start, readAll_eq]

theorem toBytes_eq (b : SpooledBody api) : (toBytes api b).1 = .ok b.contents ∧
    (toBytes api b).2.contents = b.contents ∧ (toBytes api b).2.len = b.len := by
  have start : (onInner api.rewind : Method api Unit) b = (.ok (), (rewind api b).2) := rewind_eq b
  have run : toBytes api b = (.ok b.contents,
      (rewind api { (rewind api b).2 with inner := (api.readToEnd (rewind api b).2.inner).2 }).2) := by
    rw [toBytes, bind_ok start, bind_ok (readAll_eq b)]
    exact bind_ok (rewind_eq _)
  rw [run]
  refine ⟨rfl, ?_, rfl⟩
  rw [contents_rewind]
  have kept := (api.readToEnd_view (rewind api b).2.inner).2
  exact (congrArg ByteFile.data kept).trans (contents_rewind b)

/-- The first bytes, if there are as many as the length says. -/
theorem peekBytes_eq (n : Nat) (b : SpooledBody api) :
    (min n b.len ≤ b.contents.length → (peekBytes api n b).1 = .ok (b.contents.take (min n b.len))) ∧
      (peekBytes api n b).2.contents = b.contents ∧ (peekBytes api n b).2.len = b.len := by
  have start : (onInner api.rewind : Method api Unit) b = (.ok (), (rewind api b).2) := rewind_eq b
  have enough := api.readExact_enough (rewind api b).2.inner (min n b.len)
  have short := api.readExact_short (rewind api b).2.inner (min n b.len)
  rw [rest_rewind] at enough short
  let after : SpooledBody api := { (rewind api b).2 with inner :=
    (api.readExact (rewind api b).2.inner (min n b.len)).2 }
  rcases Nat.lt_or_ge b.contents.length (min n b.len) with less | there
  · obtain ⟨⟨e, failed⟩, kept⟩ := short less
    have same : after.contents = b.contents := kept.trans (contents_rewind b)
    have run : peekBytes api n b = (.error e, after) := by
      rw [peekBytes, bind_ok start]
      exact bind_error (x := onInner fun f => api.readExact f (min n b.len)) _ failed
    rw [run]
    exact ⟨fun there => absurd there (Nat.not_le_of_lt less), same, rfl⟩
  · obtain ⟨taken, moved⟩ := enough there
    have same : after.contents = b.contents := (congrArg ByteFile.data moved).trans (contents_rewind b)
    have read : (onInner fun f => api.readExact f (min n b.len) : Method api Bytes) (rewind api b).2 =
        (.ok (b.contents.take (min n b.len)), after) := Prod.ext taken rfl
    have run : peekBytes api n b = (.ok (b.contents.take (min n b.len)), (rewind api after).2) := by
      rw [peekBytes, bind_ok start]
      exact (bind_ok read).trans (bind_ok (rewind_eq after))
    rw [run]
    exact ⟨fun _ => rfl, (contents_rewind after).trans same, rfl⟩

theorem contents_read (len : Nat) (b : SpooledBody api) : (read api len b).2.contents = b.contents := by
  obtain ⟨n, -, -, moved⟩ := api.read_view b.inner len
  exact (congrArg ByteFile.data moved).trans rfl

end Methods

section Runs

variable {api : SpooledTempFile}

theorem holds_iff (s : Traced api) :
    Holds api s ↔ s.body.contents = s.written ∧ s.body.len = s.written.length := by
  constructor
  · intro holds
    refine ⟨?_, holds.len⟩
    have same := holds.toBytes
    rw [(toBytes_eq s.body).1] at same
    exact Except.ok.inj same
  · rintro ⟨contents, len⟩
    refine ⟨?_, ?_, len, fun n => ?_⟩
    · rw [(toBytes_eq s.body).1, contents]
    · rw [intoBytes_eq, contents]
    · rw [(peekBytes_eq n s.body).1 ?_, contents]
      rw [contents, len]
      exact Nat.min_le_right _ _

/-- A chunk comes behind what is there exactly when the cursor is at the end, or the chunk is empty. -/
theorem write_data_iff (f : ByteFile) (chunk : Bytes) :
    (f.write chunk).data = f.data ++ chunk ↔ (chunk ≠ [] → f.rest = []) := by
  have inside := f.inside
  constructor
  · intro appended some
    have lengths := congrArg List.length appended
    simp only [ByteFile.write, List.length_append, List.length_take, List.length_drop] at lengths
    have positive := List.length_pos_of_ne_nil some
    exact List.drop_eq_nil_of_le (by omega)
  · intro atEnd
    change f.data.take f.cursor ++ chunk ++ f.data.drop (f.cursor + chunk.length) = f.data ++ chunk
    by_cases none : chunk = []
    · rw [none, List.length_nil, Nat.add_zero, List.append_nil, List.append_nil, List.take_append_drop]
    · have last : f.data.length ≤ f.cursor := List.drop_eq_nil_iff.mp (atEnd none)
      have behind : f.data.length ≤ f.cursor + chunk.length := by omega
      rw [List.take_of_length_le last, List.drop_eq_nil_of_le behind, List.append_nil]

theorem holds_step_iff {s : Traced api} (holds : Holds api s) (call : Call) :
    Holds api (step api s call) ↔ Appends api s call := by
  obtain ⟨contents, len⟩ := (holds_iff s).mp holds
  rw [holds_iff]
  cases call with
  | writeChunk chunk =>
    have lengths : (writeChunk api chunk s.body).2.len = (s.written ++ chunk).length := by
      rw [writeChunk_eq, len, List.length_append]
    rw [step, contents_writeChunk, lengths, and_iff_left rfl, ← contents]
    exact write_data_iff (api.view s.body.inner) chunk
  | rewind => exact iff_of_true ⟨(contents_rewind s.body).trans contents, len⟩ trivial
  | toBytes =>
    obtain ⟨-, kept, same⟩ := toBytes_eq s.body
    exact iff_of_true ⟨kept.trans contents, same.trans len⟩ trivial
  | peekBytes n =>
    obtain ⟨-, kept, same⟩ := peekBytes_eq n s.body
    exact iff_of_true ⟨kept.trans contents, same.trans len⟩ trivial
  | read n => exact iff_of_true ⟨(contents_read n s.body).trans contents, len⟩ trivial

theorem fromBytes_eq (bytes : Bytes) (threshold : Nat) : fromBytes api bytes threshold =
    .ok (rewind api (writeChunk api bytes (new api threshold)).2).2 := by
  have run : (do writeChunk api bytes; rewind api : Method api Unit) (new api threshold) =
      (.ok (), (rewind api (writeChunk api bytes (new api threshold)).2).2) := by
    rw [bind_ok (writeChunk_eq bytes (new api threshold)), rewind_eq, writeChunk_eq]
    exact congrArg (Prod.mk _) (congrArg Prod.snd (rewind_eq _)).symm
  rw [fromBytes, run]
  rfl

theorem holds_created (created : Created api) : Holds api created.start := by
  have empty : ∀ threshold, (new api threshold).contents = [] := fun threshold =>
    congrArg ByteFile.data (api.new_view threshold)
  rw [holds_iff]
  rcases created.made with ⟨threshold, start⟩ | ⟨threshold, start⟩
  · rw [start]
    exact ⟨empty threshold, rfl⟩
  · rw [fromBytes_eq] at start
    obtain body := Except.ok.inj start
    rw [← body, contents_rewind, contents_writeChunk]
    constructor
    · have view : api.view (new api threshold).inner = .empty := api.new_view threshold
      rw [view]
      simp [ByteFile.write, ByteFile.empty]
    · rw [writeChunk_eq]
      exact Nat.zero_add _

/-- In every run, the body holds what was written all along exactly when no chunk is written before the end of the
file. -/
theorem spooled_body_appends_iff (api : SpooledTempFile) (created : Created api) (calls : List Call) :
    Run.AllStates (step api) (Holds api) created.start calls ↔
      Run.AllSteps (step api) (Appends api) created.start calls :=
  Run.allStates_iff_allSteps (fun _ call holds => holds_step_iff holds call) _ _ (holds_created created)

end Runs

section Overwriting

/-- A file that is nothing but its bytes and the cursor. -/
def plainFile : SpooledTempFile where
  File := ByteFile
  Error := Unit
  new _ := .empty
  writeAll f chunk := (.ok (), f.write chunk)
  readToEnd f := (.ok f.rest, f.advance f.rest.length)
  readExact f len := if len ≤ f.rest.length then (.ok (f.rest.take len), f.advance len) else (.error (), f)
  read f len := (.ok (f.rest.take len), f.advance len)
  rewind f := (.ok (), f.rewind)
  isRolled _ := false
  view f := f
  new_view _ := rfl
  writeAll_view _ _ := ⟨rfl, rfl⟩
  readToEnd_view _ := ⟨rfl, rfl⟩
  readExact_enough f len enough := by
    rw [if_pos enough]
    exact ⟨rfl, rfl⟩
  readExact_short f len short := by
    rw [if_neg (Nat.not_le_of_lt short)]
    exact ⟨⟨(), rfl⟩, rfl⟩
  read_view f len := ⟨len, Nat.le_refl _, rfl, rfl⟩
  rewind_view _ := ⟨rfl, rfl⟩

/-- A body made from the bytes `ab`. -/
def fromAb : Created plainFile where
  start := ⟨(rewind plainFile (writeChunk plainFile [97, 98] (new plainFile 4)).2).2, [97, 98]⟩
  made := .inr ⟨4, fromBytes_eq _ _⟩

/-- The chunk `c` is written over the first byte. -/
theorem chunk_overwrites : ¬ Run.AllStates (step plainFile) (Holds plainFile) fromAb.start [.writeChunk [99]] := by
  rintro ⟨-, holds⟩
  have contents := ((holds_iff _).mp holds).1
  exact absurd contents (by decide)

end Overwriting

end Openstack.Spooled

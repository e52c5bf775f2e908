import Openstack.Lib.FileTree
import Openstack.State.Bundle

/-!
# Snapshot files

`crates/state/src/persistence.rs`, lines 6-42. The serialiser comes from outside the repository and
is a parameter; paths are absolute and written as their components.
-/
namespace Openstack.State

/-- `serde_json::to_vec_pretty` and `serde_json::from_slice` at one type. -/
structure Serde (S : Type) where
  toVecPretty : S → List UInt8
  fromSlice : List UInt8 → Option S

/-- The components of a path that is appended to another one: `.` and empty ones do not count. -/
def components (text : String) : List String :=
  ((text.toList.splitOn '/').map String.ofList).filter fun c => c ≠ "" ∧ c ≠ "."

/-- `Path::join`: an absolute text replaces the path. -/
def join (path : List String) (text : String) : List String :=
  if RustStr.startsWith text "/" then components text else path ++ components text

/-- `{data_dir}/state/{service}/{account_id}/{region}/store.json`. -/
def statePath (dataDir : List String) (service accountId region : String) : List String :=
  join (join (join (join (join dataDir "state") service) accountId) region) "store.json"

variable {S : Type}

/-- `save_store`, with the answer whether it succeeded. A path with a NUL reaches no system call. -/
def saveStore (serde : Serde S) (t : FileTree UInt8) (store : S) (path : List String) :
    FileTree UInt8 × Bool :=
  if path.any (fun c => c.toList.contains nul) then (t, false)
  else
    let made := t.createDirAll [] path.dropLast
    match made.2 with
    | none => (made.1, false)
    | some dir =>
      match made.1.put dir (path.getLast?.getD "") (.file (serde.toVecPretty store)) with
      | none => (made.1, false)
      | some written => (written, true)

/-- `load_store`: the default for a file that is not there, and nothing on an error. -/
def loadStore [Inhabited S] (serde : Serde S) (t : FileTree UInt8) (path : List String) : Option S :=
  match t.lookup path with
  | some (.file bytes) => serde.fromSlice bytes
  | some .dir => none
  | none => some default

theorem components_plain {name : String} (nonempty : name ≠ "") (notDot : name ≠ ".") (plain : '/' ∉ name.toList) :
    components name = [name] := by
  have whole : name.toList.splitOn '/' = [name.toList] := by
    have plain : ∀ l ∈ [name.toList], '/' ∉ l := by simpa using plain
    have split := List.splitOn_intercalate '/' plain (by simp)
    simpa using split
  rw [components, whole]
  simp [nonempty, notDot]

theorem join_plain {name : String} (path : List String) (nonempty : name ≠ "") (notDot : name ≠ ".")
    (plain : '/' ∉ name.toList) : join path name = path ++ [name] := by
  have relative : RustStr.startsWith name "/" = false := by
    rw [Bool.eq_false_iff]
    intro starts
    have inside : '/' ∈ name.toList :=
      (List.isPrefixOf_iff_prefix.mp starts).subset List.mem_cons_self
    exact plain inside
  rw [join, relative, components_plain nonempty notDot plain]
  rfl

theorem join_fileName {name : String} (path : List String) (named : FileName name) :
    join path name = path ++ [name] :=
  join_plain path named.1 named.2.1 named.2.2.2.1

theorem statePath_named {service accountId region : String} (dataDir : List String)
    (serviceNamed : FileName service) (accountNamed : FileName accountId)
    (regionNamed : FileName region) : statePath dataDir service accountId region =
      dataDir ++ ["state", service] ++ [accountId, region] ++ ["store.json"] := by
  rw [statePath, join_fileName _ (by decide), join_fileName _ serviceNamed,
    join_fileName _ accountNamed, join_fileName _ regionNamed, join_fileName _ (by decide)]
  simp

theorem saveStore_extends (serde : Serde S) (t : FileTree UInt8) (store : S) (path : List String) :
    t.Extends (saveStore serde t store path).1 := by
  have made := t.createDirAll_extends [] path.dropLast
  unfold saveStore
  split
  · exact .refl t
  · simp only
    split
    · exact made
    · split
      · exact made
      · next written => exact made.trans (.write written)

/-- Nothing stands in the way of writing the file `name` of a directory. -/
structure Free (t : FileTree UInt8) (dir : List String) (name : String) : Prop where
  dirs : ∀ q, q <+: dir → ∀ bytes, t.lookup q ≠ some (.file bytes)
  file : t.lookup (dir ++ [name]) ≠ some .dir

/-- A save to a path of plain names with nothing in the way makes the directories and the file, and
changes nothing else. -/
theorem saveStore_free (serde : Serde S) {t : FileTree UInt8} (store : S) {dir : List String}
    {name : String} (named : ∀ c ∈ dir ++ [name], FileName c) (free : Free t dir name) :
    (saveStore serde t store (dir ++ [name])).2 = true ∧
    ∀ q, (saveStore serde t store (dir ++ [name])).1.lookup q =
      if q = dir ++ [name] then some (.file (serde.toVecPretty store))
      else if q <+: dir then some .dir else t.lookup q := by
  have noNul : (dir ++ [name]).any (fun c => c.toList.contains nul) = false := by
    rw [List.any_eq_false]
    intro c member
    rw [List.contains_iff_mem]
    exact (named c member).2.2.2.2
  have dirNamed : ∀ c ∈ dir, FileName c := fun c member => named c (List.mem_append_left _ member)
  have root : t.lookup [] = some .dir := rfl
  obtain ⟨ends, after⟩ := FileTree.createDirAll_named root dirNamed
    (fun q between => free.dirs q between.2)
  simp only [List.nil_append, List.nil_prefix, true_and] at ends after
  have here : (t.createDirAll [] dir).1.lookup dir = some .dir := by
    rw [after, if_pos (List.prefix_refl _)]
  have notPrefix : ¬ dir ++ [name] <+: dir := by
    intro short
    have := short.length_le
    rw [List.length_append, List.length_singleton] at this
    omega
  have notDir : (t.createDirAll [] dir).1.lookup (dir ++ [name]) ≠ some .dir := by
    rw [after, if_neg notPrefix]
    exact free.file
  obtain ⟨written, done⟩ := FileTree.put_of_free (.file (serde.toVecPretty store)) here notDir
    (named name (by simp))
  obtain ⟨_, _, _, last⟩ := FileTree.put_eq_some done
  have result : saveStore serde t store (dir ++ [name]) = (written, true) := by
    unfold saveStore
    rw [noNul, List.dropLast_concat, List.getLast?_concat]
    simp [ends, done]
  rw [result]
  refine ⟨rfl, fun q => ?_⟩
  rw [last, after]

end Openstack.State

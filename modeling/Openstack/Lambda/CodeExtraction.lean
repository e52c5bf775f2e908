import Openstack.Lib.Base64
import Openstack.Lib.Run
import Openstack.State.Persistence

/-!
# The code of a function on disk

`DockerExecutor::extract_code` (`crates/services/lambda/src/docker.rs`, lines 216-240), called with the code of a
function and the digest that `compute_sha256_b64` has of it (`provider.rs`, lines 98-106). Archives and digests
come from outside the repository and are parameters.
-/
namespace Openstack.Lambda

open FileTree (enter positions)
open State (components join nul)

variable {t : FileTree UInt8} {before : List ZipEntry} {bytes : List UInt8}

/-! ## Extraction -/

/-- An entry of an archive: its stored name, what is copied of it, and whether all of it can be. -/
structure ZipEntry where
  name : String
  written : List UInt8
  whole : Bool
  deriving DecidableEq

/-- `openArchive` is `ZipArchive::new` with the `by_index` of every entry. -/
structure ExtractEnv where
  tempDir : List String
  sha256 : List UInt8 → List UInt8
  openArchive : List UInt8 → Option (List (Option ZipEntry))

def segments (name : String) : List String := (name.toList.splitOn '/').map String.ofList

def ZipEntry.isDir (entry : ZipEntry) : Bool := RustStr.endsWith entry.name "/"

/-- The name ends in `.` and slashes: the operating system looks the directory up then, it makes none. -/
def ZipEntry.dotted (entry : ZipEntry) : Bool := ((segments entry.name).filter (· ≠ "")).getLast? = some "."

def hasNul (path : List String) : Bool := path.any fun c => c.toList.contains nul

/-- One round of the loop of `extract_code`, with the answer whether it went through. -/
def extractEntry (t : FileTree UInt8) (dir : List String) (entry : ZipEntry) : FileTree UInt8 × Bool :=
  let path := join dir entry.name
  if entry.isDir then
    if hasNul path then (t, false)
    else if entry.dotted then
      let made := t.createDirAll [] path.dropLast
      (made.1, made.2.isSome && made.1.isDir (path.foldl enter []))
    else
      let made := t.createDirAll [] path
      (made.1, made.2.isSome)
  else if hasNul path.dropLast then (t, false)
  else
    let made := t.createDirAll [] path.dropLast
    let last := (segments entry.name).getLast?.getD ""
    match made.2 with
    | none => (made.1, false)
    | some parent =>
      if last = "" ∨ last = "." then (made.1, false)
      else
        match made.1.put parent last (.file entry.written) with
        | none => (made.1, false)
        | some written => (written, entry.whole)

@[grind] def extractAll (dir : List String) : FileTree UInt8 → List (Option ZipEntry) → FileTree UInt8 × Bool
  | t, [] => (t, true)
  | t, none :: _ => (t, false)
  | t, some entry :: rest =>
    match extractEntry t dir entry with
    | (t', false) => (t', false)
    | (t', true) => extractAll dir t' rest

section Extract

variable (env : ExtractEnv)

/-- `compute_sha256_b64`. -/
def codeSha256 (code : String) : String :=
  match Base64.decode code.toList with
  | some bytes => String.ofList (Base64.encode (env.sha256 bytes))
  | none => ""

def codeDir (sha256 : String) : List String := join env.tempDir ("lambda-code-" ++ sha256)

def extractCode (t : FileTree UInt8) (code sha256 : String) : FileTree UInt8 × Option (List String) :=
  match Base64.decode code.toList with
  | none => (t, none)
  | some bytes =>
    let dir := codeDir env sha256
    if (t.lookup dir).isSome then (t, some dir)
    else
      let made := t.createDirAll [] dir
      match made.2, env.openArchive bytes with
      | some _, some entries =>
        let extracted := extractAll dir made.1 entries
        (extracted.1, if extracted.2 then some dir else none)
      | _, _ => (made.1, none)

/-- A call for the code of a function. -/
def extractStep (t : FileTree UInt8) (code : String) : FileTree UInt8 :=
  (extractCode env t code (codeSha256 env code)).1

end Extract

/-! ## Statement -/

section Statement

def ZipEntry.path (entry : ZipEntry) : List String := components entry.name

/-- The components that become directories. -/
def ZipEntry.way (entry : ZipEntry) : List String :=
  if entry.isDir = true ∧ entry.dotted = false then entry.path else entry.path.dropLast

def ZipEntry.directories (entry : ZipEntry) : List (List String) := positions [] entry.way

/-- Where the name leads, from the directory of the archive. -/
def ZipEntry.target (entry : ZipEntry) : List String := entry.path.foldl enter []

/-- What these entries are: the last file of each name, and the directories that names go through. -/
def archiveContents (entries : List ZipEntry) (place : List String) : Option (FileNode UInt8) :=
  match entries.reverse.find? fun entry => !entry.isDir && entry.target == place with
  | some entry => some (.file entry.written)
  | none => if place = [] ∨ ∃ entry ∈ entries, place ∈ entry.directories then some .dir else none

/-- The directory has what the entries are, and nothing else. -/
def Holds (t : FileTree UInt8) (dir : List String) (entries : List ZipEntry) : Prop :=
  ∀ place, t.lookup (dir ++ place) = archiveContents entries place

variable (env : ExtractEnv)

/-- Nothing outside the directory of the code changes, and after success the archive is there, all of it and
nothing else. -/
structure CallRight (t : FileTree UInt8) (code : String) : Prop where
  confined : ∀ q, ¬ codeDir env (codeSha256 env code) <+: q → (extractStep env t code).lookup q = t.lookup q
  exact : ∀ dir, (extractCode env t code (codeSha256 env code)).2 = some dir →
    dir = codeDir env (codeSha256 env code) ∧
      ∃ bytes entries, Base64.decode code.toList = some bytes ∧ env.openArchive bytes = some (entries.map some) ∧
        (∀ entry ∈ entries, entry.isDir = false → entry.whole = true) ∧ Holds (extractStep env t code) dir entries

/-- No step up leaves the directory. -/
def staysInside (pos : List String) : List String → Bool
  | [] => true
  | c :: rest => (c != ".." || pos != []) && staysInside (enter pos c) rest

def ZipEntry.Inside (entry : ZipEntry) : Prop :=
  RustStr.startsWith entry.name "/" = false ∧ staysInside [] entry.path = true

/-- The entry can follow these: its parts can be names and it takes no other's place. -/
structure ZipEntry.Fits (entry : ZipEntry) (before : List ZipEntry) : Prop where
  named : ∀ c ∈ entry.path, c = ".." ∨ FileName c
  free : ∀ place ∈ entry.directories, ∀ bytes, archiveContents before place ≠ some (.file bytes)
  file : entry.isDir = false → entry.whole = true ∧ FileName ((segments entry.name).getLast?.getD "") ∧
    entry.target ∉ entry.directories ∧ archiveContents before entry.target ≠ some .dir
  dotted : entry.isDir = true → entry.dotted = true →
    entry.target ∈ entry.directories ∨ archiveContents before entry.target = some .dir

/-- Every entry can be read and follows those before it. -/
def Extractable (entries : List ZipEntry) : Prop :=
  ∀ before entry after, entries = before ++ entry :: after → entry.Fits before

/-- The digest has no slash, the names of the archive stay inside, and where the directory is there already, the
archive can be extracted. -/
def StepFits (t : FileTree UInt8) (code : String) : Prop :=
  ∀ bytes, Base64.decode code.toList = some bytes → '/' ∉ (codeSha256 env code).toList ∧
    (∀ entries, env.openArchive bytes = some entries → ∀ entry, some entry ∈ entries → entry.Inside) ∧
    ((t.lookup (codeDir env (codeSha256 env code))).isSome = true →
      ∃ entries, env.openArchive bytes = some (entries.map some) ∧ Extractable entries)

/-- A directory for temporary files without the code of any function. -/
structure FreshTemp where
  tree : FileTree UInt8
  temp : tree.lookup env.tempDir = some .dir
  fresh : ∀ name, tree.lookup (env.tempDir ++ ["lambda-code-" ++ name]) = none

/-- Different codes have different digests. -/
def NoCollisions (codes : List String) : Prop :=
  ∀ a ∈ codes, ∀ b ∈ codes, ∀ x y, Base64.decode a.toList = some x → Base64.decode b.toList = some y →
    env.sha256 x = env.sha256 y → x = y

end Statement

/-! ## Names -/

theorem components_eq (name : String) : components name = (segments name).filter fun c => c ≠ "" ∧ c ≠ "." := rfl

/-- A last segment that is a name is the last component. -/
theorem path_of_last {entry : ZipEntry} {last : String} (found : (segments entry.name).getLast?.getD "" = last)
    (nonempty : last ≠ "") (notDot : last ≠ ".") : entry.path = entry.path.dropLast ++ [last] := by
  have split : segments entry.name = (segments entry.name).dropLast ++ [last] := by
    cases ends : (segments entry.name).getLast? with
    | none =>
      rw [ends] at found
      exact absurd found.symm nonempty
    | some c =>
      rw [ends, Option.getD_some] at found
      obtain ⟨front, whole⟩ := List.getLast?_eq_some_iff.mp ends
      rw [whole, found, List.dropLast_concat]
  have path : entry.path = ((segments entry.name).dropLast.filter fun c => c ≠ "" ∧ c ≠ ".") ++ [last] := by
    rw [ZipEntry.path, components_eq, split, List.filter_append, List.dropLast_concat]
    simp [nonempty, notDot]
  rw [path, List.dropLast_concat]

theorem join_inside {entry : ZipEntry} (inside : entry.Inside) (dir : List String) :
    join dir entry.name = dir ++ entry.path := by
  rw [join, inside.1, if_neg Bool.false_ne_true]
  rfl

theorem not_hasNul {path : List String} (named : ∀ c ∈ path, c = ".." ∨ FileName c) : hasNul path = false := by
  rw [hasNul, List.any_eq_false]
  intro c member nulIn
  rw [List.contains_iff_mem] at nulIn
  rcases named c member with rfl | name
  · exact absurd nulIn (by decide)
  · exact name.2.2.2.2 nulIn

theorem not_up_of_lookup {dir : List String} {node : FileNode UInt8}
    (found : t.lookup dir = some node) : ".." ∉ dir :=
  fun member => (FileTree.fileName_of_lookup found ".." member).2.2.1 rfl

/-! ## Staying inside -/

section Inside

theorem staysInside_append (pos front rest : List String) :
    staysInside pos (front ++ rest) = (staysInside pos front && staysInside (front.foldl enter pos) rest) := by
  induction front generalizing pos with
  | nil => rfl
  | cons c more ih => rw [List.cons_append, staysInside, staysInside, ih, List.foldl_cons, Bool.and_assoc]

theorem staysInside_dropLast {pos path : List String} (stays : staysInside pos path = true) :
    staysInside pos path.dropLast = true := by
  cases path using List.reverseRecOn with
  | nil => exact stays
  | append_singleton front last =>
    rw [staysInside_append, Bool.and_eq_true] at stays
    rw [List.dropLast_concat]
    exact stays.1

theorem enter_append {pos : List String} {c : String} (dir : List String) (stays : (c != ".." || pos != []) = true) :
    enter (dir ++ pos) c = dir ++ enter pos c := by
  unfold enter
  split
  · next up =>
    subst up
    have deeper : pos ≠ [] := by simpa using stays
    rw [List.dropLast_append_of_ne_nil deeper]
  · rw [List.append_assoc]

theorem positions_append {pos path : List String} (dir : List String) (stays : staysInside pos path = true) :
    positions (dir ++ pos) path = (positions pos path).map (dir ++ ·) ∧
      path.foldl enter (dir ++ pos) = dir ++ path.foldl enter pos := by
  induction path generalizing pos with
  | nil => exact ⟨rfl, rfl⟩
  | cons c rest ih =>
    rw [staysInside, Bool.and_eq_true] at stays
    rw [positions, positions, List.map_cons, List.foldl_cons, List.foldl_cons, enter_append dir stays.1,
      (ih stays.2).1, (ih stays.2).2]
    exact ⟨rfl, rfl⟩

variable {entry : ZipEntry}

theorem ZipEntry.Inside.way (inside : entry.Inside) : staysInside [] entry.way = true := by
  unfold ZipEntry.way
  split
  · exact inside.2
  · exact staysInside_dropLast inside.2

theorem ZipEntry.Inside.positions_way (inside : entry.Inside) (dir : List String) :
    positions dir entry.way = entry.directories.map (dir ++ ·) := by
  have whole := (positions_append dir inside.way).1
  rwa [List.append_nil] at whole

theorem ZipEntry.Inside.foldl_path (inside : entry.Inside) (dir : List String) :
    entry.path.foldl enter dir = dir ++ entry.target := by
  have whole := (positions_append dir inside.2).2
  rwa [List.append_nil] at whole

end Inside

/-! ## One entry -/

section Entry

variable {t : FileTree UInt8} {dir : List String} {entry : ZipEntry}

/-- The directories that an entry asks for, made from the root or from the directory of the archive. -/
theorem createDirAll_parent (there : t.lookup dir = some .dir) (path : List String) :
    (t.createDirAll [] (dir ++ path).dropLast).1 = (t.createDirAll dir path.dropLast).1 ∧
      (t.createDirAll [] (dir ++ path).dropLast).2.isSome = (t.createDirAll dir path.dropLast).2.isSome ∧
      (path ≠ [] → (t.createDirAll [] (dir ++ path).dropLast).2 = (t.createDirAll dir path.dropLast).2) := by
  have named := not_up_of_lookup there
  by_cases empty : path = []
  · subst empty
    have above := FileTree.lookup_dropLast there
    have passed := FileTree.createDirAll_append (t := t) [] [] above
      fun member => named (List.dropLast_subset dir member)
    rw [List.append_nil, List.nil_append] at passed
    rw [List.append_nil, passed]
    exact ⟨rfl, rfl, fun nonempty => absurd rfl nonempty⟩
  · have passed := FileTree.createDirAll_append (t := t) [] path.dropLast there named
    rw [List.dropLast_append_of_ne_nil empty, passed]
    exact ⟨rfl, rfl, fun _ => rfl⟩

theorem foldl_enter_plain {path : List String} (named : ".." ∉ path) (pos : List String) :
    path.foldl enter pos = pos ++ path := by
  induction path generalizing pos with
  | nil => rw [List.foldl_nil, List.append_nil]
  | cons c rest ih =>
    rw [List.mem_cons, not_or] at named
    rw [List.foldl_cons, enter, if_neg (Ne.symm named.1), ih named.2, List.append_assoc, List.singleton_append]

/-- The round of the loop, seen from the directory of the archive. -/
theorem extractEntry_eq (there : t.lookup dir = some .dir) (inside : entry.Inside) :
    extractEntry t dir entry =
      let made := t.createDirAll dir entry.way
      let last := (segments entry.name).getLast?.getD ""
      if entry.isDir then
        if hasNul (dir ++ entry.path) then (t, false)
        else if entry.dotted then (made.1, made.2.isSome && made.1.isDir (dir ++ entry.target))
        else (made.1, made.2.isSome)
      else if hasNul (dir ++ entry.path).dropLast then (t, false)
      else
        match made.2 with
        | none => (made.1, false)
        | some parent =>
          if last = "" ∨ last = "." then (made.1, false)
          else
            match made.1.put parent last (.file entry.written) with
            | none => (made.1, false)
            | some written => (written, entry.whole) := by
  have named := not_up_of_lookup there
  obtain ⟨tree, succeeds, same⟩ := createDirAll_parent there entry.path
  have target : (dir ++ entry.path).foldl enter [] = dir ++ entry.target := by
    rw [List.foldl_append, foldl_enter_plain named, List.nil_append, inside.foldl_path]
  have passed := FileTree.createDirAll_append (t := t) [] entry.path there named
  rw [List.nil_append] at passed
  rw [extractEntry, join_inside inside]
  cases isDir : entry.isDir with
  | true =>
    cases dotted : entry.dotted with
    | true =>
      have way : entry.way = entry.path.dropLast := by simp [ZipEntry.way, dotted]
      simp [way, tree, succeeds, target]
    | false =>
      have way : entry.way = entry.path := by simp [ZipEntry.way, isDir, dotted]
      simp [way, passed]
  | false =>
    have way : entry.way = entry.path.dropLast := by simp [ZipEntry.way, isDir]
    simp only [Bool.false_eq_true, ↓reduceIte, way, tree]
    by_cases last : (segments entry.name).getLast?.getD "" = "" ∨ (segments entry.name).getLast?.getD "" = "."
    · simp only [last, ↓reduceIte]
      split
      · rfl
      · split <;> split <;> rfl
    · rw [not_or] at last
      have path := path_of_last rfl last.1 last.2
      rw [same fun empty => by rw [empty] at path; simp at path]

/-- Nothing outside the directory changes. -/
theorem extractEntry_other (there : t.lookup dir = some .dir) (inside : entry.Inside) {q : List String}
    (outside : ¬ dir <+: q) : (extractEntry t dir entry).1.lookup q = t.lookup q := by
  have below : ∀ p ∈ positions dir entry.way, dir <+: p := by
    intro p member
    rw [inside.positions_way] at member
    obtain ⟨place, -, rfl⟩ := List.mem_map.mp member
    exact List.prefix_append dir place
  have other : (t.createDirAll dir entry.way).1.lookup q = t.lookup q :=
    FileTree.createDirAll_other there fun member => outside (below q member)
  rw [extractEntry_eq there inside]
  simp only
  split
  · split
    · rfl
    · split
      · exact other
      · exact other
  · split
    · rfl
    · split
      · exact other
      · next parent made =>
        obtain ⟨rfl, -⟩ := FileTree.createDirAll_done there made
        split
        · exact other
        · split
          · exact other
          · next written put =>
            obtain ⟨-, -, -, after⟩ := FileTree.put_eq_some put
            rw [after, if_neg, other]
            rintro rfl
            exact outside ((below _ (FileTree.foldl_mem_positions dir entry.way)).trans (List.prefix_append _ _))

theorem extractEntry_extends (there : t.lookup dir = some .dir) (inside : entry.Inside) :
    FileTree.Extends t (extractEntry t dir entry).1 := by
  have made := FileTree.createDirAll_extends t dir entry.way
  rw [extractEntry_eq there inside]
  simp only
  split
  · split
    · exact .refl t
    · split
      · exact made
      · exact made
  · split
    · exact .refl t
    · split
      · exact made
      · split
        · exact made
        · split
          · exact made
          · next put => exact made.trans (FileTree.Extends.write put)

/-- The file's place in its directory is where its name leads. -/
theorem parent_append_last (inside : entry.Inside) (isDir : entry.isDir = false)
    (named : FileName ((segments entry.name).getLast?.getD "")) (dir : List String) :
    entry.way.foldl enter dir ++ [(segments entry.name).getLast?.getD ""] = dir ++ entry.target := by
  have way : entry.way = entry.path.dropLast := by simp [ZipEntry.way, isDir]
  rw [← inside.foldl_path, path_of_last rfl named.1 named.2.1, List.foldl_append, ← way, List.foldl_cons,
    List.foldl_nil, enter, if_neg named.2.2.1]

/-- What one more entry adds: its file in its place, and directories where there is no file. -/
theorem archiveContents_concat (before : List ZipEntry) (entry : ZipEntry) (place : List String) :
    archiveContents (before ++ [entry]) place =
      if entry.isDir = false ∧ entry.target = place then some (.file entry.written)
      else
        match archiveContents before place with
        | some (.file bytes) => some (.file bytes)
        | other => if place ∈ entry.directories then some .dir else other := by
  rw [archiveContents, List.reverse_append, List.reverse_singleton, List.singleton_append, List.find?_cons]
  by_cases here : entry.isDir = false ∧ entry.target = place
  · simp [here]
  · have other : (!entry.isDir && entry.target == place) = false := by
      rw [Bool.eq_false_iff]
      intro both
      exact here (by simpa using both)
    rw [if_neg here, other, archiveContents]
    simp only
    cases before.reverse.find? fun earlier => !earlier.isDir && earlier.target == place with
    | some earlier => rfl
    | none =>
      simp only [List.mem_append, List.mem_singleton, or_and_right, exists_or, exists_eq_left]
      by_cases added : place ∈ entry.directories
      · simp only [added, or_true, ↓reduceIte]
        split <;> simp_all
      · simp only [added, or_false, ↓reduceIte]
        split <;> rfl

theorem mem_positions_way (inside : entry.Inside) {place : List String} :
    dir ++ place ∈ positions dir entry.way ↔ place ∈ entry.directories := by
  rw [inside.positions_way]
  constructor
  · intro member
    obtain ⟨other, found, same⟩ := List.mem_map.mp member
    rwa [← List.append_cancel_left same]
  · exact fun member => List.mem_map_of_mem member

/-- The directory with the entry's directories in it. -/
theorem made_holds (there : t.lookup dir = some .dir) (inside : entry.Inside)
    (held : Holds t dir before) {last : List String} (made : (t.createDirAll dir entry.way).2 = some last)
    (place : List String) :
    (place ∈ entry.directories → (∀ bytes, archiveContents before place ≠ some (.file bytes)) ∧
      (t.createDirAll dir entry.way).1.lookup (dir ++ place) = some .dir) ∧
    (place ∉ entry.directories →
      (t.createDirAll dir entry.way).1.lookup (dir ++ place) = archiveContents before place) := by
  constructor
  · intro member
    obtain ⟨free, now⟩ := (FileTree.createDirAll_done there made).2 _ ((mem_positions_way inside).mpr member)
    rw [held] at free
    exact ⟨free, now⟩
  · intro other
    rw [← held]
    exact FileTree.createDirAll_other there fun member => other ((mem_positions_way inside).mp member)

theorem extractEntry_holds (there : t.lookup dir = some .dir) (inside : entry.Inside)
    (held : Holds t dir before) (done : (extractEntry t dir entry).2 = true) :
    (entry.isDir = false → entry.whole = true) ∧ Holds (extractEntry t dir entry).1 dir (before ++ [entry]) := by
  have added : ∀ {last}, (t.createDirAll dir entry.way).2 = some last → ∀ place,
      ¬ (entry.isDir = false ∧ entry.target = place) →
        (t.createDirAll dir entry.way).1.lookup (dir ++ place) = archiveContents (before ++ [entry]) place := by
    intro last made place elsewhere
    obtain ⟨within, without⟩ := made_holds there inside held made place
    rw [archiveContents_concat, if_neg elsewhere]
    by_cases member : place ∈ entry.directories
    · obtain ⟨free, now⟩ := within member
      rw [now]
      split
      · next bytes file => exact absurd file (free bytes)
      · rw [if_pos member]
    · rw [without member]
      split
      · next bytes file => exact file
      · rw [if_neg member]
  rw [extractEntry_eq there inside] at done ⊢
  simp only at done ⊢
  cases isDir : entry.isDir with
  | true =>
    refine ⟨nofun, fun place => ?_⟩
    have elsewhere : ¬ (entry.isDir = false ∧ entry.target = place) := by simp [isDir]
    simp only [isDir, ↓reduceIte] at done ⊢
    split at done
    · cases done
    · next noNul =>
      rw [if_neg noNul]
      split at done
      · next dotted =>
        rw [if_pos dotted]
        obtain ⟨last, made⟩ := Option.isSome_iff_exists.mp (Bool.and_eq_true_iff.mp done).1
        exact added made place elsewhere
      · next plain =>
        rw [if_neg plain]
        obtain ⟨last, made⟩ := Option.isSome_iff_exists.mp done
        exact added made place elsewhere
  | false =>
    simp only [isDir, Bool.false_eq_true, ↓reduceIte] at done ⊢
    split at done
    · cases done
    · next noNul =>
      rw [if_neg noNul]
      cases made : (t.createDirAll dir entry.way).2 with
      | none =>
        rw [made] at done
        cases done
      | some parent =>
        rw [made] at done
        simp only at done ⊢
        split at done
        · cases done
        · next last =>
          rw [if_neg last]
          rw [not_or] at last
          cases put : (t.createDirAll dir entry.way).1.put parent ((segments entry.name).getLast?.getD "")
              (.file entry.written) with
          | none =>
            rw [put] at done
            cases done
          | some written =>
            rw [put] at done
            refine ⟨fun _ => done, fun place => ?_⟩
            obtain ⟨-, -, named, after⟩ := FileTree.put_eq_some put
            have target := parent_append_last inside isDir named dir
            rw [← (FileTree.createDirAll_done there made).1] at target
            simp only
            by_cases here : place = entry.target
            · rw [after, target, here, if_pos rfl, archiveContents_concat, if_pos ⟨isDir, rfl⟩]
            · rw [after, target, if_neg fun same => here (List.append_cancel_left same)]
              exact added made place fun both => here both.2.symm

/-- An entry that fits goes through. -/
theorem extractEntry_fits (there : t.lookup dir = some .dir) (inside : entry.Inside)
    (held : Holds t dir before) (fits : entry.Fits before) : (extractEntry t dir entry).2 = true := by
  have names : ∀ c ∈ dir ++ entry.path, c = ".." ∨ FileName c := by
    intro c member
    rcases List.mem_append.mp member with above | below
    · exact .inr (FileTree.fileName_of_lookup there c above)
    · exact fits.named c below
  have wayNamed : ∀ c ∈ entry.way, c = ".." ∨ FileName c := by
    intro c member
    refine fits.named c ?_
    rw [ZipEntry.way] at member
    split at member
    · exact member
    · exact List.dropLast_subset _ member
  have free : ∀ q ∈ positions dir entry.way, ∀ bytes, t.lookup q ≠ some (.file bytes) := by
    intro q member bytes
    rw [inside.positions_way] at member
    obtain ⟨place, found, rfl⟩ := List.mem_map.mp member
    rw [held]
    exact fits.free place found bytes
  obtain ⟨parent, made⟩ := Option.isSome_iff_exists.mp (FileTree.createDirAll_isSome there wayNamed free)
  rw [extractEntry_eq there inside]
  simp only [made]
  cases isDir : entry.isDir with
  | true =>
    rw [if_pos rfl, not_hasNul names, if_neg Bool.false_ne_true]
    cases dotted : entry.dotted with
    | false => rfl
    | true =>
      simp only [↓reduceIte, Option.isSome_some, Bool.true_and]
      rw [FileTree.isDir_iff]
      obtain ⟨within, without⟩ := made_holds there inside held made entry.target
      by_cases member : entry.target ∈ entry.directories
      · exact (within member).2
      · rw [without member]
        exact (fits.dotted isDir dotted).resolve_left member
  | false =>
    obtain ⟨whole, named, outside, noDir⟩ := fits.file isDir
    have dropped : hasNul (dir ++ entry.path).dropLast = false :=
      not_hasNul fun c member => names c (List.dropLast_subset _ member)
    rw [if_neg Bool.false_ne_true, dropped, if_neg Bool.false_ne_true,
      if_neg (not_or.mpr ⟨named.1, named.2.1⟩)]
    obtain ⟨ends, along⟩ := FileTree.createDirAll_done there made
    have target := parent_append_last inside isDir named dir
    rw [← ends] at target
    have parentThere := (along parent (ends ▸ FileTree.foldl_mem_positions dir entry.way)).2
    have free' : (t.createDirAll dir entry.way).1.lookup (parent ++ [(segments entry.name).getLast?.getD ""]) ≠
        some .dir := by
      rw [target, (made_holds there inside held made entry.target).2 outside]
      exact noDir
    obtain ⟨written, put⟩ := FileTree.put_of_free (.file entry.written) parentThere free' named
    rw [put]
    exact whole

end Entry

/-! ## All entries -/

section Entries

variable {dir : List String}

theorem extractAll_other {entries : List (Option ZipEntry)} (there : t.lookup dir = some .dir)
    (inside : ∀ entry, some entry ∈ entries → entry.Inside) {q : List String} (outside : ¬ dir <+: q) :
    (extractAll dir t entries).1.lookup q = t.lookup q := by
  induction entries generalizing t with
  | nil => rfl
  | cons first rest ih =>
    cases first with
    | none => rfl
    | some entry =>
      have here := inside entry List.mem_cons_self
      have once := extractEntry_other there here outside
      have there' := (extractEntry_extends there here).dirs dir there
      rw [extractAll]
      split
      · next extracted =>
        rw [extracted] at once
        exact once
      · next extracted =>
        rw [extracted] at once there'
        exact (ih there' fun later member => inside later (List.mem_cons_of_mem _ member)).trans once

theorem extractAll_holds {entries : List (Option ZipEntry)}
    (there : t.lookup dir = some .dir) (inside : ∀ entry, some entry ∈ entries → entry.Inside)
    (held : Holds t dir before) (done : (extractAll dir t entries).2 = true) :
    ∃ all : List ZipEntry, entries = all.map some ∧ (∀ entry ∈ all, entry.isDir = false → entry.whole = true) ∧
      Holds (extractAll dir t entries).1 dir (before ++ all) := by
  induction entries generalizing t before with
  | nil => exact ⟨[], rfl, by simp, by rwa [List.append_nil]⟩
  | cons first rest ih =>
    cases first with
    | none => cases done
    | some entry =>
      have here := inside entry List.mem_cons_self
      have there' := (extractEntry_extends there here).dirs dir there
      have holds := extractEntry_holds there here held
      rw [extractAll] at done ⊢
      cases extracted : extractEntry t dir entry with
      | mk t' ok =>
        rw [extracted] at done there' holds
        cases ok with
        | false => cases done
        | true =>
          obtain ⟨whole, held'⟩ := holds rfl
          obtain ⟨all, same, wholes, held''⟩ :=
            ih there' (fun later member => inside later (List.mem_cons_of_mem _ member)) held' done
          refine ⟨entry :: all, by rw [same, List.map_cons], List.forall_mem_cons.mpr ⟨whole, wholes⟩, ?_⟩
          rwa [List.append_assoc, List.singleton_append] at held''

theorem extractAll_fits {all before : List ZipEntry} (there : t.lookup dir = some .dir)
    (inside : ∀ entry ∈ all, entry.Inside) (held : Holds t dir before)
    (fits : ∀ front entry after, all = front ++ entry :: after → entry.Fits (before ++ front)) :
    (extractAll dir t (all.map some)).2 = true := by
  induction all generalizing t before with
  | nil => rfl
  | cons entry rest ih =>
    have here := inside entry List.mem_cons_self
    have there' := (extractEntry_extends there here).dirs dir there
    have first := fits [] entry rest rfl
    rw [List.append_nil] at first
    have done := extractEntry_fits there here held first
    obtain ⟨-, held'⟩ := extractEntry_holds there here held done
    rw [List.map_cons, extractAll]
    cases extracted : extractEntry t dir entry with
    | mk t' ok =>
      rw [extracted] at done there' held'
      obtain rfl : ok = true := done
      refine ih there' (fun later member => inside later (List.mem_cons_of_mem _ member)) held' ?_
      intro front later after same
      have next := fits (entry :: front) later after (by rw [same, List.cons_append])
      rwa [List.append_assoc, List.singleton_append]

end Entries

/-! ## One call -/

section Call

variable {env : ExtractEnv} {t : FileTree UInt8} {code : String}

theorem codeName_ne (sha256 : String) {short : String} (bound : short.toList.length ≤ 2) :
    "lambda-code-" ++ sha256 ≠ short := by
  rintro rfl
  rw [String.toList_append, List.length_append] at bound
  have front : "lambda-code-".toList.length = 12 := by decide
  omega

/-- Without a slash in the digest the directory is one in the directory for temporary files. -/
theorem codeDir_eq (env : ExtractEnv) {sha256 : String} (plain : '/' ∉ sha256.toList) :
    codeDir env sha256 = env.tempDir ++ ["lambda-code-" ++ sha256] := by
  refine State.join_plain _ (codeName_ne sha256 (by decide)) (codeName_ne sha256 (by decide)) ?_
  rw [String.toList_append, List.mem_append, not_or]
  exact ⟨by decide, plain⟩

/-- Making the directory of the code, where there is none. -/
theorem createDirAll_codeDir (plain : '/' ∉ (codeSha256 env code).toList) (temp : t.lookup env.tempDir = some .dir)
    (missing : t.lookup (codeDir env (codeSha256 env code)) = none) :
    t.createDirAll [] (codeDir env (codeSha256 env code)) = (t, none) ∨
      ∃ made dir, t.createDirAll [] (codeDir env (codeSha256 env code)) = (made, some dir) ∧
        ∀ q, made.lookup q = if q = codeDir env (codeSha256 env code) then some .dir else t.lookup q := by
  rw [codeDir_eq env plain] at missing ⊢
  have passed := FileTree.createDirAll_append (t := t) [] ["lambda-code-" ++ codeSha256 env code] temp
    (not_up_of_lookup temp)
  rw [List.nil_append] at passed
  rw [passed, FileTree.createDirAll, if_neg (codeName_ne _ (by decide)), missing]
  cases put : t.put env.tempDir ("lambda-code-" ++ codeSha256 env code) .dir with
  | none => exact .inl rfl
  | some made =>
    obtain ⟨-, -, -, after⟩ := FileTree.put_eq_some put
    exact .inr ⟨made, _, rfl, after⟩

/-- A directory that is new is empty. -/
theorem holds_new {made : FileTree UInt8} {dir : List String} (missing : t.lookup dir = none)
    (new : ∀ q, made.lookup q = if q = dir then some .dir else t.lookup q) : Holds made dir [] := by
  intro place
  rw [new]
  by_cases top : place = []
  · rw [top, List.append_nil, if_pos rfl]
    rfl
  · rw [if_neg fun same => top (by simpa using same)]
    have nothing : t.lookup (dir ++ place) = none := by
      cases found : t.lookup (dir ++ place) with
      | none => rfl
      | some node =>
        rw [FileTree.lookup_of_prefix place top found] at missing
        cases missing
    rw [nothing, archiveContents]
    simp [top]

/-- What a call does where the directory of the code is new. -/
theorem extractCode_new (decoded : Base64.decode code.toList = some bytes)
    (plain : '/' ∉ (codeSha256 env code).toList) (temp : t.lookup env.tempDir = some .dir)
    (missing : t.lookup (codeDir env (codeSha256 env code)) = none) :
    (t.createDirAll [] (codeDir env (codeSha256 env code))).2 = none ∧
        extractCode env t code (codeSha256 env code) = (t, none) ∨
      ∃ made, (∀ q, made.lookup q = if q = codeDir env (codeSha256 env code) then some .dir else t.lookup q) ∧
        extractCode env t code (codeSha256 env code) =
          match env.openArchive bytes with
          | none => (made, none)
          | some entries =>
            ((extractAll (codeDir env (codeSha256 env code)) made entries).1,
              if (extractAll (codeDir env (codeSha256 env code)) made entries).2 then
                some (codeDir env (codeSha256 env code)) else none) := by
  rw [extractCode, decoded]
  simp only [missing, Option.isSome_none, Bool.false_eq_true, ↓reduceIte]
  rcases createDirAll_codeDir plain temp missing with failed | ⟨made, dir, done, new⟩
  · rw [failed]
    exact .inl ⟨rfl, rfl⟩
  · rw [done]
    refine .inr ⟨made, new, ?_⟩
    cases env.openArchive bytes with
    | none => rfl
    | some entries => rfl

/-- Where the directory is new, the call is right, and an archive that can be extracted is there if anything is. -/
theorem callRight_new (decoded : Base64.decode code.toList = some bytes)
    (plain : '/' ∉ (codeSha256 env code).toList) (temp : t.lookup env.tempDir = some .dir)
    (missing : t.lookup (codeDir env (codeSha256 env code)) = none)
    (inside : ∀ entries, env.openArchive bytes = some entries → ∀ entry, some entry ∈ entries → entry.Inside) :
    CallRight env t code ∧ ∀ entries, env.openArchive bytes = some (entries.map some) → Extractable entries →
      ((extractStep env t code).lookup (codeDir env (codeSha256 env code))).isSome = true →
        Holds (extractStep env t code) (codeDir env (codeSha256 env code)) entries := by
  unfold extractStep
  rcases extractCode_new decoded plain temp missing with ⟨-, nothing⟩ | ⟨made, new, called⟩
  · refine ⟨⟨fun q _ => ?_, fun dir done => ?_⟩, fun entries _ _ present => ?_⟩
    · rw [extractStep, nothing]
    · rw [nothing] at done
      cases done
    · rw [nothing] at present
      simp only [missing] at present
      cases present
  · have there : made.lookup (codeDir env (codeSha256 env code)) = some .dir := by rw [new, if_pos rfl]
    have empty := holds_new missing new
    have other : ∀ q, ¬ codeDir env (codeSha256 env code) <+: q → made.lookup q = t.lookup q := by
      intro q outside
      rw [new, if_neg]
      rintro rfl
      exact outside (List.prefix_refl _)
    cases opened : env.openArchive bytes with
    | none =>
      rw [opened] at called
      refine ⟨⟨fun q outside => ?_, fun dir done => ?_⟩, nofun⟩
      · rw [extractStep, called]
        exact other q outside
      · rw [called] at done
        cases done
    | some entries =>
      rw [opened] at called
      have names := inside entries opened
      refine ⟨⟨fun q outside => ?_, fun dir done => ?_⟩, fun all same fits _ => ?_⟩
      · rw [extractStep, called]
        exact (extractAll_other there names outside).trans (other q outside)
      · rw [called] at done
        simp only [Option.ite_none_right_eq_some, Option.some.injEq] at done
        obtain ⟨all, same, whole, held⟩ := extractAll_holds there names empty done.1
        refine ⟨done.2.symm, bytes, all, decoded, by rw [opened, same], whole, ?_⟩
        rw [← done.2, extractStep, called]
        exact held
      · cases same
        have named : ∀ entry ∈ all, entry.Inside := fun entry member => names entry (List.mem_map_of_mem member)
        have done := extractAll_fits there named empty fits
        obtain ⟨all', same', -, held⟩ := extractAll_holds there names empty done
        obtain rfl := List.map_injective_iff.mpr (fun a b => Option.some.inj) same'
        rw [called]
        exact held

end Call

/-! ## Runs -/

section Runs

variable {env : ExtractEnv} {codes : List String}

/-- What has been extracted is there; the rest of the codes has no directory. -/
structure Extracted (env : ExtractEnv) (codes : List String) (t : FileTree UInt8) : Prop where
  temp : t.lookup env.tempDir = some .dir
  held : ∀ code ∈ codes, ∀ bytes entries, Base64.decode code.toList = some bytes →
    '/' ∉ (codeSha256 env code).toList → env.openArchive bytes = some (entries.map some) → Extractable entries →
      (t.lookup (codeDir env (codeSha256 env code))).isSome = true →
        Holds t (codeDir env (codeSha256 env code)) entries

theorem encode_injective : Function.Injective Base64.encode := by
  intro a b same
  have back := congrArg Base64.decode same
  rw [Base64.decode_encode, Base64.decode_encode] at back
  exact Option.some.inj back

theorem codeSha256_eq {code : String} (decoded : Base64.decode code.toList = some bytes) :
    codeSha256 env code = String.ofList (Base64.encode (env.sha256 bytes)) := by
  rw [codeSha256, decoded]

theorem sha256_of_codeDir {a b : String} (plain : '/' ∉ a.toList) (plain' : '/' ∉ b.toList)
    (same : codeDir env b = codeDir env a) : b = a := by
  rw [codeDir_eq env plain, codeDir_eq env plain', List.append_right_inj, List.cons.injEq] at same
  have texts := congrArg String.toList same.1
  rw [String.toList_append, String.toList_append, List.append_right_inj] at texts
  exact String.toList_inj.mp texts

/-- Nothing is in two directories of codes. -/
theorem not_prefix_of_ne {a b : String} (plain : '/' ∉ a.toList) (plain' : '/' ∉ b.toList)
    (apart : codeDir env b ≠ codeDir env a) (place : List String) :
    ¬ codeDir env a <+: codeDir env b ++ place := by
  intro both
  have lengths : (codeDir env a).length = (codeDir env b).length := by
    rw [codeDir_eq env plain, codeDir_eq env plain', List.length_append, List.length_append]
    rfl
  have inside := List.prefix_of_prefix_length_le both (List.prefix_append (codeDir env b) place) lengths.le
  exact apart (inside.eq_of_length lengths).symm

theorem callRight_step (noCollisions : NoCollisions env codes) {code : String}
    (extracted : Extracted env codes t) (fits : code ∈ codes ∧ StepFits env t code) :
    Extracted env codes (extractStep env t code) ∧ CallRight env t code := by
  obtain ⟨member, fits⟩ := fits
  cases decoded : Base64.decode code.toList with
  | none =>
    have nothing : extractCode env t code (codeSha256 env code) = (t, none) := by rw [extractCode, decoded]
    have unchanged : extractStep env t code = t := by rw [extractStep, nothing]
    refine ⟨by rwa [unchanged], ⟨fun q _ => by rw [unchanged], fun dir done => ?_⟩⟩
    rw [nothing] at done
    cases done
  | some bytes =>
    obtain ⟨plain, inside, complete⟩ := fits bytes decoded
    cases present : t.lookup (codeDir env (codeSha256 env code)) with
    | some node =>
      have nothing : extractCode env t code (codeSha256 env code) =
          (t, some (codeDir env (codeSha256 env code))) := by
        rw [extractCode, decoded]
        simp [present]
      have unchanged : extractStep env t code = t := by rw [extractStep, nothing]
      refine ⟨by rwa [unchanged], ⟨fun q _ => by rw [unchanged], fun dir done => ?_⟩⟩
      rw [nothing] at done
      obtain rfl := Option.some.inj done
      obtain ⟨entries, opened, extractable⟩ := complete (by rw [present]; rfl)
      refine ⟨rfl, bytes, entries, decoded, opened, fun entry listed file => ?_, ?_⟩
      · obtain ⟨before, after, split⟩ := List.append_of_mem listed
        exact ((extractable before entry after split).file file).1
      · rw [unchanged]
        exact extracted.held code member bytes entries decoded plain opened extractable (by rw [present]; rfl)
    | none =>
      obtain ⟨right, made⟩ := callRight_new decoded plain extracted.temp present inside
      refine ⟨⟨?_, fun other otherMember otherBytes entries otherDecoded otherPlain opened extractable there => ?_⟩,
        right⟩
      · rw [right.confined, extracted.temp]
        rw [codeDir_eq env plain]
        intro above
        have short := above.length_le
        rw [List.length_append, List.length_singleton] at short
        omega
      · by_cases same : codeDir env (codeSha256 env other) = codeDir env (codeSha256 env code)
        · have digests := sha256_of_codeDir plain otherPlain same
          rw [codeSha256_eq decoded, codeSha256_eq otherDecoded, String.ofList_inj] at digests
          obtain rfl := noCollisions other otherMember code member _ _ otherDecoded decoded (encode_injective digests)
          rw [same] at there ⊢
          exact made entries opened extractable there
        · have outside := fun place => not_prefix_of_ne plain otherPlain same place
          have before := extracted.held other otherMember otherBytes entries otherDecoded otherPlain opened extractable
          rw [right.confined _ (by simpa using outside [])] at there
          intro place
          rw [right.confined _ (outside place)]
          exact before there place

theorem code_extraction_right (env : ExtractEnv) (start : FreshTemp env) (codes : List String)
    (noCollisions : NoCollisions env codes) (fits : Run.AllSteps (extractStep env) (StepFits env) start.tree codes) :
    Run.AllSteps (extractStep env) (CallRight env) start.tree codes := by
  have first : Extracted env codes start.tree := by
    refine ⟨start.temp, fun code _ _ _ _ plain _ _ present => ?_⟩
    rw [codeDir_eq env plain, start.fresh] at present
    cases present
  have conditions : Run.AllSteps (extractStep env) (fun t code => code ∈ codes ∧ StepFits env t code) start.tree
      codes := by
    refine (Run.allSteps_iff _ _).mpr fun before code after split => ⟨?_, ?_⟩
    · rw [split]
      exact List.mem_append_right before List.mem_cons_self
    · exact (Run.allSteps_iff _ _).mp fits before code after split
  refine Run.allSteps_of_invariant ?_ start.tree codes first conditions
  exact fun t code => callRight_step noCollisions

end Runs

section Example

/-- An archive of the file `f`, which is `x`. -/
def handlerZip : List UInt8 :=
  [80, 75, 3, 4, 20, 0, 0, 0, 0, 0, 0, 0, 33, 0, 131, 22, 220, 140, 1, 0, 0, 0, 1, 0, 0, 0, 1, 0, 0, 0, 102,
    120, 80, 75, 1, 2, 20, 0, 20, 0, 0, 0, 0, 0, 0, 0, 33, 0, 131, 22, 220, 140, 1, 0, 0, 0, 1, 0, 0, 0, 1, 0, 0,
    0, 0, 0, 0, 0, 0, 0, 0, 0, 128, 1, 0, 0, 0, 0, 102, 80, 75, 5, 6, 0, 0, 0, 0, 1, 0, 1, 0, 47, 0, 0, 0, 32, 0,
    0, 0, 0, 0]

/-- An archive of the empty file `../b`. -/
def climbingZip : List UInt8 :=
  [80, 75, 3, 4, 20, 0, 0, 0, 0, 0, 0, 0, 33, 0, 0, 0, 0, 0, 0, 0, 0, 0, 0, 0, 0, 0, 4, 0, 0, 0, 46, 46, 47, 98,
    80, 75, 1, 2, 20, 0, 20, 0, 0, 0, 0, 0, 0, 0, 33, 0, 0, 0, 0, 0, 0, 0, 0, 0, 0, 0, 0, 0, 4, 0, 0, 0, 0, 0, 0,
    0, 0, 0, 0, 0, 128, 1, 0, 0, 0, 0, 46, 46, 47, 98, 80, 75, 5, 6, 0, 0, 0, 0, 1, 0, 1, 0, 50, 0, 0, 0, 34, 0, 0,
    0, 0, 0]

def archives : ExtractEnv where
  tempDir := ["tmp"]
  sha256 := fun bytes =>
    if bytes = handlerZip then
      [236, 192, 114, 193, 26, 182, 185, 208, 129, 74, 200, 24, 0, 166, 55, 13, 192, 179, 72, 110, 204, 80, 96, 43,
        149, 10, 71, 245, 90, 223, 207, 115]
    else if bytes = climbingZip then
      [80, 98, 126, 66, 113, 93, 129, 40, 136, 13, 30, 9, 161, 109, 231, 52, 90, 68, 213, 74, 181, 22, 101, 95, 51,
        151, 134, 144, 87, 18, 180, 106]
    else if bytes = [0, 0, 0] then
      [112, 158, 128, 200, 132, 135, 162, 65, 30, 30, 228, 223, 185, 242, 42, 134, 20, 146, 210, 12, 71, 101, 21,
        12, 12, 121, 74, 189, 112, 248, 20, 124]
    else []
  openArchive := fun bytes =>
    if bytes = handlerZip then some [some ⟨"f", [120], true⟩]
    else if bytes = climbingZip then some [some ⟨"../b", [], true⟩]
    else none

def codeOf (bytes : List UInt8) : String := String.ofList (Base64.encode bytes)

theorem decode_codeOf (bytes : List UInt8) : Base64.decode (codeOf bytes).toList = some bytes := by
  rw [codeOf, String.toList_ofList, Base64.decode_encode]

theorem onlyTemp_lookup (q : List String) :
    ((FileTree.empty (α := UInt8)).createDirAll [] ["tmp"]).1.lookup q =
      if [] <+: q ∧ q <+: ["tmp"] then some .dir else FileTree.empty.lookup q := by
  have free : ∀ q : List String, [] <+: q ∧ q <+: [] ++ ["tmp"] → ∀ bytes : List UInt8,
      FileTree.empty.lookup q ≠ some (.file bytes) := by
    intro q _ bytes
    rw [FileTree.lookup]
    split
    · simp
    · simp [FileTree.empty]
  exact (FileTree.createDirAll_named rfl (by decide) free).2 q

def emptyTemp : FreshTemp archives where
  tree := (FileTree.empty.createDirAll [] ["tmp"]).1
  temp := by
    rw [onlyTemp_lookup, if_pos]
    exact ⟨List.nil_prefix, List.prefix_refl _⟩
  fresh := by
    intro name
    rw [onlyTemp_lookup, if_neg]
    · rfl
    · rintro ⟨-, longer⟩
      exact absurd longer.length_le (by simp [archives])

theorem extractable_file : Extractable [⟨"f", [120], true⟩] := by
  intro before entry after split
  obtain rfl : before = [] := by
    cases before with
    | nil => rfl
    | cons first rest => simp at split
  obtain ⟨rfl, -⟩ := List.cons.inj split
  have path : ZipEntry.path ⟨"f", [120], true⟩ = ["f"] := by decide
  have directories : ZipEntry.directories ⟨"f", [120], true⟩ = [[]] := by decide
  have target : ZipEntry.target ⟨"f", [120], true⟩ = ["f"] := by decide
  refine ⟨?_, ?_, fun _ => ⟨rfl, by decide, ?_, ?_⟩, nofun⟩
  · rw [path]
    decide
  · intro place member bytes
    rw [directories, List.mem_singleton] at member
    rw [member]
    simp [archiveContents]
  · rw [directories, target]
    decide
  · rw [target]
    decide

theorem handler_fits (t : FileTree UInt8) : StepFits archives t (codeOf handlerZip) := by
  intro bytes decoded
  rw [decode_codeOf] at decoded
  obtain rfl := Option.some.inj decoded
  have opened : archives.openArchive handlerZip = some [some ⟨"f", [120], true⟩] := by
    simp only [archives, ↓reduceIte]
  refine ⟨?_, fun entries found entry member => ?_, fun _ => ⟨[⟨"f", [120], true⟩], opened, extractable_file⟩⟩
  · rw [codeSha256_eq (decode_codeOf handlerZip), String.toList_ofList]
    simp only [archives, ↓reduceIte]
    decide
  · rw [opened] at found
    obtain rfl := Option.some.inj found
    rw [List.mem_singleton, Option.some.injEq] at member
    rw [member]
    exact ⟨by decide, by decide⟩

theorem handler_twice_right :
    Run.AllSteps (extractStep archives) (CallRight archives) emptyTemp.tree [codeOf handlerZip, codeOf handlerZip] := by
  refine code_extraction_right archives emptyTemp _ ?_ ⟨handler_fits _, handler_fits _, trivial⟩
  intro a memberA b memberB x y decodedA decodedB _
  have same : ∀ c ∈ [codeOf handlerZip, codeOf handlerZip], ∀ z, Base64.decode c.toList = some z → z = handlerZip := by
    intro c member z decoded
    have once : c = codeOf handlerZip := by simpa using member
    rw [once, decode_codeOf] at decoded
    exact (Option.some.inj decoded).symm
  rw [same a memberA x decodedA, same b memberB y decodedB]

/-- A first call, for a digest that can be in a name. -/
theorem first_call (named : FileName ("lambda-code-" ++ codeSha256 archives (codeOf bytes))) :
    codeDir archives (codeSha256 archives (codeOf bytes)) =
        ["tmp", "lambda-code-" ++ codeSha256 archives (codeOf bytes)] ∧
      ∃ made : FileTree UInt8, (∀ q, made.lookup q =
          if q = ["tmp", "lambda-code-" ++ codeSha256 archives (codeOf bytes)] then some .dir
          else emptyTemp.tree.lookup q) ∧
        extractCode archives emptyTemp.tree (codeOf bytes) (codeSha256 archives (codeOf bytes)) =
          match archives.openArchive bytes with
          | none => (made, none)
          | some entries =>
            ((extractAll ["tmp", "lambda-code-" ++ codeSha256 archives (codeOf bytes)] made entries).1,
              if (extractAll ["tmp", "lambda-code-" ++ codeSha256 archives (codeOf bytes)] made entries).2 then
                some ["tmp", "lambda-code-" ++ codeSha256 archives (codeOf bytes)] else none) := by
  have plain : '/' ∉ (codeSha256 archives (codeOf bytes)).toList := fun member =>
    named.2.2.2.1 (by rw [String.toList_append]; exact List.mem_append_right _ member)
  have dir : codeDir archives (codeSha256 archives (codeOf bytes)) =
      ["tmp", "lambda-code-" ++ codeSha256 archives (codeOf bytes)] := codeDir_eq archives plain
  refine ⟨dir, ?_⟩
  have missing := emptyTemp.fresh (codeSha256 archives (codeOf bytes))
  rw [← codeDir_eq archives plain] at missing
  rw [← dir]
  refine (extractCode_new (decode_codeOf bytes) plain emptyTemp.temp missing).resolve_left fun failed => ?_
  have names : ∀ c ∈ codeDir archives (codeSha256 archives (codeOf bytes)), c = ".." ∨ FileName c := by
    rw [dir]
    intro c member
    rcases List.mem_pair.mp member with rfl | rfl
    · exact .inr (by decide)
    · exact .inr named
  have made : (emptyTemp.tree.createDirAll [] (codeDir archives (codeSha256 archives (codeOf bytes)))).2.isSome = true := by
    refine FileTree.createDirAll_isSome rfl names fun q _ content => ?_
    rw [emptyTemp, onlyTemp_lookup, FileTree.lookup]
    split
    · simp
    · split
      · simp
      · simp [FileTree.empty]
  rw [failed.1] at made
  cases made

/-- The file is made beside the directory of the archive. -/
theorem climbing_written {made : FileTree UInt8} {name : String} (there : made.lookup ["tmp", name] = some .dir)
    (free : made.lookup ["tmp", "b"] ≠ some .dir) :
    (extractAll ["tmp", name] made [some ⟨"../b", [], true⟩]).1.lookup ["tmp", "b"] = some (.file []) := by
  have joined : join ["tmp", name] "../b" = ["tmp", name] ++ [".."] ++ ["b"] := by
    have relative : RustStr.startsWith "../b" "/" = false := by decide
    have parts : components "../b" = ["..", "b"] := by decide
    rw [join, relative, if_neg Bool.false_ne_true, parts]
    rfl
  have noNul : hasNul (["tmp", name] ++ [".."]) = false := by
    refine not_hasNul fun c member => ?_
    rcases List.mem_append.mp member with above | up
    · exact .inr (FileTree.fileName_of_lookup there c above)
    · exact .inl (List.mem_singleton.mp up)
  have passed : made.createDirAll [] (["tmp", name] ++ [".."]) = (made, some ["tmp"]) :=
    (FileTree.createDirAll_append [] [".."] there (not_up_of_lookup there)).trans rfl
  have isDir : ZipEntry.isDir ⟨"../b", [], true⟩ = false := by decide
  have last : (segments "../b").getLast?.getD "" = "b" := by decide
  obtain ⟨written, put⟩ := FileTree.put_of_free (.file []) (FileTree.lookup_dropLast there) free (by decide)
  obtain ⟨-, -, -, after⟩ := FileTree.put_eq_some put
  have extracted : extractEntry made ["tmp", name] ⟨"../b", [], true⟩ = (written, true) := by
    rw [extractEntry, joined]
    simp only [isDir, Bool.false_eq_true, ↓reduceIte, List.dropLast_concat, noNul, passed, last]
    rw [if_neg (by decide), show made.put ["tmp"] "b" (.file []) = some written from put]
  rw [extractAll, extracted]
  exact (after ["tmp", "b"]).trans (if_pos rfl)

/-- Bytes that are no archive fail once and then pass, and a name with `..` makes a file outside. -/
theorem corrupt_then_ok : ¬ Run.AllSteps (extractStep archives) (CallRight archives) emptyTemp.tree
      [codeOf [0, 0, 0], codeOf [0, 0, 0]] ∧
    ¬ CallRight archives emptyTemp.tree (codeOf climbingZip) := by
  constructor
  · rintro ⟨-, second, -⟩
    have named : FileName ("lambda-code-" ++ codeSha256 archives (codeOf [0, 0, 0])) := by
      rw [codeSha256_eq (decode_codeOf _)]
      decide
    obtain ⟨dir, made, new, called⟩ := first_call named
    have closed : archives.openArchive [0, 0, 0] = none := rfl
    rw [closed] at called
    have there : (extractStep archives emptyTemp.tree (codeOf [0, 0, 0])).lookup
        (codeDir archives (codeSha256 archives (codeOf [0, 0, 0]))) = some .dir := by
      rw [extractStep, called, dir, new, if_pos rfl]
    have passes : (extractCode archives (extractStep archives emptyTemp.tree (codeOf [0, 0, 0])) (codeOf [0, 0, 0])
        (codeSha256 archives (codeOf [0, 0, 0]))).2 = some (codeDir archives (codeSha256 archives (codeOf [0, 0, 0]))) := by
      rw [extractCode, decode_codeOf]
      simp only [there, Option.isSome_some, ↓reduceIte]
    obtain ⟨-, bytes, entries, decoded, opened, -⟩ := second.exact _ passes
    rw [decode_codeOf] at decoded
    obtain rfl := Option.some.inj decoded
    rw [closed] at opened
    cases opened
  · intro right
    have named : FileName ("lambda-code-" ++ codeSha256 archives (codeOf climbingZip)) := by
      rw [codeSha256_eq (decode_codeOf _)]
      simp only [archives, ↓reduceIte]
      decide
    obtain ⟨dir, made, new, called⟩ := first_call named
    have opened : archives.openArchive climbingZip = some [some ⟨"../b", [], true⟩] := by decide
    rw [opened] at called
    have confined := right.confined ["tmp", "b"]
    rw [extractStep, called, dir] at confined
    have long : "lambda-code-" ++ codeSha256 archives (codeOf climbingZip) ≠ "b" := codeName_ne _ (by decide)
    generalize "lambda-code-" ++ codeSha256 archives (codeOf climbingZip) = name at named new confined long
    have there : made.lookup ["tmp", name] = some .dir := by rw [new, if_pos rfl]
    have before : emptyTemp.tree.lookup ["tmp", "b"] = none := by
      rw [emptyTemp, onlyTemp_lookup, if_neg (by decide)]
      rfl
    have apart : ["tmp", "b"] ≠ ["tmp", name] := by simpa using Ne.symm long
    have written := climbing_written there (by rw [new, if_neg apart, before]; simp)
    refine absurd ((confined ?_).symm.trans written) (by rw [before]; simp)
    intro inside
    exact apart (inside.eq_of_length rfl).symm

end Example

end Openstack.Lambda

import Mathlib.Data.List.Basic
import Mathlib.Data.List.Induction
import Std.Data.ExtTreeMap

/-!
Directories and files by their absolute path, as the operating system shows them to a program that
makes directories, writes whole files and reads both. Links, rights and limits are left out.
-/
namespace Openstack

inductive FileNode (α : Type) where
  | dir
  | file (bytes : List α)
  deriving DecidableEq, Repr

/-- A text that can be the name of an entry. -/
def FileName (name : String) : Prop :=
  name ≠ "" ∧ name ≠ "." ∧ name ≠ ".." ∧ '/' ∉ name.toList ∧ Char.ofNat 0 ∉ name.toList

instance (name : String) : Decidable (FileName name) := inferInstanceAs (Decidable (_ ∧ _))

/-- The root is always there and not among the nodes. -/
structure FileTree (α : Type) where
  nodes : Std.ExtTreeMap (List String) (FileNode α) compare
  /-- What lies inside something lies inside a directory. -/
  closed : ∀ (p : List String) (name : String) (node : FileNode α),
    nodes[p ++ [name]]? = some node → p = [] ∨ nodes[p]? = some FileNode.dir
  named : ∀ (p : List String) (node : FileNode α), nodes[p]? = some node → ∀ c ∈ p, FileName c

namespace FileTree

variable {α : Type} {t t' t'' : FileTree α} {p q dir : List String}
variable {name : String} {node : FileNode α} {path : List String}

def empty : FileTree α := ⟨∅, by simp, by simp⟩

def lookup (t : FileTree α) (p : List String) : Option (FileNode α) :=
  if p = [] then some .dir else t.nodes[p]?

def isDir (t : FileTree α) (p : List String) : Bool :=
  match t.lookup p with
  | some .dir => true
  | _ => false

theorem isDir_iff : t.isDir p = true ↔ t.lookup p = some .dir := by
  unfold isDir
  split
  · next found => simp [found]
  · next other =>
    simp only [Bool.false_eq_true, false_iff]
    exact other

theorem lookup_append (name : String) : t.lookup (p ++ [name]) = t.nodes[p ++ [name]]? := by
  simp [lookup]

theorem lookup_parent (found : t.lookup (p ++ [name]) = some node) : t.lookup p = some .dir := by
  rw [lookup_append] at found
  rcases t.closed p name node found with rfl | inside
  · rfl
  · unfold lookup
    split
    · rfl
    · exact inside

/-- Every directory on the way to a node exists. -/
theorem lookup_of_prefix (rest : List String) (nonempty : rest ≠ [])
    (found : t.lookup (p ++ rest) = some node) : t.lookup p = some .dir := by
  induction rest using List.reverseRecOn generalizing node with
  | nil => exact absurd rfl nonempty
  | append_singleton rest name ih =>
    rw [← List.append_assoc] at found
    have parent := lookup_parent found
    by_cases last : rest = []
    · rwa [last, List.append_nil] at parent
    · exact ih last parent

theorem fileName_of_lookup (found : t.lookup p = some node) :
    ∀ c ∈ p, FileName c := by
  unfold lookup at found
  split at found
  · next root =>
    rw [root]
    exact fun c member => absurd member List.not_mem_nil
  · exact t.named p node found

theorem getElem?_insert (nodes : Std.ExtTreeMap (List String) (FileNode α) compare)
    (p q : List String) (node : FileNode α) :
    (nodes.insert p node)[q]? = if p = q then some node else nodes[q]? := by
  rw [Std.ExtTreeMap.getElem?_insert]
  simp only [Std.LawfulEqCmp.compare_eq_iff_eq]

/-- Set one entry of a directory; what is a directory already stays one. -/
def put (t : FileTree α) (dir : List String) (name : String) (node : FileNode α) :
    Option (FileTree α) :=
  if ok : t.isDir dir = true ∧ t.isDir (dir ++ [name]) = false ∧ FileName name then
    some
      { nodes := t.nodes.insert (dir ++ [name]) node
        closed := by
          intro p other old found
          rw [getElem?_insert] at found
          rw [getElem?_insert]
          have parent : p = [] ∨ t.nodes[p]? = some FileNode.dir := by
            split at found
            · next same =>
              obtain ⟨rfl, _⟩ := List.append_inj' same rfl
              have inside := isDir_iff.mp ok.1
              unfold lookup at inside
              split at inside
              · next root => exact .inl root
              · exact .inr inside
            · exact t.closed p other old found
          refine parent.imp_right fun inside => ?_
          split
          · next same =>
            have other : t.isDir (dir ++ [name]) = true := by
              rw [isDir_iff, lookup_append, same]
              exact inside
            rw [ok.2.1] at other
            cases other
          · exact inside
        named := by
          intro p other found c member
          rw [getElem?_insert] at found
          split at found
          · next same =>
            rw [← same, List.mem_append, List.mem_singleton] at member
            rcases member with before | rfl
            · exact fileName_of_lookup (isDir_iff.mp ok.1) c before
            · exact ok.2.2
          · exact t.named p other found c member }
  else none

theorem put_eq_some (done : t.put dir name node = some t') :
    t.lookup dir = some .dir ∧ t.lookup (dir ++ [name]) ≠ some .dir ∧ FileName name ∧
      ∀ q, t'.lookup q = if q = dir ++ [name] then some node else t.lookup q := by
  unfold put at done
  split at done
  · next ok =>
    refine ⟨isDir_iff.mp ok.1, ?_, ok.2.2, ?_⟩
    · rw [ne_eq, ← isDir_iff, ok.2.1]
      exact Bool.false_ne_true
    · intro q
      rw [← Option.some.inj done]
      unfold lookup
      simp only [getElem?_insert]
      by_cases root : q = []
      · simp [root]
      · simp only [root, if_false, eq_comm]
  · cases done

theorem put_of_free (node : FileNode α) (inside : t.lookup dir = some .dir)
    (free : t.lookup (dir ++ [name]) ≠ some .dir) (named : FileName name) :
    ∃ t', t.put dir name node = some t' := by
  have ok : t.isDir dir = true ∧ t.isDir (dir ++ [name]) = false ∧ FileName name := by
    refine ⟨isDir_iff.mpr inside, ?_, named⟩
    rw [← Bool.not_eq_true, isDir_iff]
    exact free
  unfold put
  rw [dif_pos ok]
  exact ⟨_, rfl⟩

/-- `create_dir_all` for the components behind a directory, and the directory it ends in. What it
made before it failed stays. -/
def createDirAll : FileTree α → List String → List String → FileTree α × Option (List String)
  | t, dir, [] => (t, some dir)
  | t, dir, c :: rest =>
    if c = ".." then createDirAll t dir.dropLast rest
    else
      match t.lookup (dir ++ [c]) with
      | some .dir => createDirAll t (dir ++ [c]) rest
      | some (.file _) => (t, none)
      | none =>
        match t.put dir c .dir with
        | none => (t, none)
        | some made => createDirAll made (dir ++ [c]) rest

/-- Directories stay directories and files stay files. -/
structure Extends (t t' : FileTree α) : Prop where
  dirs : ∀ q, t.lookup q = some .dir → t'.lookup q = some .dir
  files : ∀ q bytes, t.lookup q = some (.file bytes) → ∃ bytes', t'.lookup q = some (.file bytes')

theorem Extends.refl (t : FileTree α) : Extends t t := ⟨fun _ => id, fun _ bytes found => ⟨bytes, found⟩⟩

theorem Extends.trans (first : Extends t t') (second : Extends t' t'') : Extends t t'' where
  dirs := fun q found => second.dirs q (first.dirs q found)
  files := by
    intro q bytes found
    obtain ⟨bytes', next⟩ := first.files q bytes found
    exact second.files q bytes' next

theorem Extends.mkdir (done : t.put dir name .dir = some t')
    (missing : t.lookup (dir ++ [name]) = none) : Extends t t' := by
  obtain ⟨_, _, _, after⟩ := put_eq_some done
  have other : ∀ q node, t.lookup q = some node → t'.lookup q = some node := by
    intro q node found
    rw [after, if_neg]
    · exact found
    · rintro rfl
      rw [missing] at found
      cases found
  exact ⟨fun q => other q .dir, fun q bytes found => ⟨bytes, other q _ found⟩⟩

theorem Extends.write {bytes : List α} (done : t.put dir name (.file bytes) = some t') :
    Extends t t' := by
  obtain ⟨_, notDir, _, after⟩ := put_eq_some done
  constructor
  · intro q found
    rw [after, if_neg]
    · exact found
    · rintro rfl
      exact notDir found
  · intro q old found
    rw [after]
    split
    · exact ⟨bytes, rfl⟩
    · exact ⟨old, found⟩

theorem createDirAll_extends (t : FileTree α) (dir path : List String) :
    Extends t (t.createDirAll dir path).1 := by
  induction path generalizing t dir with
  | nil => exact .refl t
  | cons c rest ih =>
    unfold createDirAll
    split
    · exact ih t dir.dropLast
    · split
      · exact ih t (dir ++ [c])
      · exact .refl t
      · next missing =>
        split
        · exact .refl t
        · next made done => exact (Extends.mkdir done missing).trans (ih made (dir ++ [c]))

/-- A path between a directory and a path through its entry `c`. -/
theorem between_cons {c : String} {rest : List String} :
    (dir <+: q ∧ q <+: dir ++ c :: rest) ↔
      q = dir ∨ (dir ++ [c] <+: q ∧ q <+: dir ++ [c] ++ rest) := by
  constructor
  · rintro ⟨⟨front, rfl⟩, inFront⟩
    rcases List.prefix_cons_iff.mp ((List.prefix_append_right_inj dir).mp inFront) with
      rfl | ⟨more, rfl, short⟩
    · exact .inl (by simp)
    · refine .inr ⟨⟨more, by simp⟩, ?_⟩
      rw [List.append_assoc, List.prefix_append_right_inj, List.singleton_append,
        List.cons_prefix_cons]
      exact ⟨rfl, short⟩
  · rintro (rfl | ⟨⟨front, rfl⟩, inFront⟩)
    · exact ⟨List.prefix_refl _, List.prefix_append _ _⟩
    · refine ⟨⟨[c] ++ front, by simp⟩, by simpa using inFront⟩

/-- Where nothing but directories is in the way, all components become directories, and nothing
else changes. -/
theorem createDirAll_named (inside : t.lookup dir = some .dir) (named : ∀ c ∈ path, FileName c)
    (free : ∀ q, dir <+: q ∧ q <+: dir ++ path → ∀ bytes, t.lookup q ≠ some (.file bytes)) :
    (t.createDirAll dir path).2 = some (dir ++ path) ∧
    ∀ q, (t.createDirAll dir path).1.lookup q =
      if dir <+: q ∧ q <+: dir ++ path then some .dir else t.lookup q := by
  induction path generalizing t dir with
  | nil =>
    refine ⟨by simp [createDirAll], fun q => ?_⟩
    rw [createDirAll, List.append_nil]
    split
    · next between =>
      have same : dir = q := between.1.eq_of_length_le between.2.length_le
      rw [← same, inside]
    · rfl
  | cons c rest ih =>
    have head := named c List.mem_cons_self
    have tail : ∀ x ∈ rest, FileName x := fun x member => named x (List.mem_cons_of_mem _ member)
    have notUp : c ≠ ".." := head.2.2.1
    have result : ∀ (t' : FileTree α), (∀ q, q ≠ dir ++ [c] → t'.lookup q = t.lookup q) →
        t'.lookup (dir ++ [c]) = some .dir →
        (t'.createDirAll (dir ++ [c]) rest).2 = some (dir ++ c :: rest) ∧
        ∀ q, (t'.createDirAll (dir ++ [c]) rest).1.lookup q =
          if dir <+: q ∧ q <+: dir ++ c :: rest then some .dir else t.lookup q := by
      intro t' same here
      have free' : ∀ q, dir ++ [c] <+: q ∧ q <+: dir ++ [c] ++ rest → ∀ bytes,
          t'.lookup q ≠ some (.file bytes) := by
        intro q between bytes found
        by_cases first : q = dir ++ [c]
        · rw [first, here] at found
          cases found
        · rw [same q first] at found
          exact free q (between_cons.mpr (.inr between)) bytes found
      obtain ⟨ends, after⟩ := ih here tail free'
      refine ⟨by simpa using ends, fun q => ?_⟩
      rw [after, if_congr between_cons rfl rfl]
      by_cases above : q = dir
      · have short : ¬ (dir ++ [c] <+: q) := by
          intro longer
          have := longer.length_le
          rw [above, List.length_append, List.length_singleton] at this
          omega
        have ne : q ≠ dir ++ [c] := by simp [above]
        rw [if_neg (fun between => short between.1), if_pos (.inl above), same q ne, above, inside]
      · by_cases below : dir ++ [c] <+: q ∧ q <+: dir ++ [c] ++ rest
        · rw [if_pos below, if_pos (.inr below)]
        · have ne : q ≠ dir ++ [c] := by
            rintro rfl
            exact below ⟨List.prefix_refl _, List.prefix_append _ _⟩
          rw [if_neg below, if_neg (not_or.mpr ⟨above, below⟩), same q ne]
    unfold createDirAll
    rw [if_neg notUp]
    cases found : t.lookup (dir ++ [c]) with
    | some node =>
      cases node with
      | dir => exact result t (fun _ _ => rfl) found
      | file bytes =>
        have between : dir <+: dir ++ [c] ∧ dir ++ [c] <+: dir ++ c :: rest :=
          between_cons.mpr (.inr ⟨List.prefix_refl _, List.prefix_append _ _⟩)
        exact absurd found (free (dir ++ [c]) between bytes)
    | none =>
      obtain ⟨made, done⟩ := put_of_free .dir inside (by simp [found]) head
      obtain ⟨_, _, _, after⟩ := put_eq_some done
      simp only [done]
      refine result made (fun q ne => ?_) ?_
      · rw [after, if_neg ne]
      · rw [after, if_pos rfl]

/-- One component further. -/
def enter (dir : List String) (c : String) : List String := if c = ".." then dir.dropLast else dir ++ [c]

/-- The directories that a path goes through, with the first and the last. -/
def positions (dir : List String) : List String → List (List String)
  | [] => [dir]
  | c :: rest => dir :: positions (enter dir c) rest

theorem mem_positions_self (dir path : List String) : dir ∈ positions dir path := by
  cases path with
  | nil => exact List.mem_cons_self
  | cons c rest => exact List.mem_cons_self

theorem foldl_mem_positions (dir path : List String) : path.foldl enter dir ∈ positions dir path := by
  induction path generalizing dir with
  | nil => exact List.mem_cons_self
  | cons c rest ih => exact List.mem_cons_of_mem dir (ih (enter dir c))

theorem lookup_dropLast (inside : t.lookup p = some .dir) : t.lookup p.dropLast = some .dir := by
  cases p using List.reverseRecOn with
  | nil => exact inside
  | append_singleton front name =>
    rw [List.dropLast_concat]
    exact lookup_parent inside

/-- Directories that are there are only passed. -/
theorem createDirAll_append (base : List String) {front : List String} (rest : List String)
    (there : t.lookup (base ++ front) = some .dir) (named : ".." ∉ front) :
    t.createDirAll base (front ++ rest) = t.createDirAll (base ++ front) rest := by
  induction front generalizing base with
  | nil => rw [List.nil_append, List.append_nil]
  | cons c more ih =>
    rw [List.mem_cons, not_or] at named
    have whole : base ++ c :: more = base ++ [c] ++ more := by simp
    rw [whole] at there ⊢
    have first : t.lookup (base ++ [c]) = some .dir := by
      by_cases last : more = []
      · rwa [last, List.append_nil] at there
      · exact lookup_of_prefix more last there
    rw [List.cons_append, createDirAll, if_neg (Ne.symm named.1), first]
    exact ih (base ++ [c]) there named.2

/-- Whatever comes of it, nothing changes but on the way. -/
theorem createDirAll_other (inside : t.lookup dir = some .dir) (other : q ∉ positions dir path) :
    (t.createDirAll dir path).1.lookup q = t.lookup q := by
  induction path generalizing t dir with
  | nil => rfl
  | cons c rest ih =>
    rw [positions, List.mem_cons, not_or, enter] at other
    rw [createDirAll]
    split
    · next up =>
      rw [if_pos up] at other
      exact ih (lookup_dropLast inside) other.2
    · next down =>
      rw [if_neg down] at other
      cases found : t.lookup (dir ++ [c]) with
      | some node =>
        cases node with
        | dir => exact ih found other.2
        | file bytes => rfl
      | none =>
        cases put : t.put dir c .dir with
        | none => rfl
        | some made =>
          obtain ⟨-, -, -, after⟩ := put_eq_some put
          have apart : q ≠ dir ++ [c] := by
            rintro rfl
            exact other.2 (mem_positions_self _ rest)
          refine (ih (by rw [after, if_pos rfl]) other.2).trans ?_
          rw [after, if_neg apart]

/-- If it succeeds, no file was in the way and there are directories all along. -/
theorem createDirAll_done {path last : List String} (inside : t.lookup dir = some .dir)
    (done : (t.createDirAll dir path).2 = some last) : last = path.foldl enter dir ∧
      ∀ q ∈ positions dir path, (∀ bytes, t.lookup q ≠ some (.file bytes)) ∧
        (t.createDirAll dir path).1.lookup q = some .dir := by
  induction path generalizing t dir with
  | nil =>
    refine ⟨(Option.some.inj done).symm, fun q member => ?_⟩
    rw [positions, List.mem_singleton] at member
    rw [member]
    exact ⟨by simp [inside], inside⟩
  | cons c rest ih =>
    have start : (∀ bytes, t.lookup dir ≠ some (.file bytes)) ∧
        (t.createDirAll dir (c :: rest)).1.lookup dir = some .dir :=
      ⟨by simp [inside], (createDirAll_extends t dir (c :: rest)).dirs dir inside⟩
    suffices further : last = rest.foldl enter (enter dir c) ∧
        ∀ q ∈ positions (enter dir c) rest, (∀ bytes, t.lookup q ≠ some (.file bytes)) ∧
          (t.createDirAll dir (c :: rest)).1.lookup q = some .dir from
      ⟨further.1, List.forall_mem_cons.mpr ⟨start, further.2⟩⟩
    rw [createDirAll] at done ⊢
    split at done
    · next up =>
      rw [enter, if_pos up, if_pos up]
      exact ih (lookup_dropLast inside) done
    · next down =>
      rw [enter, if_neg down, if_neg down]
      cases found : t.lookup (dir ++ [c]) with
      | some node =>
        rw [found] at done
        cases node with
        | dir => exact ih found done
        | file bytes => cases done
      | none =>
        rw [found] at done
        cases put : t.put dir c .dir with
        | none =>
          rw [put] at done
          cases done
        | some made =>
          rw [put] at done
          obtain ⟨-, -, -, after⟩ := put_eq_some put
          obtain ⟨ends, along⟩ := ih (by rw [after, if_pos rfl]) done
          refine ⟨ends, fun q member => ⟨fun bytes file => ?_, (along q member).2⟩⟩
          refine (along q member).1 bytes ?_
          rw [after, if_neg]
          · exact file
          · rintro rfl
            rw [found] at file
            cases file

/-- It succeeds where the components can be names and no file is in the way. -/
theorem createDirAll_isSome (inside : t.lookup dir = some .dir) (named : ∀ c ∈ path, c = ".." ∨ FileName c)
    (free : ∀ q ∈ positions dir path, ∀ bytes, t.lookup q ≠ some (.file bytes)) :
    (t.createDirAll dir path).2.isSome = true := by
  induction path generalizing t dir with
  | nil => rfl
  | cons c rest ih =>
    obtain ⟨first, named'⟩ := List.forall_mem_cons.mp named
    obtain ⟨-, free'⟩ := List.forall_mem_cons.mp free
    rw [createDirAll]
    split
    · next up =>
      rw [enter, if_pos up] at free'
      exact ih (lookup_dropLast inside) named' free'
    · next down =>
      rw [enter, if_neg down] at free'
      cases found : t.lookup (dir ++ [c]) with
      | some node =>
        cases node with
        | dir => exact ih found named' free'
        | file bytes => exact absurd found (free' _ (mem_positions_self _ rest) bytes)
      | none =>
        obtain ⟨made, put⟩ := put_of_free .dir inside (by simp [found]) (first.resolve_left down)
        obtain ⟨-, -, -, after⟩ := put_eq_some put
        simp only [put]
        refine ih (by rw [after, if_pos rfl]) named' fun q member bytes file => ?_
        rw [after] at file
        split at file
        · cases file
        · exact free' q member bytes file

/-- The names of the directories in a directory. -/
def subdirs (t : FileTree α) (p : List String) : List String :=
  t.nodes.toList.filterMap fun entry =>
    if entry.1.dropLast = p ∧ t.isDir entry.1 then entry.1.getLast? else none

theorem mem_subdirs : name ∈ t.subdirs p ↔ t.lookup (p ++ [name]) = some .dir := by
  unfold subdirs
  rw [List.mem_filterMap]
  constructor
  · rintro ⟨entry, _, here⟩
    split at here
    · next inside =>
      obtain ⟨front, whole⟩ := List.getLast?_eq_some_iff.mp here
      rw [whole, List.dropLast_concat] at inside
      rw [← inside.1]
      exact isDir_iff.mp inside.2
    · cases here
  · intro found
    refine ⟨(p ++ [name], .dir), ?_, ?_⟩
    · rw [Std.ExtTreeMap.mem_toList_iff_getElem?_eq_some, ← lookup_append]
      exact found
    · simp [isDir_iff.mpr found]

end FileTree
end Openstack

import Mathlib

/-!
Absolute paths as lists of components, resolved the way the operating system walks them on
real directories: `.` stays, `..` goes up and stays at the root, any other component goes
down.
-/
namespace Openstack.Paths

/-- One step of the walk. -/
def walk (dir : List String) (component : String) : List String :=
  if component = "." then dir else if component = ".." then dir.dropLast else dir ++ [component]

def resolve (path : List String) : List String := path.foldl walk []

/-- A component that names an entry of its directory. -/
def Normal (component : String) : Prop := component ≠ "." ∧ component ≠ ".."

instance (component : String) : Decidable (Normal component) := inferInstanceAs (Decidable (_ ∧ _))

/-- `p` is inside `dir` and not `dir` itself. -/
def Below (dir p : List String) : Prop := dir <+: p ∧ p ≠ dir

/-- Neither directory is the other or inside it. -/
def Apart (d e : List String) : Prop := ¬ d <+: e ∧ ¬ e <+: d

theorem foldl_walk_normal (dir path : List String) (normal : ∀ c ∈ path, Normal c) :
    path.foldl walk dir = dir ++ path := by
  induction path generalizing dir with
  | nil => simp
  | cons c rest ih =>
    have head := normal c List.mem_cons_self
    have step : walk dir c = dir ++ [c] := by simp [walk, head.1, head.2]
    rw [List.foldl_cons, step, ih _ fun c member => normal c (List.mem_cons_of_mem _ member)]
    simp

/-- A path of normal components is its own resolution. -/
theorem resolve_normal {path : List String} (normal : ∀ c ∈ path, Normal c) :
    resolve path = path := by
  rw [resolve, foldl_walk_normal [] path normal, List.nil_append]

theorem resolve_append (front rest : List String) :
    resolve (front ++ rest) = rest.foldl walk (resolve front) := by
  rw [resolve, List.foldl_append]
  rfl

theorem below_append {dir rest : List String} (nonempty : rest ≠ []) : Below dir (dir ++ rest) := by
  refine ⟨List.prefix_append _ _, ?_⟩
  intro same
  exact nonempty (by simpa using same)

/-- Directories that part at one component. -/
theorem apart_of_ne (front d e : List String) {a b : String} (different : a ≠ b) :
    Apart (front ++ a :: d) (front ++ b :: e) := by
  constructor
  · intro inside
    rw [List.prefix_append_right_inj] at inside
    exact different (List.cons_prefix_cons.mp inside).1
  · intro inside
    rw [List.prefix_append_right_inj] at inside
    exact different (List.cons_prefix_cons.mp inside).1.symm

end Openstack.Paths

import Openstack.Lib.Json

/-!
Recursion into the parts of a JSON value. A function that calls itself on values below its argument only
is computed by its body, nested as deep as the value is, and satisfies the equation of its body.
-/
namespace Openstack.Json

mutual

def depth : Json → Nat
  | .arr items => depthItems items + 1
  | .obj fields => depthFields fields + 1
  | _ => 0

def depthItems : List Json → Nat
  | [] => 0
  | x :: rest => max (depth x) (depthItems rest)

def depthFields : List (String × Json) → Nat
  | [] => 0
  | field :: rest => max (depth field.2) (depthFields rest)

end

theorem depth_lt_of_mem {x : Json} {items : List Json} (member : x ∈ items) :
    depth x < depth (.arr items) := by
  rw [depth, Nat.lt_succ_iff]
  induction items with
  | nil => cases member
  | cons y rest ih =>
    rw [depthItems]
    rcases List.mem_cons.mp member with rfl | later
    · omega
    · have below := ih later
      omega

theorem depth_lt_of_mem_fields {field : String × Json} {fields : List (String × Json)}
    (member : field ∈ fields) : depth field.2 < depth (.obj fields) := by
  rw [depth, Nat.lt_succ_iff]
  induction fields with
  | nil => cases member
  | cons other rest ih =>
    rw [depthFields]
    rcases List.mem_cons.mp member with rfl | later
    · omega
    · have below := ih later
      omega

theorem depth_lt_of_get? {v x : Json} {key : String} (found : v.get? key = some x) :
    depth x < depth v := by
  cases v with
  | obj fields =>
    obtain ⟨before, after, split, -⟩ := List.lookup_eq_some_iff.mp found
    exact @depth_lt_of_mem_fields (key, x) _ (by rw [split]; simp)
  | null | bool _ | posInt _ | negInt _ | float _ | str _ | arr _ => cases found

section Recursion

variable {α : Type} (body : (Json → α) → Json → α)

/-- The body, nested a number of times. -/
def nested (bottom : Json → α) : Nat → Json → α
  | 0 => bottom
  | n + 1 => body (nested bottom n)

/-- The body looks at what it gets for values below its argument only. -/
def LooksBelow : Prop :=
  ∀ f g v, (∀ x, depth x < depth v → f x = g x) → body f v = body g v

/-- The function with this body. -/
def recursion (bottom : Json → α) (v : Json) : α := nested body bottom (depth v + 1) v

variable {body}

theorem nested_eq_of_lt (below : LooksBelow body) (bottom bottom' : Json → α) {m n : Nat} {v : Json}
    (enough : depth v < m) (enough' : depth v < n) : nested body bottom m v = nested body bottom' n v := by
  induction m generalizing n v with
  | zero => omega
  | succ m ih =>
    cases n with
    | zero => omega
    | succ n => exact below _ _ v fun x smaller => ih (by omega) (by omega)

theorem recursion_eq (below : LooksBelow body) (bottom : Json → α) (v : Json) :
    recursion body bottom v = body (recursion body bottom) v := by
  rw [recursion, nested]
  exact below _ _ v fun x smaller => nested_eq_of_lt below bottom bottom smaller (Nat.lt_succ_self _)

end Recursion

end Openstack.Json

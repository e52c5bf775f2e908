import Mathlib

/-!
A key-value store beside the log of its changes. The store is a partial function; a change
names its key and the values before and after it. Replaying a log from nothing gives the
store, and a buffer with a capacity retains the end of a log.
-/
namespace Openstack.ChangeLog

structure Change (K V : Type) where
  key : K
  before : Option V
  after : Option V

section Replay

variable {K V : Type} [DecidableEq K]

def Change.apply (m : K → Option V) (c : Change K V) : K → Option V :=
  Function.update m c.key c.after

def replay (log : List (Change K V)) : K → Option V := log.foldl Change.apply fun _ => none

@[simp] theorem replay_nil : replay ([] : List (Change K V)) = fun _ => none := rfl

@[simp] theorem replay_snoc (log : List (Change K V)) (c : Change K V) :
    replay (log ++ [c]) = c.apply (replay log) := by
  simp [replay]

/-- The keys that hold a value. -/
def keys (m : K → Option V) : Set K := {k | m k ≠ none}

theorem keys_apply_some (m : K → Option V) (c : Change K V) (stored : c.after ≠ none) :
    keys (c.apply m) = insert c.key (keys m) := by
  ext k
  by_cases same : k = c.key
  · subst same
    simp [keys, Change.apply, stored]
  · simp [keys, Change.apply, same]

theorem keys_apply_none (m : K → Option V) (c : Change K V) (removed : c.after = none) :
    keys (c.apply m) = keys m \ {c.key} := by
  ext k
  by_cases same : k = c.key
  · subst same
    simp [keys, Change.apply, removed]
  · simp [keys, Change.apply, same]

end Replay

section Buffer

variable {A : Type}

/-- Append at the back and, above the capacity, drop one at the front. -/
def push (cap : Nat) (buffer : List A) (x : A) : List A :=
  if (buffer ++ [x]).length > cap then (buffer ++ [x]).tail else buffer ++ [x]

/-- The last `cap` entries of a log. -/
def retained (cap : Nat) (log : List A) : List A := log.drop (log.length - cap)

@[simp] theorem retained_nil (cap : Nat) : retained cap ([] : List A) = [] := by
  simp [retained]

theorem retained_of_le {cap : Nat} {log : List A} (fits : log.length ≤ cap) :
    retained cap log = log := by
  have none_dropped : log.length - cap = 0 := by omega
  simp [retained, none_dropped]

theorem length_retained (cap : Nat) (log : List A) :
    (retained cap log).length = min cap log.length := by
  simp only [retained, List.length_drop]
  omega

/-- Pushing into the buffer retains the end of the longer log. -/
theorem push_retained (cap : Nat) (log : List A) (x : A) :
    push cap (retained cap log) x = retained cap (log ++ [x]) := by
  have size := length_retained cap log
  unfold push
  simp only [List.length_append, List.length_singleton, size]
  split
  · have shifted : log.length + 1 - cap = log.length - cap + 1 := by omega
    have whole : (log ++ [x]).drop (log.length - cap) = log.drop (log.length - cap) ++ [x] :=
      List.drop_append_of_le_length (by omega)
    rw [← List.drop_one, retained, retained, List.length_append, List.length_singleton, shifted,
      ← List.drop_drop, whole]
  · rw [retained_of_le (by omega), retained_of_le (by simp; omega)]

/-- The newest entry stands at the back of the buffer. -/
theorem getLast?_retained {cap : Nat} (room : 0 < cap) (log : List A) (x : A) :
    (retained cap (log ++ [x])).getLast? = some x := by
  have whole : (log ++ [x]).drop ((log ++ [x]).length - cap) =
      log.drop ((log ++ [x]).length - cap) ++ [x] :=
    List.drop_append_of_le_length (by simp; omega)
  rw [retained, whole, List.getLast?_concat]

/-- A test that accepts exactly the positions from `k` on keeps the list from there. -/
theorem filter_eq_drop (k : Nat) (log : List A) (test : A → Bool)
    (accepts : ∀ i x, log[i]? = some x → test x = decide (k ≤ i)) : log.filter test = log.drop k := by
  induction log generalizing k with
  | nil => simp
  | cons x rest ih =>
    have first := accepts 0 x rfl
    have later : ∀ i y, rest[i]? = some y → test y = decide (k - 1 ≤ i) := by
      intro i y found
      rw [accepts (i + 1) y (by simpa using found), decide_eq_decide]
      omega
    rw [List.filter_cons, first, ih (k - 1) later]
    cases k with
    | zero => simp
    | succ k => simp

/-- The entries of a log that are marked, up to the last mark. -/
def marked (log : List A) (marks : List Bool) : List A :=
  (log.zip marks).filterMap fun p => if p.2 then some p.1 else none

@[simp] theorem marked_nil (log : List A) : marked log [] = [] := by
  simp [marked]

theorem marked_cons (x : A) (log : List A) (m : Bool) (marks : List Bool) :
    marked (x :: log) (m :: marks) = (if m then [x] else []) ++ marked log marks := by
  cases m <;> simp [marked]

/-- Later entries carry no mark yet. -/
theorem marked_append_left (log later : List A) (marks : List Bool)
    (covered : marks.length ≤ log.length) : marked (log ++ later) marks = marked log marks := by
  induction marks generalizing log with
  | nil => simp
  | cons m marks ih =>
    cases log with
    | nil => simp at covered
    | cons x rest => rw [List.cons_append, marked_cons, marked_cons, ih rest (by simpa using covered)]

theorem marked_append_right (log : List A) (marks more : List Bool) :
    marked log (marks ++ more) = marked log marks ++ marked (log.drop marks.length) more := by
  induction marks generalizing log with
  | nil => simp
  | cons m marks ih =>
    cases log with
    | nil => simp [marked]
    | cons x rest => rw [List.cons_append, marked_cons, marked_cons, ih rest, List.append_assoc]; rfl

theorem marked_replicate_false (log : List A) (n : Nat) :
    marked log (List.replicate n false) = [] := by
  induction n generalizing log with
  | zero => simp
  | succ n ih =>
    cases log with
    | nil => simp [marked]
    | cons x rest => rw [List.replicate_succ, marked_cons, ih]; rfl

theorem marked_replicate_true (log : List A) (n : Nat) :
    marked log (List.replicate n true) = log.take n := by
  induction n generalizing log with
  | zero => simp
  | succ n ih =>
    cases log with
    | nil => simp [marked]
    | cons x rest => rw [List.replicate_succ, marked_cons, ih]; rfl

/-- Reading on: pass a gap, then take a page. -/
theorem marked_read (log : List A) (marks : List Bool) (gap size : Nat) :
    marked log (marks ++ List.replicate gap false ++ List.replicate size true) =
      marked log marks ++ (log.drop (marks.length + gap)).take size := by
  rw [marked_append_right, marked_append_right, marked_replicate_false, marked_replicate_true,
    List.append_nil, List.length_append, List.length_replicate]

end Buffer
end Openstack.ChangeLog

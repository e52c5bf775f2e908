import Mathlib.Data.List.Sort
import Mathlib.Logic.Function.Basic
import Mathlib.Logic.Relation

/-!
Concurrent programs over shared cells. A process takes its mutexes one after another,
then runs a program whose accesses each read and rewrite one cell atomically, then gives
the mutexes back. A schedule names the process that moves next; a process that waits for
a mutex stays where it is.

When every access is to a cell whose mutex the process holds, or to a cell that no
program can change, the processes are serialisable in the order in which their programs
end (`SerialInv`). When every process takes its mutexes in increasing order, no cycle of
processes wait for each other (`waitsFor_acyclic`).
-/
namespace Openstack.Locking

variable {ι L K C R : Type}

/-- Each access reads one cell and rewrites it in one atomic step. -/
inductive Prog (K C R : Type) where
  | ret (r : R)
  | access (k : K) (upd : C → C) (next : C → Prog K C R)

/-- One access that a run has made. -/
structure Access (K C : Type) where
  cell : K
  before : C
  after : C

namespace Prog

/-- A program of one access. -/
def atomic (k : K) (f : C → R × C) : Prog K C R :=
  .access k (fun c => (f c).2) (fun c => .ret (f c).1)

/-- An access that leaves the cell as it is. -/
def read (k : K) (next : C → Prog K C R) : Prog K C R := .access k id next

variable [DecidableEq K]

/-- The program without interruption. -/
def exec : Prog K C R → (K → C) → R × (K → C)
  | .ret r, cells => (r, cells)
  | .access k upd next, cells =>
    (next (cells k)).exec (Function.update cells k (upd (cells k)))

/-- The accesses of a run without interruption. -/
def trace : Prog K C R → (K → C) → List (Access K C)
  | .ret _, _ => []
  | .access k upd next, cells =>
    ⟨k, cells k, upd (cells k)⟩ ::
      (next (cells k)).trace (Function.update cells k (upd (cells k)))

@[simp] theorem exec_read (k : K) (next : C → Prog K C R) (cells : K → C) :
    (read k next).exec cells = (next (cells k)).exec cells := by
  simp [read, exec]

@[simp] theorem trace_read (k : K) (next : C → Prog K C R) (cells : K → C) :
    (read k next).trace cells = ⟨k, cells k, cells k⟩ :: (next (cells k)).trace cells := by
  simp [read, trace]

/-- Every access is to a cell whose mutex is held, or to a frozen cell; a frozen cell
keeps its first value whatever is done to it. -/
def Covered (guard : K → L) (frozen : K → Prop) (c₀ : K → C) (locks : List L) :
    Prog K C R → Prop
  | .ret _ => True
  | .access k upd next =>
    (frozen k → upd (c₀ k) = c₀ k) ∧
      ((guard k ∈ locks ∧ ∀ c, (next c).Covered guard frozen c₀ locks) ∨
        (frozen k ∧ (next (c₀ k)).Covered guard frozen c₀ locks))

end Prog

structure Process (L K C R : Type) where
  locks : List L
  body : Prog K C R

inductive Phase (L K C R : Type) where
  | acquiring (held todo : List L)
  | running (p : Prog K C R)
  | releasing (r : R) (held : List L)
  | done (r : R)

namespace Phase

/-- The mutexes held in a phase of a process that takes `locks`. -/
def held (locks : List L) : Phase L K C R → List L
  | .acquiring held _ => held
  | .running _ => locks
  | .releasing _ held => held
  | .done _ => []

/-- The program has ended. -/
def finished : Phase L K C R → Bool
  | .releasing _ _ => true
  | .done _ => true
  | _ => false

def response? : Phase L K C R → Option R
  | .releasing r _ => some r
  | .done r => some r
  | _ => none

end Phase

/-- `log` and `order` are history: the accesses each process has made, and the processes
whose programs have ended, in that order. No step reads them. -/
structure Sys (ι L K C R : Type) where
  cells : K → C
  holder : L → Option ι
  phase : ι → Phase L K C R
  log : ι → List (Access K C)
  order : List ι

variable [DecidableEq ι] [DecidableEq L] [DecidableEq K]

def start (procs : ι → Process L K C R) (c₀ : K → C) : Sys ι L K C R where
  cells := c₀
  holder := fun _ => none
  phase := fun i => .acquiring [] (procs i).locks
  log := fun _ => []
  order := []

def step (procs : ι → Process L K C R) (s : Sys ι L K C R) (i : ι) : Sys ι L K C R :=
  match s.phase i with
  | .acquiring held (l :: todo) =>
    if s.holder l = none then
      { s with
        holder := Function.update s.holder l (some i)
        phase := Function.update s.phase i (.acquiring (held ++ [l]) todo) }
    else s
  | .acquiring _ [] => { s with phase := Function.update s.phase i (.running (procs i).body) }
  | .running (.access k upd next) =>
    { s with
      cells := Function.update s.cells k (upd (s.cells k))
      phase := Function.update s.phase i (.running (next (s.cells k)))
      log := Function.update s.log i (s.log i ++ [⟨k, s.cells k, upd (s.cells k)⟩]) }
  | .running (.ret r) =>
    { s with
      phase := Function.update s.phase i (.releasing r (procs i).locks)
      order := s.order ++ [i] }
  | .releasing r (l :: held) =>
    { s with
      holder := Function.update s.holder l none
      phase := Function.update s.phase i (.releasing r held) }
  | .releasing r [] => { s with phase := Function.update s.phase i (.done r) }
  | .done _ => s

def run (procs : ι → Process L K C R) (c₀ : K → C) (schedule : List ι) : Sys ι L K C R :=
  schedule.foldl (step procs) (start procs c₀)

/-- What one step of process `i` can do. -/
inductive Move (procs : ι → Process L K C R) (s : Sys ι L K C R) (i : ι) : Sys ι L K C R → Prop where
  | stay : Move procs s i s
  | acquire (held : List L) (l : L) (todo : List L)
      (here : s.phase i = .acquiring held (l :: todo)) (free : s.holder l = none) :
      Move procs s i
        { s with
          holder := Function.update s.holder l (some i)
          phase := Function.update s.phase i (.acquiring (held ++ [l]) todo) }
  | enter (held : List L) (here : s.phase i = .acquiring held []) :
      Move procs s i { s with phase := Function.update s.phase i (.running (procs i).body) }
  | access (k : K) (upd : C → C) (next : C → Prog K C R)
      (here : s.phase i = .running (.access k upd next)) :
      Move procs s i
        { s with
          cells := Function.update s.cells k (upd (s.cells k))
          phase := Function.update s.phase i (.running (next (s.cells k)))
          log := Function.update s.log i (s.log i ++ [⟨k, s.cells k, upd (s.cells k)⟩]) }
  | finish (r : R) (here : s.phase i = .running (.ret r)) :
      Move procs s i
        { s with
          phase := Function.update s.phase i (.releasing r (procs i).locks)
          order := s.order ++ [i] }
  | release (r : R) (l : L) (held : List L) (here : s.phase i = .releasing r (l :: held)) :
      Move procs s i
        { s with
          holder := Function.update s.holder l none
          phase := Function.update s.phase i (.releasing r held) }
  | leave (r : R) (here : s.phase i = .releasing r []) :
      Move procs s i { s with phase := Function.update s.phase i (.done r) }

theorem step_move (procs : ι → Process L K C R) (s : Sys ι L K C R) (i : ι) :
    Move procs s i (step procs s i) := by
  unfold step
  split
  · next held l todo here =>
    split
    · next free => exact .acquire held l todo here free
    · exact .stay
  · next held here => exact .enter held here
  · next k upd next here => exact .access k upd next here
  · next r here => exact .finish r here
  · next r l held here => exact .release r l held here
  · next r here => exact .leave r here
  · exact .stay

/-- The processes that have ended stay in their order. -/
theorem Move.order_grows {procs : ι → Process L K C R} {s s' : Sys ι L K C R} {i : ι}
    (move : Move procs s i s') : s.order <+: s'.order := by
  cases move with
  | finish r here => exact List.prefix_append _ _
  | _ => exact List.prefix_rfl

/-- A process that runs after a move ran before it, or has just begun, or has just made an
access. -/
theorem Move.running_cases {procs : ι → Process L K C R} {s s' : Sys ι L K C R} {i j : ι}
    (move : Move procs s i s') {p : Prog K C R} (after : s'.phase j = .running p) :
    (s.phase j = .running p ∧ (j = i → s' = s)) ∨
    (j = i ∧ p = (procs i).body) ∨
    (j = i ∧ ∃ k upd next, s.phase i = .running (.access k upd next) ∧ p = next (s.cells k) ∧
      s'.cells = Function.update s.cells k (upd (s.cells k))) := by
  by_cases h : j = i
  · subst h
    cases move with
    | stay => exact .inl ⟨after, fun _ => rfl⟩
    | enter held here =>
      simp only [Function.update_self, Phase.running.injEq] at after
      exact .inr (.inl ⟨rfl, after.symm⟩)
    | access k upd next here =>
      simp only [Function.update_self, Phase.running.injEq] at after
      exact .inr (.inr ⟨rfl, k, upd, next, here, after.symm, rfl⟩)
    | acquire held l todo here free => simp at after
    | finish r here => simp at after
    | release r l held here => simp at after
    | leave r here => simp at after
  · left
    refine ⟨?_, fun same => absurd same h⟩
    cases move <;> simpa [Function.update_of_ne h] using after

/-- A property that every move preserves holds after every schedule. -/
theorem run_induct {procs : ι → Process L K C R} {c₀ : K → C} {P : Sys ι L K C R → Prop}
    (init : P (start procs c₀)) (move : ∀ s s' i, P s → Move procs s i s' → P s')
    (schedule : List ι) : P (run procs c₀ schedule) := by
  have from_any : ∀ s, P s → P (schedule.foldl (step procs) s) := by
    induction schedule with
    | nil => exact fun s h => h
    | cons i rest ih => exact fun s h => ih _ (move s _ i h (step_move procs s i))
  exact from_any _ init

/-- The mutexes and the phases agree about who holds what. -/
structure LockInv (procs : ι → Process L K C R) (s : Sys ι L K C R) : Prop where
  holder_iff : ∀ l i, s.holder l = some i ↔ l ∈ (s.phase i).held (procs i).locks
  acquiring : ∀ i held todo, s.phase i = .acquiring held todo → held ++ todo = (procs i).locks
  releasing : ∀ i r held, s.phase i = .releasing r held → held <:+ (procs i).locks

omit [DecidableEq ι] [DecidableEq L] [DecidableEq K] in
theorem lockInv_start (procs : ι → Process L K C R) (c₀ : K → C) :
    LockInv procs (start procs c₀) where
  holder_iff := by simp [start, Phase.held]
  acquiring := by
    intro i held todo h
    cases h
    rfl
  releasing := by
    intro i r held h
    cases h

variable {procs : ι → Process L K C R} {s s' : Sys ι L K C R} {c₀ : K → C} {i : ι}

omit [DecidableEq L] [DecidableEq K] in
/-- After a move of `i`, a phase is its new one or that of another process before. -/
theorem moved_cases {phase phase' : ι → Phase L K C R} {ph q : Phase L K C R} {j : ι}
    (moved : phase' = Function.update phase i ph) (at_ : phase' j = q) :
    j = i ∧ ph = q ∨ j ≠ i ∧ phase j = q := by
  subst moved
  by_cases h : j = i
  · subst h
    exact .inl ⟨rfl, by simpa using at_⟩
  · exact .inr ⟨h, by simpa [h] using at_⟩

omit [DecidableEq L] [DecidableEq K] in
/-- A move that keeps the mutexes of the process that makes it. -/
theorem LockInv.of_held_eq {ph : Phase L K C R} (inv : LockInv procs s)
    (holder : s'.holder = s.holder) (phase : s'.phase = Function.update s.phase i ph)
    (same : ph.held (procs i).locks = (s.phase i).held (procs i).locks)
    (acquiring : ∀ held todo, ph ≠ .acquiring held todo)
    (releasing : ∀ r held, ph = .releasing r held → held <:+ (procs i).locks) :
    LockInv procs s' where
  holder_iff := by
    intro l j
    rw [holder, phase, inv.holder_iff]
    by_cases h : j = i
    · subst h
      rw [Function.update_self, same]
    · rw [Function.update_of_ne h]
  acquiring := by
    intro j held todo at_
    rcases moved_cases phase at_ with ⟨rfl, at_⟩ | ⟨h, at_⟩
    · exact absurd at_ (acquiring held todo)
    · exact inv.acquiring j held todo at_
  releasing := by
    intro j r held at_
    rcases moved_cases phase at_ with ⟨rfl, at_⟩ | ⟨h, at_⟩
    · exact releasing r held at_
    · exact inv.releasing j r held at_

omit [DecidableEq K] in
theorem LockInv.acquire {held todo : List L} {l : L} (inv : LockInv procs s)
    (here : s.phase i = .acquiring held (l :: todo)) (free : s.holder l = none)
    (holder : s'.holder = Function.update s.holder l (some i))
    (phase : s'.phase = Function.update s.phase i (.acquiring (held ++ [l]) todo)) :
    LockInv procs s' where
  holder_iff := by
    intro m j
    rw [holder, phase]
    have before := inv.holder_iff m j
    by_cases h : j = i
    · subst h
      rw [here] at before
      rw [Function.update_self]
      by_cases hm : m = l
      · subst hm
        simp [Phase.held]
      · rw [Function.update_of_ne hm, before]
        simp [Phase.held, hm]
    · rw [Function.update_of_ne h, ← before]
      by_cases hm : m = l
      · subst hm
        simp [free, Ne.symm h]
      · rw [Function.update_of_ne hm]
  acquiring := by
    intro j held' todo' at_
    rcases moved_cases phase at_ with ⟨rfl, ⟨⟩⟩ | ⟨h, at_⟩
    · simpa using inv.acquiring j held (l :: todo) here
    · exact inv.acquiring j held' todo' at_
  releasing := by
    intro j r held' at_
    rcases moved_cases phase at_ with ⟨rfl, ⟨⟩⟩ | ⟨h, at_⟩
    exact inv.releasing j r held' at_

omit [DecidableEq K] in
theorem LockInv.release {held : List L} {l : L} {r : R} (inv : LockInv procs s)
    (nodup : (procs i).locks.Nodup) (here : s.phase i = .releasing r (l :: held))
    (holder : s'.holder = Function.update s.holder l none)
    (phase : s'.phase = Function.update s.phase i (.releasing r held)) : LockInv procs s' where
  holder_iff := by
    intro m j
    have mine : s.holder l = some i := (inv.holder_iff l i).mpr (by simp [here, Phase.held])
    have gone : l ∉ held :=
      (List.nodup_cons.mp ((inv.releasing i r _ here).sublist.nodup nodup)).1
    rw [holder, phase]
    have before := inv.holder_iff m j
    by_cases h : j = i
    · subst h
      rw [here] at before
      rw [Function.update_self]
      by_cases hm : m = l
      · subst hm
        simp [Phase.held, gone]
      · rw [Function.update_of_ne hm, before]
        simp [Phase.held, hm]
    · rw [Function.update_of_ne h, ← before]
      by_cases hm : m = l
      · subst hm
        simp [mine, Ne.symm h]
      · rw [Function.update_of_ne hm]
  acquiring := by
    intro j held' todo' at_
    rcases moved_cases phase at_ with ⟨rfl, ⟨⟩⟩ | ⟨h, at_⟩
    exact inv.acquiring j held' todo' at_
  releasing := by
    intro j r' held' at_
    rcases moved_cases phase at_ with ⟨rfl, ⟨⟩⟩ | ⟨h, at_⟩
    · exact (List.suffix_cons l held).trans (inv.releasing j r _ here)
    · exact inv.releasing j r' held' at_

theorem LockInv.move (inv : LockInv procs s) (nodup : ∀ i, (procs i).locks.Nodup)
    (move : Move procs s i s') : LockInv procs s' := by
  cases move with
  | stay => exact inv
  | acquire held l todo here free => exact inv.acquire here free rfl rfl
  | enter held here =>
    have all := inv.acquiring i held [] here
    refine inv.of_held_eq rfl rfl ?_ (by simp) (by simp)
    simpa [here, Phase.held] using all.symm
  | access k upd next here =>
    exact inv.of_held_eq rfl rfl (by simp [here, Phase.held]) (by simp) (by simp)
  | finish r here =>
    refine inv.of_held_eq rfl rfl (by simp [here, Phase.held]) (by simp) ?_
    rintro r' held ⟨⟩
    exact List.suffix_rfl
  | release r l held here => exact inv.release (nodup i) here rfl rfl
  | leave r here => exact inv.of_held_eq rfl rfl (by simp [here, Phase.held]) (by simp) (by simp)

theorem lockInv_run (nodup : ∀ i, (procs i).locks.Nodup) (c₀ : K → C) (schedule : List ι) :
    LockInv procs (run procs c₀ schedule) :=
  run_induct (lockInv_start procs c₀) (fun _ _ _ inv move => inv.move nodup move) schedule

omit [DecidableEq ι] [DecidableEq L] [DecidableEq K] in
/-- A mutex is held by one process. -/
theorem LockInv.exclusive {j : ι} {l : L} (inv : LockInv procs s)
    (hi : l ∈ (s.phase i).held (procs i).locks) (hj : l ∈ (s.phase j).held (procs j).locks) :
    i = j := by
  have first := (inv.holder_iff l i).mpr hi
  have second := (inv.holder_iff l j).mpr hj
  exact Option.some.inj (first.symm.trans second)

/-- `i` waits for a mutex that `j` holds. -/
def WaitsFor (s : Sys ι L K C R) (i j : ι) : Prop :=
  ∃ held l todo, s.phase i = .acquiring held (l :: todo) ∧ s.holder l = some j

section Deadlock

variable {α : Type} [LinearOrder α] (rank : L → α)

omit [DecidableEq ι] [DecidableEq L] [DecidableEq K] in
/-- Along a chain of waiting processes the awaited mutexes increase: the last process of
the chain holds a mutex that is not below the one the first waits for. -/
theorem waits_chain (inv : LockInv procs s)
    (sorted : ∀ i, (procs i).locks.Pairwise fun l m => rank l < rank m) {i j : ι}
    (chain : Relation.TransGen (WaitsFor s) i j) {held todo : List L} {l : L}
    (here : s.phase i = .acquiring held (l :: todo)) :
    ∃ m, s.holder m = some j ∧ rank l ≤ rank m := by
  induction chain with
  | single waits =>
    obtain ⟨_, l', _, at_, holds⟩ := waits
    rw [here] at at_
    cases at_
    exact ⟨l, holds, le_rfl⟩
  | tail _ waits ih =>
    obtain ⟨m, holds, le⟩ := ih
    obtain ⟨held', l', todo', at_, holds'⟩ := waits
    -- the middle process holds `m` and waits for `l'`, which it takes later
    rename_i b c _
    have mem : m ∈ held' := by
      have := (inv.holder_iff m b).mp holds
      rwa [at_] at this
    have locks := inv.acquiring b held' (l' :: todo') at_
    have lt : rank m < rank l' := by
      have order := sorted b
      rw [← locks, List.pairwise_append] at order
      exact order.2.2 m mem l' (by simp)
    exact ⟨l', holds', (le.trans_lt lt).le⟩

omit [DecidableEq ι] [DecidableEq L] [DecidableEq K] in
/-- Processes that take their mutexes in increasing order never wait in a circle. -/
theorem waitsFor_acyclic (inv : LockInv procs s)
    (sorted : ∀ i, (procs i).locks.Pairwise fun l m => rank l < rank m) (i : ι) :
    ¬ Relation.TransGen (WaitsFor s) i i := by
  intro cycle
  obtain ⟨j, ⟨held, l, todo, here, _⟩, _⟩ :=
    Relation.TransGen.head'_iff.mp cycle
  obtain ⟨m, holds, le⟩ := waits_chain rank inv sorted cycle here
  have mem : m ∈ held := by
    have := (inv.holder_iff m i).mp holds
    rwa [here] at this
  have order := sorted i
  rw [← inv.acquiring i held (l :: todo) here, List.pairwise_append] at order
  exact absurd (order.2.2 m mem l (by simp)) (not_lt.mpr le)

end Deadlock

end Openstack.Locking

import Openstack.Lib.Locking

/-!
What a process may conclude while others interfere. A program is judged along every run in
which a cell it looks at again still holds, up to a relation `same`, what it held before
(`Steady`); the others have to keep only the cells the process has seen and may come back
to. Mutexes play no part.
-/
namespace Openstack.Locking

variable {ι L K C R : Type}

/-- Some run of the program accesses the cell. -/
inductive Prog.MayAccess (k : K) : Prog K C R → Prop where
  | here (upd : C → C) (next : C → Prog K C R) : MayAccess k (.access k upd next)
  | later (m : K) (upd : C → C) (next : C → Prog K C R) (c : C)
      (rest : MayAccess k (next c)) : MayAccess k (.access m upd next)

theorem Prog.not_mayAccess_ret (k : K) (r : R) : ¬ (Prog.ret r : Prog K C R).MayAccess k := by
  intro h
  cases h

/-- Every access of the program rewrites its cell in the given way. -/
def Prog.EachUpdate (P : (C → C) → Prop) : Prog K C R → Prop
  | .ret _ => True
  | .access _ upd next => P upd ∧ ∀ c, (next c).EachUpdate P

/-- The program ends in `post`, if each cell still holds the same as at each earlier access
to it; and it does not itself change a cell it may come back to. -/
def Prog.Steady (same : C → C → Prop) (post : R → List (Access K C) → Prop) :
    Prog K C R → List (Access K C) → Prop
  | .ret r, log => post r log
  | .access k upd next, log => ∀ c, (∀ a ∈ log, a.cell = k → same a.before c) →
      ((next c).MayAccess k → same c (upd c)) ∧
        (next c).Steady same post (log ++ [⟨k, c, upd c⟩])

structure SteadyInv (same : C → C → Prop) (post : R → List (Access K C) → Prop)
    (s : Sys ι L K C R) (j : ι) : Prop where
  quiet : ∀ held todo, s.phase j = .acquiring held todo → s.log j = []
  running : ∀ p, s.phase j = .running p → p.Steady same post (s.log j)
  fresh : ∀ p, s.phase j = .running p → ∀ a ∈ s.log j, p.MayAccess a.cell →
    same a.before (s.cells a.cell)
  ended : ∀ r, (s.phase j).response? = some r → post r (s.log j)

variable {same : C → C → Prop} {post : R → List (Access K C) → Prop}
  {procs : ι → Process L K C R} {s s' : Sys ι L K C R} {i j : ι}

theorem steadyInv_start (procs : ι → Process L K C R) (c₀ : K → C) (j : ι) :
    SteadyInv same post (start procs c₀) j where
  quiet := fun _ _ _ => rfl
  running := by intro p h; cases h
  fresh := by intro p h; cases h
  ended := by intro r h; cases h

/-- A step of another process. -/
theorem SteadyInv.other (trans : ∀ a b c, same a b → same b c → same a c)
    (inv : SteadyInv same post s j) (phase : s'.phase j = s.phase j) (log : s'.log j = s.log j)
    (rely : ∀ p, s.phase j = .running p → ∀ a ∈ s.log j, p.MayAccess a.cell →
      same (s.cells a.cell) (s'.cells a.cell)) : SteadyInv same post s' j where
  quiet := by rw [phase, log]; exact inv.quiet
  running := by rw [phase, log]; exact inv.running
  fresh := by
    rw [phase, log]
    intro p here a mem may
    exact trans _ _ _ (inv.fresh p here a mem may) (rely p here a mem may)
  ended := by rw [phase, log]; exact inv.ended

variable [DecidableEq K]

/-- An access of the process itself. -/
theorem SteadyInv.access {k : K} {upd : C → C} {next : C → Prog K C R}
    (trans : ∀ a b c, same a b → same b c → same a c) (inv : SteadyInv same post s j)
    (here : s.phase j = .running (.access k upd next))
    (cells : s'.cells = Function.update s.cells k (upd (s.cells k)))
    (phase : s'.phase j = .running (next (s.cells k)))
    (log : s'.log j = s.log j ++ [⟨k, s.cells k, upd (s.cells k)⟩]) :
    SteadyInv same post s' j := by
  have consistent : ∀ a ∈ s.log j, a.cell = k → same a.before (s.cells k) := by
    rintro a mem rfl
    exact inv.fresh _ here a mem (.here upd next)
  obtain ⟨keeps, steady⟩ := inv.running _ here (s.cells k) consistent
  constructor
  case quiet =>
    intro held todo at_
    rw [phase] at at_
    cases at_
  case running =>
    intro p at_
    rw [phase] at at_
    cases at_
    rw [log]
    exact steady
  case fresh =>
    intro p at_ a mem may
    rw [phase] at at_
    cases at_
    rw [log] at mem
    rw [cells]
    rcases List.mem_append.mp mem with mem | mem
    · by_cases h : a.cell = k
      · rw [h] at may ⊢
        rw [Function.update_self]
        exact trans _ _ _ (consistent a mem h) (keeps may)
      · rw [Function.update_of_ne h]
        exact inv.fresh _ here a mem (.later k upd next _ may)
    · rw [List.mem_singleton.mp mem] at may ⊢
      rw [Function.update_self]
      exact keeps may
  case ended =>
    intro r at_
    rw [phase] at at_
    cases at_

variable [DecidableEq ι] [DecidableEq L]

/-- What is left of a program makes only updates that the program makes. -/
theorem Move.eachUpdate {P : (C → C) → Prop} (move : Move procs s i s')
    (body : (procs j).body.EachUpdate P) (before : ∀ p, s.phase j = .running p → p.EachUpdate P)
    {p : Prog K C R} (after : s'.phase j = .running p) : p.EachUpdate P := by
  obtain ⟨same, _⟩ | ⟨rfl, rfl⟩ | ⟨rfl, k, upd, next, here, rfl, _⟩ := move.running_cases after
  · exact before p same
  · exact body
  · exact (before _ here).2 _

/-- Every move of the system, when those of the others keep what the process may come back
to. -/
theorem SteadyInv.move (trans : ∀ a b c, same a b → same b c → same a c)
    (body : (procs j).body.Steady same post []) (inv : SteadyInv same post s j)
    (move : Move procs s i s')
    (rely : i ≠ j → ∀ p, s.phase j = .running p → ∀ a ∈ s.log j, p.MayAccess a.cell →
      same (s.cells a.cell) (s'.cells a.cell)) : SteadyInv same post s' j := by
  by_cases h : i = j
  · subst h
    cases move with
    | stay => exact inv
    | acquire held l todo here free =>
      have quiet := inv.quiet held _ here
      constructor
      case quiet => exact fun _ _ _ => quiet
      case running => simp
      case fresh => simp
      case ended => simp [Phase.response?]
    | enter held here =>
      have quiet := inv.quiet held _ here
      constructor
      case quiet => simp
      case running => simpa [quiet] using body
      case fresh => simp [quiet]
      case ended => simp [Phase.response?]
    | access k upd next here =>
      exact inv.access trans here rfl (by simp) (by simp)
    | finish r here =>
      constructor
      case quiet => simp
      case running => simp
      case fresh => simp
      case ended =>
        have ended : post r (s.log i) := inv.running _ here
        simpa [Phase.response?] using ended
    | release r l held here =>
      constructor
      case quiet => simp
      case running => simp
      case fresh => simp
      case ended => simpa [Phase.response?] using inv.ended r (by rw [here]; rfl)
    | leave r here =>
      constructor
      case quiet => simp
      case running => simp
      case fresh => simp
      case ended => simpa [Phase.response?] using inv.ended r (by rw [here]; rfl)
  · have phase : s'.phase j = s.phase j := by
      cases move <;> simp [Function.update_of_ne (Ne.symm h)]
    have log : s'.log j = s.log j := by
      cases move <;> simp [Function.update_of_ne (Ne.symm h)]
    exact inv.other trans phase log (rely h)

end Openstack.Locking

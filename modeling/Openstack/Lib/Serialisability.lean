import Openstack.Lib.Locking

/-!
Serialisability of processes that hold the mutex of every cell they touch. The serial
order is the order in which the programs end: until then the process holds all its
mutexes, so what is left of its program, run on the cells as they are, must end as the
whole program does on the cells the finished processes leave.
-/
namespace Openstack.Locking

variable {ι L K C R : Type} [DecidableEq K]
variable {cells : K → C} {upd : C → C} {k : K}

/-! ## Programs under their mutexes -/

section Exec

variable {guard : K → L} {frozen : K → Prop} {c₀ : K → C} {locks : List L} {p : Prog K C R}

/-- Rewriting a frozen cell leaves every cell as it was. -/
theorem update_frozen (keeps : upd (c₀ k) = c₀ k)
    (first : cells k = c₀ k) : Function.update cells k (upd (cells k)) = cells := by
  rw [first, keeps, ← first]
  exact Function.update_eq_self k cells

theorem frozen_update
    (keeps : frozen k → upd (c₀ k) = c₀ k) (first : ∀ m, frozen m → cells m = c₀ m) :
    ∀ m, frozen m → Function.update cells k (upd (cells k)) m = c₀ m := by
  intro m hm
  by_cases h : m = k
  · subst h
    rw [Function.update_self, first m hm, keeps hm]
  · rw [Function.update_of_ne h, first m hm]

/-- Frozen cells keep their first value. -/
theorem exec_frozen (covered : p.Covered guard frozen c₀ locks)
    (first : ∀ k, frozen k → cells k = c₀ k) : ∀ k, frozen k → (p.exec cells).2 k = c₀ k := by
  induction p generalizing cells with
  | ret r => exact first
  | access k upd next ih =>
    obtain ⟨keeps, ⟨_, later⟩ | ⟨frozen_k, later⟩⟩ := covered
    · exact ih _ (later _) (frozen_update keeps first)
    · rw [← first k frozen_k] at later
      exact ih _ later (frozen_update keeps first)

/-- A program leaves the cells of other mutexes alone. -/
theorem exec_frame (covered : p.Covered guard frozen c₀ locks)
    (first : ∀ k, frozen k → cells k = c₀ k) {m : K} (other : guard m ∉ locks) :
    (p.exec cells).2 m = cells m := by
  induction p generalizing cells with
  | ret r => rfl
  | access k upd next ih =>
    obtain ⟨keeps, ⟨mine, later⟩ | ⟨frozen_k, later⟩⟩ := covered
    · have different : m ≠ k := fun h => other (h ▸ mine)
      rw [Prog.exec, ih _ (later _) (frozen_update keeps first), Function.update_of_ne different]
    · rw [Prog.exec, update_frozen (keeps frozen_k) (first k frozen_k)]
      rw [← first k frozen_k] at later
      exact ih _ later first

/-- Two stores that agree under the mutexes of a program look the same to it. -/
theorem exec_agree (covered : p.Covered guard frozen c₀ locks) {a b : K → C}
    (first_a : ∀ k, frozen k → a k = c₀ k) (first_b : ∀ k, frozen k → b k = c₀ k)
    (agree : ∀ k, guard k ∈ locks → a k = b k) :
    (p.exec a).1 = (p.exec b).1 ∧ ∀ k, guard k ∈ locks → (p.exec a).2 k = (p.exec b).2 k := by
  induction p generalizing a b with
  | ret r => exact ⟨rfl, agree⟩
  | access k upd next ih =>
    obtain ⟨keeps, ⟨mine, later⟩ | ⟨frozen_k, later⟩⟩ := covered
    · rw [Prog.exec, Prog.exec, agree k mine]
      apply ih _ (later _)
      · rw [← agree k mine]
        exact frozen_update keeps first_a
      · exact frozen_update keeps first_b
      · intro m hm
        by_cases h : m = k
        · subst h
          simp only [Function.update_self]
        · simp only [Function.update_of_ne h, agree m hm]
    · rw [Prog.exec, Prog.exec, update_frozen (keeps frozen_k) (first_a k frozen_k),
        update_frozen (keeps frozen_k) (first_b k frozen_k), first_a k frozen_k,
        first_b k frozen_k]
      exact ih _ later first_a first_b agree

end Exec

/-! ## Serial executions -/

/-- The cells after the processes have run one after another in the given order. -/
def serialCells (procs : ι → Process L K C R) (c₀ : K → C) (order : List ι) : K → C :=
  order.foldl (fun cells i => ((procs i).body.exec cells).2) c₀

theorem serialCells_concat (procs : ι → Process L K C R) (c₀ : K → C) (order : List ι) (i : ι) :
    serialCells procs c₀ (order ++ [i]) =
      ((procs i).body.exec (serialCells procs c₀ order)).2 := by
  simp [serialCells]

variable [DecidableEq ι]

/-- What process `i` answers at its place in the given order. -/
def serialResponse (procs : ι → Process L K C R) (c₀ : K → C) (order : List ι) (i : ι) : R :=
  ((procs i).body.exec (serialCells procs c₀ (order.takeWhile (· ≠ i)))).1

theorem serialResponse_concat_of_mem {order : List ι} {i : ι} (mem : i ∈ order)
    (procs : ι → Process L K C R) (c₀ : K → C) (j : ι) :
    serialResponse procs c₀ (order ++ [j]) i = serialResponse procs c₀ order i := by
  have stops : (order ++ [j]).takeWhile (· ≠ i) = order.takeWhile (· ≠ i) := by
    induction order with
    | nil => cases mem
    | cons a rest ih =>
      by_cases h : a = i
      · simp [h]
      · have mem_rest : i ∈ rest := (List.mem_cons.mp mem).resolve_left (Ne.symm h)
        simp only [List.cons_append, List.takeWhile_cons, ih mem_rest]
  rw [serialResponse, serialResponse, stops]

theorem serialResponse_concat_self {order : List ι} {i : ι} (fresh : i ∉ order)
    (procs : ι → Process L K C R) (c₀ : K → C) :
    serialResponse procs c₀ (order ++ [i]) i =
      ((procs i).body.exec (serialCells procs c₀ order)).1 := by
  have all : ∀ a ∈ order, decide (a ≠ i) = true := by
    intro a mem
    exact decide_eq_true (fun h => fresh (h ▸ mem))
  have upto : (order ++ [i]).takeWhile (· ≠ i) = order := by
    rw [List.takeWhile_append_of_pos all]
    simp
  rw [serialResponse, upto]

/-! ## The invariant -/

variable (procs : ι → Process L K C R) (guard : K → L) (frozen : K → Prop)
  (c₀ : K → C)

/-- A running process holds the mutex of cell `k`. -/
def InUse (s : Sys ι L K C R) (k : K) : Prop :=
  ∃ i p, s.phase i = .running p ∧ guard k ∈ (procs i).locks

structure SerialInv (s : Sys ι L K C R) : Prop where
  locks : LockInv procs s
  nodup : s.order.Nodup
  mem_order : ∀ i, i ∈ s.order ↔ (s.phase i).finished = true
  quiet : ∀ i held todo, s.phase i = .acquiring held todo → s.log i = []
  frozen_cells : ∀ k, frozen k → s.cells k = c₀ k
  frozen_serial : ∀ k, frozen k → serialCells procs c₀ s.order k = c₀ k
  idle : ∀ k, ¬ InUse procs guard s k → s.cells k = serialCells procs c₀ s.order k
  covered : ∀ i p, s.phase i = .running p → p.Covered guard frozen c₀ (procs i).locks
  response : ∀ i p, s.phase i = .running p →
    (p.exec s.cells).1 = ((procs i).body.exec (serialCells procs c₀ s.order)).1
  effect : ∀ i p, s.phase i = .running p → ∀ k, guard k ∈ (procs i).locks →
    (p.exec s.cells).2 k = ((procs i).body.exec (serialCells procs c₀ s.order)).2 k
  /-- The cell differs from the serial one by the accesses the process has made. -/
  changed : ∀ i p, s.phase i = .running p → ∀ k, guard k ∈ (procs i).locks →
    ∀ P : C → Prop, P (serialCells procs c₀ s.order k) →
      (∀ a ∈ s.log i, a.cell = k → P a.before → P a.after) → P (s.cells k)
  answered : ∀ i r, (s.phase i).response? = some r →
    r = serialResponse procs c₀ s.order i

variable {procs guard frozen c₀} {s s' : Sys ι L K C R} {i : ι}

theorem serialInv_start : SerialInv procs guard frozen c₀ (start procs c₀) where
  locks := lockInv_start procs c₀
  nodup := List.nodup_nil
  mem_order := by simp [start, Phase.finished]
  quiet := fun _ _ _ _ => rfl
  frozen_cells := fun _ _ => rfl
  frozen_serial := fun _ _ => rfl
  idle := fun _ _ => rfl
  covered := by intro i p h; cases h
  response := by intro i p h; cases h
  effect := by intro i p h; cases h
  changed := by intro i p h; cases h
  answered := by intro i r h; cases h

/-- A process that is about to touch a cell leaves the cells of other mutexes alone. -/
theorem SerialInv.access_frame (inv : SerialInv procs guard frozen c₀ s) {k m : K}
    {next : C → Prog K C R} (here : s.phase i = .running (.access k upd next))
    (other : guard m ∉ (procs i).locks) :
    Function.update s.cells k (upd (s.cells k)) m = s.cells m := by
  obtain ⟨keeps, ⟨mine, _⟩ | ⟨frozen_k, _⟩⟩ := inv.covered i _ here
  · have different : m ≠ k := fun h => other (h ▸ mine)
    exact Function.update_of_ne different _ _
  · rw [update_frozen (keeps frozen_k) (inv.frozen_cells k frozen_k)]

/-- Another running process holds other mutexes. -/
theorem SerialInv.other_guard (inv : SerialInv procs guard frozen c₀ s) {j : ι} {m : K}
    (held : (s.phase i).held (procs i).locks = (procs i).locks) {q : Prog K C R}
    (there : s.phase j = .running q) (different : j ≠ i) (theirs : guard m ∈ (procs j).locks) :
    guard m ∉ (procs i).locks := by
  intro mine
  rw [← held] at mine
  have same := inv.locks.exclusive mine (j := j) (by rw [there]; exact theirs)
  exact different same.symm

/-- A move between two phases outside the program. -/
theorem SerialInv.of_phase {ph : Phase L K C R} (inv : SerialInv procs guard frozen c₀ s)
    (locks : LockInv procs s') (cells : s'.cells = s.cells) (log : s'.log = s.log)
    (order : s'.order = s.order) (phase : s'.phase = Function.update s.phase i ph)
    (outside : ∀ p, ph ≠ .running p) (before : ∀ p, s.phase i ≠ .running p)
    (finished : ph.finished = (s.phase i).finished)
    (response : ph.response? = (s.phase i).response?)
    (quiet : ∀ held todo, ph = .acquiring held todo → s.log i = []) :
    SerialInv procs guard frozen c₀ s' := by
  have running : ∀ j p, s'.phase j = .running p ↔ s.phase j = .running p := by
    intro j p
    rw [phase]
    by_cases h : j = i
    · subst h
      rw [Function.update_self]
      exact ⟨fun h => absurd h (outside p), fun h => absurd h (before p)⟩
    · rw [Function.update_of_ne h]
  have use : ∀ k, InUse procs guard s' k ↔ InUse procs guard s k := by
    intro k
    simp only [InUse, running]
  constructor
  case locks => exact locks
  case nodup => rw [order]; exact inv.nodup
  case mem_order =>
    intro j
    rw [order, inv.mem_order j, phase]
    by_cases h : j = i
    · subst h
      rw [Function.update_self, finished]
    · rw [Function.update_of_ne h]
  case quiet =>
    intro j held todo at_
    rw [log]
    rcases moved_cases phase at_ with ⟨rfl, at_⟩ | ⟨h, at_⟩
    · exact quiet held todo at_
    · exact inv.quiet j held todo at_
  case frozen_cells => rw [cells]; exact inv.frozen_cells
  case frozen_serial => rw [order]; exact inv.frozen_serial
  case idle =>
    intro k free
    rw [cells, order]
    exact inv.idle k (fun h => free ((use k).mpr h))
  case covered => exact fun j p at_ => inv.covered j p ((running j p).mp at_)
  case response =>
    intro j p at_
    rw [cells, order]
    exact inv.response j p ((running j p).mp at_)
  case effect =>
    intro j p at_
    rw [cells, order]
    exact inv.effect j p ((running j p).mp at_)
  case changed =>
    intro j p at_
    rw [cells, order, log]
    exact inv.changed j p ((running j p).mp at_)
  case answered =>
    intro j r at_
    rw [order]
    apply inv.answered j r
    rw [phase] at at_
    by_cases h : j = i
    · subst h
      rwa [Function.update_self, response] at at_
    · rwa [Function.update_of_ne h] at at_

theorem SerialInv.enter {held : List L} (inv : SerialInv procs guard frozen c₀ s)
    (wf : (procs i).body.Covered guard frozen c₀ (procs i).locks)
    (here : s.phase i = .acquiring held [])
    (locks : LockInv procs
      { s with phase := Function.update s.phase i (.running (procs i).body) }) :
    SerialInv procs guard frozen c₀
      { s with phase := Function.update s.phase i (.running (procs i).body) } := by
  have all : held = (procs i).locks := by simpa using inv.locks.acquiring i held [] here
  -- nobody else can be using the cells under the mutexes just taken
  have same : ∀ k, guard k ∈ (procs i).locks → s.cells k = serialCells procs c₀ s.order k := by
    intro k mine
    apply inv.idle
    rintro ⟨j, q, there, theirs⟩
    have different : j ≠ i := by
      rintro rfl
      rw [here] at there
      cases there
    exact inv.other_guard (by rw [here]; exact all) there different theirs mine
  have agree := exec_agree wf inv.frozen_cells inv.frozen_serial same
  constructor
  case locks => exact locks
  case nodup => exact inv.nodup
  case mem_order =>
    intro j
    rw [inv.mem_order j]
    by_cases h : j = i
    · subst h
      simp [here, Phase.finished]
    · simp [Function.update_of_ne h]
  case quiet =>
    intro j held' todo at_
    by_cases h : j = i
    · subst h
      exact inv.quiet j held [] here
    · simp only [Function.update_of_ne h] at at_
      exact inv.quiet j held' todo at_
  case frozen_cells => exact inv.frozen_cells
  case frozen_serial => exact inv.frozen_serial
  case idle =>
    intro k free
    apply inv.idle k
    rintro ⟨j, q, there, theirs⟩
    have different : j ≠ i := by
      rintro rfl
      rw [here] at there
      cases there
    exact free ⟨j, q, by simpa [Function.update_of_ne different] using there, theirs⟩
  case covered =>
    intro j p at_
    rcases moved_cases rfl at_ with ⟨rfl, ⟨⟩⟩ | ⟨h, at_⟩
    · exact wf
    · exact inv.covered j p at_
  case response =>
    intro j p at_
    rcases moved_cases rfl at_ with ⟨rfl, ⟨⟩⟩ | ⟨h, at_⟩
    · exact agree.1
    · exact inv.response j p at_
  case effect =>
    intro j p at_
    rcases moved_cases rfl at_ with ⟨rfl, ⟨⟩⟩ | ⟨h, at_⟩
    · exact agree.2
    · exact inv.effect j p at_
  case changed =>
    intro j p at_ k mine P first kept
    by_cases h : j = i
    · subst h
      simpa only [same k mine] using first
    · simp only [Function.update_of_ne h] at at_
      exact inv.changed j p at_ k mine P first kept
  case answered =>
    intro j r at_
    by_cases h : j = i
    · subst h
      simp [Phase.response?] at at_
    · simp only [Function.update_of_ne h] at at_
      exact inv.answered j r at_

theorem SerialInv.access {next : C → Prog K C R}
    (inv : SerialInv procs guard frozen c₀ s) (here : s.phase i = .running (.access k upd next))
    (cells : s'.cells = Function.update s.cells k (upd (s.cells k)))
    (phase : s'.phase = Function.update s.phase i (.running (next (s.cells k))))
    (log : s'.log = Function.update s.log i (s.log i ++ [⟨k, s.cells k, upd (s.cells k)⟩]))
    (order : s'.order = s.order) (locks : LockInv procs s') :
    SerialInv procs guard frozen c₀ s' := by
  obtain ⟨keeps, rest⟩ := inv.covered i _ here
  have frozen_cells : ∀ m, frozen m → s'.cells m = c₀ m := by
    rw [cells]
    exact frozen_update keeps inv.frozen_cells
  have covered_next : (next (s.cells k)).Covered guard frozen c₀ (procs i).locks := by
    obtain ⟨_, later⟩ | ⟨frozen_k, later⟩ := rest
    · exact later _
    · rwa [← inv.frozen_cells k frozen_k] at later
  have frame : ∀ m, guard m ∉ (procs i).locks → s'.cells m = s.cells m := by
    intro m other
    rw [cells]
    exact inv.access_frame here other
  have other : ∀ j q m, s.phase j = .running q → j ≠ i → guard m ∈ (procs j).locks →
      s'.cells m = s.cells m := by
    intro j q m there different theirs
    exact frame m (inv.other_guard (by rw [here]; rfl) there different theirs)
  constructor
  case locks => exact locks
  case nodup => rw [order]; exact inv.nodup
  case mem_order =>
    intro j
    rw [order, inv.mem_order j, phase]
    by_cases h : j = i
    · subst h
      simp [here, Phase.finished]
    · rw [Function.update_of_ne h]
  case quiet =>
    intro j held todo at_
    rw [log]
    rcases moved_cases phase at_ with ⟨rfl, ⟨⟩⟩ | ⟨h, at_⟩
    rw [Function.update_of_ne h]
    exact inv.quiet j held todo at_
  case frozen_cells => exact frozen_cells
  case frozen_serial => rw [order]; exact inv.frozen_serial
  case idle =>
    intro m free
    have not_mine : guard m ∉ (procs i).locks :=
      fun mine => free ⟨i, _, by rw [phase, Function.update_self], mine⟩
    rw [frame m not_mine, order]
    apply inv.idle m
    rintro ⟨j, q, there, theirs⟩
    have different : j ≠ i := fun h => not_mine (h ▸ theirs)
    exact free ⟨j, q, by rw [phase, Function.update_of_ne different]; exact there, theirs⟩
  case covered =>
    intro j p at_
    rcases moved_cases phase at_ with ⟨rfl, ⟨⟩⟩ | ⟨h, at_⟩
    · exact covered_next
    · exact inv.covered j p at_
  case response =>
    intro j p at_
    rw [order]
    rcases moved_cases phase at_ with ⟨rfl, ⟨⟩⟩ | ⟨h, at_⟩
    · rw [cells]
      exact inv.response j _ here
    · rw [← inv.response j p at_]
      exact (exec_agree (inv.covered j p at_) frozen_cells inv.frozen_cells
        (fun m theirs => other j p m at_ h theirs)).1
  case effect =>
    intro j p at_ m theirs
    rw [order]
    rcases moved_cases phase at_ with ⟨rfl, ⟨⟩⟩ | ⟨h, at_⟩
    · rw [cells]
      exact inv.effect j _ here m theirs
    · rw [← inv.effect j p at_ m theirs]
      exact (exec_agree (inv.covered j p at_) frozen_cells inv.frozen_cells
        (fun m theirs => other j p m at_ h theirs)).2 m theirs
  case changed =>
    intro j p at_ m theirs P first kept
    rw [phase] at at_
    rw [order] at first
    rw [log] at kept
    by_cases h : j = i
    · subst h
      rw [Function.update_self] at kept
      have was : P (s.cells m) := inv.changed j _ here m theirs P first
        (fun a mem => kept a (List.mem_append_left _ mem))
      rw [cells]
      by_cases hm : m = k
      · subst hm
        rw [Function.update_self]
        exact kept ⟨m, s.cells m, upd (s.cells m)⟩ (by simp) rfl was
      · rwa [Function.update_of_ne hm]
    · rw [Function.update_of_ne h] at at_ kept
      rw [other j p m at_ h theirs]
      exact inv.changed j p at_ m theirs P first kept
  case answered =>
    intro j r at_
    rw [phase] at at_
    rw [order]
    by_cases h : j = i
    · subst h
      rw [Function.update_self] at at_
      cases at_
    · rw [Function.update_of_ne h] at at_
      exact inv.answered j r at_

theorem SerialInv.finish {r : R} (inv : SerialInv procs guard frozen c₀ s)
    (wf : ∀ i, (procs i).body.Covered guard frozen c₀ (procs i).locks)
    (here : s.phase i = .running (.ret r)) (cells : s'.cells = s.cells)
    (phase : s'.phase = Function.update s.phase i (.releasing r (procs i).locks))
    (log : s'.log = s.log) (order : s'.order = s.order ++ [i]) (locks : LockInv procs s') :
    SerialInv procs guard frozen c₀ s' := by
  have fresh : i ∉ s.order := by simp [inv.mem_order i, here, Phase.finished]
  have serial : serialCells procs c₀ s'.order =
      ((procs i).body.exec (serialCells procs c₀ s.order)).2 := by
    rw [order, serialCells_concat]
  have frozen_serial : ∀ m, frozen m → serialCells procs c₀ s'.order m = c₀ m := by
    rw [serial]
    exact exec_frozen (wf i) inv.frozen_serial
  have frame : ∀ m, guard m ∉ (procs i).locks →
      serialCells procs c₀ s'.order m = serialCells procs c₀ s.order m := by
    intro m other
    rw [serial]
    exact exec_frame (wf i) inv.frozen_serial other
  have other : ∀ j q m, s.phase j = .running q → j ≠ i → guard m ∈ (procs j).locks →
      serialCells procs c₀ s'.order m = serialCells procs c₀ s.order m := by
    intro j q m there different theirs
    exact frame m (inv.other_guard (by rw [here]; rfl) there different theirs)
  have agree : ∀ j q, s.phase j = .running q → j ≠ i → _ :=
    fun j q there different => exec_agree (wf j) frozen_serial inv.frozen_serial
      (fun m theirs => other j q m there different theirs)
  constructor
  case locks => exact locks
  case nodup =>
    rw [order]
    exact List.nodup_append.mpr ⟨inv.nodup, List.nodup_singleton i, by
      intro a mem b mem_b
      rw [List.mem_singleton.mp mem_b]
      exact fun h => fresh (h ▸ mem)⟩
  case mem_order =>
    intro j
    rw [order, List.mem_append, inv.mem_order j, phase]
    by_cases h : j = i
    · subst h
      simp [Phase.finished]
    · simp [h]
  case quiet =>
    intro j held todo at_
    rw [log]
    rcases moved_cases phase at_ with ⟨rfl, ⟨⟩⟩ | ⟨h, at_⟩
    exact inv.quiet j held todo at_
  case frozen_cells => rw [cells]; exact inv.frozen_cells
  case frozen_serial => exact frozen_serial
  case idle =>
    intro m free
    rw [cells]
    by_cases mine : guard m ∈ (procs i).locks
    · rw [serial]
      exact inv.effect i _ here m mine
    · rw [frame m mine]
      apply inv.idle m
      rintro ⟨j, q, there, theirs⟩
      have different : j ≠ i := fun h => mine (h ▸ theirs)
      exact free ⟨j, q, by rw [phase, Function.update_of_ne different]; exact there, theirs⟩
  case covered =>
    intro j p at_
    rcases moved_cases phase at_ with ⟨rfl, ⟨⟩⟩ | ⟨h, at_⟩
    exact inv.covered j p at_
  case response =>
    intro j p at_
    rcases moved_cases phase at_ with ⟨rfl, ⟨⟩⟩ | ⟨h, at_⟩
    rw [cells, (agree j p at_ h).1]
    exact inv.response j p at_
  case effect =>
    intro j p at_ m theirs
    rcases moved_cases phase at_ with ⟨rfl, ⟨⟩⟩ | ⟨h, at_⟩
    rw [cells, (agree j p at_ h).2 m theirs]
    exact inv.effect j p at_ m theirs
  case changed =>
    intro j p at_ m theirs P first kept
    rw [log] at kept
    rw [cells]
    rcases moved_cases phase at_ with ⟨rfl, ⟨⟩⟩ | ⟨h, at_⟩
    rw [other j p m at_ h theirs] at first
    exact inv.changed j p at_ m theirs P first kept
  case answered =>
    intro j r' at_
    rw [phase] at at_
    rw [order]
    by_cases h : j = i
    · subst h
      rw [Function.update_self] at at_
      cases at_
      rw [serialResponse_concat_self fresh]
      exact inv.response j _ here
    · rw [Function.update_of_ne h] at at_
      have mem : j ∈ s.order := by
        rw [inv.mem_order j]
        cases there : s.phase j with
        | releasing _ _ => rfl
        | done _ => rfl
        | acquiring _ _ => rw [there] at at_; cases at_
        | running _ => rw [there] at at_; cases at_
      rw [serialResponse_concat_of_mem mem]
      exact inv.answered j r' at_

section Runs

variable [DecidableEq L]

theorem SerialInv.move (inv : SerialInv procs guard frozen c₀ s)
    (nodup : ∀ i, (procs i).locks.Nodup)
    (wf : ∀ i, (procs i).body.Covered guard frozen c₀ (procs i).locks)
    (move : Move procs s i s') : SerialInv procs guard frozen c₀ s' := by
  have locks := inv.locks.move nodup move
  cases move with
  | stay => exact inv
  | acquire held l todo here free =>
    exact inv.of_phase locks rfl rfl rfl rfl (by simp) (by simp [here])
      (by simp [here, Phase.finished]) (by simp [here, Phase.response?])
      (fun _ _ _ => inv.quiet i held _ here)
  | enter held here => exact inv.enter (wf i) here locks
  | access k upd next here => exact inv.access here rfl rfl rfl rfl locks
  | finish r here => exact inv.finish wf here rfl rfl rfl rfl locks
  | release r l held here =>
    exact inv.of_phase locks rfl rfl rfl rfl (by simp) (by simp [here])
      (by simp [here, Phase.finished]) (by simp [here, Phase.response?]) (by simp)
  | leave r here =>
    exact inv.of_phase locks rfl rfl rfl rfl (by simp) (by simp [here])
      (by simp [here, Phase.finished]) (by simp [here, Phase.response?]) (by simp)

/-- The invariant holds after every schedule. -/
theorem serialInv_run (nodup : ∀ i, (procs i).locks.Nodup)
    (wf : ∀ i, (procs i).body.Covered guard frozen c₀ (procs i).locks) (schedule : List ι) :
    SerialInv procs guard frozen c₀ (run procs c₀ schedule) :=
  run_induct serialInv_start (fun _ _ _ inv move => inv.move nodup wf move) schedule

end Runs

/-- When every program has ended the cells are those of the serial order. -/
theorem SerialInv.cells_eq (inv : SerialInv procs guard frozen c₀ s)
    (ended : ∀ i, (s.phase i).finished = true) : s.cells = serialCells procs c₀ s.order := by
  funext k
  apply inv.idle k
  rintro ⟨i, p, here, _⟩
  have := ended i
  rw [here] at this
  cases this

/-- Every answer is the one of the serial order. -/
theorem SerialInv.responses_eq (inv : SerialInv procs guard frozen c₀ s)
    (ended : ∀ i, (s.phase i).finished = true) (i : ι) :
    (s.phase i).response? = some (serialResponse procs c₀ s.order i) := by
  have done := ended i
  cases here : s.phase i with
  | acquiring held todo => simp [here, Phase.finished] at done
  | running p => simp [here, Phase.finished] at done
  | releasing r held => exact congrArg some (inv.answered i r (by rw [here]; rfl))
  | done r => exact congrArg some (inv.answered i r (by rw [here]; rfl))

/-- Cells and answers are those of the processes run one after another in some order. -/
def Serial (procs : ι → Process L K C R) (c₀ : K → C) (s : Sys ι L K C R) : Prop :=
  ∃ order : List ι, order.Nodup ∧ (∀ i, i ∈ order) ∧ s.cells = serialCells procs c₀ order ∧
    ∀ i, (s.phase i).response? = some (serialResponse procs c₀ order i)

/-- Once every program has ended, the processes have run as if one after another. -/
theorem SerialInv.serial (inv : SerialInv procs guard frozen c₀ s)
    (ended : ∀ i, (s.phase i).finished = true) : Serial procs c₀ s :=
  ⟨s.order, inv.nodup, fun i => (inv.mem_order i).mpr (ended i), inv.cells_eq ended,
    inv.responses_eq ended⟩

end Openstack.Locking

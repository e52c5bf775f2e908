import Mathlib.Data.List.Sort
import Std.Data.ExtTreeMap

/-!
Comparators as the arguments of a sort: what `sort_by` asks of its closure, and how much of it survives
when keys of different kinds, which no order relates, are reported as equal.
-/
namespace Openstack.Comparator

variable {α κ : Type}

/-- The comparator is a total preorder on the elements of the list. -/
def TotalPreorderOn (cmp : α → α → Ordering) (rows : List α) : Prop :=
  Std.TransCmp fun a b : {x // x ∈ rows} => cmp a b

theorem totalPreorderOn_iff {cmp : α → α → Ordering} {rows : List α} :
    TotalPreorderOn cmp rows ↔ (∀ a ∈ rows, ∀ b ∈ rows, cmp a b = (cmp b a).swap) ∧
      ∀ a ∈ rows, ∀ b ∈ rows, ∀ c ∈ rows,
        (cmp a b).isLE = true → (cmp b c).isLE = true → (cmp a c).isLE = true := by
  constructor
  · intro order
    exact ⟨fun a ha b hb => order.eq_swap (a := ⟨a, ha⟩) (b := ⟨b, hb⟩),
      fun a ha b hb c hc => order.isLE_trans (a := ⟨a, ha⟩) (b := ⟨b, hb⟩) (c := ⟨c, hc⟩)⟩
  · rintro ⟨swaps, transitive⟩
    exact { eq_swap {a b} := swaps a a.2 b b.2
            isLE_trans {a b c} := transitive a a.2 b b.2 c c.2 }

theorem TotalPreorderOn.equal_trans {cmp : α → α → Ordering} {rows : List α}
    (order : TotalPreorderOn cmp rows) {a b c : α} (ha : a ∈ rows) (hb : b ∈ rows) (hc : c ∈ rows)
    (first : cmp a b = .eq) (second : cmp b c = .eq) : cmp a c = .eq := by
  have order' : Std.TransCmp fun a b : {x // x ∈ rows} => cmp a b := order
  exact order'.eq_trans (a := ⟨a, ha⟩) (b := ⟨b, hb⟩) (c := ⟨c, hc⟩) first second

/-- Turned around, a comparator is as good as before. -/
theorem totalPreorderOn_swap {cmp : α → α → Ordering} {rows : List α} :
    TotalPreorderOn (fun a b => (cmp a b).swap) rows ↔ TotalPreorderOn cmp rows := by
  have turn : ∀ cmp : α → α → Ordering, TotalPreorderOn cmp rows →
      TotalPreorderOn (fun a b => (cmp a b).swap) rows := by
    intro cmp order
    obtain ⟨swaps, transitive⟩ := totalPreorderOn_iff.mp order
    refine totalPreorderOn_iff.mpr ⟨fun a ha b hb => congrArg _ (swaps a ha b hb), ?_⟩
    intro a ha b hb c hc first second
    rw [← swaps b hb a ha] at first
    rw [← swaps c hc b hb] at second
    rw [← swaps c hc a ha]
    exact transitive c hc b hb a ha second first
  refine ⟨fun order => ?_, turn cmp⟩
  have back := turn _ order
  simpa only [Ordering.swap_swap] using back

/-- Rows sorted by a comparator that compares keys by an order come out in the order of their keys. -/
theorem pairwise_insertionSort {cmp : κ → κ → Ordering} (order : Std.TransCmp cmp) (key : α → κ)
    (rowCmp : α → α → Ordering) (rows : List α)
    (same : ∀ a ∈ rows, ∀ b ∈ rows, rowCmp a b = cmp (key a) (key b)) :
    (rows.insertionSort fun a b => rowCmp a b ≠ .gt).Pairwise fun a b => cmp (key a) (key b) ≠ .gt := by
  have total : Std.Total fun k l => cmp k l ≠ .gt := by
    refine ⟨fun k l => ?_⟩
    rw [order.eq_swap (a := l)]
    cases cmp k l <;> simp
  have trans : IsTrans κ fun k l => cmp k l ≠ .gt := by
    refine ⟨fun k l m first second => ?_⟩
    exact Ordering.isLE_iff_ne_gt.mp
      (order.isLE_trans (Ordering.isLE_iff_ne_gt.mpr first) (Ordering.isLE_iff_ne_gt.mpr second))
  have mapped := List.map_insertionSort (fun a b => rowCmp a b ≠ .gt) (fun k l => cmp k l ≠ .gt) key rows
    fun a ha b hb => by rw [same a ha b hb]
  rw [← List.pairwise_map (f := key) (R := fun k l => cmp k l ≠ .gt), mapped]
  exact List.pairwise_insertionSort _ _

/-- A comparison that orders the keys of each kind, and has no answer for keys of two kinds. -/
structure ByKind (cmp : κ → κ → Option Ordering) : Prop where
  refl : ∀ k, cmp k k = some .eq
  swaps : ∀ k l, cmp l k = (cmp k l).map Ordering.swap
  transitive : ∀ {k l m o p}, cmp k l = some o → cmp l m = some p → o.isLE = true → p.isLE = true →
    ∃ q, cmp k m = some q ∧ q.isLE = true
  kind : ∀ {k l m}, (cmp k l).isSome = true → (cmp l m).isSome = true → (cmp k m).isSome = true

/-- `Option::partial_cmp`: a missing key comes first. -/
@[grind] def missingFirst (cmp : κ → κ → Option Ordering) : Option κ → Option κ → Option Ordering
  | none, none => some .eq
  | none, some _ => some .lt
  | some _, none => some .gt
  | some k, some l => cmp k l

/-- Keys without an order between them count as equal. -/
def collapse (cmp : κ → κ → Option Ordering) (key : α → Option κ) (a b : α) : Ordering :=
  (missingFirst cmp (key a) (key b)).getD .eq

/-- All keys of the rows are of one kind. -/
def OneKind (cmp : κ → κ → Option Ordering) (key : α → Option κ) (rows : List α) : Prop :=
  ∀ a ∈ rows, ∀ b ∈ rows, ∀ k l, key a = some k → key b = some l → (cmp k l).isSome = true

/-- All keys of the rows are equal to those of their kind. -/
def AllEqual (cmp : κ → κ → Option Ordering) (key : α → Option κ) (rows : List α) : Prop :=
  ∀ a ∈ rows, ∀ b ∈ rows, ∀ k l, key a = some k → key b = some l →
    ∀ o, cmp k l = some o → o = .eq

section Collapse

variable {cmp : κ → κ → Option Ordering} {key : α → Option κ} {rows : List α} {a b : α}

theorem collapse_swap (kinds : ByKind cmp) (a b : α) :
    collapse cmp key a b = (collapse cmp key b a).swap := by
  unfold collapse
  cases ka : key a with
  | none => cases kb : key b <;> rfl
  | some k =>
    cases kb : key b with
    | none => rfl
    | some l =>
      simp only [missingFirst]
      rw [kinds.swaps l k]
      cases cmp l k <;> rfl

/-- Two keys that are not comparable make every two keys equal, or break transitivity. -/
theorem TotalPreorderOn.oneKind_or_allEqual (kinds : ByKind cmp)
    (order : TotalPreorderOn (collapse cmp key) rows) :
    OneKind cmp key rows ∨ AllEqual cmp key rows := by
  rw [or_iff_not_imp_left]
  intro mixed a ha b hb k l ka kb o compared
  simp only [OneKind, not_forall, Option.not_isSome_iff_eq_none] at mixed
  obtain ⟨x, hx, y, hy, m, n, kx, ky, incomparable⟩ := mixed
  -- one of the two is of another kind than `k`, and thereby than `l`
  have other : ∃ z ∈ rows, ∃ r, key z = some r ∧ cmp k r = none := by
    cases first : cmp k m with
    | none => exact ⟨x, hx, m, kx, first⟩
    | some p =>
      refine ⟨y, hy, n, ky, ?_⟩
      by_contra comparable
      have back : (cmp m k).isSome = true := by rw [kinds.swaps k m, first]; rfl
      have both := kinds.kind back (Option.isSome_iff_ne_none.mpr comparable)
      rw [incomparable] at both
      cases both
  obtain ⟨z, hz, r, kz, apart⟩ := other
  have apart' : cmp r l = none := by
    by_contra comparable
    have compared' : (cmp l r).isSome = true := by
      rw [kinds.swaps r l]
      cases found : cmp r l with
      | none => exact absurd found comparable
      | some p => rfl
    have both := kinds.kind (by rw [compared]; rfl) compared'
    rw [apart] at both
    cases both
  have first : collapse cmp key a z = .eq := by simp [collapse, ka, kz, missingFirst, apart]
  have second : collapse cmp key z b = .eq := by simp [collapse, kb, kz, missingFirst, apart']
  simpa [collapse, ka, kb, missingFirst, compared] using order.equal_trans ha hz hb first second

theorem collapse_trans_of_oneKind (kinds : ByKind cmp) (one : OneKind cmp key rows) {c : α}
    (ha : a ∈ rows) (hb : b ∈ rows) (hc : c ∈ rows) (first : (collapse cmp key a b).isLE = true)
    (second : (collapse cmp key b c).isLE = true) : (collapse cmp key a c).isLE = true := by
  unfold collapse at *
  cases ka : key a with
  | none => cases kc : key c <;> rfl
  | some k =>
    cases kb : key b with
    | none => rw [ka, kb] at first; cases first
    | some l =>
      cases kc : key c with
      | none => rw [kb, kc] at second; cases second
      | some m =>
        obtain ⟨o, compared⟩ := Option.isSome_iff_exists.mp (one a ha b hb k l ka kb)
        obtain ⟨p, compared'⟩ := Option.isSome_iff_exists.mp (one b hb c hc l m kb kc)
        rw [ka, kb, missingFirst, compared, Option.getD_some] at first
        rw [kb, kc, missingFirst, compared', Option.getD_some] at second
        obtain ⟨q, compared'', le⟩ := kinds.transitive compared compared' first second
        rwa [missingFirst, compared'', Option.getD_some]

theorem collapse_trans_of_allEqual (equal : AllEqual cmp key rows) {c : α} (ha : a ∈ rows)
    (hc : c ∈ rows) (first : (collapse cmp key a b).isLE = true)
    (second : (collapse cmp key b c).isLE = true) : (collapse cmp key a c).isLE = true := by
  unfold collapse at *
  cases ka : key a with
  | none => cases kc : key c <;> rfl
  | some k =>
    cases kc : key c with
    | none =>
      cases kb : key b with
      | none => rw [ka, kb] at first; cases first
      | some l => rw [kb, kc] at second; cases second
    | some m =>
      cases compared : cmp k m with
      | none => rw [missingFirst, compared]; rfl
      | some o => rw [missingFirst, compared, equal a ha c hc k m ka kc o compared]; rfl

/-- The rows are in a total preorder exactly when their keys are of one kind, or all equal. -/
theorem totalPreorderOn_collapse_iff (kinds : ByKind cmp) :
    TotalPreorderOn (collapse cmp key) rows ↔ OneKind cmp key rows ∨ AllEqual cmp key rows := by
  refine ⟨fun order => order.oneKind_or_allEqual kinds, fun sound => ?_⟩
  refine totalPreorderOn_iff.mpr ⟨fun a _ b _ => collapse_swap kinds a b, ?_⟩
  intro a ha b hb c hc first second
  rcases sound with one | equal
  · exact collapse_trans_of_oneKind kinds one ha hb hc first second
  · exact collapse_trans_of_allEqual equal ha hc first second

end Collapse

end Openstack.Comparator

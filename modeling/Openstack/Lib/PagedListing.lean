import Mathlib.Data.List.Sort
import Mathlib.Data.List.Perm.Subperm
import Mathlib.Order.Basic

/-!
Listings in pages. A strictly increasing list of entries, some of them *groups*,
is read `m` entries at a time: a page looks at the first `w > m` entries, keeps
the groups first and gives the rest of its budget to the other entries, and the
next page starts after the last other entry kept, or after the last group when
none was. Some entries may be unusable as a cursor.

Such a reading lists every entry exactly once if and only if every page boundary
is *aligned*: the page holds groups only, or nothing but other entries is in
sight from its last place on.
-/
namespace Openstack.PagedListing

variable {α : Type}
variable {R : List α} {x : α} {l : List α} {fuel : Nat} {pages : List (List α)}

/-! ## Pages -/

variable (isGroup stuck : α → Bool) (m w : Nat)

def groups (R : List α) : List α := ((R.take w).filter isGroup).take m

def others (R : List α) : List α :=
  ((R.take w).filter (!isGroup ·)).take (m - (groups isGroup m w R).length)

def entries (R : List α) : List α := groups isGroup m w R ++ others isGroup m w R

def truncated (R : List α) : Bool := decide (m < (R.take w).length)

/-- The entry the next page starts after. -/
def cursor (R : List α) : Option α :=
  (others isGroup m w R).getLast?.or (groups isGroup m w R).getLast?

/-- The first `m` entries can be split off as a page. -/
def Aligned (R : List α) : Prop :=
  (∀ o ∈ R.take m, isGroup o = true) ∨
    ((∀ o ∈ (R.take w).drop (m - 1), isGroup o = false) ∧
      ∀ o, R[m - 1]? = some o → stuck o = false)

variable {isGroup stuck : α → Bool} {m w : Nat}

theorem truncated_iff (hw : m < w) (R : List α) : truncated m w R = true ↔ m < R.length := by
  simp only [truncated, List.length_take, decide_eq_true_eq]
  omega

theorem groups_subset (hx : x ∈ groups isGroup m w R) :
    x ∈ R.take w ∧ isGroup x = true :=
  List.mem_filter.mp (List.mem_of_mem_take hx)

theorem others_subset (hx : x ∈ others isGroup m w R) :
    x ∈ R.take w ∧ isGroup x = false := by
  have mem := List.mem_filter.mp (List.mem_of_mem_take hx)
  exact ⟨mem.1, by simpa using mem.2⟩

theorem entries_subset (hx : x ∈ entries isGroup m w R) : x ∈ R := by
  rcases List.mem_append.mp hx with g | o
  · exact List.mem_of_mem_take (groups_subset g).1
  · exact List.mem_of_mem_take (others_subset o).1

theorem cursor_mem {c : α} (hc : cursor isGroup m w R = some c) :
    c ∈ entries isGroup m w R := by
  rcases Option.or_eq_some_iff.mp hc with other | ⟨_, group⟩
  · exact List.mem_append_right _ (List.mem_of_getLast? other)
  · exact List.mem_append_left _ (List.mem_of_getLast? group)

/-- A truncated page has a cursor. -/
theorem cursor_of_truncated (isGroup : α → Bool) (hm : 0 < m)
    (more : truncated m w R = true) : ∃ c, cursor isGroup m w R = some c := by
  cases hc : cursor isGroup m w R with
  | some c => exact ⟨c, rfl⟩
  | none =>
    obtain ⟨hother, hgroup⟩ := Option.or_eq_none_iff.mp hc
    have noGroups : groups isGroup m w R = [] := List.getLast?_eq_none_iff.mp hgroup
    have noOthers : others isGroup m w R = [] := List.getLast?_eq_none_iff.mp hother
    have counts := (List.filter_append_perm isGroup (R.take w)).length_eq
    rw [List.length_append] at counts
    have long : m < (R.take w).length := of_decide_eq_true more
    have none : ((R.take w).filter isGroup).length = 0 := by
      have := congrArg List.length noGroups
      rw [groups, List.length_take, List.length_nil] at this
      omega
    have few := congrArg List.length noOthers
    rw [others, noGroups, List.length_take, List.length_nil] at few
    omega

/-! ## Aligned pages -/

theorem take_window (hw : m < w) (R : List α) :
    R.take w = R.take m ++ (R.take w).drop m := by
  have front : (R.take w).take m = R.take m := by
    rw [List.take_take, Nat.min_eq_left hw.le]
  rw [← front, List.take_append_drop]

/-- A page of groups only. -/
theorem page_of_groups (hw : m < w) (long : m < R.length) (all : ∀ o ∈ R.take m, isGroup o = true) :
    groups isGroup m w R = R.take m ∧ others isGroup m w R = [] := by
  have length : (R.take m).length = m := by
    rw [List.length_take]
    omega
  have kept : groups isGroup m w R = R.take m := by
    unfold groups
    rw [take_window hw, List.filter_append, List.filter_eq_self.mpr all, List.take_append_of_le_length
      (by omega), List.take_of_length_le (by omega)]
  refine ⟨kept, ?_⟩
  rw [others, kept, length, Nat.sub_self, List.take_zero]

/-- A page whose last place and everything after it in sight is no group. -/
theorem page_of_others (hm : 0 < m) (hw : m < w) (long : m < R.length)
    (all : ∀ o ∈ (R.take w).drop (m - 1), isGroup o = false) {c : α} (hc : R[m - 1]? = some c) :
    groups isGroup m w R = (R.take (m - 1)).filter isGroup ∧
      others isGroup m w R = (R.take (m - 1)).filter (!isGroup ·) ++ [c] := by
  have window : R.take w = R.take (m - 1) ++ (R.take w).drop (m - 1) :=
    take_window (by omega) R
  have noGroups : ((R.take w).drop (m - 1)).filter isGroup = [] := by
    rw [List.filter_eq_nil_iff]
    intro o ho
    simp [all o ho]
  have allOthers : ((R.take w).drop (m - 1)).filter (!isGroup ·) = (R.take w).drop (m - 1) := by
    rw [List.filter_eq_self]
    intro o ho
    simp [all o ho]
  have counts : ((R.take (m - 1)).filter isGroup).length +
      ((R.take (m - 1)).filter (!isGroup ·)).length = m - 1 := by
    have perm := (List.filter_append_perm isGroup (R.take (m - 1))).length_eq
    rw [List.length_append, List.length_take] at perm
    omega
  have kept : groups isGroup m w R = (R.take (m - 1)).filter isGroup := by
    unfold groups
    rw [window, List.filter_append, noGroups, List.append_nil, List.take_of_length_le (by omega)]
  refine ⟨kept, ?_⟩
  have first : ((R.take w).drop (m - 1)).take 1 = [c] := by
    have at_start : ((R.take w).drop (m - 1))[0]? = some c := by
      rw [List.getElem?_drop, List.getElem?_take, if_pos (by omega)]
      exact hc
    cases tail : (R.take w).drop (m - 1) with
    | nil => simp [tail] at at_start
    | cons x rest => simpa [tail] using at_start
  unfold others
  rw [kept, window, List.filter_append, allOthers, List.take_append]
  have budget : m - ((R.take (m - 1)).filter isGroup).length =
      ((R.take (m - 1)).filter (!isGroup ·)).length + 1 := by omega
  rw [budget, List.take_of_length_le (by omega), Nat.add_sub_cancel_left, first]

/-- An aligned page splits the first `m` entries off. -/
theorem aligned_page (hm : 0 < m) (hw : m < w) (usable : ∀ o, isGroup o = true → stuck o = false)
     (long : m < R.length) (aligned : Aligned isGroup stuck m w R) :
    (entries isGroup m w R).Perm (R.take m) ∧
      ∃ c, cursor isGroup m w R = some c ∧ R[m - 1]? = some c ∧ stuck c = false := by
  have bound : m - 1 < R.length := by omega
  have hc : R[m - 1]? = some R[m - 1] := List.getElem?_eq_getElem bound
  have whole : R.take m = R.take (m - 1) ++ [R[m - 1]] := by
    conv_lhs => rw [show m = (m - 1) + 1 by omega]
    rw [List.take_add_one, hc, Option.toList_some]
  rcases aligned with all | ⟨all, live⟩
  · obtain ⟨hg, ho⟩ := page_of_groups hw long all
    refine ⟨by rw [entries, hg, ho, List.append_nil], R[m - 1], ?_, hc, ?_⟩
    · rw [cursor, ho, hg, whole, List.getLast?_concat]
      rfl
    · exact usable _ (all _ (whole ▸ List.mem_append_right _ (List.mem_singleton_self _)))
  · obtain ⟨hg, ho⟩ := page_of_others hm hw long all hc
    refine ⟨?_, R[m - 1], ?_, hc, live _ hc⟩
    · rw [entries, hg, ho, ← List.append_assoc, whole]
      exact (List.filter_append_perm isGroup (R.take (m - 1))).append_right _
    · rw [cursor, ho]
      simp

section Order

variable [LinearOrder α]

/-! ## Strictly increasing lists -/

/-- An initial segment is closed downwards. -/
theorem mem_take_of_le (sorted : l.Pairwise (· < ·)) {n : Nat} {x y : α}
    (hy : y ∈ l.take n) (hx : x ∈ l) (le : x ≤ y) : x ∈ l.take n := by
  rw [← List.take_append_drop n l] at sorted hx
  rcases List.mem_append.mp hx with front | back
  · exact front
  · have lt := (List.pairwise_append.mp sorted).2.2 y hy x back
    exact absurd le (not_le.mpr lt)

theorem filter_lt_getElem (sorted : l.Pairwise (· < ·)) {i : Nat}
    (hx : l[i]? = some x) : l.filter (· < x) = l.take i := by
  obtain ⟨bound, rfl⟩ := List.getElem?_eq_some_iff.mp hx
  have split : l = l.take i ++ l[i] :: l.drop (i + 1) := by
    rw [List.getElem_cons_drop, List.take_append_drop]
  have parts := List.pairwise_append.mp (split ▸ sorted)
  have before : (l.take i).filter (· < l[i]) = l.take i := by
    rw [List.filter_eq_self]
    intro y hy
    simpa using parts.2.2 y hy l[i] List.mem_cons_self
  have behind : (l.drop (i + 1)).filter (· < l[i]) = [] := by
    rw [List.filter_eq_nil_iff]
    intro y hy
    have lt := (List.pairwise_cons.mp parts.2.1).1 y hy
    simpa using lt.le
  calc l.filter (· < l[i]) = (l.take i ++ l[i] :: l.drop (i + 1)).filter (· < l[i]) := by
        rw [← split]
    _ = l.take i := by
        rw [List.filter_append, before, List.filter_cons, if_neg (by simp), behind, List.append_nil]

theorem filter_gt_getElem (sorted : l.Pairwise (· < ·)) {i : Nat}
    (hx : l[i]? = some x) : l.filter (x < ·) = l.drop (i + 1) := by
  obtain ⟨bound, rfl⟩ := List.getElem?_eq_some_iff.mp hx
  have split : l = l.take i ++ l[i] :: l.drop (i + 1) := by
    rw [List.getElem_cons_drop, List.take_append_drop]
  have parts := List.pairwise_append.mp (split ▸ sorted)
  have before : (l.take i).filter (l[i] < ·) = [] := by
    rw [List.filter_eq_nil_iff]
    intro y hy
    have lt := parts.2.2 y hy l[i] List.mem_cons_self
    simpa using lt.le
  have behind : (l.drop (i + 1)).filter (l[i] < ·) = l.drop (i + 1) := by
    rw [List.filter_eq_self]
    intro y hy
    simpa using (List.pairwise_cons.mp parts.2.1).1 y hy
  calc l.filter (l[i] < ·) = (l.take i ++ l[i] :: l.drop (i + 1)).filter (l[i] < ·) := by
        rw [← split]
    _ = l.drop (i + 1) := by
        rw [List.filter_append, before, List.filter_cons, if_neg (by simp), behind, List.nil_append]

theorem le_getLast (sorted : l.Pairwise (· < ·)) (nonempty : l ≠ [])
    (hx : x ∈ l) : x ≤ l.getLast nonempty := by
  rw [← List.dropLast_append_getLast nonempty] at sorted hx
  rcases List.mem_append.mp hx with front | last
  · exact ((List.pairwise_append.mp sorted).2.2 x front _ (List.mem_singleton_self _)).le
  · exact (List.mem_singleton.mp last).le

/-! ## Readings -/

variable (isGroup stuck m w)

/-- Read page after page, at most `fuel` pages; `none` when the reading has not
ended by then or cannot go on. -/
def follow : Nat → List α → Option (List (List α))
  | 0, _ => none
  | fuel + 1, R =>
    if truncated m w R then
      match cursor isGroup m w R with
      | none => none
      | some c =>
        if stuck c then none
        else (follow fuel (R.filter (c < ·))).map (entries isGroup m w R :: ·)
    else some [entries isGroup m w R]

/-- The reading ends and its pages hold every entry exactly once. -/
def Complete (R : List α) : Prop :=
  ∃ fuel pages, follow isGroup stuck m w fuel R = some pages ∧ pages.flatten.Perm R

variable {isGroup stuck m w}

/-- A reading lists nothing but entries of its list. -/
theorem follow_subset (hf : follow isGroup stuck m w fuel R = some pages) (hx : x ∈ pages.flatten) :
    x ∈ R := by
  induction fuel generalizing R pages with
  | zero => cases hf
  | succ fuel ih =>
    unfold follow at hf
    split at hf
    · split at hf
      · cases hf
      · next c _ =>
        split at hf
        · cases hf
        · obtain ⟨rest, hrest, rfl⟩ := Option.map_eq_some_iff.mp hf
          rcases List.mem_append.mp (List.flatten_cons ▸ hx) with page | later
          · exact entries_subset page
          · exact List.mem_of_mem_filter (ih hrest later)
    · cases hf
      exact entries_subset (by simpa using hx)

/-! ## Misaligned pages -/

theorem groups_pairwise (sorted : R.Pairwise (· < ·)) :
    (groups isGroup m w R).Pairwise (· < ·) :=
  ((sorted.sublist (List.take_sublist w R)).filter _).sublist (List.take_sublist m _)

/-- With `m` groups in sight, another entry among the first `m` is passed over. -/
theorem passed_over (hm : 0 < m) (sorted : R.Pairwise (· < ·))
    (many : m ≤ ((R.take w).filter isGroup).length) (hx : x ∈ R.take m)
    (other : isGroup x = false) :
    x ∉ entries isGroup m w R ∧ ∃ c, cursor isGroup m w R = some c ∧ x < c := by
  have length : (groups isGroup m w R).length = m := by
    rw [groups, List.length_take]
    omega
  have none : others isGroup m w R = [] := by
    rw [others, length, Nat.sub_self, List.take_zero]
  have not_group : x ∉ groups isGroup m w R := by
    intro hg
    rw [(groups_subset hg).2] at other
    cases other
  refine ⟨by rw [entries, none, List.append_nil]; exact not_group, ?_⟩
  have nonempty : groups isGroup m w R ≠ [] := by
    intro empty
    rw [empty] at length
    simp at length
    omega
  refine ⟨(groups isGroup m w R).getLast nonempty, ?_, ?_⟩
  · rw [cursor, none, List.getLast?_eq_some_getLast nonempty]
    rfl
  · -- otherwise all `m` groups kept lie before `x`, which has fewer entries before it
    by_contra ahead
    have before : groups isGroup m w R ⊆ R.filter (· < x) := by
      intro g hg
      have le : g ≤ x := (le_getLast (groups_pairwise sorted) nonempty hg).trans (not_lt.mp ahead)
      have ne : g ≠ x := by
        intro eq
        exact not_group (eq ▸ hg)
      exact List.mem_filter.mpr ⟨List.mem_of_mem_take (groups_subset hg).1,
        by simpa using lt_of_le_of_ne le ne⟩
    obtain ⟨i, bound, hi⟩ := List.mem_take_iff_getElem.mp hx
    have at_i : R[i]? = some x := by
      rw [← hi]
      exact List.getElem?_eq_getElem _
    rw [filter_lt_getElem sorted at_i] at before
    have count := ((groups_pairwise sorted).nodup.subperm before).length_le
    rw [length, List.length_take] at count
    omega

/-- When a group after the cursor `k` was in sight of this page, the next page has
one in sight, and its first is no later. -/
theorem first_group_in_sight (sorted : R.Pairwise (· < ·)) {k q : α}
    (hk : k ∈ R.take w) (hq : q ∈ R.take w) (after : k < q) (group : isGroup q = true) :
    ∃ h, (((R.filter (k < ·)).take w).filter isGroup).head? = some h ∧ h ≤ q := by
  have restSorted : (R.filter (k < ·)).Pairwise (· < ·) := sorted.filter _
  have hqRest : q ∈ R.filter (k < ·) :=
    List.mem_filter.mpr ⟨List.mem_of_mem_take hq, by simpa using after⟩
  have ahead : ∀ x ∈ (R.filter (k < ·)).take w, q ∉ (R.filter (k < ·)).take w → x < q := by
    intro x hx hnot
    rw [← List.take_append_drop w (R.filter (k < ·))] at restSorted hqRest
    rcases List.mem_append.mp hqRest with front | back
    · exact absurd front hnot
    · exact (List.pairwise_append.mp restSorted).2.2 x hx q back
  cases list : ((R.filter (k < ·)).take w).filter isGroup with
  | cons h rest =>
    refine ⟨h, rfl, ?_⟩
    by_cases sight : q ∈ (R.filter (k < ·)).take w
    · have mem : q ∈ h :: rest := list ▸ List.mem_filter.mpr ⟨sight, group⟩
      have pairs : (h :: rest).Pairwise (· < ·) :=
        list ▸ (restSorted.sublist (List.take_sublist w _)).filter _
      rcases List.mem_cons.mp mem with eq | tail
      · exact eq.ge
      · exact ((List.pairwise_cons.mp pairs).1 q tail).le
    · have mem : h ∈ (R.filter (k < ·)).take w :=
        List.mem_of_mem_filter (list ▸ List.mem_cons_self)
      exact (ahead h mem sight).le
  | nil =>
    -- then the next page sees `w` entries between `k` and `q`, all of them in sight of this one
    exfalso
    have sight : q ∉ (R.filter (k < ·)).take w := by
      intro mem
      have : q ∈ ((R.filter (k < ·)).take w).filter isGroup := List.mem_filter.mpr ⟨mem, group⟩
      rw [list] at this
      cases this
    have full : ((R.filter (k < ·)).take w).length = w := by
      rw [List.length_take]
      refine Nat.min_eq_left ?_
      by_contra short
      rw [List.take_of_length_le (by omega)] at sight
      exact sight hqRest
    have inside : k :: (R.filter (k < ·)).take w ⊆ R.take w := by
      intro x hx
      rcases List.mem_cons.mp hx with eq | mem
      · exact eq ▸ hk
      · exact mem_take_of_le sorted hq (List.mem_of_mem_filter (List.mem_of_mem_take mem))
          (ahead x mem sight).le
    have distinct : (k :: (R.filter (k < ·)).take w).Nodup := by
      refine List.nodup_cons.mpr ⟨?_, (restSorted.sublist (List.take_sublist w _)).nodup⟩
      intro mem
      have lt := (List.mem_filter.mp (List.mem_of_mem_take mem)).2
      simp at lt
    have count := (distinct.subperm inside).length_le
    rw [List.length_cons, full, List.length_take] at count
    omega

/-- With fewer than `m` groups in sight, a group at or after the last place of
the page is listed by this page and again by the next. -/
theorem listed_again (hm : 0 < m) (hw : m < w) (sorted : R.Pairwise (· < ·))
    (long : m < R.length) (few : ((R.take w).filter isGroup).length < m) {q : α}
    (hq : q ∈ (R.take w).drop (m - 1)) (group : isGroup q = true) :
    ∃ c, cursor isGroup m w R = some c ∧
      ∃ h, h ∈ groups isGroup m w R ∧ h ∈ groups isGroup m w (R.filter (c < ·)) := by
  have windowSorted : (R.take w).Pairwise (· < ·) := sorted.sublist (List.take_sublist w R)
  have allGroups : groups isGroup m w R = (R.take w).filter isGroup :=
    List.take_of_length_le few.le
  have counts : ((R.take w).filter isGroup).length +
      ((R.take w).filter (!isGroup ·)).length = (R.take w).length := by
    rw [← List.length_append, (List.filter_append_perm isGroup (R.take w)).length_eq]
  have windowLong : m < (R.take w).length := by
    rw [List.length_take]
    omega
  -- `k` is the last other entry kept
  obtain ⟨n, hn⟩ : ∃ n, m - (groups isGroup m w R).length = n + 1 :=
    ⟨m - (groups isGroup m w R).length - 1, by rw [allGroups]; omega⟩
  have bound : n < ((R.take w).filter (!isGroup ·)).length := by
    rw [allGroups] at hn
    omega
  have hk := List.getElem?_eq_getElem bound
  generalize ((R.take w).filter (!isGroup ·))[n] = k at hk
  have kept : others isGroup m w R = ((R.take w).filter (!isGroup ·)).take n ++ [k] := by
    rw [others, hn, List.take_add_one, hk, Option.toList_some]
  refine ⟨k, by rw [cursor, kept, List.getLast?_concat]; rfl, ?_⟩
  have hkWindow : k ∈ R.take w := (List.mem_filter.mp (List.mem_of_getElem? hk)).1
  have hkOther : isGroup k = false := by
    simpa using (List.mem_filter.mp (List.mem_of_getElem? hk)).2
  have hqWindow : q ∈ R.take w := List.mem_of_mem_drop hq
  -- the group lies after `k`: at most `m - 1` entries in sight lie before `k`
  have after : k < q := by
    by_contra ahead
    have lt : q < k := by
      refine lt_of_le_of_ne (not_lt.mp ahead) ?_
      intro eq
      rw [eq, hkOther] at group
      cases group
    obtain ⟨j, hj, rfl⟩ := List.mem_iff_getElem.mp hq
    rw [List.length_drop] at hj
    have before : (R.take w).take m ⊆ (R.take w).filter (· < k) := by
      intro x hx
      refine List.mem_filter.mpr ⟨List.mem_of_mem_take hx, ?_⟩
      have le : x ≤ ((R.take w).drop (m - 1))[j] := by
        obtain ⟨i, hi, rfl⟩ := List.mem_take_iff_getElem.mp hx
        rw [List.getElem_drop]
        rcases Nat.lt_or_ge i (m - 1 + j) with lower | upper
        · exact (List.pairwise_iff_getElem.mp windowSorted i _ _ _ lower).le
        · have same : i = m - 1 + j := by omega
          subst same
          exact le_refl _
      simpa using le.trans_lt lt
    have front : ((R.take w).take m).length = m := by
      rw [List.length_take]
      omega
    have othersBefore : ((R.take w).filter (· < k)).filter (!isGroup ·) =
        ((R.take w).filter (!isGroup ·)).take n := by
      rw [List.filter_comm, filter_lt_getElem (windowSorted.filter _) hk]
    have groupsBefore : (((R.take w).filter (· < k)).filter isGroup).length ≤
        ((R.take w).filter isGroup).length := (List.filter_sublist.filter isGroup).length_le
    have total : ((R.take w).filter (· < k)).length ≤ ((R.take w).filter isGroup).length + n := by
      rw [← (List.filter_append_perm isGroup ((R.take w).filter (· < k))).length_eq,
        List.length_append, othersBefore, List.length_take]
      omega
    have least := ((windowSorted.sublist (List.take_sublist m _)).nodup.subperm before).length_le
    rw [allGroups] at hn
    omega
  obtain ⟨h, hh, le⟩ := first_group_in_sight sorted hkWindow hqWindow after group
  obtain ⟨hsight, hgroup⟩ := List.mem_filter.mp (List.mem_of_mem_head? hh)
  have later := List.mem_filter.mp (List.mem_of_mem_take hsight)
  refine ⟨h, ?_, ?_⟩
  · rw [allGroups]
    exact List.mem_filter.mpr ⟨mem_take_of_le sorted hqWindow later.1 le, hgroup⟩
  · rw [groups]
    cases list : ((R.filter (k < ·)).take w).filter isGroup with
    | nil => rw [list] at hh; cases hh
    | cons x rest =>
      rw [list] at hh
      obtain rfl : x = h := by simpa using hh
      rw [show m = (m - 1) + 1 by omega, List.take_succ_cons]
      exact List.mem_cons_self

/-! ## Complete readings -/

theorem follow_truncated (hw : m < w)
    (long : m < R.length) (hf : follow isGroup stuck m w fuel R = some pages) :
    ∃ c rest fuel', cursor isGroup m w R = some c ∧ stuck c = false ∧
      follow isGroup stuck m w fuel' (R.filter (c < ·)) = some rest ∧
      pages = entries isGroup m w R :: rest := by
  cases fuel with
  | zero => cases hf
  | succ fuel =>
    unfold follow at hf
    rw [if_pos ((truncated_iff hw R).mpr long)] at hf
    split at hf
    · cases hf
    · next c hc =>
      split at hf
      · cases hf
      · next live =>
        obtain ⟨rest, hrest, rfl⟩ := Option.map_eq_some_iff.mp hf
        exact ⟨c, rest, fuel, hc, by simpa using live, hrest, rfl⟩

/-- A reading always begins with the entries of its first page. -/
theorem follow_first (hf : follow isGroup stuck m w fuel R = some pages)
    (hx : x ∈ entries isGroup m w R) : x ∈ pages.flatten := by
  cases fuel with
  | zero => cases hf
  | succ fuel =>
    unfold follow at hf
    split at hf
    · split at hf
      · cases hf
      · split at hf
        · cases hf
        · obtain ⟨rest, _, rfl⟩ := Option.map_eq_some_iff.mp hf
          simp [hx]
    · cases hf
      simpa using hx

/-- A complete reading's first page is aligned. -/
theorem Complete.aligned (hm : 0 < m) (hw : m < w) (sorted : R.Pairwise (· < ·))
    (long : m < R.length) (complete : Complete isGroup stuck m w R) :
    Aligned isGroup stuck m w R := by
  obtain ⟨fuel, pages, hf, perm⟩ := complete
  obtain ⟨c, rest, fuel', hc, live, hrest, rfl⟩ := follow_truncated hw long hf
  by_contra misaligned
  obtain ⟨notGroups, notOthers⟩ := not_or.mp misaligned
  push Not at notGroups
  obtain ⟨x, hx, other⟩ := notGroups
  have other : isGroup x = false := by simpa using other
  rcases Nat.lt_or_ge ((R.take w).filter isGroup).length m with few | many
  · by_cases seen : ∀ o ∈ (R.take w).drop (m - 1), isGroup o = false
    · -- only the cursor itself can be at fault, and the reading went past it
      have bound : m - 1 < R.length := by omega
      have hlast : R[m - 1]? = some R[m - 1] := List.getElem?_eq_getElem bound
      have ho := (page_of_others hm hw long seen hlast).2
      have same : c = R[m - 1] := by
        rw [cursor, ho, List.getLast?_concat] at hc
        exact (Option.some.inj hc).symm
      refine notOthers ⟨seen, ?_⟩
      intro o ho'
      rw [hlast] at ho'
      rw [← Option.some.inj ho', ← same]
      exact live
    · push Not at seen
      obtain ⟨q, hq, group⟩ := seen
      have group : isGroup q = true := by simpa using group
      obtain ⟨c', hc', h, hnow, hagain⟩ := listed_again hm hw sorted long few hq group
      obtain rfl : c = c' := Option.some.inj (hc.symm.trans hc')
      have distinct : (entries isGroup m w R :: rest).flatten.Nodup :=
        perm.nodup_iff.mpr sorted.nodup
      rw [List.flatten_cons] at distinct
      have now : h ∈ entries isGroup m w R := List.mem_append_left _ hnow
      have again : h ∈ rest.flatten := follow_first hrest (List.mem_append_left _ hagain)
      exact (List.nodup_append.mp distinct).2.2 h now h again rfl
  · obtain ⟨missed, c', hc', lt⟩ := passed_over hm sorted many hx other
    obtain rfl : c = c' := Option.some.inj (hc.symm.trans hc')
    have listed : x ∈ (entries isGroup m w R :: rest).flatten :=
      perm.mem_iff.mpr (List.mem_of_mem_take hx)
    rcases List.mem_append.mp (List.flatten_cons ▸ listed) with now | later
    · exact missed now
    · have gt := (List.mem_filter.mp (follow_subset hrest later)).2
      have lt' : c < x := by simpa using gt
      exact absurd lt (not_lt.mpr lt'.le)

/-- After an aligned page, the reading is complete when the rest of it is. -/
theorem complete_drop_iff (hm : 0 < m) (hw : m < w)
    (usable : ∀ o, isGroup o = true → stuck o = false)
    (sorted : R.Pairwise (· < ·)) (long : m < R.length) (aligned : Aligned isGroup stuck m w R) :
    Complete isGroup stuck m w R ↔ Complete isGroup stuck m w (R.drop m) := by
  obtain ⟨page, c, hc, hlast, live⟩ := aligned_page hm hw usable long aligned
  have next : R.filter (c < ·) = R.drop m := by
    rw [filter_gt_getElem sorted hlast, Nat.sub_add_cancel hm]
  have whole : R.Perm (R.take m ++ R.drop m) := by rw [List.take_append_drop]
  constructor
  · intro complete
    obtain ⟨fuel, pages, hf, perm⟩ := complete
    obtain ⟨c', rest, fuel', hc', _, hrest, rfl⟩ := follow_truncated hw long hf
    obtain rfl : c = c' := Option.some.inj (hc.symm.trans hc')
    rw [next] at hrest
    refine ⟨fuel', rest, hrest, ?_⟩
    have both : (entries isGroup m w R ++ rest.flatten).Perm
        (entries isGroup m w R ++ R.drop m) := by
      rw [List.flatten_cons] at perm
      exact (perm.trans whole).trans (page.symm.append_right _)
    exact (List.perm_append_left_iff _).mp both
  · intro complete
    obtain ⟨fuel, pages, hf, perm⟩ := complete
    refine ⟨fuel + 1, entries isGroup m w R :: pages, ?_, ?_⟩
    · unfold follow
      rw [if_pos ((truncated_iff hw R).mpr long), hc]
      simp [live, next, hf]
    · rw [List.flatten_cons]
      exact (page.append perm).trans whole.symm

theorem complete_short (hw : m < w) (short : R.length ≤ m) :
    Complete isGroup stuck m w R := by
  have last : truncated m w R = false := by
    rw [Bool.eq_false_iff]
    intro long
    have := (truncated_iff hw R).mp long
    omega
  refine ⟨1, [entries isGroup m w R], by simp [follow, last], ?_⟩
  have window : R.take w = R := List.take_of_length_le (by omega)
  have counts : (R.filter isGroup).length + (R.filter (!isGroup ·)).length = R.length := by
    rw [← List.length_append, (List.filter_append_perm isGroup R).length_eq]
  have hg : groups isGroup m w R = R.filter isGroup := by
    rw [groups, window, List.take_of_length_le (by omega)]
  have ho : others isGroup m w R = R.filter (!isGroup ·) := by
    rw [others, hg, window, List.take_of_length_le (by omega)]
  rw [List.flatten_singleton, entries, hg, ho]
  exact List.filter_append_perm isGroup R

/-- A reading is complete exactly when each of its page boundaries is aligned. -/
theorem complete_iff (hm : 0 < m) (hw : m < w)
    (usable : ∀ o, isGroup o = true → stuck o = false) (R : List α)
    (sorted : R.Pairwise (· < ·)) :
    Complete isGroup stuck m w R ↔
      ∀ j, j * m + m < R.length → Aligned isGroup stuck m w (R.drop (j * m)) := by
  induction hlen : R.length using Nat.strong_induction_on generalizing R with
  | _ n ih =>
    subst hlen
    rcases Nat.lt_or_ge m R.length with long | short
    · have rest := ih (R.drop m).length (by rw [List.length_drop]; omega) (R.drop m)
        (sorted.sublist (List.drop_sublist m R)) rfl
      constructor
      · intro complete j hj
        have aligned := complete.aligned hm hw sorted long
        cases j with
        | zero => simpa using aligned
        | succ j =>
          have later := rest.mp ((complete_drop_iff hm hw usable sorted long aligned).mp complete) j
          rw [List.length_drop, List.drop_drop] at later
          have shift : m + j * m = (j + 1) * m := by rw [Nat.succ_mul, Nat.add_comm]
          rw [shift] at later
          exact later (by rw [Nat.succ_mul] at hj; omega)
      · intro all
        have aligned : Aligned isGroup stuck m w R := by simpa using all 0 (by omega)
        refine (complete_drop_iff hm hw usable sorted long aligned).mpr (rest.mpr ?_)
        intro j hj
        rw [List.length_drop] at hj
        have later := all (j + 1) (by rw [Nat.succ_mul]; omega)
        have shift : m + j * m = (j + 1) * m := by rw [Nat.succ_mul, Nat.add_comm]
        rw [List.drop_drop, shift]
        exact later
    · refine iff_of_true (complete_short hw short) ?_
      intro j hj
      omega

end Order

end Openstack.PagedListing

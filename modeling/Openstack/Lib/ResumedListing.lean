import Openstack.Lib.PagedListing

/-!
Listings in pages over a strictly increasing list that changes between the pages. The reader keeps the
last entry of a page and goes on behind it. An entry the list keeps all along is on one page only, and
the pages have such entries in their order.
-/
namespace Openstack.PagedListing

variable {α : Type} [LinearOrder α]

/-- What an upward closed test leaves out stands before what it takes. -/
theorem filter_not_append_filter {l : List α} (sorted : l.Pairwise (· < ·)) {p : α → Bool}
    (upward : ∀ x y, x < y → p x = true → p y = true) :
    l.filter (fun x => !p x) ++ l.filter p = l := by
  induction l with
  | nil => rfl
  | cons x rest ih =>
    obtain ⟨least, sorted⟩ := List.pairwise_cons.mp sorted
    cases taken : p x with
    | false =>
      rw [List.filter_cons_of_pos (by rw [taken]; rfl), List.filter_cons_of_neg (by simp [taken]),
        List.cons_append, ih sorted]
    | true =>
      have all : ∀ y ∈ x :: rest, p y = true := by
        intro y member
        rcases List.mem_cons.mp member with rfl | later
        · exact taken
        · exact upward x y (least y later) taken
      have none : (x :: rest).filter (fun x => !p x) = [] := by
        rw [List.filter_eq_nil_iff]
        intro y member
        simp [all y member]
      rw [none, List.nil_append, List.filter_eq_self.mpr all]

/-- A page that is not empty is what stands up to its last entry. -/
theorem take_eq_filter_le {l : List α} (sorted : l.Pairwise (· < ·)) {n : Nat} (some_page : 0 < n)
    (room : n ≤ l.length) :
    ∃ c ∈ l, (l.take n).getLast? = some c ∧ l.take n = l.filter (· ≤ c) := by
  have bound : n - 1 < l.length := by omega
  refine ⟨l[n - 1], List.getElem_mem bound, ?_, ?_⟩
  · rw [List.getLast?_eq_getElem?, List.length_take, Nat.min_eq_left room,
      List.getElem?_take_of_lt (by omega), List.getElem?_eq_getElem bound]
  · have behind := filter_gt_getElem sorted (List.getElem?_eq_getElem bound)
    rw [Nat.sub_add_cancel some_page] at behind
    have parts := filter_not_append_filter (p := (l[n - 1] < ·)) sorted (by
      intro x y less taken
      rw [decide_eq_true_eq] at taken ⊢
      exact taken.trans less)
    rw [behind] at parts
    have same := List.append_cancel_right (parts.trans (List.take_append_drop n l).symm)
    rw [← same]
    refine List.filter_congr fun x _ => ?_
    rw [← decide_not, decide_eq_decide, not_lt]

/-! ## One page

`stayed` are the entries the list has kept so far, and `p` takes the part of the list that is still to
be read. -/

section Resuming

variable {entries stayed listed : List α} {p : α → Bool} {n : Nat}

/-- The kept entries in the part still to be read. -/
theorem filter_part (sorted : entries.Pairwise (· < ·)) (inOrder : stayed.Pairwise (· < ·))
    (kept : ∀ x ∈ stayed, x ∈ entries) (q : α → Bool) :
    (entries.filter q).filter (· ∈ stayed) = stayed.filter q := by
  rw [List.filter_comm]
  congr 1
  refine List.Perm.eq_of_pairwise' ?_ inOrder ?_
  · exact sorted.filter _
  · refine (List.perm_ext_iff_of_nodup (sorted.filter _).nodup inOrder.nodup).mpr fun x => ?_
    rw [List.mem_filter, decide_eq_true_eq]
    exact ⟨And.right, fun member => ⟨kept x member, member⟩⟩

/-- The last page completes the kept entries. -/
theorem last_page (sorted : entries.Pairwise (· < ·)) (inOrder : stayed.Pairwise (· < ·))
    (kept : ∀ x ∈ stayed, x ∈ entries) (upward : ∀ x y, x < y → p x = true → p y = true)
    (sofar : listed.filter (· ∈ stayed) = stayed.filter (fun x => !p x)) :
    (listed ++ entries.filter p).filter (· ∈ stayed) = stayed := by
  rw [List.filter_append, sofar, filter_part sorted inOrder kept,
    filter_not_append_filter inOrder upward]

/-- An earlier page brings the kept entries up to its last entry. -/
theorem earlier_page (sorted : entries.Pairwise (· < ·)) (inOrder : stayed.Pairwise (· < ·))
    (kept : ∀ x ∈ stayed, x ∈ entries) (upward : ∀ x y, x < y → p x = true → p y = true)
    (sofar : listed.filter (· ∈ stayed) = stayed.filter (fun x => !p x)) (some_page : 0 < n)
    (room : n ≤ (entries.filter p).length) :
    ∃ c, ((entries.filter p).take n).getLast? = some c ∧
      (listed ++ (entries.filter p).take n).filter (· ∈ stayed) = stayed.filter (· ≤ c) := by
  obtain ⟨c, member, last, page⟩ := take_eq_filter_le (sorted.filter p) some_page room
  have taken : p c = true := (List.mem_filter.mp member).2
  refine ⟨c, last, ?_⟩
  rw [page, List.filter_filter, List.filter_append, sofar, filter_part sorted inOrder kept]
  have parts := filter_not_append_filter (inOrder.filter (· ≤ c)) upward
  rw [List.filter_filter, List.filter_filter] at parts
  rw [← parts]
  congr 1
  · refine List.filter_congr fun x _ => ?_
    cases left : p x with
    | true => rfl
    | false =>
      have below : x ≤ c := le_of_not_gt fun above => by
        rw [upward c x above taken] at left
        exact Bool.noConfusion left
      simp [below]
  · refine List.filter_congr fun x _ => ?_
    rw [Bool.and_comm]

end Resuming
end Openstack.PagedListing

import Openstack.S3.Pagination

/-!
# What the paged scan returns

`store.rs:605-719`. A page of `list_objects_paged` holds the first `max_results` entries after the start key:
keys with the data of their current version, and common prefixes with their cursors.
-/
namespace Openstack.S3

/-- What a listing shows of a key. -/
def shown (objects : Objects) (key : String) : Option ObjMeta :=
  objects.map[key]?.bind fun obj => obj.current.map fun v => (key, v.lastModified, v.etag, v.size)

theorem filterMap_of_map_fst {α β : Type} {f : α → Option (α × β)} {l : List (α × β)}
    (each : ∀ x ∈ l, f x.1 = some x) : (l.map Prod.fst).filterMap f = l := by
  induction l with
  | nil => rfl
  | cons x rest ih =>
    rw [List.map_cons, List.filterMap_cons, each x List.mem_cons_self]
    exact congrArg (x :: ·) (ih fun y there => each y (List.mem_cons_of_mem _ there))

section Scan

variable {objects : Objects} {pfx delimiter : String}

/-- The scan adds only what the bucket shows of its keys. -/
theorem scanLoop_shown (maxResults : Nat) (rest : List (String × S3Object)) (st : Scan)
    (stored : ∀ kv ∈ rest, objects.map[kv.1]? = some kv.2)
    (before : ∀ item ∈ st.result.contents, shown objects item.1 = some item) :
    ∀ item ∈ (scanLoop pfx delimiter maxResults st rest).contents, shown objects item.1 = some item := by
  induction rest generalizing st with
  | nil =>
    rw [scanLoop, Scan.finish_contents]
    exact before
  | cons kv rest ih =>
    obtain ⟨key, obj⟩ := kv
    have storedRest : ∀ kv ∈ rest, objects.map[kv.1]? = some kv.2 :=
      fun kv there => stored kv (List.mem_cons_of_mem _ there)
    unfold scanLoop
    split
    · split
      · exact ih _ storedRest before
      · rw [Scan.finish_contents]
        exact before
    · split
      · exact ih st storedRest before
      · next v live =>
        have here : shown objects key = some (key, v.lastModified, v.etag, v.size) := by
          rw [shown, stored _ List.mem_cons_self, Option.bind_some, live]
          rfl
        have added : ∀ item ∈ (st.addContent key v).result.contents, shown objects item.1 = some item := by
          intro item there
          rcases List.mem_append.mp there with old | new
          · exact before item old
          · rw [List.mem_singleton.mp new]
            exact here
        split
        · refine ih _ storedRest ?_
          rw [Scan.addPrefix_result]
          exact before
        · split
          · rw [Scan.finish_contents]
            exact added
          · exact ih _ storedRest added

end Scan

/-- A page holds the first entries after the start key, and the cursor of a common prefix is past every live
key under it. An empty start key is none: every key that is not empty comes after it. -/
theorem listObjectsPaged_exact (store : S3Store) (bucket pfx : String) (start : Option String)
    (maxResults : Nat) (delimiter : String) (positive : 1 ≤ maxResults) :
    let objects := store.bucketObjects bucket
    let outputs := (remaining objects pfx delimiter (start.getD "")).take maxResults
    let page := listObjectsPaged store bucket pfx start maxResults delimiter
    page.contents = (outputs.filter (!isGroup pfx delimiter ·)).filterMap (shown objects) ∧
      page.commonPrefixes.keys = outputs.filter (isGroup pfx delimiter) ∧
      ∀ (cp cursor : String), page.commonPrefixes[cp]? = some cursor →
        ∀ key, Live objects pfx key → afterCursor (start.getD "") key = true → HasPrefix key cp →
          key ≤ cursor := by
  intro objects outputs page
  have covers := listObjectsPaged_covers store bucket pfx start maxResults delimiter positive
  refine ⟨?_, ?_, ?_⟩
  · rw [← covers.contents]
    refine (filterMap_of_map_fst ?_).symm
    simp only [page, listObjectsPaged_eq]
    refine scanLoop_shown maxResults _ {} ?_ (List.forall_mem_nil _)
    intro kv there
    exact Std.ExtTreeMap.mem_toList_iff_getElem?_eq_some.mp (List.mem_of_mem_filter there)
  · exact keys_of_covers ((remaining_sorted objects pfx delimiter _).sublist (List.take_sublist _ _)) covers
  · intro cp cursor stored key live after under
    exact (covers.cursors cp cursor stored).2.2 key (mem_liveKeys.mpr ⟨live, after⟩) under

/-- After "a" a page of one holds the common prefix "b/" alone. -/
theorem threeKeys_after_a :
    (listObjectsPaged threeKeys "bk" "" (some "a") 1 "/").contents = [] ∧
      (listObjectsPaged threeKeys "bk" "" (some "a") 1 "/").commonPrefixes.keys = ["b/"] := by
  obtain ⟨contents, prefixes, -⟩ := listObjectsPaged_exact threeKeys "bk" "" (some "a") 1 "/" le_rfl
  have left : remaining (threeKeys.bucketObjects "bk") "" "/" "a" = ["b/", "c"] := by decide +kernel
  have group : isGroup "" "/" "b/" = true := by decide +kernel
  rw [Option.getD_some, left] at contents prefixes
  simp only [List.take_succ_cons, List.take_zero, List.filter_cons, group] at contents prefixes
  exact ⟨contents, prefixes⟩

end Openstack.S3

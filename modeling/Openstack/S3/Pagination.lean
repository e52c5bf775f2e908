import Openstack.Lib.PagedListing
import Openstack.S3.PagedScan

/-!
# Pagination of object listings

A page of either handler is a page of `PagedListing` over the entries after its
cursor: with a window of one entry more than the page for
`handle_list_objects_v2`, and with everything in sight for `handle_list_objects`.
Following the cursors therefore lists every entry exactly once if and only if all
page boundaries are aligned.
-/
namespace Openstack.S3

variable {objects : Objects} {from_ : String} {items : List ObjMeta}

/-! ## Live keys -/

/-- The key is live and matches the prefix. -/
def Live (objects : Objects) (pfx key : String) : Prop :=
  ∃ obj, objects.map[key]? = some obj ∧ obj.current.isSome = true ∧ HasPrefix key pfx

theorem mem_liveKeys {pfx cursor key : String} :
    key ∈ liveKeys (keysAfter objects pfx cursor) ↔
      Live objects pfx key ∧ afterCursor cursor key = true := by
  unfold liveKeys keysAfter Live
  rw [List.filter_filter]
  simp only [List.mem_map, List.mem_filter, Prod.exists, exists_and_right, exists_eq_right,
    Std.ExtTreeMap.mem_toList_iff_getElem?_eq_some, Bool.and_eq_true, ← startsWith_iff]
  constructor
  · intro h
    obtain ⟨obj, found, live, matching, after⟩ := h
    exact ⟨⟨obj, found, live, matching⟩, after⟩
  · intro h
    obtain ⟨⟨obj, found, live, matching⟩, after⟩ := h
    exact ⟨obj, found, live, matching, after⟩

theorem mem_remaining {pfx delimiter cursor name : String} :
    name ∈ remaining objects pfx delimiter cursor ↔
      ∃ key, Live objects pfx key ∧ afterCursor cursor key = true ∧
        entryName pfx delimiter key = name := by
  unfold remaining
  rw [mem_entriesOf]
  simp only [mem_liveKeys, and_assoc]

theorem Live.matching {pfx key : String} (live : Live objects pfx key) :
    HasPrefix key pfx := by
  obtain ⟨_, _, _, matching⟩ := live
  exact matching

/-- An entry that is no group is the key itself. -/
theorem entryName_of_not_group {pfx delimiter key : String} (matching : HasPrefix key pfx)
    (other : isGroup pfx delimiter (entryName pfx delimiter key) = false) :
    entryName pfx delimiter key = key ∧ commonPrefix? pfx delimiter key = none := by
  rw [isGroup_entryName matching] at other
  have none : commonPrefix? pfx delimiter key = none := by simpa using other
  exact ⟨by simp [entryName, none], none⟩

/-- `key` can serve as the cursor after the entry `c`: it is the entry itself, or a
key under the group that is past all live keys under it. -/
def CursorFor (objects : Objects) (pfx delimiter cursor c key : String) : Prop :=
  (isGroup pfx delimiter c = false ∧ key = c) ∨
    (isGroup pfx delimiter c = true ∧ HasPrefix key c ∧
      key ∈ (keysAfter objects pfx cursor).map Prod.fst ∧
      ∀ k ∈ liveKeys (keysAfter objects pfx cursor), HasPrefix k c → k ≤ key)

/-- After a cursor for `c`, exactly the entries behind `c` are left. -/
theorem remaining_cursor {pfx delimiter cursor c key : String} (mem : c ∈ remaining objects pfx delimiter cursor)
    (good : CursorFor objects pfx delimiter cursor c key) (usable : key ≠ "") :
    remaining objects pfx delimiter key =
      (remaining objects pfx delimiter cursor).filter (c < ·) := by
  obtain ⟨k0, live0, after0, name0⟩ := mem_remaining.mp mem
  have matching0 := live0.matching
  -- the cursor matches the prefix, lies after the previous one and shows up as `c`
  have facts : HasPrefix key pfx ∧ afterCursor cursor key = true ∧
      entryName pfx delimiter key = c ∧
      ∀ k, Live objects pfx k → afterCursor cursor k = true → entryName pfx delimiter k = c →
        k ≤ key := by
    rcases good with ⟨other, rfl⟩ | ⟨group, under, listed, last⟩
    · have self := entryName_of_not_group matching0 (name0 ▸ other)
      have same : k0 = key := self.1.symm.trans name0
      subst same
      refine ⟨matching0, after0, name0, ?_⟩
      intro k live _ name
      have own := entryName_of_not_group live.matching (name ▸ other)
      exact (own.1.symm.trans name).le
    · have alone : c ∈ entriesOf pfx delimiter [k0] := mem_entriesOf.mpr ⟨k0, by simp, name0⟩
      have name : entryName pfx delimiter key = c :=
        entryName_of_group (by simpa using matching0) alone group under
      obtain ⟨matching, after⟩ := keysAfter_matching listed
      refine ⟨matching, after, name, ?_⟩
      intro k live afterK name
      refine last k (mem_liveKeys.mpr ⟨live, afterK⟩) ?_
      rw [← name]
      exact hasPrefix_entryName live.matching
  obtain ⟨matching, after, name, last⟩ := facts
  refine sorted_ext (remaining_sorted objects pfx delimiter key)
    ((remaining_sorted objects pfx delimiter cursor).filter _) ?_
  intro o
  rw [List.mem_filter, mem_remaining, mem_remaining, decide_eq_true_eq]
  constructor
  · intro h
    obtain ⟨k, live, later, hname⟩ := h
    have lt : key < k := (of_decide_eq_true later).resolve_left usable
    have afterK : afterCursor cursor k = true := by
      refine decide_eq_true ?_
      exact (of_decide_eq_true after).imp id (fun h => h.trans lt)
    refine ⟨⟨k, live, afterK, hname⟩, ?_⟩
    have le : entryName pfx delimiter key ≤ entryName pfx delimiter k :=
      entryName_mono matching live.matching lt.le
    rw [name, hname] at le
    refine lt_of_le_of_ne le ?_
    intro eq
    exact absurd lt (not_lt.mpr (last k live afterK (hname.trans eq.symm)))
  · intro h
    obtain ⟨⟨k, live, afterK, hname⟩, lt⟩ := h
    refine ⟨k, live, decide_eq_true (Or.inr ?_), hname⟩
    by_contra ahead
    have le : entryName pfx delimiter k ≤ entryName pfx delimiter key :=
      entryName_mono live.matching matching (not_lt.mp ahead)
    rw [name, hname] at le
    exact absurd lt (not_lt.mpr le)

/-! ## Pages -/

section Pages

open PagedListing

variable {pfx delimiter : String}

/-- Only a key can be empty. -/
def emptyName (name : String) : Bool := name == ""

theorem isGroup_ne_empty {name : String} (group : isGroup pfx delimiter name = true) :
    emptyName name = false := by
  by_contra empty
  have name_empty : name = "" := by simpa [emptyName] using empty
  subst name_empty
  unfold isGroup commonPrefix? at group
  split at group
  · cases group
  · next nonempty =>
    have none : RustStr.before delimiter.toList [] = none := by
      simp [RustStr.before, nonempty]
    simp [none] at group

/-- The page lists what `PagedListing` lists of the entries after the cursor. -/
structure IsPage (objects : Objects) (pfx delimiter : String) (m w : Nat) (from_ : String)
    (page : ListBucketResult) : Prop where
  prefixes : page.commonPrefixes =
    groups (isGroup pfx delimiter) m w (remaining objects pfx delimiter from_)
  contents : page.contents.map (·.1) =
    others (isGroup pfx delimiter) m w (remaining objects pfx delimiter from_)
  truncated : page.isTruncated = truncated m w (remaining objects pfx delimiter from_)

theorem keys_of_covers {E keys live : List String} {res : ListPagedResult}
    (sorted : E.Pairwise (· < ·)) (covers : Covers pfx delimiter E keys live res) :
    res.commonPrefixes.keys = E.filter (isGroup pfx delimiter) := by
  refine sorted_ext ?_ (sorted.filter _) ?_
  · exact Std.ExtTreeMap.ordered_keys.imp fun h => compare_lt_iff_lt.mp h
  · intro cp
    rw [Std.ExtTreeMap.mem_keys, Std.ExtTreeMap.mem_iff_isSome_getElem?, covers.prefixes,
      List.mem_filter]

theorem pageV2_isPage {m : Nat} {scanned : ListPagedResult} (bucket : String)
    (covers : Covers pfx delimiter ((remaining objects pfx delimiter from_).take (m + 1))
      ((keysAfter objects pfx from_).map Prod.fst) (liveKeys (keysAfter objects pfx from_))
      scanned) :
    IsPage objects pfx delimiter m (m + 1) from_ (pageV2 bucket pfx m scanned) := by
  have sorted := (remaining_sorted objects pfx delimiter from_).sublist (List.take_sublist (m + 1) _)
  have hkeys := keys_of_covers sorted covers
  have hsize : scanned.commonPrefixes.size =
      (((remaining objects pfx delimiter from_).take (m + 1)).filter
        (isGroup pfx delimiter)).length := by
    rw [← hkeys, Std.ExtTreeMap.length_keys]
  have hgroups : (pageV2 bucket pfx m scanned).commonPrefixes =
      groups (isGroup pfx delimiter) m (m + 1) (remaining objects pfx delimiter from_) := by
    simp only [pageV2, groups, hkeys, hsize]
    rw [← List.take_take]
    exact List.take_of_length_le (List.length_take_le' _ _)
  have hlength : (groups (isGroup pfx delimiter) m (m + 1)
      (remaining objects pfx delimiter from_)).length = min scanned.commonPrefixes.size m := by
    rw [groups, List.length_take, hsize, Nat.min_comm]
  refine ⟨hgroups, ?_, ?_⟩
  · simp [pageV2, others, hlength, covers.contents]
  · have lengths : scanned.contents.length = (((remaining objects pfx delimiter from_).take
        (m + 1)).filter (!isGroup pfx delimiter ·)).length := by
      rw [← covers.contents, List.length_map]
    have counts := (List.filter_append_perm (isGroup pfx delimiter)
      ((remaining objects pfx delimiter from_).take (m + 1))).length_eq
    rw [List.length_append] at counts
    simp only [pageV2, PagedListing.truncated, hsize, lengths]
    rw [decide_eq_decide]
    omega

/-- The page hands out a cursor for the entry the next one starts after. An empty
cursor is handed out as it is or not at all. -/
def HandsOut (objects : Objects) (pfx delimiter from_ c : String) (page : ListBucketResult) :
    Prop :=
  ∃ key, CursorFor objects pfx delimiter from_ c key ∧ (key ≠ "" → page.next = some key) ∧
    (key = "" → page.next = none ∨ page.next = some "")

theorem pageV2_next {m : Nat} {scanned : ListPagedResult} (bucket : String)
    (covers : Covers pfx delimiter ((remaining objects pfx delimiter from_).take (m + 1))
      ((keysAfter objects pfx from_).map Prod.fst) (liveKeys (keysAfter objects pfx from_))
      scanned)
    (more : (pageV2 bucket pfx m scanned).isTruncated = true) {c : String}
    (hc : cursor (isGroup pfx delimiter) m (m + 1) (remaining objects pfx delimiter from_) =
      some c) :
    HandsOut objects pfx delimiter from_ c (pageV2 bucket pfx m scanned) := by
  suffices given : ∃ key, (pageV2 bucket pfx m scanned).next = some key ∧
      CursorFor objects pfx delimiter from_ c key by
    obtain ⟨key, hnext, good⟩ := given
    exact ⟨key, good, fun _ => hnext, fun empty => Or.inr (empty ▸ hnext)⟩
  have page := pageV2_isPage bucket covers
  have next_eq : (pageV2 bucket pfx m scanned).next =
      (pageV2 bucket pfx m scanned).contents.getLast?.elim
        ((pageV2 bucket pfx m scanned).commonPrefixes.getLast?.bind
          fun lastCp => scanned.commonPrefixes[lastCp]?)
        (fun item => some item.1) := by
    refine (if_pos more).trans ?_
    split
    · next item last =>
      have shown : (pageV2 bucket pfx m scanned).contents.getLast? = some item := last
      rw [shown, Option.elim_some]
    · next last =>
      have shown : (pageV2 bucket pfx m scanned).contents.getLast? = none := last
      rw [shown, Option.elim_none]
      rfl
  rw [cursor, ← page.contents, ← page.prefixes, List.getLast?_map] at hc
  rw [next_eq]
  cases hlast : (pageV2 bucket pfx m scanned).contents.getLast? with
  | some item =>
    have same : item.1 = c := by simpa [hlast] using hc
    refine ⟨c, by rw [Option.elim_some, same], Or.inl ⟨?_, rfl⟩⟩
    have kept : c ∈ others (isGroup pfx delimiter) m (m + 1)
        (remaining objects pfx delimiter from_) := by
      rw [← page.contents, ← same]
      exact List.mem_map_of_mem (List.mem_of_getLast? hlast)
    exact (others_subset kept).2
  | none =>
    have last : (pageV2 bucket pfx m scanned).commonPrefixes.getLast? = some c := by
      simpa [hlast] using hc
    have kept : c ∈ groups (isGroup pfx delimiter) m (m + 1)
        (remaining objects pfx delimiter from_) := by
      rw [← page.prefixes]
      exact List.mem_of_getLast? last
    obtain ⟨seen, group⟩ := groups_subset kept
    obtain ⟨key, hkey⟩ := Option.isSome_iff_exists.mp ((covers.prefixes c).mpr ⟨seen, group⟩)
    obtain ⟨listed, under, past⟩ := covers.cursors c key hkey
    refine ⟨key, ?_, Or.inr ⟨group, under, listed, past⟩⟩
    rw [Option.elim_none, last, Option.bind_some, hkey]

theorem itemPrefixes_isSome {acc : StrMap Unit} {cp : String} :
    ((items.foldl (insertPrefix pfx delimiter) acc)[cp]?).isSome = true ↔
      (acc[cp]?).isSome = true ∨
        ∃ item ∈ items, commonPrefix? pfx delimiter item.1 = some cp := by
  induction items generalizing acc with
  | nil => simp
  | cons item rest ih =>
    rw [List.foldl_cons, ih, insertPrefix]
    cases grouped : commonPrefix? pfx delimiter item.1 with
    | none => simp [grouped]
    | some cp' =>
      simp only [StrMap.getElem?_insert, List.mem_cons, exists_eq_or_imp, grouped]
      by_cases same : cp' = cp
      · simp [same]
      · simp [same]

theorem itemPrefixes_keys (hitems : items.map (·.1) = liveKeys (keysAfter objects pfx from_)) :
    (itemPrefixes pfx delimiter items).keys =
      (remaining objects pfx delimiter from_).filter (isGroup pfx delimiter) := by
  refine sorted_ext ?_ ((remaining_sorted objects pfx delimiter from_).filter _) ?_
  · exact Std.ExtTreeMap.ordered_keys.imp fun h => compare_lt_iff_lt.mp h
  · intro cp
    rw [Std.ExtTreeMap.mem_keys, Std.ExtTreeMap.mem_iff_isSome_getElem?, itemPrefixes,
      itemPrefixes_isSome, List.mem_filter, remaining, mem_entriesOf, ← hitems]
    simp only [List.mem_map]
    have matching : ∀ item ∈ items, HasPrefix item.1 pfx := by
      intro item hitem
      have mem : item.1 ∈ liveKeys (keysAfter objects pfx from_) :=
        hitems ▸ List.mem_map_of_mem hitem
      exact (mem_liveKeys.mp mem).1.matching
    constructor
    · intro h
      rcases h with none | ⟨item, hitem, grouped⟩
      · simp at none
      · have name : entryName pfx delimiter item.1 = cp := by simp [entryName, grouped]
        refine ⟨⟨item.1, ⟨item, hitem, rfl⟩, name⟩, ?_⟩
        rw [← name, isGroup_entryName (matching item hitem), grouped]
        rfl
    · intro h
      obtain ⟨⟨_, ⟨item, hitem, rfl⟩, name⟩, group⟩ := h
      rw [← name, isGroup_entryName (matching item hitem)] at group
      obtain ⟨cp', grouped⟩ := Option.isSome_iff_exists.mp group
      refine Or.inr ⟨item, hitem, ?_⟩
      rw [grouped, ← name]
      simp [entryName, grouped]

theorem contentItems_keys (hitems : items.map (·.1) = liveKeys (keysAfter objects pfx from_)) :
    (items.filter fun item => (commonPrefix? pfx delimiter item.1).isNone).map (·.1) =
      (remaining objects pfx delimiter from_).filter (!isGroup pfx delimiter ·) := by
  have live := liveKeys_sorted (keysAfter_sorted objects pfx from_)
  refine sorted_ext ?_ ((remaining_sorted objects pfx delimiter from_).filter _) ?_
  · exact (hitems ▸ live).sublist (List.filter_sublist.map _)
  · intro o
    rw [List.mem_filter, mem_remaining]
    simp only [List.mem_map, List.mem_filter]
    constructor
    · intro h
      obtain ⟨item, ⟨hitem, single⟩, rfl⟩ := h
      have mem : item.1 ∈ liveKeys (keysAfter objects pfx from_) :=
        hitems ▸ List.mem_map_of_mem hitem
      obtain ⟨hlive, after⟩ := mem_liveKeys.mp mem
      have none : commonPrefix? pfx delimiter item.1 = none := by simpa using single
      refine ⟨⟨item.1, hlive, after, by simp [entryName, none]⟩, by simp [isGroup, none]⟩
    · intro h
      obtain ⟨⟨key, hlive, after, name⟩, other⟩ := h
      have other : isGroup pfx delimiter (entryName pfx delimiter key) = false := by
        rw [name]
        simpa using other
      obtain ⟨self, none⟩ := entryName_of_not_group hlive.matching other
      have mem : key ∈ items.map (·.1) := hitems ▸ mem_liveKeys.mpr ⟨hlive, after⟩
      obtain ⟨item, hitem, hkey⟩ := List.mem_map.mp mem
      refine ⟨item, ⟨hitem, by rw [hkey, none]; rfl⟩, hkey.trans (self.symm.trans name)⟩

theorem pageV1_isPage {m w : Nat}
    (bucket : String) (hitems : items.map (·.1) = liveKeys (keysAfter objects pfx from_))
    (sight : (remaining objects pfx delimiter from_).length ≤ w) :
    IsPage objects pfx delimiter m w from_ (pageV1 bucket pfx delimiter m items) := by
  have window : (remaining objects pfx delimiter from_).take w =
      remaining objects pfx delimiter from_ := List.take_of_length_le sight
  have hgroups : (pageV1 bucket pfx delimiter m items).commonPrefixes =
      groups (isGroup pfx delimiter) m w (remaining objects pfx delimiter from_) := by
    simp only [pageV1, groups, itemPrefixes_keys hitems, window]
  refine ⟨hgroups, ?_, ?_⟩
  · simp [pageV1, others, groups, contentItems_keys hitems, itemPrefixes_keys hitems, window]
  · have lengths : (items.filter fun item => (commonPrefix? pfx delimiter item.1).isNone).length =
        ((remaining objects pfx delimiter from_).filter (!isGroup pfx delimiter ·)).length := by
      rw [← contentItems_keys hitems, List.length_map]
    have counts := (List.filter_append_perm (isGroup pfx delimiter)
      (remaining objects pfx delimiter from_)).length_eq
    rw [List.length_append] at counts
    simp only [pageV1, PagedListing.truncated, itemPrefixes_keys hitems, lengths, window]
    rw [decide_eq_decide]
    omega

theorem find?_reverse_last (sorted : (items.map (·.1)).Pairwise (· < ·))
    {p : ObjMeta → Bool} {x : ObjMeta} (found : items.reverse.find? p = some x) :
    x ∈ items ∧ p x = true ∧ ∀ y ∈ items, p y = true → y.1 ≤ x.1 := by
  obtain ⟨hp, before, behind, split, none⟩ := List.find?_eq_some_iff_append.mp found
  have descending : items.reverse.Pairwise (fun a b => b.1 < a.1) :=
    List.pairwise_reverse.mpr (List.pairwise_map.mp sorted)
  rw [split] at descending
  refine ⟨List.mem_reverse.mp (split ▸ by simp), hp, ?_⟩
  intro y hy hpy
  rw [← List.mem_reverse, split, List.mem_append, List.mem_cons] at hy
  rcases hy with early | rfl | late
  · have := none y early
    simp [hpy] at this
  · exact le_refl _
  · exact ((List.pairwise_cons.mp (List.pairwise_append.mp descending).2.1).1 y late).le

theorem pageV1_next {m w : Nat} (bucket : String) (hitems : items.map (·.1) = liveKeys (keysAfter objects pfx from_))
    (sight : (remaining objects pfx delimiter from_).length ≤ w)
    (more : (pageV1 bucket pfx delimiter m items).isTruncated = true) {c : String}
    (hc : cursor (isGroup pfx delimiter) m w (remaining objects pfx delimiter from_) = some c) :
    HandsOut objects pfx delimiter from_ c (pageV1 bucket pfx delimiter m items) := by
  have page : IsPage objects pfx delimiter m w from_ (pageV1 bucket pfx delimiter m items) :=
    pageV1_isPage bucket hitems sight
  suffices given : ∃ key, CursorFor objects pfx delimiter from_ c key ∧
      (pageV1 bucket pfx delimiter m items).next = if key ≠ "" then some key else none by
    obtain ⟨key, good, hnext⟩ := given
    refine ⟨key, good, ?_, ?_⟩
    · intro nonempty
      rw [hnext, if_pos nonempty]
    · intro empty
      exact Or.inl (by rw [hnext, if_neg (not_not.mpr empty)])
  have next_eq : ∀ key, nextMarker items (pageV1 bucket pfx delimiter m items).contents
        (pageV1 bucket pfx delimiter m items).commonPrefixes = key →
      (pageV1 bucket pfx delimiter m items).next = if key ≠ "" then some key else none := by
    intro key hkey
    simp only [pageV1] at more hkey ⊢
    rw [if_pos more, more, hkey]
    simp
  rw [cursor, ← page.contents, ← page.prefixes, List.getLast?_map] at hc
  cases hlast : (pageV1 bucket pfx delimiter m items).contents.getLast? with
  | some item =>
    have same : item.1 = c := by simpa [hlast] using hc
    refine ⟨c, Or.inl ⟨?_, rfl⟩, next_eq c (by simp only [nextMarker, hlast, same])⟩
    have kept : c ∈ others (isGroup pfx delimiter) m w (remaining objects pfx delimiter from_) := by
      rw [← page.contents, ← same]
      exact List.mem_map_of_mem (List.mem_of_getLast? hlast)
    exact (others_subset kept).2
  | none =>
    have last : (pageV1 bucket pfx delimiter m items).commonPrefixes.getLast? = some c := by
      simpa [hlast] using hc
    have kept : c ∈ groups (isGroup pfx delimiter) m w (remaining objects pfx delimiter from_) := by
      rw [← page.prefixes]
      exact List.mem_of_getLast? last
    obtain ⟨seen, group⟩ := groups_subset kept
    obtain ⟨key, hlive, after, name⟩ := mem_remaining.mp (List.mem_of_mem_take seen)
    have under : HasPrefix key c := name ▸ hasPrefix_entryName hlive.matching
    cases found : items.reverse.find? fun item => RustStr.startsWith item.1 c with
    | none =>
      have mem : key ∈ items.map (·.1) := hitems ▸ mem_liveKeys.mpr ⟨hlive, after⟩
      obtain ⟨item, hitem, hkey⟩ := List.mem_map.mp mem
      have absent := List.find?_eq_none.mp found item (List.mem_reverse.mpr hitem)
      exact absurd (startsWith_iff.mpr (hkey ▸ under)) absent
    | some item =>
      have sorted := liveKeys_sorted (keysAfter_sorted objects pfx from_)
      obtain ⟨hitem, starts, past⟩ := find?_reverse_last (hitems ▸ sorted) found
      refine ⟨item.1, Or.inr ⟨group, startsWith_iff.mp starts, ?_, ?_⟩, next_eq _ ?_⟩
      · exact liveKeys_subset (hitems ▸ List.mem_map_of_mem hitem)
      · intro k hk hkc
        obtain ⟨other, hother, rfl⟩ := List.mem_map.mp (hitems ▸ hk)
        exact past other hother (startsWith_iff.mpr hkc)
      · simp [nextMarker, hlast, last, found]

end Pages

/-! ## Following the cursors -/

/-- Request page after page, each with the cursor of the one before, until one is
not truncated. -/
def followPages (page : Option String → Except S3Error ListBucketResult) :
    Nat → Option String → Option (List ListBucketResult)
  | 0, _ => none
  | fuel + 1, token =>
    match page token with
    | .error _ => none
    | .ok p =>
      if p.isTruncated then
        match p.next with
        | none => none
        | some next => (followPages page fuel (some next)).map (p :: ·)
      else some [p]

section Follow

open PagedListing

variable {objects : Objects} {pfx delimiter : String} {m w : Nat}
  {page : Option String → Except S3Error ListBucketResult}

/-- The handler answers every cursor with its page and hands out the next cursor. -/
def Pager (objects : Objects) (pfx delimiter : String) (m w : Nat)
    (page : Option String → Except S3Error ListBucketResult) : Prop :=
  ∀ token, ∃ p, page token = .ok p ∧ IsPage objects pfx delimiter m w (token.getD "") p ∧
    (p.isTruncated = true → ∀ c, cursor (isGroup pfx delimiter) m w
      (remaining objects pfx delimiter (token.getD "")) = some c →
        HandsOut objects pfx delimiter (token.getD "") c p)

/-- The entries a page lists. -/
def pageEntries (p : ListBucketResult) : List String := p.commonPrefixes ++ p.contents.map (·.1)

theorem IsPage.pageEntries {p : ListBucketResult} (isPage : IsPage objects pfx delimiter m w from_ p) :
    S3.pageEntries p = entries (isGroup pfx delimiter) m w (remaining objects pfx delimiter from_) := by
  rw [S3.pageEntries, isPage.prefixes, isPage.contents]
  rfl

theorem CursorFor.empty_iff {cursor c key : String}
    (good : CursorFor objects pfx delimiter cursor c key) : key = "" ↔ emptyName c = true := by
  rcases good with ⟨_, rfl⟩ | ⟨group, under, _, _⟩
  · simp [emptyName]
  · have nonempty := isGroup_ne_empty group
    refine iff_of_false ?_ (by rw [nonempty]; simp)
    intro empty
    subst empty
    have none : c = "" := by
      have : c.toList = [] := List.prefix_nil.mp under
      simpa using this
    simp [emptyName, none] at nonempty

/-- After an empty cursor the reading starts over and never ends. -/
theorem followPages_empty (pager : Pager objects pfx delimiter m w page) (fuel : Nat)
    (token : Option String)
    (more : truncated m w (remaining objects pfx delimiter (token.getD "")) = true)
    (hc : cursor (isGroup pfx delimiter) m w (remaining objects pfx delimiter (token.getD "")) =
      some "") : followPages page fuel token = none := by
  induction fuel generalizing token with
  | zero => rfl
  | succ fuel ih =>
    obtain ⟨p, hp, isPage, handsOut⟩ := pager token
    have hmore : p.isTruncated = true := isPage.truncated.trans more
    obtain ⟨key, good, _, empty⟩ := handsOut hmore "" hc
    rw [followPages, hp]
    simp only [hmore, if_true]
    rcases empty (good.empty_iff.mpr rfl) with none | some
    · rw [none]
    · -- the empty cursor can only come from the start, so the next page is this one
      have start : token.getD "" = "" := by
        obtain ⟨k, live, after, name⟩ := mem_remaining.mp (entries_subset (cursor_mem hc))
        have other : isGroup pfx delimiter (entryName pfx delimiter k) = false := by
          rw [name, Bool.eq_false_iff]
          intro group
          have nonempty := isGroup_ne_empty group
          simp [emptyName] at nonempty
        have key_empty : k = "" := (entryName_of_not_group live.matching other).1.symm.trans name
        subst key_empty
        rcases of_decide_eq_true after with empty | below
        · exact empty
        · exact absurd below (not_lt.mpr (HasPrefix.le List.nil_prefix))
      rw [some]
      have again := ih (Option.some "") (by rw [start] at more; exact more)
        (by rw [start] at hc; exact hc)
      simp only [again, Option.map_none]

theorem followPages_eq (hm : 0 < m) (pager : Pager objects pfx delimiter m w page) (fuel : Nat)
    (token : Option String) :
    (followPages page fuel token).map (·.map S3.pageEntries) =
      follow (isGroup pfx delimiter) emptyName m w fuel
        (remaining objects pfx delimiter (token.getD "")) := by
  induction fuel generalizing token with
  | zero => rfl
  | succ fuel ih =>
    obtain ⟨p, hp, isPage, handsOut⟩ := pager token
    cases more : truncated m w (remaining objects pfx delimiter (token.getD "")) with
    | false =>
      have last : p.isTruncated = false := isPage.truncated.trans more
      simp [followPages, hp, last, follow, more, isPage.pageEntries]
    | true =>
      have hmore : p.isTruncated = true := isPage.truncated.trans more
      obtain ⟨c, hc⟩ := cursor_of_truncated (isGroup pfx delimiter) hm more
      obtain ⟨key, good, next, _⟩ := handsOut hmore c hc
      by_cases stuck : emptyName c = true
      · have empty : c = "" := by simpa [emptyName] using stuck
        subst empty
        rw [followPages_empty pager (fuel + 1) token more hc]
        simp [follow, more, hc, stuck]
      · have usable : key ≠ "" := fun empty => stuck (good.empty_iff.mp empty)
        have rest := ih (some key)
        rw [Option.getD_some, remaining_cursor (entries_subset (cursor_mem hc)) good usable] at rest
        simp only [followPages, hp, hmore, if_true, next usable, follow, more, hc, stuck]
        rw [← rest, ← isPage.pageEntries]
        cases followPages page fuel (some key) <;> simp

/-! ## Complete listings -/

/-- The pages list every live matching key that is not grouped exactly once as
contents, every common prefix exactly once, and nothing else. -/
structure ListsOnce (objects : Objects) (pfx delimiter : String) (pages : List ListBucketResult) :
    Prop where
  contents_nodup : (pages.flatMap fun p => p.contents.map (·.1)).Nodup
  contents_iff : ∀ key, key ∈ (pages.flatMap fun p => p.contents.map (·.1)) ↔
    Live objects pfx key ∧ commonPrefix? pfx delimiter key = none
  prefixes_nodup : (pages.flatMap (·.commonPrefixes)).Nodup
  prefixes_iff : ∀ cp, cp ∈ pages.flatMap (·.commonPrefixes) ↔
    ∃ key, Live objects pfx key ∧ commonPrefix? pfx delimiter key = some cp

/-- Following the cursors from the first page ends, and lists everything once. -/
def ListingComplete (objects : Objects) (pfx delimiter : String)
    (page : Option String → Except S3Error ListBucketResult) : Prop :=
  ∃ fuel pages, followPages page fuel none = some pages ∧ ListsOnce objects pfx delimiter pages

theorem mem_remaining_group {cp : String} :
    cp ∈ (remaining objects pfx delimiter "").filter (isGroup pfx delimiter) ↔
      ∃ key, Live objects pfx key ∧ commonPrefix? pfx delimiter key = some cp := by
  rw [List.mem_filter, mem_remaining]
  constructor
  · intro h
    obtain ⟨⟨key, live, _, name⟩, group⟩ := h
    rw [← name, isGroup_entryName live.matching] at group
    obtain ⟨cp', grouped⟩ := Option.isSome_iff_exists.mp group
    refine ⟨key, live, ?_⟩
    rw [grouped, ← name]
    simp [entryName, grouped]
  · intro h
    obtain ⟨key, live, grouped⟩ := h
    have name : entryName pfx delimiter key = cp := by simp [entryName, grouped]
    refine ⟨⟨key, live, by simp [afterCursor], name⟩, ?_⟩
    rw [← name, isGroup_entryName live.matching, grouped]
    rfl

theorem mem_remaining_other {key : String} :
    key ∈ (remaining objects pfx delimiter "").filter (!isGroup pfx delimiter ·) ↔
      Live objects pfx key ∧ commonPrefix? pfx delimiter key = none := by
  rw [List.mem_filter, mem_remaining]
  constructor
  · intro h
    obtain ⟨⟨k, live, _, name⟩, other⟩ := h
    have single : isGroup pfx delimiter (entryName pfx delimiter k) = false := by
      rw [name]
      simpa using other
    obtain ⟨self, none⟩ := entryName_of_not_group live.matching single
    have same : k = key := self.symm.trans name
    exact same ▸ ⟨live, none⟩
  · intro h
    exact ⟨⟨key, h.1, by simp [afterCursor], by simp [entryName, h.2]⟩, by simp [isGroup, h.2]⟩

/-- The two kinds of entries on the pages of a reading. -/
theorem followPages_kinds (pager : Pager objects pfx delimiter m w page) {fuel : Nat}
    {token : Option String} {pages : List ListBucketResult}
    (hf : followPages page fuel token = some pages) :
    (pages.map S3.pageEntries).flatten.filter (isGroup pfx delimiter) =
        pages.flatMap (·.commonPrefixes) ∧
      (pages.map S3.pageEntries).flatten.filter (!isGroup pfx delimiter ·) =
        pages.flatMap fun p => p.contents.map (·.1) := by
  induction fuel generalizing token pages with
  | zero => cases hf
  | succ fuel ih =>
    obtain ⟨p, hp, isPage, _⟩ := pager token
    have kinds : (S3.pageEntries p).filter (isGroup pfx delimiter) = p.commonPrefixes ∧
        (S3.pageEntries p).filter (!isGroup pfx delimiter ·) = p.contents.map (·.1) := by
      have prefixesGroup : ∀ x ∈ p.commonPrefixes, isGroup pfx delimiter x = true := by
        rw [isPage.prefixes]
        exact fun x hx => (groups_subset hx).2
      have contentsOther : ∀ x ∈ p.contents.map (·.1), isGroup pfx delimiter x = false := by
        rw [isPage.contents]
        exact fun x hx => (others_subset hx).2
      constructor
      · rw [S3.pageEntries, List.filter_append, List.filter_eq_self.mpr prefixesGroup,
          List.filter_eq_nil_iff.mpr (fun x hx => by simp [contentsOther x hx]), List.append_nil]
      · rw [S3.pageEntries, List.filter_append,
          List.filter_eq_nil_iff.mpr (fun x hx => by simp [prefixesGroup x hx]),
          List.filter_eq_self.mpr (fun x hx => by simp [contentsOther x hx]), List.nil_append]
    rw [followPages, hp] at hf
    simp only at hf
    split at hf
    · split at hf
      · cases hf
      · obtain ⟨rest, hrest, rfl⟩ := Option.map_eq_some_iff.mp hf
        obtain ⟨restPrefixes, restContents⟩ := ih hrest
        simp [kinds.1, kinds.2, restPrefixes, restContents]
    · cases hf
      simpa using kinds

theorem listingComplete_iff (hm : 0 < m) (pager : Pager objects pfx delimiter m w page) :
    ListingComplete objects pfx delimiter page ↔
      Complete (isGroup pfx delimiter) emptyName m w (remaining objects pfx delimiter "") := by
  have sorted := remaining_sorted objects pfx delimiter ""
  have groupsNodup := (sorted.filter (isGroup pfx delimiter)).nodup
  have othersNodup := (sorted.filter (!isGroup pfx delimiter ·)).nodup
  constructor
  · intro complete
    obtain ⟨fuel, pages, hf, once⟩ := complete
    refine ⟨fuel, pages.map S3.pageEntries, ?_, ?_⟩
    · have eq := followPages_eq hm pager fuel none
      rw [hf] at eq
      exact eq.symm
    · obtain ⟨hprefixes, hcontents⟩ := followPages_kinds pager hf
      have split := (List.filter_append_perm (isGroup pfx delimiter)
        (pages.map S3.pageEntries).flatten).symm
      rw [hprefixes, hcontents] at split
      refine split.trans (List.Perm.trans ?_ (List.filter_append_perm (isGroup pfx delimiter) _))
      refine List.Perm.append ?_ ?_
      · rw [List.perm_ext_iff_of_nodup once.prefixes_nodup groupsNodup]
        exact fun cp => (once.prefixes_iff cp).trans mem_remaining_group.symm
      · rw [List.perm_ext_iff_of_nodup once.contents_nodup othersNodup]
        exact fun key => (once.contents_iff key).trans mem_remaining_other.symm
  · intro complete
    obtain ⟨fuel, names, hf, perm⟩ := complete
    have eq := followPages_eq hm pager fuel none
    rw [Option.getD_none, hf] at eq
    obtain ⟨pages, hpages, rfl⟩ := Option.map_eq_some_iff.mp eq
    obtain ⟨hprefixes, hcontents⟩ := followPages_kinds pager hpages
    have permPrefixes := perm.filter (isGroup pfx delimiter)
    have permContents := perm.filter (!isGroup pfx delimiter ·)
    rw [hprefixes] at permPrefixes
    rw [hcontents] at permContents
    exact ⟨fuel, pages, hpages, permContents.nodup_iff.mpr othersNodup,
      fun key => permContents.mem_iff.trans mem_remaining_other,
      permPrefixes.nodup_iff.mpr groupsNodup,
      fun cp => permPrefixes.mem_iff.trans mem_remaining_group⟩

end Follow

/-! ## The two handlers -/

/-- The objects of the bucket; none when it has no entry. -/
def S3Store.bucketObjects (store : S3Store) (bucket : String) : Objects :=
  store.objects[bucket]?.getD .empty

/-- The query with a cursor put into one of its parameters. -/
def withCursor (param : String) (q : QueryParams) : Option String → QueryParams
  | none => q
  | some cursor => q.insert param cursor

/-- Request the page after a continuation token. -/
def v2Page (store : S3Store) (path : String) (q : QueryParams) (token : Option String) :
    Except S3Error ListBucketResult :=
  handleListObjectsV2 store path (withCursor "continuation-token" q token)

/-- Request the page after a marker. -/
def v1Page (store : S3Store) (path : String) (q : QueryParams) (token : Option String) :
    Except S3Error ListBucketResult :=
  handleListObjects store path (withCursor "marker" q token)

theorem listObjectsPaged_eq (store : S3Store) (bucket pfx : String) (start : Option String)
    (maxResults : Nat) (delimiter : String) :
    listObjectsPaged store bucket pfx start maxResults delimiter =
      scanLoop pfx delimiter maxResults {} (keysAfter (store.bucketObjects bucket) pfx
        (start.getD "")) := by
  rw [listObjectsPaged, S3Store.bucketObjects, ← scanRange_eq]
  cases store.objects[bucket]? with
  | none => rfl
  | some objects => rfl

/-- `list_objects_paged` returns the first entries after its start. -/
theorem listObjectsPaged_covers (store : S3Store) (bucket pfx : String) (start : Option String)
    (maxResults : Nat) (delimiter : String) (hmax : 0 < maxResults) :
    Covers pfx delimiter
      ((remaining (store.bucketObjects bucket) pfx delimiter (start.getD "")).take maxResults)
      ((keysAfter (store.bucketObjects bucket) pfx (start.getD "")).map Prod.fst)
      (liveKeys (keysAfter (store.bucketObjects bucket) pfx (start.getD "")))
      (listObjectsPaged store bucket pfx start maxResults delimiter) := by
  rw [listObjectsPaged_eq]
  have none : Covers pfx delimiter (entriesOf pfx delimiter (liveKeys []))
      (([] : List (String × S3Object)).map Prod.fst) (liveKeys []) {} :=
    ⟨rfl, by simp [liveKeys, entriesOf], by simp⟩
  exact scanLoop_covers maxResults [] _ {} (keysAfter_sorted _ _ _)
    (fun k hk => (keysAfter_matching hk).1) rfl rfl none rfl hmax

theorem v2_pager {store : S3Store} {path bucket : String} {q : QueryParams}
    (hpath : bucketFromPath path = some bucket) (hbucket : store.bucketExists bucket = true)
    (noToken : q["continuation-token"]? = none) (noStart : q["start-after"]? = none) :
    Pager (store.bucketObjects bucket) (queryPrefix q) (queryDelimiter q) (queryMaxKeys q)
      (queryMaxKeys q + 1) (v2Page store path q) := by
  intro token
  have answer : v2Page store path q token = .ok (pageV2 bucket (queryPrefix q) (queryMaxKeys q)
      (listObjectsPaged store bucket (queryPrefix q) token (queryMaxKeys q + 1)
        (queryDelimiter q))) := by
    cases token with
    | none => simp [v2Page, withCursor, handleListObjectsV2, hpath, hbucket, noToken, noStart]
    | some t =>
      simp [v2Page, withCursor, handleListObjectsV2, hpath, hbucket, queryPrefix, queryMaxKeys,
        queryDelimiter, StrMap.getElem?_insert]
  have covers := listObjectsPaged_covers store bucket (queryPrefix q) token (queryMaxKeys q + 1)
    (queryDelimiter q) (by omega)
  exact ⟨_, answer, pageV2_isPage bucket covers, fun more c hc => pageV2_next bucket covers more hc⟩

theorem filterMap_listedItem (objects : Objects) (pfx : String) :
    ((StrMap.values objects.map).filterMap (listedItem pfx)).map (·.1) =
      (objects.map.toList.filter fun kv =>
        kv.2.current.isSome && RustStr.startsWith kv.1 pfx).map Prod.fst := by
  have keyed : ∀ kv ∈ objects.map.toList, kv.2.key = kv.1 := fun kv hkv =>
    objects.keyed kv.1 kv.2 (Std.ExtTreeMap.mem_toList_iff_getElem?_eq_some.mp hkv)
  rw [StrMap.values]
  generalize objects.map.toList = pairs at keyed ⊢
  induction pairs with
  | nil => rfl
  | cons kv rest ih =>
    have head := keyed kv (by simp)
    have tail := ih (fun kv' h => keyed kv' (by simp [h]))
    rw [List.map_cons, List.filterMap_cons, List.filter_cons, listedItem, head]
    cases live : kv.2.current with
    | none => simpa using tail
    | some v => cases starts : RustStr.startsWith kv.1 pfx <;> simpa using tail

/-- `all_items` holds the live matching keys after the marker. -/
theorem allItems_keys (store : S3Store) (bucket pfx marker : String) :
    (allItems store bucket pfx marker).map (·.1) =
      liveKeys (keysAfter (store.bucketObjects bucket) pfx marker) := by
  have items : ((store.listObjects bucket).filterMap (listedItem pfx)).map (·.1) =
      ((store.bucketObjects bucket).map.toList.filter fun kv =>
        kv.2.current.isSome && RustStr.startsWith kv.1 pfx).map Prod.fst := by
    rw [← filterMap_listedItem, S3Store.listObjects, S3Store.bucketObjects]
    cases store.objects[bucket]? with
    | none => rfl
    | some objects => rfl
  rw [allItems, liveKeys, keysAfter, List.filter_filter]
  split
  · next empty =>
    rw [items]
    refine congrArg _ (List.filter_congr ?_)
    intro kv _
    simp [afterCursor, empty]
  · next nonempty =>
    have pushed : (((store.listObjects bucket).filterMap (listedItem pfx)).filter
        fun item => decide (marker < item.1)).map (·.1) =
          (((store.listObjects bucket).filterMap (listedItem pfx)).map (·.1)).filter
            fun k => decide (marker < k) := by
      rw [List.filter_map]
      rfl
    rw [pushed, items, List.filter_map, List.filter_filter]
    refine congrArg _ (List.filter_congr ?_)
    intro kv _
    simp only [Function.comp_apply, afterCursor, nonempty, false_or]
    cases kv.2.current.isSome <;> cases RustStr.startsWith kv.1 pfx <;>
      cases decide (marker < kv.1) <;> rfl

theorem v1_pager {store : S3Store} {path bucket : String} {q : QueryParams}
    (hpath : bucketFromPath path = some bucket) (hbucket : store.bucketExists bucket = true)
    (noMarker : q["marker"]? = none) {w : Nat}
    (sight : ∀ marker, (remaining (store.bucketObjects bucket) (queryPrefix q) (queryDelimiter q)
      marker).length ≤ w) :
    Pager (store.bucketObjects bucket) (queryPrefix q) (queryDelimiter q) (queryMaxKeys q) w
      (v1Page store path q) := by
  intro token
  have answer : v1Page store path q token = .ok (pageV1 bucket (queryPrefix q) (queryDelimiter q)
      (queryMaxKeys q) (allItems store bucket (queryPrefix q) (token.getD ""))) := by
    cases token with
    | none => simp [v1Page, withCursor, handleListObjects, hpath, hbucket, noMarker]
    | some t =>
      simp [v1Page, withCursor, handleListObjects, hpath, hbucket, queryPrefix, queryMaxKeys,
        queryDelimiter, StrMap.getElem?_insert]
  have hitems := allItems_keys store bucket (queryPrefix q) (token.getD "")
  exact ⟨_, answer, pageV1_isPage bucket hitems (sight _),
    fun more c hc => pageV1_next bucket hitems (sight _) more hc⟩

/-- The entries of the whole listing, in name order. -/
def listingEntries (store : S3Store) (bucket : String) (q : QueryParams) : List String :=
  remaining (store.bucketObjects bucket) (queryPrefix q) (queryDelimiter q) ""

/-- Every boundary between two pages of `m` entries is aligned, for pages that see
`w` entries. -/
def BoundariesAligned (store : S3Store) (bucket : String) (q : QueryParams) (w : Nat) : Prop :=
  ∀ j, j * queryMaxKeys q + queryMaxKeys q < (listingEntries store bucket q).length →
    PagedListing.Aligned (isGroup (queryPrefix q) (queryDelimiter q)) emptyName (queryMaxKeys q) w
      ((listingEntries store bucket q).drop (j * queryMaxKeys q))

theorem remaining_length_le (objects : Objects) (pfx delimiter marker : String) :
    (remaining objects pfx delimiter marker).length ≤
      (remaining objects pfx delimiter "").length := by
  refine ((remaining_sorted objects pfx delimiter marker).nodup.subperm ?_).length_le
  intro name hname
  obtain ⟨key, live, _, hkey⟩ := mem_remaining.mp hname
  exact mem_remaining.mpr ⟨key, live, by simp [afterCursor], hkey⟩

/-- Following the cursors of either listing operation from its first page ends and
lists every key and every common prefix exactly once, if and only if every page
boundary is aligned: with the last entry of the page and the next one in sight for
ListObjectsV2, and with all entries in sight for ListObjects. -/
theorem listing_complete_iff (store : S3Store) (path bucket : String) (q : QueryParams)
    (hpath : bucketFromPath path = some bucket) (hbucket : store.bucketExists bucket = true)
    (noToken : q["continuation-token"]? = none) (noStart : q["start-after"]? = none)
    (noMarker : q["marker"]? = none) (positive : 1 ≤ queryMaxKeys q) :
    (ListingComplete (store.bucketObjects bucket) (queryPrefix q) (queryDelimiter q)
        (v2Page store path q) ↔ BoundariesAligned store bucket q (queryMaxKeys q + 1)) ∧
    (ListingComplete (store.bucketObjects bucket) (queryPrefix q) (queryDelimiter q)
        (v1Page store path q) ↔ BoundariesAligned store bucket q
          ((listingEntries store bucket q).length + queryMaxKeys q + 1)) := by
  have sorted := remaining_sorted (store.bucketObjects bucket) (queryPrefix q) (queryDelimiter q) ""
  have v2 := v2_pager hpath hbucket noToken noStart
  have v1 := v1_pager hpath hbucket noMarker (fun marker =>
    (remaining_length_le (store.bucketObjects bucket) (queryPrefix q) (queryDelimiter q)
      marker).trans (show _ ≤ (listingEntries store bucket q).length + queryMaxKeys q + 1 by
        unfold listingEntries; omega))
  constructor
  · rw [listingComplete_iff positive v2]
    exact PagedListing.complete_iff positive (by omega) (fun _ h => isGroup_ne_empty h) _ sorted
  · rw [listingComplete_iff positive v1]
    exact PagedListing.complete_iff positive (by omega) (fun _ h => isGroup_ne_empty h) _ sorted

/-! ## A group at a page boundary -/

theorem isGroup_ungrouped (pfx name : String) : isGroup pfx "" name = false := rfl

/-- A version with the given entity tag and no content. -/
def emptyVersion (etag : String) : ObjectVersion :=
  { versionId := "null"
    lastModified := 0
    etag := etag
    contentType := "application/octet-stream"
    size := 0
    metadata := ∅
    data := .inline []
    deleteMarker := false }

/-- A bucket with the keys `a`, `b/1` and `c`. -/
def threeKeys : S3Store :=
  ["a", "b/1", "c"].foldl (fun store key => (store.putObjectVersion "bk" key (emptyVersion key)).2)
    (({} : S3Store).createBucket 0 "bk" "us-east-1")

/-- Pages of two entries. -/
def pagesOfTwo : QueryParams := (∅ : QueryParams).insert "max-keys" "2"

/-- Pages of two entries, keys grouped at slashes. -/
def groupedPagesOfTwo : QueryParams := pagesOfTwo.insert "delimiter" "/"

theorem threeKeys_entries : listingEntries threeKeys "bk" pagesOfTwo = ["a", "b/1", "c"] ∧
    listingEntries threeKeys "bk" groupedPagesOfTwo = ["a", "b/", "c"] := by
  decide +kernel

/-- Without a delimiter both listings of the three keys are complete. -/
theorem listing_complete_iff_threeKeys :
    ListingComplete (threeKeys.bucketObjects "bk") "" "" (v2Page threeKeys "/bk" pagesOfTwo) ∧
    ListingComplete (threeKeys.bucketObjects "bk") "" "" (v1Page threeKeys "/bk" pagesOfTwo) := by
  have iffs := listing_complete_iff threeKeys "/bk" "bk" pagesOfTwo (by decide +kernel)
    (by decide +kernel) (by decide +kernel) (by decide +kernel) (by decide +kernel)
    (by decide +kernel)
  have two : queryMaxKeys pagesOfTwo = 2 := by decide +kernel
  have ungrouped : queryDelimiter pagesOfTwo = "" := by decide +kernel
  have unfiltered : queryPrefix pagesOfTwo = "" := by decide +kernel
  have aligned : ∀ w, BoundariesAligned threeKeys "bk" pagesOfTwo w := by
    intro w j hj
    rw [threeKeys_entries.1, two] at hj
    refine Or.inr ⟨fun o _ => ?_, ?_⟩
    · rw [ungrouped]
      exact isGroup_ungrouped _ o
    · have first : j = 0 := by
        simp only [List.length_cons, List.length_nil] at hj
        omega
      rw [first, threeKeys_entries.1, two]
      decide +kernel
  rw [two, ungrouped, unfiltered] at iffs
  exact ⟨iffs.1.mpr (aligned _), iffs.2.mpr (aligned _)⟩

/-- With the delimiter the first page is `b/` and `a` with the cursor `a`, so the
second one is `b/` and `c`: neither listing is complete. -/
theorem group_repeated_across_pages :
    bucketFromPath "/bk" = some "bk" ∧ threeKeys.bucketExists "bk" = true ∧
    1 ≤ queryMaxKeys groupedPagesOfTwo ∧
    ¬ ListingComplete (threeKeys.bucketObjects "bk") "" "/"
        (v2Page threeKeys "/bk" groupedPagesOfTwo) ∧
    ¬ ListingComplete (threeKeys.bucketObjects "bk") "" "/"
        (v1Page threeKeys "/bk" groupedPagesOfTwo) := by
  have hpath : bucketFromPath "/bk" = some "bk" := by decide +kernel
  have hbucket : threeKeys.bucketExists "bk" = true := by decide +kernel
  have two : queryMaxKeys groupedPagesOfTwo = 2 := by decide +kernel
  have grouped : queryDelimiter groupedPagesOfTwo = "/" := by decide +kernel
  have unfiltered : queryPrefix groupedPagesOfTwo = "" := by decide +kernel
  have entries := threeKeys_entries.2
  have sorted := remaining_sorted (threeKeys.bucketObjects "bk") "" "/" ""
  have v2 := v2_pager (q := groupedPagesOfTwo) hpath hbucket (by decide +kernel)
    (by decide +kernel)
  have v1 := v1_pager (q := groupedPagesOfTwo) hpath hbucket (by decide +kernel)
    (remaining_length_le _ _ _)
  rw [listingEntries, grouped, unfiltered] at entries
  rw [two, grouped, unfiltered] at v2
  rw [two, grouped, unfiltered, entries] at v1
  rw [entries] at sorted
  -- the boundary after `b/` has a key on one side and a group on the other
  have misaligned : ¬ PagedListing.Aligned (isGroup "" "/") emptyName 2 3 ["a", "b/", "c"] := by
    unfold PagedListing.Aligned
    decide +kernel
  refine ⟨hpath, hbucket, by rw [two]; omega, ?_, ?_⟩
  · intro complete
    rw [listingComplete_iff (by omega) v2, entries] at complete
    exact misaligned (complete.aligned (by omega) (by omega) sorted (by decide))
  · intro complete
    rw [listingComplete_iff (by omega) v1, entries] at complete
    exact misaligned (complete.aligned (by omega) (by decide) sorted (by decide))

end Openstack.S3

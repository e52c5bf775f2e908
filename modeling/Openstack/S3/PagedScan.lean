import Mathlib.Data.List.Dedup
import Mathlib.Data.List.Sort
import Openstack.S3.Listing

/-!
# The entries of a listing and the paged scan

The entries of a listing are the live keys that match the prefix and are not
grouped, and the common prefixes of those that are. Ordered by name, they come in
the order of the raw keys behind them. `list_objects_paged` returns the first of
them, and with each common prefix a key that is past everything live under it.
-/
namespace Openstack.S3

variable {key : String} {keys : List String} {st : Scan} {front : List (String × S3Object)}
  {obj : S3Object} {v : ObjectVersion}

/-! ## Names of entries -/

/-- `pat` is a prefix of `s`. -/
def HasPrefix (s pat : String) : Prop := pat.toList <+: s.toList

theorem startsWith_iff {s pat : String} : RustStr.startsWith s pat = true ↔ HasPrefix s pat :=
  List.isPrefixOf_iff_prefix

theorem not_append_lt (p rest : List Char) : ¬ p ++ rest < p := by
  induction p with
  | nil => exact List.not_lt_nil rest
  | cons c p ih =>
    rw [List.cons_append, List.cons_lt_cons_iff]
    intro h
    rcases h with head | ⟨_, tail⟩
    · exact absurd head (lt_irrefl c)
    · exact ih tail

theorem HasPrefix.le {s pat : String} (h : HasPrefix s pat) : pat ≤ s := by
  rw [String.le_iff_toList_le]
  obtain ⟨rest, eq⟩ := h
  rw [← eq]
  exact not_lt.mp (not_append_lt pat.toList rest)

theorem lt_of_not_prefixed {a b p : List Char} (lt : a < b) (hp : p <+: b) (hn : ¬ p <+: a) :
    a < p := by
  induction p generalizing a b with
  | nil => exact absurd List.nil_prefix hn
  | cons c p ih =>
    obtain ⟨rest, rfl⟩ := hp
    cases a with
    | nil => exact List.nil_lt_cons c p
    | cons d a =>
      rw [List.cons_append, List.cons_lt_cons_iff] at lt
      rw [List.cons_lt_cons_iff]
      rcases lt with head | ⟨rfl, tail⟩
      · exact Or.inl head
      · refine Or.inr ⟨rfl, ih tail (List.prefix_append p rest) ?_⟩
        intro h
        exact hn (List.cons_prefix_cons.mpr ⟨rfl, h⟩)

/-- A key below a key with the prefix, but without it, is below the prefix. -/
theorem lt_of_not_hasPrefix {a b p : String} (lt : a < b) (hp : HasPrefix b p)
    (hn : ¬ HasPrefix a p) : a < p :=
  String.lt_iff_toList_lt.mpr (lt_of_not_prefixed (String.lt_iff_toList_lt.mp lt) hp hn)

/-- Keys with one prefix are consecutive. -/
theorem HasPrefix.between {a b c p : String} (ha : HasPrefix a p) (hc : HasPrefix c p)
    (hab : a ≤ b) (hbc : b ≤ c) : HasPrefix b p := by
  by_contra hb
  have ne : b ≠ c := by
    intro eq
    exact hb (eq ▸ hc)
  have lt := lt_of_not_hasPrefix (lt_of_le_of_ne hbc ne) hc hb
  exact absurd (ha.le.trans hab) (not_le.mpr lt)

section Names

variable (pfx delimiter : String)

/-- The entry a key shows up as. -/
def entryName (key : String) : String := (commonPrefix? pfx delimiter key).getD key

/-- The entry is a common prefix. -/
def isGroup (name : String) : Bool := (commonPrefix? pfx delimiter name).isSome

variable {pfx delimiter}

theorem commonPrefix?_spec {key cp : String} (matching : HasPrefix key pfx)
    (grouped : commonPrefix? pfx delimiter key = some cp) :
    HasPrefix key cp ∧ ∀ other, HasPrefix other cp → commonPrefix? pfx delimiter other = some cp := by
  unfold commonPrefix? at grouped
  split at grouped
  · cases grouped
  · next nonempty =>
    obtain ⟨x, hx, rfl⟩ := Option.map_eq_some_iff.mp grouped
    constructor
    · unfold HasPrefix
      rw [String.toList_ofList, List.append_assoc]
      obtain ⟨suffix, eq⟩ := matching
      rw [← eq, List.drop_left] at hx
      rw [← eq]
      exact (List.prefix_append_right_inj pfx.toList).mpr (RustStr.before_isPrefix hx)
    · intro other hother
      unfold HasPrefix at hother
      rw [String.toList_ofList, List.append_assoc] at hother
      obtain ⟨rest, eq⟩ := hother
      rw [List.append_assoc] at eq
      have again : RustStr.before delimiter.toList (other.toList.drop pfx.toList.length) =
          some x := by
        refine RustStr.before_eq_of_isPrefix hx ?_
        rw [← eq, List.drop_left]
        exact List.prefix_append _ _
      simp [commonPrefix?, nonempty, again]

theorem hasPrefix_entryName (matching : HasPrefix key pfx) :
    HasPrefix key (entryName pfx delimiter key) := by
  unfold entryName
  cases grouped : commonPrefix? pfx delimiter key with
  | none => exact List.prefix_rfl
  | some cp => exact (commonPrefix?_spec matching grouped).1

/-- A common prefix is grouped under itself. -/
theorem isGroup_entryName (matching : HasPrefix key pfx) :
    isGroup pfx delimiter (entryName pfx delimiter key) =
      (commonPrefix? pfx delimiter key).isSome := by
  unfold entryName isGroup
  cases grouped : commonPrefix? pfx delimiter key with
  | none => simp [grouped]
  | some cp =>
    have self := (commonPrefix?_spec matching grouped).2 cp List.prefix_rfl
    simp [self]

theorem entryName_mono {a b : String} (ha : HasPrefix a pfx) (hb : HasPrefix b pfx)
    (le : a ≤ b) : entryName pfx delimiter a ≤ entryName pfx delimiter b := by
  by_cases shared : HasPrefix a (entryName pfx delimiter b)
  · cases grouped : commonPrefix? pfx delimiter b with
    | none =>
      have same : entryName pfx delimiter b = b := by simp [entryName, grouped]
      rw [same] at shared
      rw [le_antisymm le shared.le]
    | some cp =>
      have name : entryName pfx delimiter b = cp := by simp [entryName, grouped]
      rw [name] at shared
      have again := (commonPrefix?_spec hb grouped).2 a shared
      simp [entryName, grouped, again]
  · have ne : a ≠ b := by
      intro eq
      rw [eq] at shared
      exact shared (hasPrefix_entryName hb)
    have lt := lt_of_not_hasPrefix (lt_of_le_of_ne le ne) (hasPrefix_entryName hb) shared
    exact (hasPrefix_entryName ha).le.trans lt.le

end Names

/-! ## Entries of a list of keys -/

section Entries

variable (pfx delimiter : String)

/-- The entries of the keys, each once. -/
def entriesOf (keys : List String) : List String := (keys.map (entryName pfx delimiter)).dedup

variable {pfx delimiter}

theorem mem_entriesOf {name : String} :
    name ∈ entriesOf pfx delimiter keys ↔ ∃ key ∈ keys, entryName pfx delimiter key = name := by
  simp [entriesOf]

/-- Sorted keys have sorted entries. -/
theorem entriesOf_sorted (sorted : keys.Pairwise (· < ·)) (matching : ∀ key ∈ keys, HasPrefix key pfx) :
    (entriesOf pfx delimiter keys).Pairwise (· < ·) := by
  have weak : (keys.map (entryName pfx delimiter)).Pairwise (· ≤ ·) := by
    rw [List.pairwise_map]
    refine sorted.imp_of_mem ?_
    intro a b ha hb lt
    exact entryName_mono (matching a ha) (matching b hb) lt.le
  have le := weak.sublist (List.dedup_sublist _)
  have ne : (entriesOf pfx delimiter keys).Pairwise (· ≠ ·) := List.nodup_dedup _
  exact (le.and ne).imp (fun h => lt_of_le_of_ne h.1 h.2)

/-- Strictly sorted lists with the same members are the same. -/
theorem sorted_ext {a b : List String} (ha : a.Pairwise (· < ·)) (hb : b.Pairwise (· < ·))
    (same : ∀ x, x ∈ a ↔ x ∈ b) : a = b :=
  ha.eq_of_mem_iff hb same

/-- The entries of a front part come first. -/
theorem entriesOf_append {front rest : List String}
    (sorted : (front ++ rest).Pairwise (· < ·))
    (matching : ∀ key ∈ front ++ rest, HasPrefix key pfx) :
    entriesOf pfx delimiter (front ++ rest) = entriesOf pfx delimiter front ++
      (entriesOf pfx delimiter rest).filter (fun o => decide (o ∉ entriesOf pfx delimiter front)) := by
  have parts := List.pairwise_append.mp sorted
  have frontMatching : ∀ key ∈ front, HasPrefix key pfx := fun key hk => matching key (by simp [hk])
  have restMatching : ∀ key ∈ rest, HasPrefix key pfx := fun key hk => matching key (by simp [hk])
  refine sorted_ext (entriesOf_sorted sorted matching) ?_ ?_
  · refine List.pairwise_append.mpr ⟨entriesOf_sorted parts.1 frontMatching,
      (entriesOf_sorted parts.2.1 restMatching).filter _, ?_⟩
    intro a ha b hb
    obtain ⟨hb, fresh⟩ := List.mem_filter.mp hb
    obtain ⟨ka, hka, rfl⟩ := mem_entriesOf.mp ha
    obtain ⟨kb, hkb, rfl⟩ := mem_entriesOf.mp hb
    refine lt_of_le_of_ne (entryName_mono (frontMatching ka hka) (restMatching kb hkb)
      (parts.2.2 ka hka kb hkb).le) ?_
    intro eq
    rw [← eq] at fresh
    simp [ha] at fresh
  · intro x
    simp only [List.mem_append, List.mem_filter, mem_entriesOf, decide_eq_true_eq]
    constructor
    · intro h
      obtain ⟨key, hkey, hname⟩ := h
      by_cases known : ∃ k ∈ front, entryName pfx delimiter k = x
      · exact Or.inl known
      · rcases hkey with hfront | hrest
        · exact Or.inl ⟨key, hfront, hname⟩
        · exact Or.inr ⟨⟨key, hrest, hname⟩, known⟩
    · intro h
      rcases h with ⟨key, hkey, hname⟩ | ⟨⟨key, hkey, hname⟩, _⟩
      · exact ⟨key, Or.inl hkey, hname⟩
      · exact ⟨key, Or.inr hkey, hname⟩

/-- One more key adds its entry at the end, if it is new. -/
theorem entriesOf_concat {front : List String} (sorted : (front ++ [key]).Pairwise (· < ·))
    (matching : ∀ k ∈ front ++ [key], HasPrefix k pfx) :
    entriesOf pfx delimiter (front ++ [key]) =
      if entryName pfx delimiter key ∈ entriesOf pfx delimiter front then
        entriesOf pfx delimiter front
      else entriesOf pfx delimiter front ++ [entryName pfx delimiter key] := by
  rw [entriesOf_append sorted matching]
  have single : entriesOf pfx delimiter [key] = [entryName pfx delimiter key] := rfl
  rw [single]
  split
  · next known => simp [known]
  · next fresh => simp [fresh]

/-- With as many entries in a front part as asked for, the rest does not matter. -/
theorem entriesOf_take_of_length {front rest : List String} {n : Nat}
    (sorted : (front ++ rest).Pairwise (· < ·))
    (matching : ∀ key ∈ front ++ rest, HasPrefix key pfx)
    (length : (entriesOf pfx delimiter front).length = n) :
    (entriesOf pfx delimiter (front ++ rest)).take n = entriesOf pfx delimiter front := by
  rw [entriesOf_append sorted matching, List.take_append_of_le_length length.ge,
    List.take_of_length_le length.le]

end Entries

/-! ## The paged scan -/

/-- The keys whose current version is an object, in the order of the list. -/
def liveKeys (raw : List (String × S3Object)) : List String :=
  (raw.filter fun kv => kv.2.current.isSome).map Prod.fst

theorem liveKeys_append (a b : List (String × S3Object)) :
    liveKeys (a ++ b) = liveKeys a ++ liveKeys b := by
  simp [liveKeys]

theorem liveKeys_subset {raw : List (String × S3Object)} (h : key ∈ liveKeys raw) : key ∈ raw.map Prod.fst := by
  obtain ⟨kv, hkv, rfl⟩ := List.mem_map.mp h
  exact List.mem_map_of_mem (List.mem_of_mem_filter hkv)

theorem liveKeys_sorted {raw : List (String × S3Object)}
    (sorted : (raw.map Prod.fst).Pairwise (· < ·)) : (liveKeys raw).Pairwise (· < ·) :=
  sorted.sublist (List.filter_sublist.map _)

section Scan

variable {pfx delimiter : String}

/-- The result holds the entries `E`, and with each common prefix a key under it
that is no earlier than any live key under it. -/
structure Covers (pfx delimiter : String) (E keys live : List String) (res : ListPagedResult) :
    Prop where
  contents : res.contents.map (·.1) = E.filter (!isGroup pfx delimiter ·)
  prefixes : ∀ cp : String, (res.commonPrefixes[cp]?).isSome = true ↔
    cp ∈ E ∧ isGroup pfx delimiter cp = true
  cursors : ∀ cp v : String, res.commonPrefixes[cp]? = some v →
    v ∈ keys ∧ HasPrefix v cp ∧ ∀ k ∈ live, HasPrefix k cp → k ≤ v

/-- Keys under none of the prefixes change nothing. -/
theorem Covers.extend {E keys live keys' live' : List String} {res : ListPagedResult}
    (covers : Covers pfx delimiter E keys live res) (more : keys ⊆ keys')
    (outside : ∀ k ∈ live', k ∈ live ∨ ∀ cp ∈ E, isGroup pfx delimiter cp = true → ¬ HasPrefix k cp) :
    Covers pfx delimiter E keys' live' res := by
  refine ⟨covers.contents, covers.prefixes, ?_⟩
  intro cp v hv
  obtain ⟨mem, under, last⟩ := covers.cursors cp v hv
  refine ⟨more mem, under, ?_⟩
  intro k hk hkcp
  have group := (covers.prefixes cp).mp (by rw [hv]; rfl)
  rcases outside k hk with old | none
  · exact last k old hkcp
  · exact absurd hkcp (none cp group.1 group.2)

/-- A group among the entries of matching keys names every key under it. -/
theorem entryName_of_group (matching : ∀ k ∈ keys, HasPrefix k pfx)
    {cp : String} (mem : cp ∈ entriesOf pfx delimiter keys)
    (group : isGroup pfx delimiter cp = true) {k : String} (under : HasPrefix k cp) :
    entryName pfx delimiter k = cp := by
  obtain ⟨key, hkey, rfl⟩ := mem_entriesOf.mp mem
  rw [isGroup_entryName (matching key hkey)] at group
  obtain ⟨cp, hcp⟩ := Option.isSome_iff_exists.mp group
  have name : entryName pfx delimiter key = cp := by simp [entryName, hcp]
  rw [name] at under ⊢
  have again := (commonPrefix?_spec (matching key hkey) hcp).2 k under
  simp [entryName, again]

/-- A later key is under no group before the entry of an earlier one. -/
theorem not_under_earlier (matching : ∀ k ∈ keys, HasPrefix k pfx)
    {cp x k : String} (mem : cp ∈ entriesOf pfx delimiter keys)
    (group : isGroup pfx delimiter cp = true) (hx : HasPrefix x pfx) (hk : HasPrefix k pfx)
    (lt : x < k) (before : cp < entryName pfx delimiter x) : ¬ HasPrefix k cp := by
  intro under
  have name := entryName_of_group matching mem group under
  have le : entryName pfx delimiter x ≤ entryName pfx delimiter k := entryName_mono hx hk lt.le
  rw [name] at le
  exact absurd before (not_lt.mpr le)

theorem Scan.finish_contents (st : Scan) : st.finish.contents = st.result.contents := by
  unfold Scan.finish
  split <;> rfl

theorem Scan.finish_other {lcp cp : String} (mode : st.lastNewCp = some lcp)
    (ne : lcp ≠ cp) : st.finish.commonPrefixes[cp]? = st.result.commonPrefixes[cp]? := by
  rw [Scan.finish, mode]
  cases st.cursorUpdate with
  | none => rfl
  | some k => simp only [StrMap.getElem?_insert, ne, if_false]

theorem Scan.finish_cursor {lcp key cp : String} (mode : st.lastNewCp = some lcp)
    (update : st.cursorUpdate = some key) :
    st.finish.commonPrefixes[cp]? =
      if lcp = cp then some key else st.result.commonPrefixes[cp]? := by
  rw [Scan.finish, mode, update]
  exact StrMap.getElem?_insert _ _ _ _

/-- Looking for the last key under the last prefix keeps the entries. -/
theorem scanLoop_cursor (maxResults : Nat) {E : List String} {lcp : String}
    (names : ∀ cp ∈ E, isGroup pfx delimiter cp = true → ∀ k, HasPrefix k cp →
      entryName pfx delimiter k = cp)
    (hlcp : lcp ∈ E) (group : isGroup pfx delimiter lcp = true) (top : ∀ cp ∈ E, cp ≤ lcp)
    (front rest : List (String × S3Object)) (st : Scan)
    (sorted : ((front ++ rest).map Prod.fst).Pairwise (· < ·))
    (matching : ∀ k ∈ (front ++ rest).map Prod.fst, HasPrefix k pfx)
    (mode : st.lastNewCp = some lcp)
    (covers : Covers pfx delimiter E (front.map Prod.fst) (liveKeys front) st.finish) :
    Covers pfx delimiter E ((front ++ rest).map Prod.fst) (liveKeys (front ++ rest))
      (scanLoop pfx delimiter maxResults st rest) := by
  induction rest generalizing front st with
  | nil => simpa [scanLoop] using covers
  | cons kv rest ih =>
    obtain ⟨key, obj⟩ := kv
    have split : front ++ (key, obj) :: rest = (front ++ [(key, obj)]) ++ rest := by simp
    have order : ∀ v ∈ front.map Prod.fst, ∀ k ∈ ((key, obj) :: rest).map Prod.fst, v < k := by
      rw [List.map_append] at sorted
      exact (List.pairwise_append.mp sorted).2.2
    obtain ⟨result, count, lastNewCp, update⟩ := st
    subst mode
    rw [scanLoop]
    simp only
    by_cases under : RustStr.startsWith key lcp = true
    · rw [if_pos under, split]
      have hunder := startsWith_iff.mp under
      refine ih (front ++ [(key, obj)]) _ (split ▸ sorted) (split ▸ matching) rfl ?_
      refine ⟨by simpa only [Scan.finish_contents] using covers.contents, ?_, ?_⟩
      · intro cp
        rw [Scan.finish_cursor rfl rfl]
        by_cases same : lcp = cp
        · subst same
          simp [hlcp, group]
        · rw [if_neg same]
          have old := covers.prefixes cp
          rw [Scan.finish_other rfl same] at old
          exact old
      · intro cp v hv
        rw [Scan.finish_cursor rfl rfl] at hv
        by_cases same : lcp = cp
        · subst same
          rw [if_pos rfl] at hv
          cases hv
          refine ⟨by simp, hunder, ?_⟩
          intro k hk _
          rw [liveKeys_append, List.mem_append] at hk
          rcases hk with old | new
          · exact (order k (liveKeys_subset old) key (by simp)).le
          · have : k = key := by simpa using liveKeys_subset new
            exact this.le
        · rw [if_neg same] at hv
          have hold : (Scan.finish ⟨result, count, some lcp, update⟩).commonPrefixes[cp]? =
              some v := (Scan.finish_other rfl same).trans hv
          obtain ⟨mem, hvcp, last⟩ := covers.cursors cp v hold
          have hcp := (covers.prefixes cp).mp (by rw [hold]; rfl)
          refine ⟨by simp [mem], hvcp, ?_⟩
          intro k hk hkcp
          rw [liveKeys_append, List.mem_append] at hk
          rcases hk with old | new
          · exact last k old hkcp
          · have : k = key := by simpa using liveKeys_subset new
            subst this
            exact absurd ((names lcp hlcp group k hunder).symm.trans (names cp hcp.1 hcp.2 k hkcp)) same
    · rw [if_neg under]
      obtain ⟨v, hv⟩ := Option.isSome_iff_exists.mp ((covers.prefixes lcp).mpr ⟨hlcp, group⟩)
      obtain ⟨hvmem, hvlcp, _⟩ := covers.cursors lcp v hv
      have vname := names lcp hlcp group v hvlcp
      refine covers.extend (by simp) ?_
      intro k hk
      rw [liveKeys_append, List.mem_append] at hk
      rcases hk with old | new
      · exact Or.inl old
      · refine Or.inr ?_
        intro cp hcp hgroup hkcp
        have hkmem := liveKeys_subset new
        have lt := order v hvmem k hkmem
        have hkpfx : HasPrefix k pfx :=
          matching k (by rw [List.map_append, List.mem_append]; exact Or.inr hkmem)
        have hvpfx : HasPrefix v pfx :=
          matching v (by rw [List.map_append, List.mem_append]; exact Or.inl hvmem)
        have le : entryName pfx delimiter v ≤ entryName pfx delimiter k :=
          entryName_mono hvpfx hkpfx lt.le
        rw [vname, names cp hcp hgroup k hkcp] at le
        have same : cp = lcp := le_antisymm (top cp hcp) le
        subst same
        have keyLe : key ≤ k := by
          rw [List.map_append] at sorted
          rcases List.mem_cons.mp hkmem with eq | later
          · exact eq.ge
          · exact ((List.pairwise_cons.mp (List.pairwise_append.mp sorted).2.1).1 k later).le
        have hkey := hvlcp.between hkcp (order v hvmem key (by simp)).le keyLe
        exact under (startsWith_iff.mpr hkey)

theorem liveKeys_concat_live (live : obj.current = some v) :
    liveKeys (front ++ [(key, obj)]) = liveKeys front ++ [key] := by
  simp [liveKeys, live]

theorem liveKeys_concat_dead (dead : obj.current = none) : liveKeys (front ++ [(key, obj)]) = liveKeys front := by
  simp [liveKeys, dead]

theorem liveKeys_matching {raw : List (String × S3Object)}
    (matching : ∀ k ∈ raw.map Prod.fst, HasPrefix k pfx) : ∀ k ∈ liveKeys raw, HasPrefix k pfx :=
  fun k live => matching k (liveKeys_subset live)

section Concat

variable (live : obj.current = some v)
  (sorted : ((front ++ [(key, obj)]).map Prod.fst).Pairwise (· < ·))
  (matching : ∀ k ∈ (front ++ [(key, obj)]).map Prod.fst, HasPrefix k pfx)
  (covers : Covers pfx delimiter (entriesOf pfx delimiter (liveKeys front))
    (front.map Prod.fst) (liveKeys front) st.result)

include sorted in
theorem liveKeys_lt_last : ∀ k ∈ liveKeys front, k < key := by
  intro k hk
  rw [List.map_append] at sorted
  exact (List.pairwise_append.mp sorted).2.2 k (liveKeys_subset hk) key (by simp)

include matching in
theorem liveKeys_front_matching : ∀ k ∈ liveKeys front, HasPrefix k pfx := by
  intro k hk
  exact matching k (by rw [List.map_append, List.mem_append]; exact Or.inl (liveKeys_subset hk))

variable (delimiter) in
include live sorted matching in
theorem entriesOf_concat_live : entriesOf pfx delimiter (liveKeys (front ++ [(key, obj)])) =
    if entryName pfx delimiter key ∈ entriesOf pfx delimiter (liveKeys front) then
      entriesOf pfx delimiter (liveKeys front)
    else entriesOf pfx delimiter (liveKeys front) ++ [entryName pfx delimiter key] := by
  have all := liveKeys_sorted sorted
  have each := liveKeys_matching matching
  rw [liveKeys_concat_live live] at all each ⊢
  exact entriesOf_concat all each

include live matching covers in
/-- A group that does not name the key keeps its cursor. -/
theorem Covers.cursor_concat {cp c : String} (held : st.result.commonPrefixes[cp]? = some c)
    (other : entryName pfx delimiter key ≠ cp) :
    c ∈ (front ++ [(key, obj)]).map Prod.fst ∧ HasPrefix c cp ∧
      ∀ k ∈ liveKeys (front ++ [(key, obj)]), HasPrefix k cp → k ≤ c := by
  obtain ⟨mem, under, last⟩ := covers.cursors cp c held
  have group := (covers.prefixes cp).mp (by rw [held]; rfl)
  refine ⟨by simp [mem], under, ?_⟩
  intro k hk hkcp
  rw [liveKeys_concat_live live, List.mem_append] at hk
  rcases hk with old | new
  · exact last k old hkcp
  · rw [List.mem_singleton.mp new] at hkcp
    exact absurd (entryName_of_group (liveKeys_front_matching matching) group.1 group.2 hkcp) other

include live sorted matching covers in
/-- A live key that is not grouped adds itself. -/
theorem Covers.addContent (single : commonPrefix? pfx delimiter key = none) :
    Covers pfx delimiter (entriesOf pfx delimiter (liveKeys (front ++ [(key, obj)])))
        ((front ++ [(key, obj)]).map Prod.fst) (liveKeys (front ++ [(key, obj)]))
        (st.addContent key v).result ∧
      entriesOf pfx delimiter (liveKeys (front ++ [(key, obj)])) =
        entriesOf pfx delimiter (liveKeys front) ++ [key] := by
  have name : entryName pfx delimiter key = key := by simp [entryName, single]
  have other : isGroup pfx delimiter key = false := by simp [isGroup, single]
  have fresh : key ∉ entriesOf pfx delimiter (liveKeys front) := by
    intro mem
    obtain ⟨k, hk, hname⟩ := mem_entriesOf.mp mem
    have le : entryName pfx delimiter k ≤ k :=
      (hasPrefix_entryName (liveKeys_front_matching matching k hk)).le
    rw [hname] at le
    exact absurd (liveKeys_lt_last sorted k hk) (not_lt.mpr le)
  have grown := entriesOf_concat_live delimiter live sorted matching
  rw [name, if_neg fresh] at grown
  refine ⟨⟨?_, ?_, ?_⟩, grown⟩
  · rw [grown, List.filter_append]
    simp [Scan.addContent, covers.contents, other]
  · intro cp
    rw [grown, List.mem_append, List.mem_singleton]
    refine (covers.prefixes cp).trans ?_
    constructor
    · intro h
      exact ⟨Or.inl h.1, h.2⟩
    · intro h
      rcases h.1 with old | new
      · exact ⟨old, h.2⟩
      · rw [new, other] at h
        cases h.2
  · intro cp c hc
    have group := (covers.prefixes cp).mp (by rw [show st.result.commonPrefixes[cp]? = some c from hc]; rfl)
    refine Covers.cursor_concat live matching covers hc ?_
    rw [name]
    rintro rfl
    rw [other] at group
    cases group.2

theorem Scan.addPrefix_result (st : Scan) (maxResults : Nat) (cp key : String) :
    (st.addPrefix maxResults cp key).result =
      { st.result with commonPrefixes := st.result.commonPrefixes.insert cp key } := by
  unfold Scan.addPrefix
  simp only
  split <;> rfl

include live sorted matching covers in
/-- A grouped key adds its common prefix, or moves its cursor on. -/
theorem Covers.addPrefix {cp : String} (maxResults : Nat)
    (grouped : commonPrefix? pfx delimiter key = some cp) :
    Covers pfx delimiter (entriesOf pfx delimiter (liveKeys (front ++ [(key, obj)])))
        ((front ++ [(key, obj)]).map Prod.fst) (liveKeys (front ++ [(key, obj)]))
        (st.addPrefix maxResults cp key).result ∧
      entriesOf pfx delimiter (liveKeys (front ++ [(key, obj)])) =
        if (st.result.commonPrefixes[cp]?).isSome then entriesOf pfx delimiter (liveKeys front)
        else entriesOf pfx delimiter (liveKeys front) ++ [cp] := by
  obtain ⟨hkeycp, same⟩ := commonPrefix?_spec (matching key (by simp)) grouped
  have name : entryName pfx delimiter key = cp := by simp [entryName, grouped]
  have group : isGroup pfx delimiter cp = true := by
    simp [isGroup, same cp List.prefix_rfl]
  have known : (st.result.commonPrefixes[cp]?).isSome = true ↔
      cp ∈ entriesOf pfx delimiter (liveKeys front) := by
    rw [covers.prefixes cp]
    exact ⟨fun h => h.1, fun h => ⟨h, group⟩⟩
  have grown := entriesOf_concat_live delimiter live sorted matching
  rw [name] at grown
  have members : ∀ x, x ∈ entriesOf pfx delimiter (liveKeys (front ++ [(key, obj)])) ↔
      x ∈ entriesOf pfx delimiter (liveKeys front) ∨ x = cp := by
    intro x
    rw [grown]
    split
    · next here => exact (or_iff_left_of_imp fun eq => eq ▸ here).symm
    · simp
  simp only [← known] at grown
  refine ⟨⟨?_, ?_, ?_⟩, grown⟩
  · rw [Scan.addPrefix_result, grown]
    split
    · exact covers.contents
    · rw [List.filter_append]
      simp [covers.contents, group]
  · intro x
    rw [Scan.addPrefix_result, members]
    simp only [StrMap.getElem?_insert]
    by_cases eq : cp = x
    · subst eq
      simp [group]
    · rw [if_neg eq, covers.prefixes x]
      simp [Ne.symm eq]
  · intro x c hc
    rw [Scan.addPrefix_result] at hc
    simp only [StrMap.getElem?_insert] at hc
    split at hc
    · next eq =>
      subst eq
      cases hc
      refine ⟨by simp, hkeycp, ?_⟩
      intro k hk _
      rw [liveKeys_concat_live live, List.mem_append] at hk
      rcases hk with old | new
      · exact (liveKeys_lt_last sorted k old).le
      · exact (List.mem_singleton.mp new).le
    · next ne => exact Covers.cursor_concat live matching covers hc (name.trans_ne ne)

end Concat

/-- The scan returns the first `maxResults` entries of the live keys it runs over. -/
theorem scanLoop_covers (maxResults : Nat) (front rest : List (String × S3Object)) (st : Scan)
    (sorted : ((front ++ rest).map Prod.fst).Pairwise (· < ·))
    (matching : ∀ k ∈ (front ++ rest).map Prod.fst, HasPrefix k pfx)
    (mode : st.lastNewCp = none) (update : st.cursorUpdate = none)
    (covers : Covers pfx delimiter (entriesOf pfx delimiter (liveKeys front))
      (front.map Prod.fst) (liveKeys front) st.result)
    (count : st.distinctCount = (entriesOf pfx delimiter (liveKeys front)).length)
    (room : st.distinctCount < maxResults) :
    Covers pfx delimiter ((entriesOf pfx delimiter (liveKeys (front ++ rest))).take maxResults)
      ((front ++ rest).map Prod.fst) (liveKeys (front ++ rest))
      (scanLoop pfx delimiter maxResults st rest) := by
  induction rest generalizing front st with
  | nil =>
    rw [List.append_nil, List.take_of_length_le (by omega), scanLoop, Scan.finish, mode]
    exact covers
  | cons kv rest ih =>
    obtain ⟨key, obj⟩ := kv
    have split : front ++ (key, obj) :: rest = (front ++ [(key, obj)]) ++ rest := by simp
    rw [split] at sorted matching ⊢
    have sortedFront : ((front ++ [(key, obj)]).map Prod.fst).Pairwise (· < ·) := by
      rw [List.map_append] at sorted
      exact (List.pairwise_append.mp sorted).1
    have matchingFront : ∀ k ∈ (front ++ [(key, obj)]).map Prod.fst, HasPrefix k pfx := by
      intro k hk
      exact matching k (by rw [List.map_append, List.mem_append]; exact Or.inl hk)
    have liveMatching := liveKeys_matching matchingFront
    -- once the front part has `maxResults` entries, the entries are settled
    have settled : (entriesOf pfx delimiter (liveKeys (front ++ [(key, obj)]))).length = maxResults →
        (entriesOf pfx delimiter (liveKeys (front ++ [(key, obj)] ++ rest))).take maxResults =
          entriesOf pfx delimiter (liveKeys (front ++ [(key, obj)])) := by
      intro length
      have all := liveKeys_sorted sorted
      rw [liveKeys_append] at all ⊢
      refine entriesOf_take_of_length all ?_ length
      intro k hk
      rw [← liveKeys_append] at hk
      exact matching k (liveKeys_subset hk)
    have entriesSorted : (entriesOf pfx delimiter (liveKeys (front ++ [(key, obj)]))).Pairwise
        (· < ·) := entriesOf_sorted (liveKeys_sorted sortedFront) liveMatching
    rw [scanLoop]
    simp only [mode]
    cases live : obj.current with
    | none =>
      simp only
      have same : liveKeys (front ++ [(key, obj)]) = liveKeys front := liveKeys_concat_dead live
      refine ih (front ++ [(key, obj)]) st sorted matching mode update ?_ ?_ room
      · rw [same]
        exact covers.extend (by simp) (fun k hk => Or.inl hk)
      · rw [same]
        exact count
    | some v =>
      simp only
      cases grouped : commonPrefix? pfx delimiter key with
      | some cp =>
        simp only
        obtain ⟨covers', grown⟩ := Covers.addPrefix live sortedFront matchingFront covers
          maxResults grouped
        cases known : (st.result.commonPrefixes[cp]?).isSome with
        | true =>
          have step : (st.addPrefix maxResults cp key).lastNewCp = none ∧
              (st.addPrefix maxResults cp key).cursorUpdate = none ∧
              (st.addPrefix maxResults cp key).distinctCount = st.distinctCount := by
            simp [Scan.addPrefix, Std.ExtTreeMap.contains_eq_isSome_getElem?, known, mode, update]
          rw [known] at grown
          refine ih (front ++ [(key, obj)]) _ sorted matching step.1 step.2.1 covers' ?_ ?_
          · rw [step.2.2, count, grown]
            rfl
          · rw [step.2.2]
            exact room
        | false =>
          have step : (st.addPrefix maxResults cp key).lastNewCp =
                (if st.distinctCount + 1 ≥ maxResults then some cp else none) ∧
              (st.addPrefix maxResults cp key).cursorUpdate = none ∧
              (st.addPrefix maxResults cp key).distinctCount = st.distinctCount + 1 := by
            simp [Scan.addPrefix, Std.ExtTreeMap.contains_eq_isSome_getElem?, known, update]
          rw [known] at grown
          have length : (entriesOf pfx delimiter (liveKeys (front ++ [(key, obj)]))).length =
              st.distinctCount + 1 := by
            rw [grown, count]
            simp
          by_cases full : st.distinctCount + 1 ≥ maxResults
          · rw [if_pos full] at step
            rw [settled (by omega)]
            have finished : (st.addPrefix maxResults cp key).finish =
                (st.addPrefix maxResults cp key).result := by
              rw [Scan.finish, step.1, step.2.1]
            have hcp : cp ∈ entriesOf pfx delimiter (liveKeys (front ++ [(key, obj)])) := by
              rw [grown]
              simp
            have hgroup : isGroup pfx delimiter cp = true := by
              have spec := commonPrefix?_spec (matchingFront key (by simp)) grouped
              simp [isGroup, spec.2 cp List.prefix_rfl]
            refine scanLoop_cursor maxResults ?_ hcp hgroup ?_ (front ++ [(key, obj)]) rest _ sorted
              matching step.1 (finished ▸ covers')
            · intro x hx hxgroup k hk
              exact entryName_of_group liveMatching hx hxgroup hk
            · intro x hx
              rw [grown] at hx entriesSorted
              rcases List.mem_append.mp hx with old | new
              · exact ((List.pairwise_append.mp entriesSorted).2.2 x old cp (by simp)).le
              · exact (by simpa using new : x = cp).le
          · rw [if_neg full] at step
            refine ih (front ++ [(key, obj)]) _ sorted matching step.1 step.2.1 covers' ?_ ?_
            · rw [step.2.2, length]
            · rw [step.2.2]
              omega
      | none =>
        simp only
        obtain ⟨covers', grown⟩ := Covers.addContent live sortedFront matchingFront covers grouped
        have length : (entriesOf pfx delimiter (liveKeys (front ++ [(key, obj)]))).length =
            st.distinctCount + 1 := by
          rw [grown, count]
          simp
        by_cases full : st.distinctCount + 1 ≥ maxResults
        · rw [if_pos full, settled (by omega)]
          have finished : (st.addContent key v).finish = (st.addContent key v).result := by
            rw [Scan.finish]
            simp [Scan.addContent, mode]
          rw [finished]
          refine covers'.extend (by simp) ?_
          intro k hk
          rw [liveKeys_append, List.mem_append] at hk
          rcases hk with old | new
          · exact Or.inl old
          · refine Or.inr ?_
            intro cp hcp hgroup
            have name : entryName pfx delimiter key = key := by simp [entryName, grouped]
            have lt : key < k := by
              rw [List.map_append] at sorted
              exact (List.pairwise_append.mp sorted).2.2 key (by simp) k (liveKeys_subset new)
            refine not_under_earlier liveMatching hcp hgroup (matchingFront key (by simp))
              (matching k ?_) lt ?_
            · rw [List.map_append, List.mem_append]
              exact Or.inr (liveKeys_subset new)
            · rw [name]
              rw [grown] at hcp entriesSorted
              rcases List.mem_append.mp hcp with old | last
              · exact (List.pairwise_append.mp entriesSorted).2.2 cp old key (by simp)
              · have eq : cp = key := by simpa using last
                rw [eq] at hgroup
                simp [isGroup, grouped] at hgroup
        · rw [if_neg full]
          refine ih (front ++ [(key, obj)]) _ sorted matching ?_ ?_ covers' ?_ ?_
          · exact mode
          · exact update
          · simp only [Scan.addContent]
            omega
          · simp only [Scan.addContent]
            omega

end Scan

/-! ## The keys after a cursor -/

theorem takeWhile_eq_filter {α : Type} {p : α → Bool} {l : List α}
    (closed : l.Pairwise fun a b => p b = true → p a = true) : l.takeWhile p = l.filter p := by
  induction l with
  | nil => rfl
  | cons a rest ih =>
    obtain ⟨first, later⟩ := List.pairwise_cons.mp closed
    by_cases h : p a = true
    · rw [List.takeWhile_cons_of_pos h, List.filter_cons_of_pos h, ih later]
    · rw [List.takeWhile_cons_of_neg h, List.filter_cons_of_neg h, eq_comm, List.filter_eq_nil_iff]
      intro b hb hpb
      exact h (first b hb hpb)

/-- The key lies after the cursor; an empty cursor is none. -/
def afterCursor (cursor key : String) : Bool := decide (cursor = "" ∨ cursor < key)

/-- The keys of the bucket that match the prefix and lie after the cursor. -/
def keysAfter (objects : Objects) (pfx cursor : String) : List (String × S3Object) :=
  objects.map.toList.filter fun kv => RustStr.startsWith kv.1 pfx && afterCursor cursor kv.1

theorem Objects.toList_sorted (objects : Objects) :
    (objects.map.toList.map Prod.fst).Pairwise (· < ·) := by
  rw [List.pairwise_map]
  exact Std.ExtTreeMap.ordered_keys_toList.imp fun h => compare_lt_iff_lt.mp h

theorem keysAfter_sorted (objects : Objects) (pfx cursor : String) :
    ((keysAfter objects pfx cursor).map Prod.fst).Pairwise (· < ·) :=
  objects.toList_sorted.sublist (List.filter_sublist.map _)

theorem keysAfter_matching {objects : Objects} {pfx cursor k : String}
    (h : k ∈ (keysAfter objects pfx cursor).map Prod.fst) :
    HasPrefix k pfx ∧ afterCursor cursor k = true := by
  obtain ⟨kv, hkv, rfl⟩ := List.mem_map.mp h
  have both := (List.mem_filter.mp hkv).2
  rw [Bool.and_eq_true] at both
  exact ⟨startsWith_iff.mp both.1, both.2⟩

/-- Above the lower bound, keys with the prefix are those after the cursor. -/
theorem aboveLower_iff {pfx key : String} (start : Option String) (matching : HasPrefix key pfx) :
    aboveLower pfx start key = afterCursor (start.getD "") key := by
  have fromPrefix : (if pfx = "" then true else decide (pfx ≤ key)) = true := by
    split
    · rfl
    · exact decide_eq_true matching.le
  unfold aboveLower afterCursor
  simp only [fromPrefix]
  cases start with
  | none => simp
  | some s =>
    simp only [Option.getD_some]
    split
    · next inside => simp only [inside.1, false_or]
    · next outside =>
      rw [eq_comm, decide_eq_true_eq]
      by_cases empty : s = ""
      · exact Or.inl empty
      · refine Or.inr ?_
        have below : s < pfx := by
          by_contra h
          exact outside ⟨empty, not_lt.mp h⟩
        exact lt_of_lt_of_le below matching.le

theorem le_of_aboveLower {pfx key : String} {start : Option String}
    (h : aboveLower pfx start key = true) : pfx ≤ key := by
  have fromPrefix : (if pfx = "" then true else decide (pfx ≤ key)) = true → pfx ≤ key := by
    intro h
    split at h
    · next empty =>
      rw [empty]
      exact HasPrefix.le List.nil_prefix
    · exact of_decide_eq_true h
  unfold aboveLower at h
  cases start with
  | none => exact fromPrefix h
  | some s =>
    simp only at h
    split at h
    · next inside => exact inside.2.trans (of_decide_eq_true h).le
    · exact fromPrefix h

/-- The scan runs over the matching keys after its start. -/
theorem scanRange_eq (objects : Objects) (pfx : String) (start : Option String) :
    scanRange objects pfx start = keysAfter objects pfx (start.getD "") := by
  unfold scanRange keysAfter
  have sorted := objects.toList_sorted
  rw [List.pairwise_map] at sorted
  have simplified : ∀ kv : String × S3Object, (decide (pfx = "") || RustStr.startsWith kv.1 pfx) =
      RustStr.startsWith kv.1 pfx := by
    intro kv
    by_cases empty : pfx = ""
    · subst empty
      simp [RustStr.startsWith]
    · simp [empty]
  simp only [simplified]
  rw [takeWhile_eq_filter]
  · rw [List.filter_filter]
    refine List.filter_congr ?_
    intro kv _
    by_cases matching : RustStr.startsWith kv.1 pfx = true
    · rw [aboveLower_iff start (startsWith_iff.mp matching)]
    · simp [matching]
  · refine (sorted.filter _).imp_of_mem ?_
    intro a b ha _ lt hb
    by_contra hn
    have below := lt_of_not_hasPrefix lt (startsWith_iff.mp hb)
      (fun h => hn (startsWith_iff.mpr h))
    exact absurd (le_of_aboveLower (List.mem_filter.mp ha).2) (not_le.mpr below)

/-- The entries that are left to list after a cursor. -/
def remaining (objects : Objects) (pfx delimiter cursor : String) : List String :=
  entriesOf pfx delimiter (liveKeys (keysAfter objects pfx cursor))

theorem remaining_sorted (objects : Objects) (pfx delimiter cursor : String) :
    (remaining objects pfx delimiter cursor).Pairwise (· < ·) :=
  entriesOf_sorted (liveKeys_sorted (keysAfter_sorted objects pfx cursor))
    (fun _ hk => (keysAfter_matching (liveKeys_subset hk)).1)

end Openstack.S3

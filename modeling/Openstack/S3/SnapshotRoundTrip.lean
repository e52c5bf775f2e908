import Openstack.S3.Persistence

/-!
# Saving and loading a snapshot

A save writes the stores in memory and removes nothing; a load reads every account and region
directory it finds. So a store comes back that was saved once and is no longer in memory.
-/
namespace Openstack.S3

open State (AccountRegionBundle AccountRegionKey Serde statePath saveStore loadStore Free)

variable {e : AccountRegionKey × S3Store} {p : Path} {d : ObjectDataRef} {V : Type} {a r : String}

/-! ## Paths through their text -/

/-- The components of some `PathBuf`. -/
structure IsPathBuf (p : Path) : Prop where
  components : ∀ c ∈ p, c = "/" ∨ c ≠ "" ∧ '/' ∉ c.toList
  tail : ∀ c ∈ p.tail, c ≠ "/" ∧ c ≠ "."

theorem IsPathBuf.tail_component (valid : IsPathBuf p) {c : String}
    (member : c ∈ p.tail) : c ≠ "" ∧ c ≠ "." ∧ '/' ∉ c.toList := by
  have apart := valid.tail c member
  have plain := (valid.components c (List.mem_of_mem_tail member)).resolve_left apart.1
  exact ⟨plain.1, apart.2, plain.2⟩

theorem splitOn_slashed {p : List String} (nonempty : p ≠ []) (plain : ∀ c ∈ p, '/' ∉ c.toList) :
    ((slashed p).toList.splitOn '/').map String.ofList = p := by
  rw [slashed, String.toList_ofList, List.splitOn_intercalate]
  · simp [Function.comp_def]
  · simpa using plain
  · simpa using nonempty

theorem slash_slashed (rest : List String) (nonempty : rest ≠ []) :
    "/" ++ slashed rest = slashed ("" :: rest) := by
  obtain ⟨c, more, rfl⟩ := List.exists_cons_of_ne_nil nonempty
  rw [← String.toList_inj]
  simp [slashed, List.intercalate]

theorem slashed_cons (first : String) (rest : List String) :
    ∃ more, (slashed (first :: rest)).toList = first.toList ++ more := by
  cases rest with
  | nil => exact ⟨[], by simp [slashed, List.intercalate]⟩
  | cons c more => exact ⟨'/' :: (slashed (c :: more)).toList, by simp [slashed, List.intercalate]⟩

theorem parsePath_pathText (valid : IsPathBuf p) : parsePath (pathText p) = p := by
  cases p with
  | nil => decide
  | cons first rest =>
    have inside : ∀ c ∈ rest, c ≠ "" ∧ c ≠ "." ∧ '/' ∉ c.toList := fun c member =>
      valid.tail_component member
    have kept : ∀ c ∈ rest, ¬ c = "" ∧ ¬ c = "." := fun c member =>
      ⟨(inside c member).1, (inside c member).2.1⟩
    by_cases root : first = "/"
    · subst root
      by_cases alone : rest = []
      · subst alone
        decide
      · have pieces := splitOn_slashed (p := "" :: rest) (by simp)
          (by simpa using fun c member => (inside c member).2.2)
        rw [pathText, slash_slashed rest alone, parsePath, pieces, ← slash_slashed rest alone]
        simpa [RustStr.startsWith] using kept
    · have head := (valid.components first List.mem_cons_self).resolve_left root
      have pieces := splitOn_slashed (p := first :: rest) (by simp) (by
        intro c member
        rcases List.mem_cons.mp member with rfl | later
        · exact head.2
        · exact (inside c later).2.2)
      have text : pathText (first :: rest) = slashed (first :: rest) := by
        unfold pathText
        split
        · next same => exact absurd (List.cons.inj same).1 root
        · rfl
      have relative : RustStr.startsWith (slashed (first :: rest)) "/" = false := by
        obtain ⟨more, whole⟩ := slashed_cons first rest
        cases chars : first.toList with
        | nil => exact absurd (String.toList_eq_nil_iff.mp chars) head.1
        | cons c others =>
          have other : c ≠ '/' := by
            rintro rfl
            exact head.2 (by simp [chars])
          rw [RustStr.startsWith, whole, chars]
          simpa [List.isPrefixOf] using other.symm
      rw [text, parsePath, pieces, relative]
      simpa [head.1] using kept

/-! ## One data reference -/

section DataRef

variable {base : Path} {d : ObjectDataRef}

/-- The file, if there is one, has a path. -/
def ObjectDataRef.HasPath (d : ObjectDataRef) : Prop := ∀ p, d = .fileRef p → IsPathBuf p

theorem deserialize_serialize {b64 : Base64} (path : d.HasPath)
    (inline : ∀ bytes, d = .inline bytes → b64.decode (b64.encode bytes) = some bytes) :
    ObjectDataRef.deserialize b64 (d.serialize b64) = some d := by
  cases d with
  | inline bytes => simp [ObjectDataRef.serialize, ObjectDataRef.deserialize, inline bytes rfl]
  | fileRef p =>
    simp [ObjectDataRef.serialize, ObjectDataRef.deserialize, Json.get?,
      parsePath_pathText (path p rfl)]

theorem stripBase_eq_some {p rel : Path} (stripped : stripBase p base = some rel) :
    p = base ++ rel := by
  unfold stripBase at stripped
  split at stripped
  · next inside =>
    obtain ⟨rest, rfl⟩ := List.isPrefixOf_iff_prefix.mp inside
    rw [List.drop_left, Option.some.injEq] at stripped
    rw [stripped]
  · cases stripped

theorem stripBase_of_prefix (rest : Path) (inside : p = base ++ rest) :
    stripBase p base = some rest := by
  have starts : base.isPrefixOf p = true := List.isPrefixOf_iff_prefix.mpr ⟨rest, inside.symm⟩
  rw [stripBase, if_pos starts, inside, List.drop_left]

theorem isPathBuf_rest {rest : Path} (valid : IsPathBuf (base ++ rest)) : IsPathBuf rest := by
  refine ⟨fun c member => valid.components c (List.mem_append_right _ member), fun c member => ?_⟩
  refine valid.tail c ?_
  cases base with
  | nil => exact member
  | cons first more => exact List.mem_append_right _ (List.mem_of_mem_tail member)

theorem HasPath.relativize (path : d.HasPath) : (d.relativize base).HasPath := by
  cases d with
  | inline bytes => exact path
  | fileRef p =>
    simp only [ObjectDataRef.relativize]
    cases stripped : stripBase p base with
    | some rel =>
      have valid := path p rfl
      rw [stripBase_eq_some stripped] at valid
      intro q same
      rw [← ObjectDataRef.fileRef.inj same]
      exact isPathBuf_rest valid
    | none => exact path

/-- The file is below the objects directory, or its path is absolute. -/
def ObjectDataRef.Placed (base : Path) (d : ObjectDataRef) : Prop :=
  ∀ p, d = .fileRef p → base <+: p ∨ isRelative p = false

theorem resolve_relativize_iff (path : d.HasPath) :
    (d.relativize base).resolve base = d ↔ d.Placed base := by
  cases d with
  | inline bytes => simp [ObjectDataRef.relativize, ObjectDataRef.resolve, ObjectDataRef.Placed]
  | fileRef p =>
    have placed : (ObjectDataRef.fileRef p).Placed base ↔ base <+: p ∨ isRelative p = false := by
      simp [ObjectDataRef.Placed]
    rw [placed]
    by_cases inside : base <+: p
    · obtain ⟨rest, rfl⟩ := inside
      simp only [ObjectDataRef.relativize, stripBase_of_prefix rest rfl, List.prefix_append, true_or,
        iff_true, ObjectDataRef.resolve]
      cases base with
      | nil => simp [joinPath]
      | cons first more =>
        have relative : isRelative rest = true := by
          cases rest with
          | nil => rfl
          | cons c others =>
            have other := ((path _ rfl).tail c (by simp)).1
            simpa [isRelative] using other
        simp [joinPath, relative]
    · have kept : stripBase p base = none := by
        rw [stripBase, if_neg (by simpa [List.isPrefixOf_iff_prefix] using inside)]
      have nonempty : base ≠ [] := by
        rintro rfl
        exact inside List.nil_prefix
      simp only [ObjectDataRef.relativize, kept, ObjectDataRef.resolve, inside, false_or]
      cases relative : isRelative p with
      | false => simp
      | true => simpa [joinPath, relative] using nonempty

end DataRef

/-! ## All references of a store -/

section Store

variable {f g : ObjectDataRef → ObjectDataRef} {s : S3Store}

theorem mem_dataRefs : d ∈ s.dataRefs ↔
    (∃ (bucket key : String) (objects : Objects) (obj : S3Object), s.objects[bucket]? = some objects ∧
      objects.map[key]? = some obj ∧ ∃ v ∈ obj.versions, v.data = d) ∨
    ∃ (id : String) (u : MultipartUpload), s.multipartUploads[id]? = some u ∧
      ∃ part ∈ u.parts, part.2.data = d := by
  simp only [S3Store.dataRefs, List.mem_append, List.mem_flatMap, StrMap.mem_values, List.mem_map]
  constructor
  · rintro (⟨objects, ⟨bucket, found⟩, obj, ⟨key, stored⟩, here⟩ | ⟨u, ⟨id, found⟩, here⟩)
    · exact .inl ⟨bucket, key, objects, obj, found, stored, here⟩
    · exact .inr ⟨id, u, found, here⟩
  · rintro (⟨bucket, key, objects, obj, found, stored, here⟩ | ⟨id, u, found, here⟩)
    · exact .inl ⟨objects, ⟨bucket, found⟩, obj, ⟨key, stored⟩, here⟩
    · exact .inr ⟨u, ⟨id, found⟩, here⟩

theorem mem_dataRefs_mapData (member : d ∈ (s.mapData f).dataRefs) :
    ∃ old ∈ s.dataRefs, f old = d := by
  rcases mem_dataRefs.mp member with
    ⟨bucket, key, objects, obj, found, stored, v, inside, rfl⟩ | ⟨id, u, found, part, inside, rfl⟩
  · simp only [S3Store.mapData, StrMap.getElem?_mapValues] at found
    obtain ⟨oldObjects, oldFound, rfl⟩ := Option.map_eq_some_iff.mp found
    simp only [Objects.mapData, StrMap.getElem?_mapValues] at stored
    obtain ⟨oldObj, oldStored, rfl⟩ := Option.map_eq_some_iff.mp stored
    obtain ⟨old, oldInside, rfl⟩ := List.mem_map.mp inside
    exact ⟨old.data, mem_dataRefs.mpr (.inl ⟨bucket, key, _, _, oldFound, oldStored, old, oldInside, rfl⟩),
      rfl⟩
  · simp only [S3Store.mapData, StrMap.getElem?_mapValues] at found
    obtain ⟨oldUpload, oldFound, rfl⟩ := Option.map_eq_some_iff.mp found
    obtain ⟨old, oldInside, rfl⟩ := List.mem_map.mp inside
    exact ⟨old.2.data, mem_dataRefs.mpr (.inr ⟨id, _, oldFound, old, oldInside, rfl⟩), rfl⟩

theorem mapValues_mapValues (f g : V → V) (m : StrMap V) :
    StrMap.mapValues g (StrMap.mapValues f m) = StrMap.mapValues (fun v => g (f v)) m := by
  refine Std.ExtTreeMap.ext_getElem? fun k => ?_
  simp only [StrMap.getElem?_mapValues, Option.map_map]
  rfl

theorem mapData_mapData : (s.mapData f).mapData g = s.mapData fun d => g (f d) := by
  simp only [S3Store.mapData, mapValues_mapValues, Objects.mapData, List.map_map, Function.comp_def]

theorem mapValues_eq_self_iff (f : V → V) (m : StrMap V) :
    StrMap.mapValues f m = m ↔ ∀ (k : String) v, m[k]? = some v → f v = v := by
  constructor
  · intro same k v found
    have mapped : (StrMap.mapValues f m)[k]? = some (f v) := by
      rw [StrMap.getElem?_mapValues, found, Option.map_some]
    rw [same, found] at mapped
    exact (Option.some.inj mapped).symm
  · intro fixed
    refine Std.ExtTreeMap.ext_getElem? fun k => ?_
    rw [StrMap.getElem?_mapValues]
    cases found : m[k]? with
    | none => rfl
    | some v => rw [Option.map_some, fixed k v found]

theorem map_eq_self_iff (f : V → V) (l : List V) : l.map f = l ↔ ∀ v ∈ l, f v = v := by
  induction l with
  | nil => simp
  | cons v rest ih => simp [ih]

theorem objects_mapData_eq_self_iff (o : Objects) : o.mapData f = o ↔
    ∀ (key : String) (obj : S3Object), o.map[key]? = some obj → ∀ v ∈ obj.versions,
      f v.data = v.data := by
  have version : ∀ v : ObjectVersion, { v with data := f v.data } = v ↔ f v.data = v.data := by
    intro v
    cases v
    simp
  have object : ∀ obj : S3Object,
      { obj with versions := obj.versions.map fun v => { v with data := f v.data } } = obj ↔
        ∀ v ∈ obj.versions, f v.data = v.data := by
    intro obj
    cases obj
    simp [map_eq_self_iff, version]
  have field : o.mapData f = o ↔ (o.mapData f).map = o.map := by
    cases o
    simp [Objects.mapData]
  rw [field, Objects.mapData, mapValues_eq_self_iff]
  simp only [object]

theorem upload_mapData_eq_self_iff (u : MultipartUpload) :
    { u with parts := u.parts.map fun p => (p.1, { p.2 with data := f p.2.data }) } = u ↔
      ∀ part ∈ u.parts, f part.2.data = part.2.data := by
  have part : ∀ p : Nat × UploadPart, (p.1, { p.2 with data := f p.2.data }) = p ↔
      f p.2.data = p.2.data := by
    rintro ⟨n, p⟩
    cases p
    simp
  cases u
  simp [MultipartUpload.mk.injEq, map_eq_self_iff, part]

theorem mapData_eq_self_iff : s.mapData f = s ↔ ∀ d ∈ s.dataRefs, f d = d := by
  have fields : s.mapData f = s ↔
      (∀ (bucket : String) (objects : Objects), s.objects[bucket]? = some objects →
        objects.mapData f = objects) ∧
      ∀ (id : String) (u : MultipartUpload), s.multipartUploads[id]? = some u →
        { u with parts := u.parts.map fun p => (p.1, { p.2 with data := f p.2.data }) } = u := by
    rw [← mapValues_eq_self_iff, ← mapValues_eq_self_iff]
    cases s
    simp [S3Store.mapData]
  simp only [fields, objects_mapData_eq_self_iff, upload_mapData_eq_self_iff]
  constructor
  · rintro ⟨objects, uploads⟩ d member
    rcases mem_dataRefs.mp member with
      ⟨bucket, key, objs, obj, found, stored, v, inside, rfl⟩ | ⟨id, u, found, part, inside, rfl⟩
    · exact objects bucket objs found key obj stored v inside
    · exact uploads id u found part inside
  · intro fixed
    constructor
    · intro bucket objs found key obj stored v inside
      exact fixed _ (mem_dataRefs.mpr (.inl ⟨bucket, key, objs, obj, found, stored, v, inside, rfl⟩))
    · intro id u found part inside
      exact fixed _ (mem_dataRefs.mpr (.inr ⟨id, u, found, part, inside, rfl⟩))

end Store

/-! ## Keys of a bundle -/

theorem mem_iter {b : AccountRegionBundle S3Store} {entry : AccountRegionKey × S3Store} :
    entry ∈ b.iter ↔ b.stores[entry.1.text]? = some entry.2 := by
  unfold AccountRegionBundle.iter
  rw [List.mem_map]
  constructor
  · rintro ⟨⟨text, store⟩, member, rfl⟩
    exact Std.ExtTreeMap.mem_toList_iff_getElem?_eq_some.mp member
  · intro found
    exact ⟨(entry.1.text, entry.2), Std.ExtTreeMap.mem_toList_iff_getElem?_eq_some.mpr found, rfl⟩

theorem iter_distinct (b : AccountRegionBundle S3Store) :
    b.iter.Pairwise fun x y => x.1.text ≠ y.1.text := by
  unfold AccountRegionBundle.iter
  rw [List.pairwise_map]
  refine Std.ExtTreeMap.distinct_keys_toList.imp ?_
  intro x y different same
  exact different (Std.LawfulEqCmp.compare_eq_iff_eq.mpr same)

/-- A key with a region is the one made from its two parts. -/
theorem text_of_region {key : AccountRegionKey} (nonempty : key.region ≠ "") :
    key.text = (AccountRegionKey.new key.accountId key.region).text := by
  cases found : RustStr.before [State.nul] key.text.toList with
  | none =>
    refine absurd ?_ nonempty
    simp [AccountRegionKey.region, RustStr.after, found]
  | some account =>
    obtain ⟨rest, whole⟩ := RustStr.before_isPrefix found
    have first : key.accountId = String.ofList account := by
      simp [AccountRegionKey.accountId, found]
    have second : key.region = String.ofList rest := by
      rw [AccountRegionKey.region, RustStr.after, found]
      simp [← whole]
    rw [first, second, ← String.toList_inj, State.toList_key, String.toList_ofList,
      String.toList_ofList, ← whole]
    simp

theorem FileName.nulFree {name : String} (named : FileName name) : State.NulFree name :=
  named.2.2.2.2

/-! ## What a save leaves on disk -/

/-- The data directory, without links and dots. -/
structure DataDir where
  components : List String
  named : ∀ c ∈ components, FileName c

def DataDir.stateDir (dir : DataDir) : List String := dir.components ++ ["state", "s3"]

/-- The directory of one account and region. -/
def DataDir.regionDir (dir : DataDir) (accountId region : String) : List String :=
  dir.stateDir ++ [accountId, region]

def Named (key : AccountRegionKey) : Prop := FileName key.accountId ∧ FileName key.region

section Save

variable {p : S3PersistableStore} {dir : DataDir}

theorem regionDir_named (account : FileName a) (region : FileName r) :
    ∀ c ∈ dir.regionDir a r ++ ["store.json"], FileName c := by
  have fixed : FileName "state" ∧ FileName "s3" ∧ FileName "store.json" := by decide
  intro c member
  simp only [DataDir.regionDir, DataDir.stateDir, List.mem_append, List.mem_cons, List.not_mem_nil,
    or_false] at member
  rcases member with ((inside | rfl | rfl) | rfl | rfl) | rfl
  · exact dir.named c inside
  · exact fixed.1
  · exact fixed.2.1
  · exact account
  · exact region
  · exact fixed.2.2

theorem statePath_regionDir {key : AccountRegionKey} (named : Named key) :
    statePath dir.components "s3" key.accountId key.region =
      dir.regionDir key.accountId key.region ++ ["store.json"] :=
  State.statePath_named dir.components (by decide) named.1 named.2

theorem regionDir_inj {a r a' r' : String} (same : dir.regionDir a r = dir.regionDir a' r') :
    a = a' ∧ r = r' := by
  simpa [DataDir.regionDir] using same

/-- A store file is no directory on the way to one. -/
theorem store_not_prefix {a r a' r' : String} :
    ¬ dir.regionDir a r ++ ["store.json"] <+: dir.regionDir a' r' := by
  intro short
  have := short.length_le
  simp [DataDir.regionDir] at this

theorem saveAll_extends (dataDir : List String) (t : FileTree UInt8)
    (entries : List (AccountRegionKey × S3Store)) : t.Extends (p.saveAll dataDir t entries).1 := by
  induction entries generalizing t with
  | nil => exact .refl t
  | cons e rest ih =>
    have first := State.saveStore_extends p.serde t (e.2.relativizePaths p.s3ObjectsDir)
      (statePath dataDir "s3" e.1.accountId e.1.region)
    simp only [S3PersistableStore.saveAll]
    split
    · exact first.trans (ih _)
    · exact first

/-- What a save of stores with plain names leaves behind, if nothing is in its way. -/
structure Written (p : S3PersistableStore) (dir : DataDir) (t t' : FileTree UInt8)
    (entries : List (AccountRegionKey × S3Store)) : Prop where
  files : ∀ e ∈ entries, t'.lookup (dir.regionDir e.1.accountId e.1.region ++ ["store.json"]) =
    some (.file (p.serde.toVecPretty (e.2.relativizePaths p.s3ObjectsDir)))
  dirs : ∀ e ∈ entries, ∀ q, q <+: dir.regionDir e.1.accountId e.1.region → t'.lookup q = some .dir
  others : ∀ q, (∀ e ∈ entries, q ≠ dir.regionDir e.1.accountId e.1.region ++ ["store.json"] ∧
    ¬ q <+: dir.regionDir e.1.accountId e.1.region) → t'.lookup q = t.lookup q

/-- The store file of one entry does not get in the way of the others. -/
theorem Free.after_save {e e' : AccountRegionKey × S3Store} {t : FileTree UInt8}
    (mine : Named e.1) (theirs : Named e'.1) (different : e.1.text ≠ e'.1.text)
    (free : Free t (dir.regionDir e.1.accountId e.1.region) "store.json")
    (free' : Free t (dir.regionDir e'.1.accountId e'.1.region) "store.json") :
    Free (saveStore p.serde t (e.2.relativizePaths p.s3ObjectsDir)
      (dir.regionDir e.1.accountId e.1.region ++ ["store.json"])).1
      (dir.regionDir e'.1.accountId e'.1.region) "store.json" := by
  obtain ⟨_, after⟩ := State.saveStore_free p.serde (e.2.relativizePaths p.s3ObjectsDir)
    (regionDir_named mine.1 mine.2) free
  constructor
  · intro q inside bytes found
    rw [after] at found
    split at found
    · next same =>
      rw [same] at inside
      exact store_not_prefix inside
    · split at found
      · cases found
      · exact free'.dirs q inside bytes found
  · rw [after, if_neg, if_neg store_not_prefix]
    · exact free'.file
    · intro same
      obtain ⟨account, region⟩ := regionDir_inj (List.append_cancel_right same)
      refine different ?_
      rw [text_of_region mine.2.1, text_of_region theirs.2.1, account, region]

theorem saveAll_written (entries : List (AccountRegionKey × S3Store)) {t : FileTree UInt8}
    (named : ∀ e ∈ entries, Named e.1)
    (distinct : entries.Pairwise fun x y => x.1.text ≠ y.1.text)
    (free : ∀ e ∈ entries, Free t (dir.regionDir e.1.accountId e.1.region) "store.json") :
    (p.saveAll dir.components t entries).2 = true ∧
      Written p dir t (p.saveAll dir.components t entries).1 entries := by
  induction entries generalizing t with
  | nil => exact ⟨rfl, by simp, by simp, fun q _ => rfl⟩
  | cons e rest ih =>
    have mine := named e List.mem_cons_self
    have later : ∀ e' ∈ rest, Named e'.1 := fun e' member => named e' (List.mem_cons_of_mem _ member)
    have apart := List.pairwise_cons.mp distinct
    have here := free e List.mem_cons_self
    obtain ⟨done, after⟩ := State.saveStore_free p.serde (e.2.relativizePaths p.s3ObjectsDir)
      (regionDir_named mine.1 mine.2) here
    obtain ⟨ok, written⟩ := ih later apart.2 fun e' member =>
      Free.after_save mine (later e' member) (apart.1 e' member) here
        (free e' (List.mem_cons_of_mem _ member))
    have stays := saveAll_extends (p := p) dir.components (saveStore p.serde t
      (e.2.relativizePaths p.s3ObjectsDir)
      (dir.regionDir e.1.accountId e.1.region ++ ["store.json"])).1 rest
    simp only [S3PersistableStore.saveAll, statePath_regionDir mine, done, if_true]
    refine ⟨ok, ?_, ?_, ?_⟩
    · intro x member
      rcases List.mem_cons.mp member with rfl | inside
      · rw [written.others, after, if_pos rfl]
        intro e' listed
        refine ⟨?_, store_not_prefix⟩
        intro same
        obtain ⟨account, region⟩ := regionDir_inj (List.append_cancel_right same)
        refine apart.1 e' listed ?_
        rw [text_of_region mine.2.1, text_of_region (later e' listed).2.1, account, region]
      · exact written.files x inside
    · intro x member q inside
      rcases List.mem_cons.mp member with rfl | listed
      · refine stays.dirs q ?_
        rw [after, if_neg, if_pos inside]
        rintro rfl
        exact store_not_prefix inside
      · exact written.dirs x listed q inside
    · intro q outside
      have first := outside e List.mem_cons_self
      rw [written.others q fun e' member => outside e' (List.mem_cons_of_mem _ member), after,
        if_neg first.1, if_neg first.2]

end Save

/-! ## What a load finds -/

section Load

variable {p : S3PersistableStore} {dir : DataDir} {t : FileTree UInt8}

theorem mem_regionDirs {base : List String} :
    (a, r) ∈ S3PersistableStore.regionDirs t base ↔ t.lookup (base ++ [a, r]) = some .dir := by
  simp only [S3PersistableStore.regionDirs, List.mem_flatMap, List.mem_map, Prod.mk.injEq,
    FileTree.mem_subdirs, List.append_assoc, List.singleton_append]
  constructor
  · rintro ⟨a', _, r', found, rfl, rfl⟩
    exact found
  · intro found
    have parent := FileTree.lookup_of_prefix (p := base ++ [a]) [r] (by simp) (by simpa using found)
    exact ⟨a, parent, r, found, rfl, rfl⟩

theorem fileNames_of_regionDir (found : t.lookup (dir.regionDir a r) = some .dir) :
    FileName a ∧ FileName r := by
  have named := FileTree.fileName_of_lookup found
  exact ⟨named a (by simp [DataDir.regionDir]), named r (by simp [DataDir.regionDir])⟩

/-- A load goes through the region directories, of which there are none without the state
directory. -/
theorem load_eq (bundle : AccountRegionBundle S3Store)
    (notFile : ∀ bytes, t.lookup dir.stateDir ≠ some (.file bytes)) :
    p.load dir.components t bundle = (S3PersistableStore.regionDirs t dir.stateDir).foldlM
      (p.loadOne t dir.stateDir) bundle := by
  have base : dir.components ++ ["state", "s3"] = dir.stateDir := rfl
  simp only [S3PersistableStore.load, base]
  cases found : t.lookup dir.stateDir with
  | none =>
    have empty : S3PersistableStore.regionDirs t dir.stateDir = [] := by
      rw [List.eq_nil_iff_forall_not_mem]
      rintro ⟨a, r⟩ member
      have base := FileTree.lookup_of_prefix [a, r] (by simp) (mem_regionDirs.mp member)
      rw [found] at base
      cases base
    rw [empty]
    rfl
  | some node =>
    cases node with
    | dir => rfl
    | file bytes => exact absurd found (notFile bytes)

variable {base : List String} {pairs : List (String × String)}
  {bundle result : AccountRegionBundle S3Store}

/-- Every directory was read into the store of its account and region, and the other stores are
what they were. -/
theorem foldlM_loadOne (free : ∀ e ∈ pairs, State.NulFree e.1)
    (loaded : pairs.foldlM (p.loadOne t base) bundle = some result) :
    (∀ e ∈ pairs, ∃ s, loadStore p.serde t (base ++ [e.1, e.2, "store.json"]) = some s ∧
      result.stores[(AccountRegionKey.new e.1 e.2).text]? =
        some (s.resolveAndVerifyPaths p.s3ObjectsDir)) ∧
    ∀ k : String, (∀ e ∈ pairs, (AccountRegionKey.new e.1 e.2).text ≠ k) →
      result.stores[k]? = bundle.stores[k]? := by
  induction pairs generalizing bundle with
  | nil =>
    obtain rfl : bundle = result := by simpa using loaded
    exact ⟨by simp, fun k _ => rfl⟩
  | cons e rest ih =>
    rw [List.foldlM_cons] at loaded
    obtain ⟨next, first, later⟩ := Option.bind_eq_some_iff.mp loaded
    obtain ⟨s, read, rfl⟩ := Option.map_eq_some_iff.mp first
    obtain ⟨stores, others⟩ := ih (fun x member => free x (List.mem_cons_of_mem _ member)) later
    constructor
    · intro x member
      by_cases again : x ∈ rest
      · exact stores x again
      · obtain rfl : x = e := (List.mem_cons.mp member).resolve_right again
        refine ⟨s, read, ?_⟩
        rw [others]
        · simp [AccountRegionBundle.getOrCreate]
        · intro y listed same
          obtain ⟨account, region⟩ := (State.key_eq_iff (free y (List.mem_cons_of_mem _ listed))
            (free x List.mem_cons_self)).mp same
          exact again (by rwa [← Prod.ext account region])
    · intro k outside
      rw [others k fun x member => outside x (List.mem_cons_of_mem _ member)]
      have other := outside e List.mem_cons_self
      simp [AccountRegionBundle.getOrCreate, StrMap.getElem?_insert, other]

theorem foldlM_loadOne_isSome (bundle : AccountRegionBundle S3Store)
    (readable : ∀ e ∈ pairs, ∃ s, loadStore p.serde t (base ++ [e.1, e.2, "store.json"]) = some s) :
    ∃ result, pairs.foldlM (p.loadOne t base) bundle = some result := by
  induction pairs generalizing bundle with
  | nil => exact ⟨bundle, rfl⟩
  | cons e rest ih =>
    obtain ⟨s, read⟩ := readable e List.mem_cons_self
    have first : p.loadOne t base bundle e = some (bundle.getOrCreate e.1 e.2 fun _ =>
        s.resolveAndVerifyPaths p.s3ObjectsDir) := by
      rw [S3PersistableStore.loadOne, read, Option.map_some]
    rw [List.foldlM_cons, first]
    exact ih _ fun x member => readable x (List.mem_cons_of_mem _ member)

end Load

/-! ## Saving and then loading -/

section RoundTrip

variable (p : S3PersistableStore) (b64 : Base64) (dir : DataDir) (t : FileTree UInt8)
  (b : AccountRegionBundle S3Store)

/-- The save succeeds, and a load into the empty bundle of a new process gives the bundle back. -/
def Reproduces : Prop :=
  (p.save dir.components t b).2 = true ∧
    p.load dir.components (p.save dir.components t b).1 .new = some b

/-- What has to be so before the save. -/
structure Reproducible : Prop where
  /-- Accounts and regions are names of directories. -/
  named : ∀ e ∈ b.iter, Named e.1
  /-- Each region directory belongs to a store in memory. -/
  known : ∀ a r, t.lookup (dir.regionDir a r) = some .dir →
    ∃ s, b.stores[(AccountRegionKey.new a r).text]? = some s
  /-- No file stands in place of a directory, and no directory in place of a store file. -/
  base : ∀ bytes, t.lookup dir.stateDir ≠ some (.file bytes)
  free : ∀ e ∈ b.iter, Free t (dir.regionDir e.1.accountId e.1.region) "store.json"
  /-- Files are below the objects directory, or have an absolute path. -/
  placed : ∀ e ∈ b.iter, ∀ d ∈ e.2.dataRefs, d.Placed p.s3ObjectsDir

/-- What the derived serialisers and base64 promise for the stores of the bundle: a store is read
back if each of its data references is. -/
structure Readable : Prop where
  store : ∀ e ∈ b.iter,
    (∀ d ∈ (e.2.relativizePaths p.s3ObjectsDir).dataRefs,
      ObjectDataRef.deserialize b64 (d.serialize b64) = some d) →
    p.serde.fromSlice (p.serde.toVecPretty (e.2.relativizePaths p.s3ObjectsDir)) =
      some (e.2.relativizePaths p.s3ObjectsDir)
  inline : ∀ e ∈ b.iter, ∀ bytes, .inline bytes ∈ e.2.dataRefs →
    b64.decode (b64.encode bytes) = some bytes
  /-- Every path is one of some `PathBuf`. -/
  path : ∀ e ∈ b.iter, ∀ d ∈ e.2.dataRefs, d.HasPath

variable {p b64 dir t b}

theorem relativize_inline {base : Path} {bytes : Bytes}
    (same : d.relativize base = .inline bytes) : d = .inline bytes := by
  cases d with
  | inline other => exact same
  | fileRef path =>
    simp only [ObjectDataRef.relativize] at same
    split at same <;> cases same

theorem Readable.reads (readable : Readable p b64 b) (member : e ∈ b.iter) :
    p.serde.fromSlice (p.serde.toVecPretty (e.2.relativizePaths p.s3ObjectsDir)) =
      some (e.2.relativizePaths p.s3ObjectsDir) := by
  refine readable.store e member ?_
  intro d inside
  obtain ⟨old, before, rfl⟩ := mem_dataRefs_mapData inside
  refine deserialize_serialize (HasPath.relativize (readable.path e member old before)) ?_
  intro bytes same
  rw [relativize_inline same] at before
  exact readable.inline e member bytes before

theorem Readable.resolve_iff (readable : Readable p b64 b) (member : e ∈ b.iter) :
    (e.2.relativizePaths p.s3ObjectsDir).resolveAndVerifyPaths p.s3ObjectsDir = e.2 ↔
      ∀ d ∈ e.2.dataRefs, d.Placed p.s3ObjectsDir := by
  rw [S3Store.relativizePaths, S3Store.resolveAndVerifyPaths, mapData_mapData, mapData_eq_self_iff]
  exact forall_congr' fun d => imp_congr_right fun inside =>
    resolve_relativize_iff (readable.path e member d inside)

/-- The store file of an entry, read after the save. -/
theorem Written.loadStore_eq (readable : Readable p b64 b) {t' : FileTree UInt8}
    (written : Written p dir t t' b.iter) (member : e ∈ b.iter) :
    loadStore p.serde t' (dir.stateDir ++ [e.1.accountId, e.1.region, "store.json"]) =
      some (e.2.relativizePaths p.s3ObjectsDir) := by
  have file := written.files e member
  rw [DataDir.regionDir, List.append_assoc] at file
  rw [loadStore, show dir.stateDir ++ [e.1.accountId, e.1.region, "store.json"] =
    dir.stateDir ++ ([e.1.accountId, e.1.region] ++ ["store.json"]) from rfl, file]
  exact readable.reads member

theorem nulFree_regionDirs {base : List String} :
    ∀ e ∈ S3PersistableStore.regionDirs t base, State.NulFree e.1 := by
  rintro ⟨a, r⟩ member
  have named := FileTree.fileName_of_lookup (mem_regionDirs.mp member)
  exact FileName.nulFree (named a (by simp))

theorem Reproducible.reproduces (readable : Readable p b64 b) (ready : Reproducible p dir t b) :
    Reproduces p dir t b := by
  obtain ⟨ok, written⟩ := saveAll_written (p := p) b.iter ready.named (iter_distinct b) ready.free
  refine ⟨ok, ?_⟩
  -- a region directory belongs to an entry of the bundle
  have entry : ∀ a r, (p.save dir.components t b).1.lookup (dir.regionDir a r) = some .dir →
      ∃ e ∈ b.iter, e.1.accountId = a ∧ e.1.region = r ∧
        e.1.text = (AccountRegionKey.new a r).text := by
    intro a r found
    have names := fileNames_of_regionDir found
    have nulFree := FileName.nulFree names.1
    obtain ⟨s, stored⟩ : ∃ s, b.stores[(AccountRegionKey.new a r).text]? = some s := by
      by_cases own : ∃ e ∈ b.iter, dir.regionDir a r <+: dir.regionDir e.1.accountId e.1.region
      · obtain ⟨e, member, inside⟩ := own
        obtain ⟨rfl, rfl⟩ := regionDir_inj (inside.eq_of_length (by simp [DataDir.regionDir]))
        refine ⟨e.2, ?_⟩
        rw [← text_of_region (ready.named e member).2.1]
        exact mem_iter.mp member
      · refine ready.known a r ?_
        rw [← written.others]
        · exact found
        · intro e member
          refine ⟨?_, fun inside => own ⟨e, member, inside⟩⟩
          intro same
          have := congrArg List.length same
          simp [DataDir.regionDir] at this
    exact ⟨(AccountRegionKey.new a r, s), mem_iter.mpr stored,
      AccountRegionKey.accountId_new nulFree r, AccountRegionKey.region_new nulFree r, rfl⟩
  have notFile : ∀ bytes, (p.save dir.components t b).1.lookup dir.stateDir ≠ some (.file bytes) := by
    intro bytes found
    by_cases some : ∃ e, e ∈ b.iter
    · obtain ⟨e, member⟩ := some
      have inside := written.dirs e member dir.stateDir (List.prefix_append _ _)
      cases found.symm.trans inside
    · have same := written.others dir.stateDir fun e member => absurd ⟨e, member⟩ some
      exact ready.base bytes (same.symm.trans found)
  have read : ∀ e ∈ S3PersistableStore.regionDirs (p.save dir.components t b).1 dir.stateDir,
      ∃ s, loadStore p.serde (p.save dir.components t b).1
        (dir.stateDir ++ [e.1, e.2, "store.json"]) = some s := by
    rintro ⟨a, r⟩ member
    obtain ⟨e, inside, rfl, rfl, _⟩ := entry a r (mem_regionDirs.mp member)
    exact ⟨_, written.loadStore_eq readable inside⟩
  obtain ⟨result, loaded⟩ := foldlM_loadOne_isSome .new read
  obtain ⟨stores, others⟩ := foldlM_loadOne nulFree_regionDirs loaded
  rw [load_eq .new notFile, loaded, Option.some.injEq]
  have same : result.stores = b.stores := by
    refine Std.ExtTreeMap.ext_getElem? fun k => ?_
    by_cases listed : ∃ e ∈ S3PersistableStore.regionDirs (p.save dir.components t b).1 dir.stateDir,
        (AccountRegionKey.new e.1 e.2).text = k
    · obtain ⟨⟨a, r⟩, member, rfl⟩ := listed
      obtain ⟨e, inside, rfl, rfl, text⟩ := entry a r (mem_regionDirs.mp member)
      obtain ⟨s, found, here⟩ := stores _ member
      obtain rfl := Option.some.inj ((written.loadStore_eq readable inside).symm.trans found)
      rw [here, (readable.resolve_iff inside).mpr (ready.placed e inside), ← text]
      exact (mem_iter.mp inside).symm
    · rw [others k fun e member same => listed ⟨e, member, same⟩]
      cases found : b.stores[k]? with
      | none => simp [AccountRegionBundle.new]
      | some s =>
        have inside : (⟨k⟩, s) ∈ b.iter := mem_iter.mpr found
        have named := ready.named _ inside
        have here := written.dirs _ inside _ (List.prefix_refl _)
        exact absurd ⟨(_, _), mem_regionDirs.mpr here, (text_of_region named.2.1).symm⟩ listed
  cases result
  cases b
  simpa using same

theorem Reproduces.reproducible (readable : Readable p b64 b) (reproduces : Reproduces p dir t b) :
    Reproducible p dir t b := by
  obtain ⟨ok, loaded⟩ := reproduces
  have stays : t.Extends (p.save dir.components t b).1 := saveAll_extends dir.components t b.iter
  have notFile : ∀ bytes, (p.save dir.components t b).1.lookup dir.stateDir ≠ some (.file bytes) := by
    intro bytes found
    have none : p.load dir.components (p.save dir.components t b).1 .new = none := by
      unfold S3PersistableStore.load
      rw [show dir.components ++ ["state", "s3"] = dir.stateDir from rfl]
      simp only [found]
    rw [none] at loaded
    cases loaded
  rw [load_eq .new notFile] at loaded
  obtain ⟨stores, others⟩ := foldlM_loadOne nulFree_regionDirs loaded
  -- every key of the bundle is that of a region directory
  have listed : ∀ e ∈ b.iter, (p.save dir.components t b).1.lookup
      (dir.regionDir e.1.accountId e.1.region) = some .dir := by
    intro e member
    by_cases found : ∃ pair ∈ S3PersistableStore.regionDirs (p.save dir.components t b).1 dir.stateDir,
        (AccountRegionKey.new pair.1 pair.2).text = e.1.text
    · obtain ⟨⟨a, r⟩, inside, text⟩ := found
      have key : e.1 = AccountRegionKey.new a r := by
        rw [AccountRegionKey.mk.injEq]
        exact text.symm
      have nulFree := nulFree_regionDirs _ inside
      rw [key, AccountRegionKey.accountId_new nulFree r, AccountRegionKey.region_new nulFree r]
      exact mem_regionDirs.mp inside
    · have missing := others e.1.text fun pair inside same => found ⟨pair, inside, same⟩
      rw [mem_iter.mp member] at missing
      simp [AccountRegionBundle.new] at missing
  have named : ∀ e ∈ b.iter, Named e.1 := fun e member => fileNames_of_regionDir (listed e member)
  have free : ∀ e ∈ b.iter, Free t (dir.regionDir e.1.accountId e.1.region) "store.json" := by
    intro e member
    constructor
    · intro q inside bytes found
      obtain ⟨bytes', after⟩ := stays.files q bytes found
      obtain ⟨rest, whole⟩ := inside
      have here := listed e member
      rw [← whole] at here
      by_cases last : rest = []
      · rw [last, List.append_nil] at here
        cases after.symm.trans here
      · cases after.symm.trans (FileTree.lookup_of_prefix rest last here)
    · intro found
      have after := stays.dirs _ found
      obtain ⟨s, read, _⟩ := stores _ (mem_regionDirs.mpr (listed e member))
      rw [DataDir.regionDir, List.append_assoc] at after
      rw [loadStore, show dir.stateDir ++ [e.1.accountId, e.1.region, "store.json"] =
        dir.stateDir ++ ([e.1.accountId, e.1.region] ++ ["store.json"]) from rfl, after] at read
      cases read
  have written := (saveAll_written (p := p) b.iter named (iter_distinct b) free).2
  refine ⟨named, ?_, ?_, free, ?_⟩
  · intro a r found
    obtain ⟨s, _, stored⟩ := stores _ (mem_regionDirs.mpr (stays.dirs _ found))
    exact ⟨_, stored⟩
  · intro bytes found
    obtain ⟨bytes', after⟩ := stays.files _ bytes found
    exact notFile bytes' after
  · intro e member
    obtain ⟨s, read, stored⟩ := stores _ (mem_regionDirs.mpr (listed e member))
    obtain rfl := Option.some.inj ((written.loadStore_eq readable member).symm.trans read)
    rw [← text_of_region (named e member).2.1, mem_iter.mp member, Option.some.injEq] at stored
    exact (readable.resolve_iff member).mp stored.symm

/-- A save and a load give the bundle back exactly if every region directory on disk belongs to a
store in memory and the stores can be written where the load looks for them. -/
theorem snapshot_reproduces_iff (p : S3PersistableStore) (b64 : Base64) (dir : DataDir)
    (t : FileTree UInt8) (b : AccountRegionBundle S3Store) (readable : Readable p b64 b) :
    Reproduces p dir t b ↔ Reproducible p dir t b :=
  ⟨Reproduces.reproducible readable, Reproducible.reproduces readable⟩

end RoundTrip

/-- What `to_vec_pretty` prints for a store without buckets. -/
def emptyStoreText : Bytes :=
  "\x7b\n  \"buckets\": \x7b\x7d,\n  \"objects\": \x7b\x7d,\n  \"multipart_uploads\": \x7b\x7d\n\x7d".toUTF8.data.toList

/-- The serialisers on empty stores. -/
def emptyStores : S3PersistableStore where
  serde := ⟨fun _ => emptyStoreText, fun bytes => if bytes = emptyStoreText then some {} else none⟩
  s3ObjectsDir := ["/", "data", "objects", "s3"]

def exampleDataDir : DataDir := ⟨["data"], by decide⟩

def emptyBase64 : Base64 := ⟨fun _ => "", fun _ => some []⟩

/-- A bundle with one store, which has no buckets. -/
def oneStore : AccountRegionBundle S3Store :=
  AccountRegionBundle.new.getOrCreate "000000000000" "us-east-1" id

theorem mem_oneStore (member : e ∈ oneStore.iter) :
    e.1 = AccountRegionKey.new "000000000000" "us-east-1" ∧ e.2 = {} := by
  have found := mem_iter.mp member
  simp only [oneStore, AccountRegionBundle.getOrCreate, AccountRegionBundle.new,
    StrMap.getElem?_insert] at found
  split at found
  · next same =>
    refine ⟨?_, ?_⟩
    · rw [AccountRegionKey.mk.injEq]
      exact same.symm
    · rw [show ({} : S3Store) = default from rfl]
      simpa using (Option.some.inj found).symm
  · simp at found

theorem readable_oneStore : Readable emptyStores emptyBase64 oneStore := by
  have none : ({} : S3Store).dataRefs = [] := by decide +kernel
  constructor
  · intro e member _
    rw [(mem_oneStore member).2]
    have same : ({} : S3Store).relativizePaths emptyStores.s3ObjectsDir = {} :=
      mapData_eq_self_iff.mpr (by simp [none])
    rw [same]
    simp [emptyStores]
  · intro e member bytes inside
    rw [(mem_oneStore member).2, none] at inside
    cases inside
  · intro e member d inside
    rw [(mem_oneStore member).2, none] at inside
    cases inside

theorem snapshot_reproduces_one_store : Reproduces emptyStores exampleDataDir .empty oneStore := by
  have empty : ∀ q : List String, q ≠ [] → (FileTree.empty : FileTree UInt8).lookup q = none := by
    intro q nonempty
    simp [FileTree.lookup, nonempty, FileTree.empty]
  refine (snapshot_reproduces_iff emptyStores emptyBase64 exampleDataDir .empty oneStore
    readable_oneStore).mpr ⟨?_, ?_, ?_, ?_, ?_⟩
  · intro e member
    rw [Named, (mem_oneStore member).1]
    decide +kernel
  · intro a r found
    rw [empty _ (by simp [DataDir.regionDir])] at found
    cases found
  · intro bytes found
    rw [empty _ (by decide)] at found
    cases found
  · intro e member
    constructor
    · intro q _ bytes found
      by_cases root : q = []
      · rw [root] at found
        cases found
      · rw [empty q root] at found
        cases found
    · rw [empty _ (by simp)]
      exact (Option.some_ne_none _).symm
  · intro e member d inside
    have none : ({} : S3Store).dataRefs = [] := by decide +kernel
    rw [(mem_oneStore member).2, none] at inside
    cases inside

/-- A store that was saved, cleared by a reset and not saved again is loaded all the same. -/
theorem cleared_store_comes_back :
    ¬ ∀ (history : List (AccountRegionBundle S3Store)) (b : AccountRegionBundle S3Store),
      (∀ b' ∈ b :: history, Readable emptyStores emptyBase64 b') →
      Reproduces emptyStores exampleDataDir
        (history.foldl (fun t b' => (emptyStores.save exampleDataDir.components t b').1) .empty) b := by
  intro claim
  have cleared : Readable emptyStores emptyBase64 (S3PersistableStore.reset oneStore) := by
    have nothing : (S3PersistableStore.reset oneStore).iter = [] := by
      simp [S3PersistableStore.reset, AccountRegionBundle.clear, AccountRegionBundle.iter]
    constructor <;> simp [nothing]
  have loaded := (claim [oneStore] (S3PersistableStore.reset oneStore) (by
    intro b' member
    rcases List.mem_cons.mp member with rfl | older
    · exact cleared
    · rw [List.mem_singleton.mp older]
      exact readable_oneStore)).2
  have count := congrArg (Option.map fun b => b.iter.length) loaded
  revert count
  decide +kernel

end Openstack.S3

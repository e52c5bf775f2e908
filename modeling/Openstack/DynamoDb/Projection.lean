import Openstack.Lib.TrimmedParts
import Openstack.DynamoDb.TransactGet

/-!
# What a projection keeps

`provider.rs:563-604`. The placeholders are replaced in the text of the expression before the text is cut at
the commas, so a real name with commas in it is cut as well, and one with white space at its ends is trimmed.
-/
namespace Openstack.DynamoDb

/-- `char::is_alphanumeric`: among the characters of ASCII the letters and digits, and no white space. -/
structure Alphanumeric where
  test : Char → Bool
  ascii : ∀ c, c.toNat < 128 → test c = c.isAlphanum
  dark : ∀ c, RustStr.isWhitespace c = true → test c = false

namespace Alphanumeric

variable (T : Alphanumeric)

/-- A character of a placeholder. -/
def wordChar (c : Char) : Bool := T.test c || c == '_'

end Alphanumeric

/-- What one entry of the list stands for. -/
inductive ProjectedName (T : Alphanumeric) where
  /-- A name as it is. -/
  | name (text : Text) (nonempty : text ≠ []) (plain : ',' ∉ text ∧ '#' ∉ text)
      (trimmed : RustStr.trim text = text)
  /-- `#word`. -/
  | placeholder (word : Text) (plain : ∀ c ∈ word, T.wordChar c = true)

/-- An entry, with the white space around it. -/
structure ProjectionEntry (T : Alphanumeric) where
  lead : Text
  projected : ProjectedName T
  trail : Text
  blank : RustStr.Blank lead ∧ RustStr.Blank trail

/-- A list of names with at least one entry. -/
structure ProjectionList (T : Alphanumeric) where
  first : ProjectionEntry T
  rest : List (ProjectionEntry T)

section Meaning

variable {T : Alphanumeric}

@[grind] def ProjectedName.text : ProjectedName T → Text
  | .name text _ _ _ => text
  | .placeholder word _ => '#' :: word

/-- A placeholder without a real name denotes itself. -/
def ProjectedName.denote (names : AttrNames) : ProjectedName T → String
  | .name text _ _ _ => String.ofList text
  | .placeholder word _ => resolveName ('#' :: word) names

def ProjectionEntry.text (e : ProjectionEntry T) : Text := e.lead ++ e.projected.text ++ e.trail

namespace ProjectionList

variable (l : ProjectionList T)

def entries : List (ProjectionEntry T) := l.first :: l.rest

def text : Text := [','].intercalate (l.entries.map ProjectionEntry.text)

def denoted (names : AttrNames) : List String := l.entries.map fun e => e.projected.denote names

/-- The item keeps the attributes that the list names, with their values, and no others. -/
def KeepsDenoted (names : AttrNames) (item : Item) : Prop :=
  ∀ k : String, (projectItem T.test item (some (String.ofList l.text)) names)[k]? =
    if k ∈ l.denoted names then item[k]? else none

/-- The commas and the white space in the real names do no harm to this item. -/
structure Separates (names : AttrNames) (item : Item) : Prop where
  whole : ∀ k ∈ l.denoted names, item.contains k = true →
    ',' ∉ k.toList ∧ RustStr.trim k.toList = k.toList
  noOthers : ∀ k, item.contains k = true → ∀ real ∈ l.denoted names,
    k.toList ∈ RustStr.trimmedParts ',' real.toList → k ∈ l.denoted names

end ProjectionList

variable {names : AttrNames}

theorem comma_ends_word (T : Alphanumeric) : T.test ',' = false := by
  rw [T.ascii ',' (by decide)]
  decide

/-- A comma ends a placeholder, and what stands behind it is read afresh. -/
theorem resolvePlaceholders_append_comma (a b : Text) (open_ : Option Text) :
    resolvePlaceholders T.test names open_ (a ++ ',' :: b) =
      resolvePlaceholders T.test names open_ a ++ ',' :: resolvePlaceholders T.test names none b := by
  induction a generalizing open_ with
  | nil =>
    cases open_ with
    | none => simp [resolvePlaceholders]
    | some name => simp [resolvePlaceholders, comma_ends_word T]
  | cons c rest ih =>
    cases open_ with
    | none =>
      rw [List.cons_append, resolvePlaceholders, resolvePlaceholders]
      split
      · exact ih _
      · rw [ih, List.cons_append]
    | some name =>
      rw [List.cons_append, resolvePlaceholders, resolvePlaceholders]
      split
      · exact ih _
      · split
        · rw [ih, List.append_assoc]
        · rw [ih, List.append_assoc, List.cons_append]

theorem resolvePlaceholders_append_plain {front : Text} (plain : '#' ∉ front) (rest : Text) :
    resolvePlaceholders T.test names none (front ++ rest) =
      front ++ resolvePlaceholders T.test names none rest := by
  induction front with
  | nil => rfl
  | cons c more ih =>
    have apart : c ≠ '#' := fun same => plain (by simp [same])
    rw [List.cons_append, resolvePlaceholders, if_neg apart, ih fun member => plain (by simp [member])]
    rfl

theorem resolvePlaceholders_plain {s : Text} (plain : '#' ∉ s) :
    resolvePlaceholders T.test names none s = s := by
  have whole := @resolvePlaceholders_append_plain T names _ plain []
  rwa [List.append_nil, resolvePlaceholders, List.append_nil] at whole

theorem hash_not_mem_blank {s : Text} (blank : RustStr.Blank s) : '#' ∉ s := fun member =>
  absurd (blank '#' member) (by decide)

/-- White space ends a placeholder. -/
theorem resolvePlaceholders_word {word trail : Text} (plain : ∀ c ∈ word, T.wordChar c = true)
    (blank : RustStr.Blank trail) (name : Text) :
    resolvePlaceholders T.test names (some name) (word ++ trail) =
      (resolveName (name ++ word) names).toList ++ trail := by
  induction word generalizing name with
  | nil =>
    cases trail with
    | nil => rw [List.append_nil, List.append_nil, List.append_nil, resolvePlaceholders]
    | cons c rest =>
      have white := blank c (by simp)
      have ends : ¬ (T.test c = true ∨ c = '_') := by
        rintro (alnum | rfl)
        · rw [T.dark c white] at alnum
          cases alnum
        · exact absurd white (by decide)
      have apart : c ≠ '#' := fun same => hash_not_mem_blank blank (by simp [same])
      rw [List.nil_append, List.append_nil, resolvePlaceholders, if_neg ends, if_neg apart,
        resolvePlaceholders_plain fun member => hash_not_mem_blank blank (by simp [member])]
  | cons c rest ih =>
    have inside : T.test c = true ∨ c = '_' := by
      simpa [Alphanumeric.wordChar] using plain c (by simp)
    rw [List.cons_append, resolvePlaceholders, if_pos inside, ih fun x member => plain x (by simp [member]),
      List.append_assoc, List.singleton_append]

/-- The name an entry denotes takes the place of the entry. -/
theorem resolvePlaceholders_entry (e : ProjectionEntry T) :
    resolvePlaceholders T.test names none e.text =
      e.lead ++ (e.projected.denote names).toList ++ e.trail := by
  rw [ProjectionEntry.text, List.append_assoc,
    resolvePlaceholders_append_plain (hash_not_mem_blank e.blank.1), List.append_assoc]
  congr 1
  cases e.projected with
  | name text _ plain _ =>
    rw [ProjectedName.text, ProjectedName.denote, String.toList_ofList, resolvePlaceholders_append_plain plain.2,
      resolvePlaceholders_plain (hash_not_mem_blank e.blank.2)]
  | placeholder word plain =>
    rw [ProjectedName.text, ProjectedName.denote, List.cons_append, resolvePlaceholders, if_pos rfl,
      resolvePlaceholders_word plain e.blank.2, List.singleton_append]

/-- The parts the code compares names with are the parts of the names denoted. -/
theorem trimmedParts_entries (e : ProjectionEntry T) (rest : List (ProjectionEntry T)) :
    RustStr.trimmedParts ',' (resolvePlaceholders T.test names none
        ([','].intercalate ((e :: rest).map ProjectionEntry.text))) =
      ((e :: rest).map fun e => e.projected.denote names).flatMap
        fun real => RustStr.trimmedParts ',' real.toList := by
  have one (e : ProjectionEntry T) :
      RustStr.trimmedParts ',' (resolvePlaceholders T.test names none e.text) =
        RustStr.trimmedParts ',' (e.projected.denote names).toList := by
    rw [resolvePlaceholders_entry, RustStr.trimmedParts_append_blank e.blank.2 (by decide),
      RustStr.trimmedParts_blank_append e.blank.1 (by decide)]
  induction rest generalizing e with
  | nil =>
    rw [List.map_singleton, List.intercalate_singleton, one, List.map_singleton, List.flatMap_singleton]
  | cons next rest ih =>
    rw [List.map_cons, List.map_cons, List.intercalate_cons_cons, List.append_assoc, List.singleton_append,
      resolvePlaceholders_append_comma, RustStr.trimmedParts_append, one, ← List.map_cons, ih, List.map_cons,
      List.map_cons, List.map_cons, List.flatMap_cons, List.flatMap_cons, List.flatMap_cons]

namespace ProjectionList

variable (l : ProjectionList T)

theorem text_ne_nil : l.text ≠ [] := by
  have first : l.first.text ≠ [] := by
    rw [ProjectionEntry.text]
    cases l.first.projected with
    | name text nonempty _ _ => simp [ProjectedName.text, nonempty]
    | placeholder word _ => simp [ProjectedName.text]
  rw [text, entries, List.map_cons]
  cases l.rest with
  | nil => simpa using first
  | cons next rest => simp [List.intercalate_cons_cons]

/-- An attribute is kept when its name is a part of a name denoted. -/
theorem projectItem_getElem? (item : Item) (k : String) :
    (projectItem T.test item (some (String.ofList l.text)) names)[k]? =
      if k.toList ∈ (l.denoted names).flatMap (fun real => RustStr.trimmedParts ',' real.toList)
        then item[k]? else none := by
  have nonempty : String.ofList l.text ≠ "" := fun same =>
    l.text_ne_nil (String.ofList_inj.mp same)
  have parts := @trimmedParts_entries T names l.first l.rest
  simp only [projectItem, if_neg nonempty, String.toList_ofList]
  rw [← RustStr.trimmedParts, text, entries, parts, Std.ExtTreeMap.getElem?_filter', denoted, entries,
    List.contains_eq_mem]
  cases item[k]? with
  | none => rw [Option.filter_none, ite_self]
  | some v => simp only [Option.filter_some, decide_eq_true_eq]

end ProjectionList

end Meaning

/-- A projection keeps the attributes that are named when no name of them is cut or trimmed and none of the
parts that commas leave is another attribute. -/
theorem projection_keeps_denoted_iff (T : Alphanumeric) (l : ProjectionList T) (names : AttrNames)
    (item : Item) : l.KeepsDenoted names item ↔ l.Separates names item := by
  have kept (k : String) (v : AttributeValue) (found : item[k]? = some v) :
      (projectItem T.test item (some (String.ofList l.text)) names)[k]? =
          (if k ∈ l.denoted names then item[k]? else none) ↔
        (k.toList ∈ (l.denoted names).flatMap (fun real => RustStr.trimmedParts ',' real.toList) ↔
          k ∈ l.denoted names) := by
    rw [l.projectItem_getElem?, found]
    by_cases part : k.toList ∈ (l.denoted names).flatMap fun real => RustStr.trimmedParts ',' real.toList
    · rw [if_pos part, iff_true_left part]
      split
      · next listed => exact iff_of_true rfl listed
      · next other => exact iff_of_false (by simp) other
    · rw [if_neg part, iff_false_left part]
      split
      · next listed => exact iff_of_false (by simp) fun other => other listed
      · next other => exact iff_of_true rfl other
  constructor
  · intro keeps
    constructor
    · intro k listed here
      obtain ⟨v, found⟩ := Std.ExtTreeMap.mem_iff_isSome_getElem?.mp here |> Option.isSome_iff_exists.mp
      have part := ((kept k v found).mp (keeps k)).mpr listed
      obtain ⟨real, _, member⟩ := List.mem_flatMap.mp part
      exact RustStr.plain_of_mem_trimmedParts member
    · intro k here real listed member
      obtain ⟨v, found⟩ := Std.ExtTreeMap.mem_iff_isSome_getElem?.mp here |> Option.isSome_iff_exists.mp
      exact ((kept k v found).mp (keeps k)).mp (List.mem_flatMap.mpr ⟨real, listed, member⟩)
  · intro separates k
    cases found : item[k]? with
    | none => rw [l.projectItem_getElem?, found, ite_self, ite_self]
    | some v =>
      have here : item.contains k = true := by
        rw [Std.ExtTreeMap.contains_eq_isSome_getElem?, found]
        rfl
      rw [← found]
      refine (kept k v found).mpr ⟨fun part => ?_, fun listed => ?_⟩
      · obtain ⟨real, listed, member⟩ := List.mem_flatMap.mp part
        exact separates.noOthers k here real listed member
      · obtain ⟨plain, trimmed⟩ := separates.whole k listed here
        refine List.mem_flatMap.mpr ⟨k, listed, ?_⟩
        rw [RustStr.trimmedParts_eq_self plain trimmed]
        exact List.mem_singleton_self _

def asciiAlphanumeric : Alphanumeric where
  test c := c.isAlphanum
  ascii _ _ := rfl
  dark _ white := RustStr.isAlphanum_of_isWhitespace white

/-- The list `#x`. -/
def placeholderX : ProjectionList asciiAlphanumeric where
  first := ⟨[], .placeholder ['x'] (List.all_eq_true.mp (by decide)), [], ⟨nofun, nofun⟩⟩
  rest := []

/-- An attribute with a comma in its name is lost under its placeholder. -/
theorem comma_loses_attribute : ¬ placeholderX.KeepsDenoted ((∅ : AttrNames).insert "#x" "a,b")
    ((∅ : Item).insert "a,b" (.n "1")) := by
  intro keeps
  have kept := congrArg Option.isSome (keeps "a,b")
  exact absurd kept (by decide +kernel)

end Openstack.DynamoDb

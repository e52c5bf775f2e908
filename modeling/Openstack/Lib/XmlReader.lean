import Openstack.Lib.TagSearch

/-!
# Reading XML

A document as its tags, each with the text in front of it. Texts and tags are told apart by `<` and `>` and
the five predefined entities are replaced; attributes stay as they are written, and characters are not
normalised. A document is given as its items: texts, each with the text that is meant by it, and tags.
-/
namespace Openstack.XmlReader

variable {A : Type} {items : List Item} {quote : Option Char} {f : A → List Item} {l : List A}

abbrev Text := List Char

/-! ## Entities -/

section Entities

/-- What follows the ampersand. -/
def entities : List (Text × Char) :=
  [("amp;".toList, '&'), ("lt;".toList, '<'), ("gt;".toList, '>'), ("quot;".toList, '"'),
    ("apos;".toList, '\'')]

/-- The first `skip` characters belong to an entity that has been read. -/
@[grind] def decodeFrom : (skip : Nat) → Text → Option Text
  | _, [] => some []
  | skip + 1, _ :: rest => decodeFrom skip rest
  | 0, c :: rest =>
    if c = '&' then
      (entities.find? fun e => e.1.isPrefixOf rest).bind fun e =>
        (decodeFrom e.1.length rest).map (e.2 :: ·)
    else (decodeFrom 0 rest).map (c :: ·)

/-- A text with its entities replaced, where every ampersand begins one. -/
def decode (raw : Text) : Option Text := decodeFrom 0 raw

variable {raw text rest : Text}

theorem decode_nil : decode [] = some [] := rfl

theorem decode_cons_of_ne {c : Char} (plain : c ≠ '&') (rest : Text) :
    decode (c :: rest) = (decode rest).map (c :: ·) := by
  rw [decode, decodeFrom, if_neg plain, decode]

theorem decodeFrom_append (name rest : Text) : decodeFrom name.length (name ++ rest) = decode rest := by
  induction name with
  | nil => rfl
  | cons c name ih => exact ih

/-- No name of an entity begins another one. -/
theorem find_entity {e : Text × Char} (listed : e ∈ entities) (rest : Text) :
    entities.find? (fun e' => e'.1.isPrefixOf (e.1 ++ rest)) = some e := by
  simp only [entities, List.mem_cons, List.not_mem_nil, or_false] at listed
  rcases listed with rfl | rfl | rfl | rfl | rfl <;> rfl

theorem decode_entity {e : Text × Char} (listed : e ∈ entities) (rest : Text) :
    decode ('&' :: (e.1 ++ rest)) = (decode rest).map (e.2 :: ·) := by
  rw [decode, decodeFrom, if_pos rfl, find_entity listed, Option.bind_some, decodeFrom_append]

/-- A text written character by character, each as itself or as its entity. -/
theorem decode_flatMap {write : Char → Text}
    (each : ∀ c ∈ text, write c = [c] ∧ c ≠ '&' ∨ ∃ e ∈ entities, e.2 = c ∧ write c = '&' :: e.1) :
    decode (text.flatMap write) = some text := by
  induction text with
  | nil => rfl
  | cons c text ih =>
    obtain ⟨here, others⟩ := List.forall_mem_cons.mp each
    rw [List.flatMap_cons]
    rcases here with ⟨same, plain⟩ | ⟨e, listed, named, entity⟩
    · rw [same, List.singleton_append, decode_cons_of_ne plain, ih others, Option.map_some]
    · rw [entity, List.cons_append, decode_entity listed, ih others, Option.map_some, named]

theorem decode_plain (plain : '&' ∉ text) : decode text = some text := by
  have each : ∀ c ∈ text, [c] = [c] ∧ c ≠ '&' ∨ ∃ e ∈ entities, e.2 = c ∧ [c] = '&' :: e.1 :=
    fun c member => .inl ⟨rfl, fun same => plain (same ▸ member)⟩
  have read := decode_flatMap each
  rwa [List.flatMap_singleton'] at read

/-- Every entity is at least three characters longer than what it stands for. -/
theorem length_decodeFrom (skip : Nat) (read : decodeFrom skip raw = some text) :
    text.length + 3 * (raw.drop skip).count '&' ≤ (raw.drop skip).length := by
  induction skip, raw using decodeFrom.induct generalizing text with
  | case1 skip =>
    obtain rfl := Option.some.inj read
    simp
  | case2 skip c rest ih => exact ih read
  | case3 rest ih =>
    rw [decodeFrom, if_pos rfl] at read
    obtain ⟨e, found, more⟩ := Option.bind_eq_some_iff.mp read
    obtain ⟨after, shorter, rfl⟩ := Option.map_eq_some_iff.mp more
    have bound := ih e shorter
    have named : e.1.isPrefixOf rest = true := 
      List.find?_some (p := fun e : Text × Char => e.1.isPrefixOf rest) found
    obtain ⟨later, rfl⟩ := List.isPrefixOf_iff_prefix.mp named
    have shape : ∀ e ∈ entities, '&' ∉ e.1 ∧ 3 ≤ e.1.length := by decide
    obtain ⟨plain, long⟩ := shape e (List.mem_of_find?_eq_some found)
    rw [List.drop_left] at bound
    simp only [List.drop_zero, List.count_cons_self, List.count_append, List.count_eq_zero.mpr plain,
      List.length_cons, List.length_append]
    omega
  | case4 c rest plain ih =>
    rw [decodeFrom, if_neg plain] at read
    obtain ⟨after, shorter, rfl⟩ := Option.map_eq_some_iff.mp read
    have bound := ih shorter
    rw [List.drop_zero] at bound ⊢
    rw [List.count_cons_of_ne (by simpa using plain), List.length_cons, List.length_cons]
    omega

theorem length_decode (read : decode raw = some text) : text.length + 3 * raw.count '&' ≤ raw.length :=
  length_decodeFrom 0 read

theorem decode_append_plain {front : Text} (plain : '&' ∉ front) (raw : Text) :
    decode (front ++ raw) = (decode raw).map (front ++ ·) := by
  induction front with
  | nil => simp
  | cons c front ih =>
    have other : c ≠ '&' := fun same => plain (same ▸ List.mem_cons_self)
    rw [List.cons_append, decode_cons_of_ne other, ih fun member => plain (List.mem_cons_of_mem _ member),
      Option.map_map]
    rfl

/-- A text behind the entities whose characters are in none of them. -/
theorem decodeFrom_append_other {back : Text} (other : ∀ e ∈ entities, ∀ c ∈ back, c ≠ '&' ∧ c ∉ e.1) (skip : Nat)
    (within : skip ≤ raw.length) : decodeFrom skip (raw ++ back) = (decodeFrom skip raw).map (· ++ back) := by
  induction skip, raw using decodeFrom.induct with
  | case1 skip =>
    obtain rfl : skip = 0 := by simpa using within
    have plain : '&' ∉ back := fun member => (other ("amp;".toList, '&') (by simp [entities]) _ member).1 rfl
    exact decode_plain plain
  | case2 skip c rest ih => exact ih (by simpa using within)
  | case3 rest ih =>
    have same : (entities.find? fun e => e.1.isPrefixOf (rest ++ back)) =
        entities.find? fun e => e.1.isPrefixOf rest := by
      rw [← List.head?_filter, ← List.head?_filter]
      refine congrArg List.head? (List.filter_congr fun e listed => ?_)
      rw [Bool.eq_iff_iff, List.isPrefixOf_iff_prefix, List.isPrefixOf_iff_prefix]
      refine ⟨fun begins => ?_, fun begins => begins.trans (List.prefix_append _ _)⟩
      refine List.prefix_of_prefix_length_le begins (List.prefix_append _ _) ?_
      by_contra long
      -- the entity would run into the text behind
      obtain ⟨more, whole⟩ := begins
      cases back with
      | nil =>
        have lengths := congrArg List.length whole
        simp only [List.length_append, List.length_nil] at lengths
        omega
      | cons d back =>
        have char : (e.1 ++ more)[rest.length]? = some d := by rw [whole]; simp
        rw [List.getElem?_append_left (by omega)] at char
        exact (other e listed d List.mem_cons_self).2 (List.mem_of_getElem? char)
    rw [List.cons_append, decodeFrom, decodeFrom, if_pos rfl, if_pos rfl, same]
    cases found : entities.find? fun e => e.1.isPrefixOf rest with
    | none => rfl
    | some e =>
      have named : e.1.isPrefixOf rest = true :=
        List.find?_some (p := fun e : Text × Char => e.1.isPrefixOf rest) found
      have fits := (List.isPrefixOf_iff_prefix.mp named).length_le
      rw [Option.bind_some, Option.bind_some, ih e fits, Option.map_map, Option.map_map]
      rfl
  | case4 c rest plain ih =>
    rw [List.cons_append, decodeFrom, decodeFrom, if_neg plain, if_neg plain, ih (Nat.zero_le _), Option.map_map,
      Option.map_map]
    rfl

/-- A text that is written as it stands. -/
theorem decode_self_iff : decode text = some text ↔ '&' ∉ text := by
  refine ⟨fun read => ?_, decode_plain⟩
  have bound := length_decode read
  exact List.count_eq_zero.mp (by omega)

end Entities

/-! ## Tags -/

section Tags

def inRanges (ranges : List (Nat × Nat)) (c : Char) : Bool :=
  ranges.any fun range => range.1 ≤ c.toNat && c.toNat ≤ range.2

/-- The characters a name begins with. -/
def isNameStart : Char → Bool :=
  inRanges [(58, 58), (65, 90), (95, 95), (97, 122), (0xC0, 0xD6), (0xD8, 0xF6), (0xF8, 0x2FF),
    (0x370, 0x37D), (0x37F, 0x1FFF), (0x200C, 0x200D), (0x2070, 0x218F), (0x2C00, 0x2FEF),
    (0x3001, 0xD7FF), (0xF900, 0xFDCF), (0xFDF0, 0xFFFD), (0x10000, 0xEFFFF)]

def isNameChar (c : Char) : Bool :=
  isNameStart c || inRanges [(45, 46), (48, 57), (0xB7, 0xB7), (0x300, 0x36F), (0x203F, 0x2040)] c

def isName : Text → Bool
  | [] => false
  | c :: rest => isNameStart c && rest.all isNameChar

def isBlank (c : Char) : Bool := c = ' ' || c = '\t' || c = '\n' || c = '\r'

/-- The quote that is open after a character of a tag. -/
def quoteAfter : (quote : Option Char) → Char → Option Char
  | none, c => if c = '"' || c = '\'' then some c else none
  | some q, c => if c = q then none else some q

/-- The end of the tag is not reached before the end of the text. -/
def inTag : (quote : Option Char) → Text → Bool
  | quote, [] => quote.isNone
  | quote, c :: rest => c ≠ '<' && !(c = '>' && quote.isNone) && inTag (quoteAfter quote c) rest

/-- What may stand between the name and the end of an opening tag. -/
def attributesFit (text : Text) : Bool :=
  text.head?.all isBlank && text.getLast? ≠ some '/' && inTag none text

structure Attributes where
  text : Text
  fit : attributesFit text = true
  deriving DecidableEq

def Attributes.none : Attributes := ⟨[], rfl⟩

inductive Tag where
  | opening (name : Text) (attributes : Attributes)
  | closing (name : Text)
  | empty (name : Text) (attributes : Attributes)
  deriving DecidableEq

namespace Tag

def name : Tag → Text
  | opening name _ => name
  | closing name => name
  | empty name _ => name

/-- What stands between `<` and `>`. -/
def body : Tag → Text
  | opening name attributes => name ++ attributes.text
  | closing name => '/' :: name
  | empty name attributes => name ++ (attributes.text ++ ['/'])

def print (tag : Tag) : Text := '<' :: (tag.body ++ ['>'])

end Tag

def parseClosing (body : Text) : Option Tag :=
  let name := body.takeWhile isNameChar
  if isName name && (body.dropWhile isNameChar).all isBlank then some (.closing name) else none

def parseOpening (body : Text) : Option Tag :=
  let name := body.takeWhile isNameChar
  let more := body.dropWhile isNameChar
  if isName name then
    if more.getLast? = some '/' then
      if fit : attributesFit more.dropLast = true then some (.empty name ⟨more.dropLast, fit⟩) else none
    else if fit : attributesFit more = true then some (.opening name ⟨more, fit⟩) else none
  else none

/-- The tag with what stands between `<` and `>`. -/
def parseTag : (body : Text) → Option Tag
  | '/' :: rest => parseClosing rest
  | body => parseOpening body

/-- Whether a tag can be told by its text. -/
def Tag.Valid (tag : Tag) : Prop := isName tag.name = true

instance (tag : Tag) : Decidable tag.Valid := inferInstanceAs (Decidable (_ = true))

variable {tag : Tag} {name rest : Text}

theorem parseOpening_valid {body : Text} (parsed : parseOpening body = some tag) : tag.Valid := by
  unfold parseOpening at parsed
  dsimp only at parsed
  split at parsed
  · next named =>
    split at parsed <;> split at parsed
    · obtain rfl := Option.some.inj parsed
      exact named
    · cases parsed
    · obtain rfl := Option.some.inj parsed
      exact named
    · cases parsed
  · cases parsed

theorem parseTag_valid {body : Text} (parsed : parseTag body = some tag) : tag.Valid := by
  unfold parseTag at parsed
  split at parsed
  · unfold parseClosing at parsed
    dsimp only at parsed
    split at parsed
    · next named =>
      obtain rfl := Option.some.inj parsed
      exact ((Bool.and_eq_true _ _).mp named).1
    · cases parsed
  · exact parseOpening_valid parsed

theorem all_nameChar (named : isName name = true) : ∀ c ∈ name, isNameChar c = true := by
  cases name with
  | nil => exact fun c member => absurd member List.not_mem_nil
  | cons c name =>
    obtain ⟨first, others⟩ := (Bool.and_eq_true _ _).mp named
    rw [List.forall_mem_cons]
    exact ⟨by rw [isNameChar, first, Bool.true_or], List.all_eq_true.mp others⟩

theorem isNameChar_ne {c d : Char} (char : isNameChar c = true) (other : isNameChar d = false) : c ≠ d :=
  fun same => Bool.false_ne_true (other.symm.trans (same ▸ char))

theorem inTag_name (name rest : Text) (chars : ∀ c ∈ name, isNameChar c = true) :
    inTag none (name ++ rest) = inTag none rest := by
  induction name with
  | nil => rfl
  | cons c name ih =>
    obtain ⟨here, others⟩ := List.forall_mem_cons.mp chars
    have lt : c ≠ '<' := isNameChar_ne here (by decide)
    have gt : c ≠ '>' := isNameChar_ne here (by decide)
    have double : c ≠ '"' := isNameChar_ne here (by decide)
    have single : c ≠ '\'' := isNameChar_ne here (by decide)
    rw [List.cons_append, inTag, quoteAfter]
    simp [lt, gt, double, single, ih others]

theorem span_name (chars : ∀ c ∈ name, isNameChar c = true)
    (ends : ∀ c ∈ rest.head?, isNameChar c = false) :
    (name ++ rest).takeWhile isNameChar = name ∧ (name ++ rest).dropWhile isNameChar = rest := by
  rw [List.takeWhile_append_of_pos chars, List.dropWhile_append_of_pos chars]
  cases rest with
  | nil => exact ⟨List.append_nil name, rfl⟩
  | cons c rest =>
    have other := ends c rfl
    rw [List.takeWhile_cons_of_neg (by simp [other]), List.dropWhile_cons_of_neg (by simp [other])]
    exact ⟨List.append_nil name, rfl⟩

theorem isNameChar_blank {c : Char} (blank : isBlank c = true) : isNameChar c = false := by
  simp only [isBlank, Bool.or_eq_true, decide_eq_true_iff] at blank
  rcases blank with ((rfl | rfl) | rfl) | rfl <;> decide

namespace Attributes

variable (attributes : Attributes)

theorem facts : (∀ c ∈ attributes.text.head?, isNameChar c = false) ∧
    attributes.text.getLast? ≠ some '/' ∧ inTag .none attributes.text = true := by
  obtain ⟨text, fit⟩ := attributes
  simp only [attributesFit, Bool.and_eq_true, decide_eq_true_iff, Option.all_eq_true] at fit
  exact ⟨fun c head => isNameChar_blank (fit.1.1 c head), fit.1.2, fit.2⟩

end Attributes

theorem inTag_append_slash (text : Text) (inside : inTag quote text = true) :
    inTag quote (text ++ ['/']) = true := by
  induction text generalizing quote with
  | nil =>
    obtain rfl : quote = none := by simpa [inTag] using inside
    decide
  | cons c text ih =>
    simp only [List.cons_append, inTag, Bool.and_eq_true] at inside ⊢
    exact ⟨inside.1, ih inside.2⟩

/-- The end of a tag is the first `>` that is not in quotes. -/
theorem Tag.Valid.inTag (valid : tag.Valid) : XmlReader.inTag none tag.body = true := by
  have chars := all_nameChar valid
  cases tag with
  | opening name attributes => exact (inTag_name name _ chars).trans attributes.facts.2.2
  | closing name =>
    have plain := inTag_name name [] chars
    rw [List.append_nil] at plain
    exact plain
  | empty name attributes =>
    exact (inTag_name name _ chars).trans (inTag_append_slash _ attributes.facts.2.2)

theorem parseTag_name (named : isName name = true) (more : Text) :
    parseTag (name ++ more) = parseOpening (name ++ more) := by
  have chars := all_nameChar named
  cases name with
  | nil => cases named
  | cons c name =>
    have notSlash : c ≠ '/' := isNameChar_ne (chars c List.mem_cons_self) (by decide)
    unfold parseTag
    split
    · next same => exact absurd (List.cons.inj same).1 notSlash
    · rfl

theorem parseTag_opening (named : isName name = true) (attributes : Attributes) :
    parseTag (name ++ attributes.text) = some (.opening name attributes) := by
  obtain ⟨head, last, -⟩ := attributes.facts
  obtain ⟨taken, dropped⟩ := span_name (all_nameChar named) head
  rw [parseTag_name named, parseOpening]
  simp only [taken, dropped]
  rw [if_pos named, if_neg last, dif_pos attributes.fit]

theorem parseTag_closing (named : isName name = true) : parseTag ('/' :: name) = some (.closing name) := by
  have ends : ∀ c ∈ ([] : Text).head?, isNameChar c = false := by simp
  obtain ⟨taken, dropped⟩ := span_name (all_nameChar named) ends
  rw [List.append_nil] at taken dropped
  simp only [parseTag, parseClosing, taken, dropped, named]
  rfl

theorem parseTag_empty (named : isName name = true) (attributes : Attributes) :
    parseTag (name ++ (attributes.text ++ ['/'])) = some (.empty name attributes) := by
  have head : ∀ c ∈ (attributes.text ++ ['/']).head?, isNameChar c = false := by
    have blank := attributes.facts.1
    cases start : attributes.text with
    | nil =>
      rintro _ ⟨⟩
      decide
    | cons d text =>
      rw [start] at blank
      exact blank
  obtain ⟨taken, dropped⟩ := span_name (all_nameChar named) head
  rw [parseTag_name named, parseOpening]
  simp only [taken, dropped]
  rw [if_pos named, if_pos List.getLast?_concat]
  simp only [List.dropLast_concat]
  rw [dif_pos attributes.fit]

theorem Tag.Valid.parseTag (valid : tag.Valid) : XmlReader.parseTag tag.body = some tag := by
  cases tag with
  | opening name attributes => exact parseTag_opening valid attributes
  | closing name => exact parseTag_closing valid
  | empty name attributes => exact parseTag_empty valid attributes

end Tags

/-! ## Documents -/

section Reading

/-- The tags, each with the text in front of it, and the text behind the last one. -/
abbrev Reading := List (Text × Tag) × Text

def follow (text : Text) (tag : Tag) (r : Reading) : Reading := ((text, tag) :: r.1, r.2)

mutual

/-- `seen` is the text since the last tag. -/
def readText (seen : Text) : Text → Option Reading
  | [] => (decode seen).map fun text => ([], text)
  | c :: rest => if c = '<' then readTag seen [] none rest else readText (seen ++ [c]) rest

/-- `body` is what has been read of the tag. -/
def readTag (seen body : Text) (quote : Option Char) : Text → Option Reading
  | [] => none
  | c :: rest =>
    if c = '<' then none
    else if c = '>' ∧ quote = none then
      (decode seen).bind fun text => (parseTag body).bind fun tag => (readText [] rest).map (follow text tag)
    else readTag seen (body ++ [c]) (quoteAfter quote c) rest

end

def read (document : Text) : Option Reading := readText [] document

def declaration : Text := "<?xml version=\"1.0\" encoding=\"UTF-8\"?>".toList

/-- The document behind its declaration, if it has one. -/
def readDocument (document : Text) : Option Reading :=
  if "<?xml ".toList.isPrefixOf document then
    (RustStr.after "?>".toList document).bind read
  else read document

theorem readDocument_declaration (document : Text) :
    readDocument (declaration ++ document) = read document := by
  have declared : "<?xml ".toList.isPrefixOf (declaration ++ document) = true := by
    rw [List.isPrefixOf_iff_prefix]
    exact List.IsPrefix.trans (by decide +kernel) (List.prefix_append declaration document)
  have split : RustStr.after "?>".toList declaration = some [] := by decide +kernel
  rw [readDocument, if_pos declared, TagSearch.after_append split]
  rfl

variable {seen raw text body rest : Text} {tag : Tag}

theorem readText_append (plain : '<' ∉ raw) (seen rest : Text) :
    readText seen (raw ++ rest) = readText (seen ++ raw) rest := by
  induction raw generalizing seen with
  | nil => rw [List.append_nil, List.nil_append]
  | cons c raw ih =>
    have other : c ≠ '<' := fun same => plain (same ▸ List.mem_cons_self)
    rw [List.cons_append, readText, if_neg other, ih (fun member => plain (List.mem_cons_of_mem _ member)),
      List.append_assoc, List.singleton_append]

theorem readText_lt (seen rest : Text) : readText seen ('<' :: rest) = readTag seen [] none rest := by
  rw [readText, if_pos rfl]

theorem readTag_inTag (inside : inTag quote body = true) (seen front rest : Text) :
    readTag seen front quote (body ++ '>' :: rest) =
      (decode seen).bind fun text => (parseTag (front ++ body)).bind fun tag =>
        (readText [] rest).map (follow text tag) := by
  induction body generalizing quote front with
  | nil =>
    obtain rfl : quote = none := by simpa [inTag] using inside
    rw [List.nil_append, List.append_nil, readTag, if_neg (by decide), if_pos ⟨rfl, rfl⟩]
  | cons c body ih =>
    simp only [inTag, Bool.and_eq_true, decide_eq_true_iff, Bool.not_eq_true', Bool.and_eq_false_iff,
      decide_eq_false_iff_not] at inside
    have further : ¬ (c = '>' ∧ quote = none) := by
      rintro ⟨same, rfl⟩
      simp [same] at inside
    rw [List.cons_append, readTag, if_neg inside.1.1, if_neg further, ih inside.2, List.append_assoc,
      List.singleton_append]

/-- A tag behind a text is told from it. -/
theorem readText_tag (valid : tag.Valid) (plain : '<' ∉ raw) (rest : Text) :
    readText [] (raw ++ (tag.print ++ rest)) =
      (decode raw).bind fun text => (readText [] rest).map (follow text tag) := by
  rw [readText_append plain, List.nil_append, Tag.print, List.cons_append, readText_lt, List.append_assoc,
    List.singleton_append, readTag_inTag valid.inTag, List.nil_append, valid.parseTag]
  rfl

/-- What a tag has been read from begins with its text. -/
theorem readTag_follow {r : Reading} (found : readTag seen body quote rest = some r) :
    ∃ text tag r', r = follow text tag r' ∧ decode seen = some text ∧ tag.Valid := by
  induction rest generalizing body quote with
  | nil =>
    rw [readTag] at found
    cases found
  | cons c rest ih =>
    rw [readTag] at found
    split at found
    · cases found
    · split at found
      · obtain ⟨text, decoded, found⟩ := Option.bind_eq_some_iff.mp found
        obtain ⟨tag, parsed, found⟩ := Option.bind_eq_some_iff.mp found
        obtain ⟨r', _, rfl⟩ := Option.map_eq_some_iff.mp found
        exact ⟨text, tag, r', rfl, decoded, parseTag_valid parsed⟩
      · exact ih found

end Reading

/-! ## Items -/

section Items

inductive Item where
  | text (raw meant : Text)
  | tag (t : Tag)

def print : List Item → Text
  | [] => []
  | .text raw _ :: items => raw ++ print items
  | .tag t :: items => t.print ++ print items

/-- What is meant by the items, behind the text `seen`. -/
def meantFrom (seen : Text) : List Item → Reading
  | [] => ([], seen)
  | .text _ meant :: items => meantFrom (seen ++ meant) items
  | .tag t :: items => follow seen t (meantFrom [] items)

def meant (items : List Item) : Reading := meantFrom [] items

/-- The tags among the items, whatever the texts are. -/
def tags : List Item → List Tag
  | [] => []
  | .text _ _ :: items => tags items
  | .tag t :: items => t :: tags items

def tagsRead (r : Reading) : List Tag := r.1.map Prod.snd

def textsRead (r : Reading) : List Text := r.1.map Prod.fst ++ [r.2]

theorem reading_ext {r r' : Reading} (sameTags : tagsRead r = tagsRead r') (sameTexts : textsRead r = textsRead r') :
    r = r' := by
  obtain ⟨front, last⟩ := List.append_inj' sameTexts rfl
  refine Prod.ext ?_ (List.singleton_inj.mp last)
  rw [← List.zip_unzip r.1, ← List.zip_unzip r'.1, List.unzip_eq_map, List.unzip_eq_map, front]
  exact congrArg (List.zip _) sameTags

theorem tagsRead_meantFrom (seen : Text) (items : List Item) : tagsRead (meantFrom seen items) = tags items := by
  induction items generalizing seen with
  | nil => rfl
  | cons item items ih =>
    cases item with
    | text raw meant => exact ih _
    | tag t => exact congrArg (t :: ·) (ih [])

/-- A text that is written so that it is read as what is meant. -/
def Written (raw meant : Text) : Prop := '<' ∉ raw ∧ decode raw = some meant

/-- Every text between two tags is written well, behind the text `raw`, and every tag can be told. -/
def SoundFrom (raw meant : Text) : List Item → Prop
  | [] => Written raw meant
  | .text raw' meant' :: items => SoundFrom (raw ++ raw') (meant ++ meant') items
  | .tag t :: items => Written raw meant ∧ t.Valid ∧ SoundFrom [] [] items

def Sound (items : List Item) : Prop := SoundFrom [] [] items

/-- A text that holds a `<` is not longer than what is meant by it. -/
def BoundedFrom (raw meant : Text) : List Item → Prop
  | [] => '<' ∈ raw → raw.length ≤ meant.length
  | .text raw' meant' :: items => BoundedFrom (raw ++ raw') (meant ++ meant') items
  | .tag _ :: items => ('<' ∈ raw → raw.length ≤ meant.length) ∧ BoundedFrom [] [] items

def Bounded (items : List Item) : Prop := BoundedFrom [] [] items

variable {raw meant : Text} {items : List Item}

theorem readText_of_sound (sound : SoundFrom raw meant items) :
    readText [] (raw ++ print items) = some (meantFrom meant items) := by
  induction items generalizing raw meant with
  | nil =>
    rw [print, readText_append sound.1, List.nil_append, readText, sound.2]
    rfl
  | cons item items ih =>
    cases item with
    | text raw' meant' =>
      rw [print, ← List.append_assoc]
      exact ih sound
    | tag t =>
      obtain ⟨written, valid, others⟩ := sound
      have later := ih others
      rw [List.nil_append] at later
      rw [print, readText_tag valid written.1, written.2, Option.bind_some, later, Option.map_some]
      rfl

/-- A text that is read as what is meant, up to the `<` behind it. -/
theorem written_of_read {rest : Text} {r : Reading} {t : Tag}
    (found : readText [] (raw ++ '<' :: rest) = some (follow meant t r))
    (bounded : '<' ∈ raw → raw.length ≤ meant.length) : Written raw meant ∧ t.Valid := by
  by_cases plain : '<' ∈ raw
  · -- the text would end at the first `<` in it, and is not longer than it is written
    obtain ⟨front, later, rfl, absent⟩ := List.eq_append_cons_of_mem plain
    rw [List.append_assoc, readText_append absent, List.nil_append, List.cons_append, readText_lt] at found
    obtain ⟨text, tag, r', same, decoded, -⟩ := readTag_follow found
    obtain ⟨rfl, -⟩ := Prod.mk.inj (List.cons.inj (Prod.mk.inj same).1).1
    have shorter := length_decode decoded
    have longer := bounded plain
    simp only [List.length_append, List.length_cons] at longer
    omega
  · rw [readText_append plain, List.nil_append, readText_lt] at found
    obtain ⟨text, tag, r', same, decoded, valid⟩ := readTag_follow found
    obtain ⟨rfl, rfl⟩ := Prod.mk.inj (List.cons.inj (Prod.mk.inj same).1).1
    exact ⟨⟨plain, decoded⟩, valid⟩

theorem sound_of_readText (bounded : BoundedFrom raw meant items)
    (found : readText [] (raw ++ print items) = some (meantFrom meant items)) :
    SoundFrom raw meant items := by
  induction items generalizing raw meant with
  | nil =>
    rw [print, List.append_nil, meantFrom] at found
    have plain : '<' ∉ raw := by
      intro inside
      obtain ⟨front, later, rfl, absent⟩ := List.eq_append_cons_of_mem inside
      rw [readText_append absent, readText_lt] at found
      obtain ⟨text, tag, r', same, -⟩ := readTag_follow found
      exact absurd (Prod.mk.inj same).1 (by simp)
    have whole := readText_append plain [] []
    rw [List.append_nil, List.nil_append] at whole
    rw [whole, readText] at found
    obtain ⟨text, decoded, same⟩ := Option.map_eq_some_iff.mp found
    exact ⟨plain, decoded.trans (congrArg some (Prod.mk.inj same).2)⟩
  | cons item items ih =>
    cases item with
    | text raw' meant' =>
      rw [print, ← List.append_assoc] at found
      exact ih bounded found
    | tag t =>
      obtain ⟨here, others⟩ := bounded
      rw [print, meantFrom] at found
      have begun : readText [] (raw ++ '<' :: (t.body ++ ['>'] ++ print items)) =
          some (follow meant t (meantFrom [] items)) := found
      obtain ⟨written, valid⟩ := written_of_read begun here
      rw [readText_tag valid written.1, written.2, Option.bind_some] at found
      obtain ⟨r, later, same⟩ := Option.map_eq_some_iff.mp found
      obtain ⟨tail, last⟩ := Prod.mk.inj same
      have rest : r = meantFrom [] items := Prod.ext (List.cons.inj tail).2 last
      refine ⟨written, valid, ih others ?_⟩
      rw [List.nil_append, later, rest]

/-- A document is read as it is meant exactly when its texts are written well and its tags can be told. -/
theorem read_print_iff (bounded : Bounded items) :
    read (print items) = some (XmlReader.meant items) ↔ Sound items :=
  ⟨fun found => sound_of_readText bounded found, fun sound => readText_of_sound sound⟩

/-! ### Elements -/

/-- An element with its content. -/
def element (name : Text) (attributes : Attributes) (content : List Item) : List Item :=
  .tag (.opening name attributes) :: (content ++ [.tag (.closing name)])

theorem print_append (front back : List Item) : print (front ++ back) = print front ++ print back := by
  induction front with
  | nil => rfl
  | cons item front ih => cases item <;> simp [print, ih]

/-- A tag without attributes is the one that is searched for. -/
theorem print_element (name : String) (content : List Item) :
    print (element name.toList .none content) = TagSearch.element name (print content) := by
  rw [element, print, print_append, TagSearch.element, TagSearch.openTag_eq, TagSearch.closeTag_eq]
  simp [print, Tag.print, Tag.body, Attributes.none]

theorem print_flatMap (f : A → List Item) (l : List A) :
    print (l.flatMap f) = l.flatMap fun x => print (f x) := by
  induction l with
  | nil => rfl
  | cons x l ih => rw [List.flatMap_cons, print_append, ih, List.flatMap_cons]

theorem soundFrom_tag (raw meant : Text) (front : List Item) (t : Tag) (back : List Item) :
    SoundFrom raw meant (front ++ .tag t :: back) ↔ SoundFrom raw meant front ∧ t.Valid ∧ Sound back := by
  induction front generalizing raw meant with
  | nil => exact Iff.rfl
  | cons item front ih =>
    cases item with
    | text raw' meant' => exact ih _ _
    | tag t' =>
      simp only [List.cons_append, SoundFrom, ih]
      tauto

theorem boundedFrom_tag (raw meant : Text) (front : List Item) (t : Tag) (back : List Item) :
    BoundedFrom raw meant (front ++ .tag t :: back) ↔ BoundedFrom raw meant front ∧ Bounded back := by
  induction front generalizing raw meant with
  | nil => exact Iff.rfl
  | cons item front ih =>
    cases item with
    | text raw' meant' => exact ih _ _
    | tag t' =>
      simp only [List.cons_append, BoundedFrom, ih]
      tauto

theorem written_nil : Written [] [] := ⟨List.not_mem_nil, rfl⟩

theorem sound_nil : Sound [] := written_nil

theorem bounded_nil : Bounded [] := fun inside => absurd inside List.not_mem_nil

/-- Items that end with a tag, so that no text of theirs goes on behind them. -/
def Closed (items : List Item) : Prop := items = [] ∨ ∃ front t, items = front ++ [.tag t]

variable {front back : List Item}

theorem closed_element (name : Text) (attributes : Attributes) (content : List Item) :
    Closed (element name attributes content) :=
  .inr ⟨.tag (.opening name attributes) :: content, .closing name, rfl⟩

theorem Closed.append (first : Closed front) (second : Closed back) : Closed (front ++ back) := by
  rcases second with rfl | ⟨more, t, rfl⟩
  · rwa [List.append_nil]
  · exact .inr ⟨front ++ more, t, (List.append_assoc front more _).symm⟩

theorem closed_flatMap (each : ∀ x ∈ l, Closed (f x)) :
    Closed (l.flatMap f) := by
  induction l with
  | nil => exact .inl rfl
  | cons x l ih =>
    obtain ⟨here, others⟩ := List.forall_mem_cons.mp each
    exact here.append (ih others)

theorem sound_append (closed : Closed front) : Sound (front ++ back) ↔ Sound front ∧ Sound back := by
  rcases closed with rfl | ⟨more, t, rfl⟩
  · simp [sound_nil]
  · have alone := soundFrom_tag [] [] more t []
    rw [List.append_assoc, List.singleton_append, Sound, Sound, soundFrom_tag, alone]
    simp only [sound_nil, and_true, and_assoc]

theorem bounded_append (closed : Closed front) :
    Bounded (front ++ back) ↔ Bounded front ∧ Bounded back := by
  rcases closed with rfl | ⟨more, t, rfl⟩
  · simp [bounded_nil]
  · have alone := boundedFrom_tag [] [] more t []
    rw [List.append_assoc, List.singleton_append, Bounded, Bounded, boundedFrom_tag, alone]
    simp only [bounded_nil, and_true]

theorem sound_flatMap (each : ∀ x, Closed (f x)) :
    Sound (l.flatMap f) ↔ ∀ x ∈ l, Sound (f x) := by
  induction l with
  | nil => simp [sound_nil]
  | cons x l ih => rw [List.flatMap_cons, sound_append (each x), ih, List.forall_mem_cons]

theorem bounded_flatMap (each : ∀ x, Closed (f x)) :
    Bounded (l.flatMap f) ↔ ∀ x ∈ l, Bounded (f x) := by
  induction l with
  | nil => simp [bounded_nil]
  | cons x l ih => rw [List.flatMap_cons, bounded_append (each x), ih, List.forall_mem_cons]

variable {name : Text} {attributes : Attributes} {content : List Item}

theorem sound_element : Sound (element name attributes content) ↔ isName name = true ∧ Sound content := by
  rw [element, Sound, SoundFrom, soundFrom_tag]
  simp only [written_nil, true_and, Tag.Valid, Tag.name, sound_nil, and_true]
  tauto

theorem bounded_element : Bounded (element name attributes content) ↔ Bounded content := by
  rw [element, Bounded, BoundedFrom, boundedFrom_tag]
  exact ⟨fun whole => whole.2.1, fun inside => ⟨bounded_nil, inside, bounded_nil⟩⟩

theorem sound_text : Sound [.text raw meant] ↔ Written raw meant := Iff.rfl

theorem bounded_text : Bounded [.text raw meant] ↔ ('<' ∈ raw → raw.length ≤ meant.length) := Iff.rfl

/-! ### Texts as they are -/

/-- An element that holds a text as it is. -/
def leaf (field : String × String) : Text := TagSearch.element field.1 field.2.toList

def leafItems (field : String × String) : List Item :=
  element field.1.toList .none [.text field.2.toList field.2.toList]

/-- A text that is read as it is written. -/
def Unmarked (s : String) : Prop := '<' ∉ s.toList ∧ '&' ∉ s.toList

instance (s : String) : Decidable (Unmarked s) := inferInstanceAs (Decidable (_ ∧ _))

variable {field : String × String} {fields : List (String × String)}

theorem print_leafItems (field : String × String) : print (leafItems field) = leaf field := by
  rw [leafItems, print_element, print, print, List.append_nil, leaf]

theorem closed_leafItems (field : String × String) : Closed (leafItems field) := closed_element _ _ _

theorem sound_leafItems : Sound (leafItems field) ↔ isName field.1.toList = true ∧ Unmarked field.2 := by
  rw [leafItems, sound_element, sound_text, Written, decode_self_iff, Unmarked]

theorem bounded_leafItems : Bounded (leafItems field) :=
  bounded_element.mpr fun _ => Nat.le_refl _

/-- Fields whose tags can be told are read as they are written exactly when their texts are. -/
theorem sound_fields (named : ∀ field ∈ fields, isName field.1.toList = true) :
    Sound (fields.flatMap leafItems) ↔ ∀ field ∈ fields, Unmarked field.2 := by
  rw [sound_flatMap closed_leafItems]
  constructor
  · exact fun sound field member => (sound_leafItems.mp (sound field member)).2
  · exact fun plain field member => sound_leafItems.mpr ⟨named field member, plain field member⟩

theorem bounded_fields (fields : List (String × String)) : Bounded (fields.flatMap leafItems) :=
  (bounded_flatMap closed_leafItems).mpr fun _ _ => bounded_leafItems

end Items

/-! ### Blanks -/

section Blanks

def Blank (text : Text) : Prop := ∀ c ∈ text, isBlank c = true

variable {w raw meant : Text} (blank : Blank w)

include blank

theorem Blank.other : ∀ e ∈ entities, ∀ c ∈ w, c ≠ '&' ∧ c ∉ e.1 := by
  intro e listed c member
  have which := blank c member
  simp only [isBlank, Bool.or_eq_true, decide_eq_true_iff] at which
  simp only [entities, List.mem_cons, List.not_mem_nil, or_false] at listed
  rcases which with ((rfl | rfl) | rfl) | rfl <;> rcases listed with rfl | rfl | rfl | rfl | rfl <;> decide

theorem Blank.plain : '&' ∉ w ∧ '<' ∉ w := by
  refine ⟨fun member => ?_, fun member => ?_⟩ <;> exact absurd (blank _ member) (by decide)

theorem written_blank_append : Written (w ++ raw) (w ++ meant) ↔ Written raw meant := by
  rw [Written, Written, decode_append_plain blank.plain.1, List.mem_append, not_or, Option.map_eq_some_iff]
  constructor
  · rintro ⟨⟨-, absent⟩, text, decoded, same⟩
    exact ⟨absent, decoded.trans (congrArg some (List.append_cancel_left same))⟩
  · rintro ⟨absent, decoded⟩
    exact ⟨⟨blank.plain.2, absent⟩, meant, decoded, rfl⟩

theorem written_append_blank : Written (raw ++ w) (meant ++ w) ↔ Written raw meant := by
  have decoded : decode (raw ++ w) = (decode raw).map (· ++ w) :=
    decodeFrom_append_other blank.other 0 (Nat.zero_le _)
  rw [Written, Written, decoded, List.mem_append, not_or, Option.map_eq_some_iff]
  constructor
  · rintro ⟨⟨absent, -⟩, text, decoded, same⟩
    exact ⟨absent, decoded.trans (congrArg some (List.append_cancel_right same))⟩
  · rintro ⟨absent, decoded⟩
    exact ⟨⟨absent, blank.plain.2⟩, meant, decoded, rfl⟩

theorem soundFrom_blank_append :
    SoundFrom (w ++ raw) (w ++ meant) items ↔ SoundFrom raw meant items := by
  induction items generalizing raw meant with
  | nil => exact written_blank_append blank
  | cons item items ih =>
    cases item with
    | text raw' meant' =>
      rw [SoundFrom, SoundFrom, List.append_assoc, List.append_assoc]
      exact ih
    | tag t => rw [SoundFrom, SoundFrom, written_blank_append blank]

theorem soundFrom_append_blank :
    SoundFrom raw meant (items ++ [.text w w]) ↔ SoundFrom raw meant items := by
  induction items generalizing raw meant with
  | nil => exact written_append_blank blank
  | cons item items ih =>
    cases item with
    | text raw' meant' => exact ih
    | tag t => rw [List.cons_append, SoundFrom, SoundFrom, ih]

theorem boundedFrom_blank_append :
    BoundedFrom (w ++ raw) (w ++ meant) items ↔ BoundedFrom raw meant items := by
  induction items generalizing raw meant with
  | nil => simp [BoundedFrom, blank.plain.2]
  | cons item items ih =>
    cases item with
    | text raw' meant' =>
      rw [BoundedFrom, BoundedFrom, List.append_assoc, List.append_assoc]
      exact ih
    | tag t => simp [BoundedFrom, blank.plain.2]

theorem boundedFrom_append_blank :
    BoundedFrom raw meant (items ++ [.text w w]) ↔ BoundedFrom raw meant items := by
  induction items generalizing raw meant with
  | nil => simp [BoundedFrom, blank.plain.2]
  | cons item items ih =>
    cases item with
    | text raw' meant' => exact ih
    | tag t => rw [List.cons_append, BoundedFrom, BoundedFrom, ih]

end Blanks

/-! ### Indented elements -/

section Indented

/-- A new line, indented. -/
def indent (n : Nat) : Text := '\n' :: List.replicate n ' '

theorem blank_indent (n : Nat) : Blank (indent n) := by
  intro c member
  rcases List.mem_cons.mp member with rfl | space
  · decide
  · rw [List.eq_of_mem_replicate space]
    decide

/-- Parts on lines of their own, two blanks further in than the end. -/
def block (n : Nat) (parts : List Text) : Text := parts.flatMap (indent (n + 2) ++ ·) ++ indent n

def gap (n : Nat) : Item := .text (indent n) (indent n)

def blockItems (n : Nat) (parts : List (List Item)) : List Item := parts.flatMap (gap (n + 2) :: ·) ++ [gap n]

theorem print_blockItems (n : Nat) (parts : List (List Item)) :
    print (blockItems n parts) = block n (parts.map print) := by
  simp only [blockItems, block, print_append, print_flatMap, List.flatMap_map, gap, print, List.append_nil]

theorem sound_gap (n : Nat) (items : List Item) : Sound (gap n :: items) ↔ Sound items := by
  have moved : SoundFrom (indent n ++ []) (indent n ++ []) items ↔ SoundFrom [] [] items :=
    soundFrom_blank_append (blank_indent n)
  rwa [List.append_nil] at moved

theorem bounded_gap (n : Nat) (items : List Item) : Bounded (gap n :: items) ↔ Bounded items := by
  have moved : BoundedFrom (indent n ++ []) (indent n ++ []) items ↔ BoundedFrom [] [] items :=
    boundedFrom_blank_append (blank_indent n)
  rwa [List.append_nil] at moved

theorem sound_append_gap (items : List Item) (n : Nat) : Sound (items ++ [gap n]) ↔ Sound items :=
  soundFrom_append_blank (blank_indent n)

theorem bounded_append_gap (items : List Item) (n : Nat) : Bounded (items ++ [gap n]) ↔ Bounded items :=
  boundedFrom_append_blank (blank_indent n)

theorem sound_blockItems (n : Nat) {parts : List (List Item)} (closed : ∀ p ∈ parts, Closed p) :
    Sound (blockItems n parts) ↔ ∀ p ∈ parts, Sound p := by
  rw [blockItems, sound_append_gap]
  induction parts with
  | nil => exact iff_of_true sound_nil (fun p member => absurd member List.not_mem_nil)
  | cons p parts ih =>
    obtain ⟨here, others⟩ := List.forall_mem_cons.mp closed
    rw [List.flatMap_cons, List.cons_append, sound_gap, sound_append here, ih others, List.forall_mem_cons]

theorem bounded_blockItems (n : Nat) {parts : List (List Item)} (closed : ∀ p ∈ parts, Closed p) :
    Bounded (blockItems n parts) ↔ ∀ p ∈ parts, Bounded p := by
  rw [blockItems, bounded_append_gap]
  induction parts with
  | nil => exact iff_of_true bounded_nil (fun p member => absurd member List.not_mem_nil)
  | cons p parts ih =>
    obtain ⟨here, others⟩ := List.forall_mem_cons.mp closed
    rw [List.flatMap_cons, List.cons_append, bounded_gap, bounded_append here, ih others, List.forall_mem_cons]

end Indented
end Openstack.XmlReader

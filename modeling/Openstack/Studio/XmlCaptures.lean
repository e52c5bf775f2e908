import Openstack.Framework.Xml
import Openstack.Studio.GuidedRuntime

/-!
# Captures from XML

`capture_xml_tag` on the documents that element trees are printed as, texts and attributes escaped. It looks for the
first tag that begins with the name and takes what is written from there to the first end of an element of the name.
-/
namespace Openstack.Studio

open KeywordSearch (Skips skips_of_absent)
open RustStr (before)
open XmlReader (isName isNameChar isNameStart)

variable {c : Char} {e : Element} {n : Name} {front : List Token}

/-! ## Element trees -/

structure Name where
  text : Text
  valid : isName text = true
  deriving DecidableEq

/-- An element: its name, its attributes, whether it is closed in its tag when it is empty, the text in front of the
first element in it, and these elements, each with the text behind it. -/
inductive Element where
  | node (name : Name) (attributes : List (Name × String)) (selfClosing : Bool) (first : String)
      (rest : List (Element × String))

namespace Element

def name : Element → Name
  | node name _ _ _ _ => name

def first : Element → String
  | node _ _ _ first _ => first

def rest : Element → List (Element × String)
  | node _ _ _ _ rest => rest

end Element

inductive Token where
  | text (s : String)
  | start (name : Name) (attributes : List (Name × String))
  | empty (name : Name) (attributes : List (Name × String))
  | stop (name : Name)
  deriving DecidableEq

mutual

def tokens : Element → List Token
  | .node name attributes selfClosing first rest =>
    if selfClosing && first = "" && rest.isEmpty then [.empty name attributes]
    else .start name attributes :: .text first :: (tokensRest rest ++ [.stop name])

@[grind] def tokensRest : List (Element × String) → List Token
  | [] => []
  | (e, s) :: rest => tokens e ++ .text s :: tokensRest rest

end

mutual

/-- The elements in document order. -/
def elements : Element → List Element
  | .node name attributes selfClosing first rest =>
    .node name attributes selfClosing first rest :: elementsRest rest

@[grind] def elementsRest : List (Element × String) → List Element
  | [] => []
  | (e, _) :: rest => elements e ++ elementsRest rest

end

/-- ` name="value"`, the value escaped. -/
def printAttribute (field : Name × String) : Text :=
  ' ' :: (field.1.text ++ ('=' :: '"' :: ((xmlEscape field.2).toList ++ ['"'])))

def printToken : Token → Text
  | .text s => (xmlEscape s).toList
  | .start name attributes => '<' :: (name.text ++ (attributes.flatMap printAttribute ++ ['>']))
  | .empty name attributes => '<' :: (name.text ++ (attributes.flatMap printAttribute ++ ['/', '>']))
  | .stop name => '<' :: '/' :: (name.text ++ ['>'])

def printTokens (l : List Token) : Text := l.flatMap printToken

/-- A document with or without its declaration. -/
structure XmlDocument where
  declared : Bool
  root : Element

namespace XmlDocument

def prolog (d : XmlDocument) : Text := if d.declared then XmlReader.declaration else []

def print (d : XmlDocument) : Text := d.prolog ++ printTokens (tokens d.root)

end XmlDocument

/-! ## Tags and names -/

section Tags

variable {t a b : Text}

/-- A text that ends before a character it does not have. -/
theorem prefix_before (absent : c ∉ t) (rest : Text) : t <+: a ++ c :: rest ↔ t <+: a := by
  refine ⟨fun begins => ?_, fun begins => begins.trans (List.prefix_append _ _)⟩
  refine List.prefix_of_prefix_length_le begins (List.prefix_append _ _) ?_
  by_contra long
  obtain ⟨more, whole⟩ := begins
  have char : (t ++ more)[a.length]? = some c := by rw [whole]; simp
  rw [List.getElem?_append_left (by omega)] at char
  exact absent (List.mem_of_getElem? char)

theorem Name.not_mem (n : Name) (other : isNameChar c = false) : c ∉ n.text := fun member =>
  Bool.false_ne_true (other.symm.trans (XmlReader.all_nameChar n.valid c member))

/-- The first character of a name. -/
theorem Name.exists_head (n : Name) : ∃ c rest, n.text = c :: rest ∧ isNameChar c = true := by
  obtain ⟨text, valid⟩ := n
  cases text with
  | nil => cases valid
  | cons c rest => exact ⟨c, rest, rfl, XmlReader.all_nameChar valid c List.mem_cons_self⟩

theorem markup_not_mem_attribute (markup : c ∈ ['<', '>']) (field : Name × String) :
    c ∉ printAttribute field := by
  have escaped : c ∉ (xmlEscape field.2).toList :=
    markup_not_mem_xmlEscape (by simp only [List.mem_cons] at markup ⊢; tauto) _
  have named : c ∉ field.1.text := field.1.not_mem (by
    simp only [List.mem_cons, List.not_mem_nil, or_false] at markup
    rcases markup with rfl | rfl <;> decide)
  simp only [List.mem_cons, List.not_mem_nil, or_false] at markup
  simp only [printAttribute, List.mem_cons, List.mem_append, List.not_mem_nil, or_false, not_or]
  refine ⟨?_, named, ?_, ?_, escaped, ?_⟩ <;> rcases markup with rfl | rfl <;> decide

theorem markup_not_mem_attributes (markup : c ∈ ['<', '>']) (attributes : List (Name × String)) :
    c ∉ attributes.flatMap printAttribute := by
  rw [List.mem_flatMap]
  rintro ⟨field, -, inside⟩
  exact markup_not_mem_attribute markup field inside

/-- What follows the name in a tag begins with a character that no name has. -/
theorem attributes_head (attributes : List (Name × String)) (back : Text) (other : isNameChar c = false) :
    ∃ d rest, attributes.flatMap printAttribute ++ c :: back = d :: rest ∧ isNameChar d = false := by
  cases attributes with
  | nil => exact ⟨c, back, rfl, other⟩
  | cons field attributes => exact ⟨' ', _, rfl, by decide⟩

end Tags

/-! ## Searches -/

section Searches

variable {t : Name} {k : Token} {front rest : Text}

/-- A tag that the search for the start of the name stops at. -/
def opens (t : Name) : Token → Bool
  | .start name _ | .empty name _ => t.text.isPrefixOf name.text
  | .text _ | .stop _ => false

/-- `</t>`. -/
def endMarker (t : Name) : Text := '<' :: '/' :: (t.text ++ ['>'])

theorem skips_tagged {p body : Text} (plain : '<' ∉ body) (apart : ∀ rest, ¬ p <+: body ++ rest) :
    Skips ('<' :: p) ('<' :: body) := by
  intro rest
  have here : ¬ ('<' :: p).isPrefixOf ('<' :: (body ++ rest)) = true := by
    rw [List.isPrefixOf_iff_prefix, List.cons_prefix_cons]
    exact fun begins => apart rest begins.2
  rw [List.cons_append, before, if_neg here, skips_of_absent plain rest, Option.map_map]
  rfl

theorem prefix_tag_iff (t n : Name) (fields : List (Name × String)) (other : isNameChar c = false)
    (back : Text) : t.text <+: n.text ++ (fields.flatMap printAttribute ++ c :: back) ↔ t.text <+: n.text := by
  obtain ⟨d, rest, follows, differs⟩ := attributes_head fields back other
  rw [follows]
  exact prefix_before (t.not_mem differs) rest

theorem not_prefix_slash (t : Name) (rest : Text) : ¬ t.text <+: '/' :: rest := by
  obtain ⟨c, more, head, char⟩ := t.exists_head
  rw [head, List.cons_prefix_cons]
  exact fun begins => XmlReader.isNameChar_ne char (by decide) begins.1

theorem lt_not_mem_tag (n : Name) (fields : List (Name × String)) {back : Text} (plain : '<' ∉ back) :
    '<' ∉ n.text ++ (fields.flatMap printAttribute ++ back) := by
  simp only [List.mem_append, not_or]
  exact ⟨n.not_mem (by decide), markup_not_mem_attributes List.mem_cons_self fields, plain⟩

theorem skips_token (other : opens t k = false) : Skips ('<' :: t.text) (printToken k) := by
  cases k with
  | text s => exact skips_of_absent (markup_not_mem_xmlEscape List.mem_cons_self s)
  | start n fields =>
    refine skips_tagged (lt_not_mem_tag n fields (by decide)) fun rest begins => ?_
    rw [List.append_assoc, List.append_assoc, List.singleton_append,
      prefix_tag_iff t n fields (by decide), ← List.isPrefixOf_iff_prefix] at begins
    exact Bool.false_ne_true (other.symm.trans begins)
  | empty n fields =>
    refine skips_tagged (lt_not_mem_tag n fields (by decide)) fun rest begins => ?_
    rw [List.append_assoc, List.append_assoc, List.cons_append,
      prefix_tag_iff t n fields (by decide), ← List.isPrefixOf_iff_prefix] at begins
    exact Bool.false_ne_true (other.symm.trans begins)
  | stop n =>
    refine skips_tagged ?_ fun rest begins => not_prefix_slash t _ begins
    simpa using n.not_mem (show isNameChar '<' = false by decide)

theorem skips_endMarker (other : k ≠ .stop t) : Skips (endMarker t) (printToken k) := by
  have apart (n : Name) (more rest : Text) : ¬ '/' :: (t.text ++ ['>']) <+: n.text ++ more ++ rest := by
    obtain ⟨c, tail, head, char⟩ := n.exists_head
    rw [head, List.cons_append, List.cons_append, List.cons_prefix_cons]
    exact fun begins => XmlReader.isNameChar_ne char (by decide) begins.1.symm
  cases k with
  | text s => exact skips_of_absent (markup_not_mem_xmlEscape List.mem_cons_self s)
  | start n fields => exact skips_tagged (lt_not_mem_tag n fields (by decide)) (apart n _)
  | empty n fields => exact skips_tagged (lt_not_mem_tag n fields (by decide)) (apart n _)
  | stop n =>
    refine skips_tagged (by simpa using n.not_mem (show isNameChar '<' = false by decide)) fun rest begins => ?_
    rw [List.cons_append, List.cons_prefix_cons] at begins
    obtain ⟨more, whole⟩ := begins.2
    rw [List.append_assoc, List.append_assoc, List.singleton_append, List.singleton_append] at whole
    have same := (RustStr.first_inj (t.not_mem (by decide)) (n.not_mem (by decide)) whole).1
    obtain ⟨text, valid⟩ := t
    obtain ⟨text', valid'⟩ := n
    obtain rfl : text = text' := same
    exact other rfl

theorem skips_tokens {p : Text} {l : List Token} (each : ∀ k ∈ l, Skips p (printToken k)) :
    Skips p (printTokens l) := TagSearch.skips_flatMap each

/-! ### The tag that is found -/

theorem suffix_slash (x : Text) : ['/', '>'].isSuffixOf (x ++ ['>']) = true ↔ x.getLast? = some '/' := by
  rw [List.isSuffixOf_iff_suffix]
  constructor
  · rintro ⟨y, whole⟩
    have both : (y ++ ['/']) ++ ['>'] = x ++ ['>'] := by
      rw [List.append_assoc]
      exact whole
    rw [← List.append_cancel_right both, List.getLast?_concat]
  · intro last
    obtain ⟨y, rfl⟩ := List.getLast?_eq_some_iff.mp last
    exact ⟨y, by simp⟩

theorem getLast_start (n : Name) (fields : List (Name × String)) :
    ('<' :: (n.text ++ fields.flatMap printAttribute)).getLast? ≠ some '/' := by
  intro last
  have inside := List.mem_of_getLast? last
  cases fields using List.reverseRecOn with
  | nil =>
    rw [List.flatMap_nil, List.append_nil] at inside
    rcases List.mem_cons.mp inside with same | member
    · cases same
    · exact n.not_mem (by decide) member
  | append_singleton fields field =>
    have ends : '<' :: (n.text ++ (fields ++ [field]).flatMap printAttribute) =
        '<' :: (n.text ++ (fields.flatMap printAttribute ++
          (' ' :: (field.1.text ++ ('=' :: '"' :: (xmlEscape field.2).toList))))) ++ ['"'] := by
      simp [printAttribute]
    rw [ends, List.getLast?_concat] at last
    cases last

theorem gt_not_mem_start (n : Name) (fields : List (Name × String)) :
    '>' ∉ '<' :: (n.text ++ fields.flatMap printAttribute) := by
  simp only [List.mem_cons, List.mem_append, not_or]
  exact ⟨by decide, n.not_mem (by decide), markup_not_mem_attributes (by simp) fields⟩

theorem captureXmlTag_of_skips (skips : Skips ('<' :: t.text) front) : captureXmlTag front t.text = none := by
  have absent := skips []
  have nothing : before ('<' :: t.text) [] = none := by simp [before]
  rw [List.append_nil, nothing, Option.map_none] at absent
  rw [captureXmlTag, absent]
  rfl

theorem before_tag (skips : Skips ('<' :: t.text) front) (begins : t.text <+: n.text) (more : Text) :
    before ('<' :: t.text) (front ++ '<' :: (n.text ++ more)) = some front := by
  obtain ⟨later, same⟩ := begins
  have found := skips.before_keyword (later ++ more) (List.cons_ne_nil _ _)
  rwa [List.cons_append, ← List.append_assoc t.text, same] at found

/-- What follows a start tag is taken up to the first end of an element of the name. -/
theorem captureXmlTag_start (skips : Skips ('<' :: t.text) front) (begins : t.text <+: n.text)
    (fields : List (Name × String)) (rest : Text) :
    captureXmlTag (front ++ (printToken (.start n fields) ++ rest)) t.text = before (endMarker t) rest := by
  have opening : before ['>'] (printToken (.start n fields) ++ rest) =
      some ('<' :: (n.text ++ fields.flatMap printAttribute)) := by
    have found := (skips_of_absent (gt_not_mem_start n fields)).before_keyword rest (List.cons_ne_nil '>' [])
    simpa [printToken] using found
  have after : (printToken (.start n fields) ++ rest).drop
      (('<' :: (n.text ++ fields.flatMap printAttribute)).length + 1) = rest := by
    have shape : printToken (.start n fields) ++ rest =
        ('<' :: (n.text ++ fields.flatMap printAttribute)) ++ ['>'] ++ rest := by simp [printToken]
    have size : ('<' :: (n.text ++ fields.flatMap printAttribute)).length + 1 =
        (('<' :: (n.text ++ fields.flatMap printAttribute)) ++ ['>']).length := by
      rw [List.length_append, List.length_singleton]
    rw [shape, size, List.drop_left]
  have found : before ('<' :: t.text) (front ++ (printToken (.start n fields) ++ rest)) = some front := by
    have here := before_tag skips begins (fields.flatMap printAttribute ++ ('>' :: rest))
    simpa [printToken] using here
  have open_tag : ¬ ['/', '>'].isSuffixOf (('<' :: (n.text ++ fields.flatMap printAttribute)) ++ ['>']) = true :=
    fun closed => getLast_start n fields ((suffix_slash _).mp closed)
  rw [captureXmlTag, found]
  simp only [Option.bind_eq_bind, Option.bind_some, List.drop_left, opening, after]
  rw [if_neg open_tag]
  rfl

/-- An element that is closed in its tag has nothing to take. -/
theorem captureXmlTag_empty (skips : Skips ('<' :: t.text) front) (begins : t.text <+: n.text)
    (fields : List (Name × String)) (rest : Text) :
    captureXmlTag (front ++ (printToken (.empty n fields) ++ rest)) t.text = none := by
  have plain : '>' ∉ '<' :: (n.text ++ fields.flatMap printAttribute) ++ ['/'] := by
    rw [List.mem_append, not_or]
    exact ⟨gt_not_mem_start n fields, by decide⟩
  have opening : before ['>'] (printToken (.empty n fields) ++ rest) =
      some ('<' :: (n.text ++ fields.flatMap printAttribute) ++ ['/']) := by
    have found := (skips_of_absent plain).before_keyword rest (List.cons_ne_nil '>' [])
    simpa [printToken] using found
  have found : before ('<' :: t.text) (front ++ (printToken (.empty n fields) ++ rest)) = some front := by
    have here := before_tag skips begins (fields.flatMap printAttribute ++ ('/' :: '>' :: rest))
    simpa [printToken] using here
  have closed : ['/', '>'].isSuffixOf
      ('<' :: (n.text ++ fields.flatMap printAttribute) ++ ['/'] ++ ['>']) = true :=
    (suffix_slash _).mpr List.getLast?_concat
  rw [captureXmlTag, found]
  simp only [Option.bind_eq_bind, Option.bind_some, List.drop_left, opening]
  rw [if_pos closed]

end Searches

/-! ## Documents -/

section Documents

variable (t : Name)

/-- The name of the element begins with `t`. -/
def begins (e : Element) : Bool := t.text.isPrefixOf e.name.text

/-- An element of the name that holds a text and nothing else. -/
def textOnly (e : Element) : Bool := e.name = t && e.first ≠ "" && e.rest.isEmpty

theorem begins_of_name {t : Name} (same : e.name = t) : begins t e = true := by
  rw [begins, same]
  exact List.isPrefixOf_iff_prefix.mpr List.prefix_rfl

theorem tokens_node (name : Name) (attributes : List (Name × String)) (selfClosing : Bool) (first : String)
    (rest : List (Element × String)) :
    tokens (.node name attributes selfClosing first rest) = [.empty name attributes] ∧ first = "" ∧ rest = [] ∨
      tokens (.node name attributes selfClosing first rest) =
        .start name attributes :: .text first :: (tokensRest rest ++ [.stop name]) := by
  rw [tokens]
  split
  · next closed =>
    simp only [Bool.and_eq_true, decide_eq_true_iff, List.isEmpty_iff] at closed
    exact .inl ⟨rfl, closed.1.2, closed.2⟩
  · exact .inr rfl

mutual

/-- The tags in front of the first element whose name begins with `t`. -/
theorem split_element : ∀ e found : Element, (elements e).find? (begins t) = some found →
    ∃ front rest, tokens e = front ++ (tokens found ++ rest) ∧ ∀ k ∈ front, opens t k = false
  | .node name attributes selfClosing first rest, found, here => by
    rw [elements, List.find?_cons] at here
    split at here
    · obtain rfl := Option.some.inj here
      exact ⟨[], [], by simp, fun k member => absurd member List.not_mem_nil⟩
    · next other =>
      obtain ⟨front, back, split, plain⟩ := split_rest rest found here
      rcases tokens_node name attributes selfClosing first rest with ⟨-, -, rfl⟩ | whole
      · cases here
      · refine ⟨.start name attributes :: .text first :: front, back ++ [.stop name], ?_, ?_⟩
        · rw [whole, split]
          simp
        · refine List.forall_mem_cons.mpr ⟨other, List.forall_mem_cons.mpr ⟨rfl, plain⟩⟩

theorem split_rest : ∀ (l : List (Element × String)) (found : Element),
    (elementsRest l).find? (begins t) = some found →
    ∃ front rest, tokensRest l = front ++ (tokens found ++ rest) ∧ ∀ k ∈ front, opens t k = false
  | [], found, here => by cases here
  | (e, s) :: rest, found, here => by
    rw [elementsRest, List.find?_append] at here
    cases inside : (elements e).find? (begins t) with
    | some x =>
      rw [inside, Option.some_or] at here
      obtain rfl := Option.some.inj here
      obtain ⟨front, back, split, plain⟩ := split_element e _ inside
      exact ⟨front, back ++ .text s :: tokensRest rest, by rw [tokensRest, split]; simp, plain⟩
    | none =>
      rw [inside, Option.none_or] at here
      obtain ⟨front, back, split, plain⟩ := split_rest rest found here
      refine ⟨tokens e ++ .text s :: front, back, by rw [tokensRest, split]; simp, ?_⟩
      refine List.forall_mem_append.mpr ⟨?_, List.forall_mem_cons.mpr ⟨rfl, plain⟩⟩
      exact opens_element e fun x member => by simpa using List.find?_eq_none.mp inside x member

theorem opens_element : ∀ e : Element, (∀ x ∈ elements e, begins t x = false) → ∀ k ∈ tokens e, opens t k = false
  | .node name attributes selfClosing first rest, plain => by
    rw [elements, List.forall_mem_cons] at plain
    rcases tokens_node name attributes selfClosing first rest with ⟨whole, -, -⟩ | whole
    · rw [whole, List.forall_mem_singleton]
      exact plain.1
    · rw [whole]
      refine List.forall_mem_cons.mpr ⟨plain.1, List.forall_mem_cons.mpr ⟨rfl, ?_⟩⟩
      refine List.forall_mem_append.mpr ⟨opens_rest rest plain.2, ?_⟩
      exact fun k member => by rw [List.mem_singleton.mp member]; rfl

theorem opens_rest : ∀ l : List (Element × String), (∀ x ∈ elementsRest l, begins t x = false) →
    ∀ k ∈ tokensRest l, opens t k = false
  | [], _ => fun k member => absurd member List.not_mem_nil
  | (e, s) :: rest, plain => by
    rw [elementsRest, List.forall_mem_append] at plain
    rw [tokensRest, List.forall_mem_append, List.forall_mem_cons]
    exact ⟨opens_element e plain.1, rfl, opens_rest rest plain.2⟩

end

mutual

/-- The ends of elements are those of elements there are. -/
theorem stop_element : ∀ e : Element, .stop t ∈ tokens e → ∃ x ∈ elements e, x.name = t
  | .node name attributes selfClosing first rest, member => by
    rw [elements]
    rcases tokens_node name attributes selfClosing first rest with ⟨whole, -, -⟩ | whole
    · rw [whole] at member
      cases List.mem_singleton.mp member
    · rw [whole] at member
      simp only [List.mem_cons, List.mem_append, List.not_mem_nil, or_false, reduceCtorEq, false_or,
        Token.stop.injEq] at member
      rcases member with inside | same
      · obtain ⟨x, listed, named⟩ := stop_rest rest inside
        exact ⟨x, List.mem_cons_of_mem _ listed, named⟩
      · exact ⟨_, List.mem_cons_self, same.symm⟩

theorem stop_rest : ∀ l : List (Element × String), .stop t ∈ tokensRest l → ∃ x ∈ elementsRest l, x.name = t
  | [], member => absurd member List.not_mem_nil
  | (e, s) :: rest, member => by
    rw [tokensRest, List.mem_append, List.mem_cons] at member
    rw [elementsRest]
    rcases member with inside | other | later
    · obtain ⟨x, listed, named⟩ := stop_element e inside
      exact ⟨x, List.mem_append_left _ listed, named⟩
    · cases other
    · obtain ⟨x, listed, named⟩ := stop_rest rest later
      exact ⟨x, List.mem_append_right _ listed, named⟩

end

namespace XmlDocument

variable (d : XmlDocument)

/-- The first element of the name, in document order, that holds a text and nothing else. -/
def firstText : Option Element := (elements d.root).find? (textOnly t)

def firstBeginning : Option Element := (elements d.root).find? (begins t)

/-- The text of the first element of the name that holds just a text is captured, and nothing where no element has
the name. -/
structure CapturesRight : Prop where
  text : ∀ e, d.firstText t = some e → captureXmlTag d.print t.text = some e.first.toList
  nothing : (∀ e ∈ elements d.root, e.name ≠ t) → captureXmlTag d.print t.text = none

def PlainText (s : String) : Prop := ∀ c ∈ s.toList, c ∉ xmlSpecials

/-- The text is, letter by letter, what is written between the first start tag whose name begins with `t` and the
first end of an element of the name behind it. -/
def SpellsMarkup (s : String) : Prop :=
  ∃ front name attributes between rest,
    tokens d.root = front ++ .start name attributes :: (between ++ .stop t :: rest) ∧
      (∀ k ∈ front, opens t k = false) ∧ t.text <+: name.text ∧ .stop t ∉ between ∧
        s.toList = printTokens between

/-- Where an element of the name holds just a text, the first element whose name begins with `t` is such an element,
and its text needs no escaping; or else the text happens to spell the markup behind that other element's tag. -/
def ReachesText : Prop :=
  ∀ e, d.firstText t = some e → ∃ e', d.firstBeginning t = some e' ∧
    (textOnly t e' = true ∧ PlainText e'.first ∨ textOnly t e' = false ∧ d.SpellsMarkup t e.first)

variable {t d}

theorem skips_prolog (p : Text) (head : ∀ rest, ¬ p <+: '?' :: rest) : Skips ('<' :: p) d.prolog := by
  rw [prolog]
  split
  · have shape : XmlReader.declaration = '<' :: ('?' :: "xml version=\"1.0\" encoding=\"UTF-8\"?>".toList) := rfl
    rw [shape]
    exact skips_tagged (by decide +kernel) fun rest => head _
  · exact KeywordSearch.skips_nil

theorem skips_start : Skips ('<' :: t.text) d.prolog := by
  refine skips_prolog _ fun rest => ?_
  obtain ⟨c, more, head, char⟩ := t.exists_head
  rw [head, List.cons_prefix_cons]
  exact fun same => XmlReader.isNameChar_ne char (by decide) same.1

theorem skips_front (plain : ∀ k ∈ front, opens t k = false) :
    Skips ('<' :: t.text) (d.prolog ++ printTokens front) :=
  skips_start.append (skips_tokens fun k member => skips_token (plain k member))

theorem printTokens_append (l l' : List Token) : printTokens (l ++ l') = printTokens l ++ printTokens l' :=
  List.flatMap_append

theorem printTokens_cons (k : Token) (l : List Token) : printTokens (k :: l) = printToken k ++ printTokens l :=
  List.flatMap_cons

/-- The tokens up to the first end of an element of the name. -/
theorem before_end {between : List Token} (absent : .stop t ∉ between) (rest : List Token) :
    before (endMarker t) (printTokens (between ++ .stop t :: rest)) = some (printTokens between) := by
  rw [printTokens_append, printTokens_cons]
  have skips : Skips (endMarker t) (printTokens between) :=
    skips_tokens fun k member => skips_endMarker fun same => absent (same ▸ member)
  exact skips.before_keyword _ (List.cons_ne_nil _ _)

theorem no_end {l : List Token} (absent : .stop t ∉ l) : before (endMarker t) (printTokens l) = none := by
  have skips : Skips (endMarker t) (printTokens l) :=
    skips_tokens fun k member => skips_endMarker fun same => absent (same ▸ member)
  have found := skips []
  rwa [List.append_nil, show before (endMarker t) [] = none by rfl, Option.map_none] at found

theorem capture_start (plain : ∀ k ∈ front, opens t k = false) {name : Name}
    (begins : t.text <+: name.text) {attributes : List (Name × String)} {rest : List Token}
    (split : tokens d.root = front ++ .start name attributes :: rest) :
    captureXmlTag d.print t.text = before (endMarker t) (printTokens rest) := by
  rw [print, split, printTokens_append, printTokens_cons, ← List.append_assoc]
  exact captureXmlTag_start (skips_front plain) begins attributes _

theorem capture_empty (plain : ∀ k ∈ front, opens t k = false) {name : Name}
    (begins : t.text <+: name.text) {attributes : List (Name × String)} {rest : List Token}
    (split : tokens d.root = front ++ .empty name attributes :: rest) : captureXmlTag d.print t.text = none := by
  rw [print, split, printTokens_append, printTokens_cons, ← List.append_assoc]
  exact captureXmlTag_empty (skips_front plain) begins attributes _

/-! ### What is captured -/

theorem prefix_of_firstBeginning (found : d.firstBeginning t = some e) : t.text <+: e.name.text := by
  have named : begins t e = true := List.find?_some found
  exact List.isPrefixOf_iff_prefix.mp named

/-- A capture is what stands between the first start tag whose name begins with `t` and the next end of a `t`. -/
theorem capture_eq_some_iff (s : String) : captureXmlTag d.print t.text = some s.toList ↔ d.SpellsMarkup t s := by
  constructor
  · intro captured
    cases found : d.firstBeginning t with
    | none =>
      have plain := opens_element t d.root fun x member => by simpa using List.find?_eq_none.mp found x member
      rw [print, captureXmlTag_of_skips (skips_front plain)] at captured
      cases captured
    | some e =>
      obtain ⟨front, back, split, plain⟩ := split_element t d.root e found
      have named := prefix_of_firstBeginning found
      obtain ⟨name, attributes, selfClosing, first, rest⟩ := e
      rcases tokens_node name attributes selfClosing first rest with ⟨whole, -, -⟩ | whole
      · rw [whole] at split
        rw [capture_empty plain named split] at captured
        cases captured
      · rw [whole, List.cons_append] at split
        rw [capture_start plain named split] at captured
        generalize .text first :: (tokensRest rest ++ [.stop name]) ++ back = behind at split captured
        by_cases ends : .stop t ∈ behind
        · obtain ⟨between, later, rfl, absent⟩ := List.eq_append_cons_of_mem ends
          rw [before_end absent] at captured
          exact ⟨front, name, attributes, between, later, split, plain, named, absent,
            (Option.some.inj captured).symm⟩
        · rw [no_end ends] at captured
          cases captured
  · rintro ⟨front, name, attributes, between, rest, split, plain, named, absent, spelled⟩
    rw [capture_start plain named split, before_end absent, spelled]

theorem textOnly_begins (text : textOnly t e = true) : begins t e = true := by
  simp only [textOnly, Bool.and_eq_true, decide_eq_true_iff] at text
  exact begins_of_name text.1.1

theorem exists_firstBeginning (found : d.firstText t = some e) :
    ∃ e', d.firstBeginning t = some e' := by
  refine Option.isSome_iff_exists.mp (List.find?_isSome.mpr ?_)
  exact ⟨e, List.mem_of_find?_eq_some found, textOnly_begins (List.find?_some found)⟩

theorem firstText_of_firstBeginning (found : d.firstBeginning t = some e)
    (text : textOnly t e = true) : d.firstText t = some e := by
  obtain ⟨-, front, back, split, earlier⟩ := List.find?_eq_some_iff_append.mp found
  refine List.find?_eq_some_iff_append.mpr ⟨text, front, back, split, fun x member => ?_⟩
  have other := earlier x member
  rw [Bool.not_eq_true'] at other ⊢
  exact Bool.eq_false_iff.mpr fun same => Bool.false_ne_true (other.symm.trans (textOnly_begins same))

/-- The text of the element that the search stops at is taken as it is written, escaped. -/
theorem capture_textOnly (found : d.firstBeginning t = some e) (text : textOnly t e = true) :
    captureXmlTag d.print t.text = some (xmlEscape e.first).toList := by
  obtain ⟨front, back, split, plain⟩ := split_element t d.root e found
  have named := prefix_of_firstBeginning found
  obtain ⟨name, attributes, selfClosing, first, rest⟩ := e
  simp only [textOnly, Bool.and_eq_true, decide_eq_true_eq, List.isEmpty_iff] at text
  obtain ⟨⟨same, some_text⟩, alone⟩ := text
  obtain rfl : name = t := same
  obtain rfl : rest = [] := alone
  rcases tokens_node name attributes selfClosing first [] with ⟨-, no_text, -⟩ | whole
  · exact absurd no_text some_text
  · rw [whole, List.cons_append] at split
    have absent : .stop name ∉ [Token.text first] := by simp
    have taken := before_end absent back
    rw [capture_start plain named split]
    simpa [tokensRest, printTokens, printToken, Element.first] using taken

theorem captureXmlTag_iff (d : XmlDocument) (t : Name) : d.CapturesRight t ↔ d.ReachesText t := by
  constructor
  · intro right e found
    have captured := right.text e found
    obtain ⟨e', first⟩ := exists_firstBeginning found
    refine ⟨e', first, ?_⟩
    by_cases text : textOnly t e' = true
    · obtain rfl := Option.some.inj ((firstText_of_firstBeginning first text).symm.trans found)
      rw [capture_textOnly first text] at captured
      exact .inl ⟨text, (xmlEscape_eq_iff _).mp (String.toList_inj.mp (Option.some.inj captured))⟩
    · exact .inr ⟨by simpa using text, (capture_eq_some_iff _).mp captured⟩
  · refine fun reaches => ⟨fun e found => ?_, fun absent => ?_⟩
    · obtain ⟨e', first, ⟨text, plain⟩ | ⟨-, spelled⟩⟩ := reaches e found
      · obtain rfl := Option.some.inj ((firstText_of_firstBeginning first text).symm.trans found)
        rw [capture_textOnly first text, (xmlEscape_eq_iff _).mpr plain]
      · exact (capture_eq_some_iff _).mpr spelled
    · cases captured : captureXmlTag d.print t.text with
      | none => rfl
      | some taken =>
        rw [← String.toList_ofList (l := taken)] at captured
        obtain ⟨front, name, attributes, between, rest, split, -⟩ := (capture_eq_some_iff _).mp captured
        obtain ⟨e, listed, named⟩ := stop_element t d.root (by simp [split])
        exact absurd named (absent e listed)

/-! ### A text with an ampersand -/

/-- `<t>a&b</t>`, escaped as any text. -/
def ampersandDocument : XmlDocument :=
  ⟨false, .node ⟨['t'], rfl⟩ [] false "a&b" []⟩

theorem ampersand_captured_escaped : ¬ ampersandDocument.CapturesRight ⟨['t'], rfl⟩ := by
  intro right
  have captured := right.text ampersandDocument.root rfl
  rw [capture_textOnly rfl (by decide)] at captured
  have same := String.toList_inj.mp (Option.some.inj captured)
  exact (xmlEscape_eq_iff _).mp same '&' (by decide) (by decide)

end XmlDocument

end Documents

end Openstack.Studio

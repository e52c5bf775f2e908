import Mathlib.Data.List.Basic
import Openstack.Lib.XmlReader

/-!
# Escaping

`xml_escape` and `url_encode` of `crates/service-framework/src/xml.rs`.
-/
namespace Openstack

def xmlEscapeChar : Char → List Char
  | '&' => "&amp;".toList
  | '<' => "&lt;".toList
  | '>' => "&gt;".toList
  | '"' => "&quot;".toList
  | '\'' => "&apos;".toList
  | c => [c]

/-- A text without one of the five characters is returned as it is. -/
def xmlEscape (s : String) : String :=
  if s.toList.any fun c => c = '&' || c = '<' || c = '>' || c = '"' || c = '\'' then
    String.ofList (s.toList.flatMap xmlEscapeChar)
  else s

theorem xmlEscapeChar_plain {c : Char} (plain : ¬ (c = '&' ∨ c = '<' ∨ c = '>' ∨ c = '"' ∨ c = '\'')) :
    xmlEscapeChar c = [c] := by
  simp only [not_or] at plain
  unfold xmlEscapeChar
  split <;> simp_all

theorem toList_xmlEscape (s : String) : (xmlEscape s).toList = s.toList.flatMap xmlEscapeChar := by
  rw [xmlEscape]
  split
  · exact String.toList_ofList
  · next plain =>
    have each : ∀ c ∈ s.toList, xmlEscapeChar c = [c] := by
      intro c member
      refine xmlEscapeChar_plain fun special => plain (List.any_eq_true.mpr ⟨c, member, ?_⟩)
      simpa [or_assoc] using special
    rw [List.flatMap_congr each]
    exact (List.flatMap_singleton' s.toList).symm

/-- The characters that are escaped. -/
def xmlSpecials : List Char := ['&', '<', '>', '"', '\'']

theorem xmlEscapeChar_cases (c : Char) : xmlEscapeChar c = [c] ∧ c ∉ xmlSpecials ∨
    ∃ e ∈ XmlReader.entities, e.2 = c ∧ xmlEscapeChar c = '&' :: e.1 := by
  by_cases special : c = '&' ∨ c = '<' ∨ c = '>' ∨ c = '"' ∨ c = '\''
  · right
    rcases special with rfl | rfl | rfl | rfl | rfl <;> decide
  · exact .inl ⟨xmlEscapeChar_plain special, by simpa [xmlSpecials] using special⟩

/-- Of the five characters only an ampersand is left. -/
theorem markup_not_mem_xmlEscape {c : Char} (markup : c ∈ ['<', '>', '"', '\'']) (s : String) :
    c ∉ (xmlEscape s).toList := by
  rw [toList_xmlEscape, List.mem_flatMap]
  rintro ⟨d, -, inside⟩
  rcases xmlEscapeChar_cases d with ⟨plain, other⟩ | ⟨e, listed, -, entity⟩
  · rw [plain, List.mem_singleton] at inside
    exact other (inside ▸ List.mem_cons_of_mem _ markup)
  · have names : ∀ e ∈ XmlReader.entities, c ∉ '&' :: e.1 := by
      simp only [List.mem_cons, List.not_mem_nil, or_false] at markup
      rcases markup with rfl | rfl | rfl | rfl <;> decide
    exact names e listed (entity ▸ inside)

/-- An escaped text is read as the text. -/
theorem written_xmlEscape (s : String) : XmlReader.Written (xmlEscape s).toList s.toList := by
  refine ⟨markup_not_mem_xmlEscape List.mem_cons_self s, ?_⟩
  rw [toList_xmlEscape]
  refine XmlReader.decode_flatMap fun c _ => ?_
  rcases xmlEscapeChar_cases c with ⟨plain, other⟩ | entity
  · exact .inl ⟨plain, fun same => other (same ▸ by decide)⟩
  · exact .inr entity

theorem xmlEscape_eq_iff (s : String) : xmlEscape s = s ↔ ∀ c ∈ s.toList, c ∉ xmlSpecials := by
  constructor
  · intro same c member
    have plain : '&' ∉ s.toList := by
      have read := (written_xmlEscape s).2
      rw [same] at read
      exact XmlReader.decode_self_iff.mp read
    rcases xmlEscapeChar_cases c with ⟨-, other⟩ | ⟨e, -, -, entity⟩
    · exact other
    · -- the entity would bring an ampersand
      refine absurd ?_ plain
      rw [← same, toList_xmlEscape]
      exact List.mem_flatMap.mpr ⟨c, member, entity ▸ List.mem_cons_self⟩
  · intro plain
    refine String.toList_inj.mp ((toList_xmlEscape s).trans ?_)
    refine (List.flatMap_congr fun c member => ?_).trans (List.flatMap_singleton' s.toList)
    rcases xmlEscapeChar_cases c with ⟨same, -⟩ | ⟨e, listed, rfl, -⟩
    · exact same
    · have specials : ∀ e ∈ XmlReader.entities, e.2 ∈ xmlSpecials := by decide
      exact absurd (specials e listed) (plain e.2 member)

/-- RFC 3986 unreserved: `A-Z a-z 0-9 - _ . ~`. -/
def unreserved (b : UInt8) : Bool :=
  (65 ≤ b && b ≤ 90) || (97 ≤ b && b ≤ 122) || (48 ≤ b && b ≤ 57) || b == 45 || b == 95 || b == 46 ||
    b == 126

/-- `char::from_digit(n, 16)`, in upper case. -/
def upperHexDigit (n : Nat) : Char := n.digitChar.toUpper

def urlEncodeByte (b : UInt8) : List Char :=
  if unreserved b then [Char.ofNat b.toNat]
  else ['%', upperHexDigit (b.toNat / 16), upperHexDigit (b.toNat % 16)]

def urlEncode (s : String) : String :=
  String.ofList (s.toUTF8.data.toList.flatMap urlEncodeByte)

end Openstack

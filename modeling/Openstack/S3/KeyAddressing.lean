import Openstack.Framework.Xml
import Openstack.Lib.Replacement
import Openstack.S3.Provider
import Openstack.State.Bundle

/-!
# How the operations find a key

A client percent-encodes a key in the path and in the `x-amz-copy-source` header and writes it with
XML entities in a DeleteObjects body. The path is not decoded at all, the header byte by byte into
characters, and both lose leading slashes; only the body gives back the key that was meant.
-/
namespace Openstack.S3

open Utf8 (toUTF8_ascii ofNat_byte bytes_as_chars_iff)
open Replacement TagSearch
open KeywordSearch (Skips skips_nil)

variable {b : UInt8} {c : Char} {front : List Char} {text : List Char}

/-! ## What a client sends -/

/-- Every byte but the unreserved ones and the slash is escaped. -/
def encodeKeyByte (b : UInt8) : List Char := if b = 47 then ['/'] else urlEncodeByte b

def encodeKey (k : String) : List Char := k.toUTF8.data.toList.flatMap encodeKeyByte

def escapeXmlChar (c : Char) : List Char :=
  if c = '&' then "&amp;".toList else if c = '<' then "&lt;".toList else if c = '>' then "&gt;".toList
  else if c = '\'' then "&apos;".toList else if c = '"' then "&quot;".toList else [c]

/-- The name of a bucket, which needs no encoding. -/
structure PlainBucket where
  name : String
  nonempty : name ≠ ""
  plain : ∀ c ∈ name.toList, c.isAlphanum = true ∨ c = '-' ∨ c = '.'

def emptyRequest : RequestContext where
  path := "/"
  region := "us-east-1"
  headers := []
  queryParams := ∅
  bodyReader := none
  spooledBody := none
  rawBody := none

/-- PutObject, GetObject or HeadObject. -/
def objectRequest (bucket : PlainBucket) (k : String) : RequestContext :=
  { emptyRequest with path := String.ofList ('/' :: bucket.name.toList ++ '/' :: encodeKey k) }

/-- CopyObject from the key; a slash in front of the bucket is left to the client. -/
def copyRequest (bucket : PlainBucket) (k : String) (slash : Bool) : RequestContext :=
  { emptyRequest with
    headers := [("x-amz-copy-source", String.ofList ((if slash then ['/'] else []) ++
      bucket.name.toList ++ '/' :: encodeKey k))] }

def listedObject (k : String) : List Char :=
  "<Object><Key>".toList ++ k.toList.flatMap escapeXmlChar ++ "</Key></Object>".toList

/-- DeleteObjects of the keys. -/
def deleteRequest (bucket : PlainBucket) (keys : List String) : RequestContext :=
  { emptyRequest with
    path := "/" ++ bucket.name
    rawBody := some (String.ofList
      ("<Delete>".toList ++ keys.flatMap listedObject ++ "</Delete>".toList)).toUTF8.data.toList }

/-! ## Which objects are addressed -/

/-- Bucket and key of the path, as PutObject, GetObject and HeadObject use them. -/
def pathObject (ctx : RequestContext) : Option (String × String) :=
  (bucketFromPath ctx.path).map fun bucket => (bucket, keyFromPath ctx.path)

/-- The objects that DeleteObjects deletes. -/
def deletedObjects (ctx : RequestContext) : List (String × String) :=
  (bucketFromPath ctx.path).toList.flatMap fun bucket =>
    (requestedDeletes ctx).map fun entry => (bucket, entry.1)

/-- All operations address one object with each key, and different objects with different keys. -/
structure AddressesAgree (bucket : PlainBucket) (keys : List String) : Prop where
  copy : ∀ k ∈ keys, ∀ slash,
    copySource (copyRequest bucket k slash) = pathObject (objectRequest bucket k)
  delete : (deletedObjects (deleteRequest bucket keys)).map some =
    keys.map fun k => pathObject (objectRequest bucket k)
  apart : ∀ k ∈ keys, ∀ k' ∈ keys, k ≠ k' →
    pathObject (objectRequest bucket k) ≠ pathObject (objectRequest bucket k')

/-- Nothing in the key is escaped, and it has no slash in front. -/
def PlainKey (k : String) : Prop :=
  k ≠ "" ∧ k.toList.head? ≠ some '/' ∧
    ∀ c ∈ k.toList, c.isAlphanum = true ∨ c ∈ ['-', '_', '.', '~', '/']

/-! ## Bytes and characters -/

section Bytes

theorem bytesAsChars_ascii {s : String} (ascii : ∀ c ∈ s.toList, c.toNat < 128) :
    bytesAsChars s = s.toList := bytes_as_chars_iff.mpr ascii

/-- A byte that is not escaped. -/
def keyByte (b : UInt8) : Bool := unreserved b || b == 47

theorem encodeKeyByte_plain (plain : keyByte b = true) :
    encodeKeyByte b = [Char.ofNat b.toNat] := by
  unfold encodeKeyByte
  split
  · next slash => rw [slash]; rfl
  · next other =>
    have free : unreserved b = true := by simpa [keyByte, other] using plain
    rw [urlEncodeByte, if_pos free]

theorem encodeKeyByte_escaped (escaped : keyByte b = false) :
    encodeKeyByte b = ['%', upperHexDigit (b.toNat / 16), upperHexDigit (b.toNat % 16)] := by
  have both : unreserved b = false ∧ b ≠ 47 := by simpa [keyByte] using escaped
  rw [encodeKeyByte, if_neg both.2, urlEncodeByte, both.1]
  rfl

theorem keyByte_visible (plain : keyByte b = true) :
    32 ≤ (Char.ofNat b.toNat).toNat ∧ (Char.ofNat b.toNat).toNat < 127 ∧ Char.ofNat b.toNat ≠ '%' := by
  have all : ∀ n < 256, keyByte (UInt8.ofNat n) = true →
      32 ≤ (Char.ofNat n).toNat ∧ (Char.ofNat n).toNat < 127 ∧ Char.ofNat n ≠ '%' := by decide +kernel
  exact all b.toNat (UInt8.toNat_lt b) (by simpa using plain)

theorem upperHexDigit_visible {n : Nat} (digit : n < 16) :
    32 ≤ (upperHexDigit n).toNat ∧ (upperHexDigit n).toNat < 127 := by
  revert n
  decide

/-- An encoded key is a header value. -/
theorem encodeKey_visible (k : String) : ∀ c ∈ encodeKey k, 32 ≤ c.toNat ∧ c.toNat < 127 := by
  intro c member
  obtain ⟨b, _, inside⟩ := List.mem_flatMap.mp member
  have byte := UInt8.toNat_lt b
  cases plain : keyByte b with
  | true =>
    rw [encodeKeyByte_plain plain, List.mem_singleton] at inside
    rw [inside]
    exact ⟨(keyByte_visible plain).1, (keyByte_visible plain).2.1⟩
  | false =>
    rw [encodeKeyByte_escaped plain] at inside
    simp only [List.mem_cons, List.not_mem_nil, or_false] at inside
    rcases inside with rfl | rfl | rfl
    · decide
    · exact upperHexDigit_visible (by omega)
    · exact upperHexDigit_visible (by omega)

end Bytes

/-! ## The path -/

section Path

variable (bucket : PlainBucket)

theorem PlainBucket.slash : ∀ c ∈ bucket.name.toList, c ≠ '/' ∧ c ≠ '%' ∧ 32 ≤ c.toNat ∧ c.toNat < 127 := by
  intro c member
  have plain := bucket.plain c member
  refine ⟨?_, ?_, ?_⟩
  · rintro rfl
    exact absurd plain (by decide)
  · rintro rfl
    exact absurd plain (by decide)
  · rcases plain with letter | rfl | rfl
    · have bounds := RustStr.isAlphanum_bounds letter
      omega
    · decide
    · decide

theorem PlainBucket.toList_ne_nil : bucket.name.toList ≠ [] := by
  intro empty
  exact bucket.nonempty (String.toList_eq_nil_iff.mp empty)

/-- Slashes in front, the bucket up to the next slash, and the rest. -/
theorem PlainBucket.dropWhile_slash (rest : List Char) :
    (bucket.name.toList ++ rest).dropWhile (· = '/') = bucket.name.toList ++ rest := by
  cases name : bucket.name.toList with
  | nil => exact absurd name bucket.toList_ne_nil
  | cons c more =>
    have first : c ≠ '/' := (bucket.slash c (by simp [name])).1
    simp [first]

theorem PlainBucket.takeWhile_slash (rest : List Char) :
    (bucket.name.toList ++ '/' :: rest).takeWhile (· ≠ '/') = bucket.name.toList := by
  rw [List.takeWhile_append_of_pos]
  · simp
  · intro c member
    simpa using (bucket.slash c member).1

theorem PlainBucket.dropWhile_name (rest : List Char) :
    (bucket.name.toList ++ '/' :: rest).dropWhile (· ≠ '/') = '/' :: rest := by
  rw [List.dropWhile_append_of_pos]
  · simp
  · intro c member
    simpa using (bucket.slash c member).1

theorem pathObject_objectRequest (k : String) : pathObject (objectRequest bucket k) =
    some (bucket.name, String.ofList ((encodeKey k).dropWhile (· = '/'))) := by
  have path : (objectRequest bucket k).path.toList.dropWhile (· = '/') =
      bucket.name.toList ++ '/' :: encodeKey k := by
    rw [objectRequest, String.toList_ofList, List.cons_append, List.dropWhile_cons_of_pos (by simp),
      bucket.dropWhile_slash]
  have named : bucketFromPath (objectRequest bucket k).path = some bucket.name := by
    simp only [bucketFromPath, path, bucket.takeWhile_slash, List.isEmpty_iff, bucket.toList_ne_nil,
      if_false, String.ofList_toList]
  have key : keyFromPath (objectRequest bucket k).path =
      String.ofList ((encodeKey k).dropWhile (· = '/')) := by
    simp only [keyFromPath, path, bucket.dropWhile_name]
    rw [List.dropWhile_cons_of_pos (by simp)]
  rw [pathObject, named, key]
  rfl

end Path

/-! ## The copy source -/

section Copy

variable (bucket : PlainBucket)

theorem urlencodingDecode_plain (plain : c ≠ '%') (rest : List Char) :
    urlencodingDecode (c :: rest) = c :: urlencodingDecode rest := by
  match rest with
  | [] => rfl
  | [d] => rfl
  | hi :: lo :: more => rw [urlencodingDecode, if_neg plain]

theorem urlencodingDecode_plain_append (plain : ∀ c ∈ front, c ≠ '%')
    (rest : List Char) : urlencodingDecode (front ++ rest) = front ++ urlencodingDecode rest := by
  induction front with
  | nil => rfl
  | cons c front ih =>
    rw [List.cons_append, urlencodingDecode_plain (plain c List.mem_cons_self),
      ih fun d member => plain d (List.mem_cons_of_mem _ member), List.cons_append]

theorem urlencodingDecode_encodeKeyByte (b : UInt8) (rest : List Char) :
    urlencodingDecode (encodeKeyByte b ++ rest) = Char.ofNat b.toNat :: urlencodingDecode rest := by
  cases plain : keyByte b with
  | true =>
    rw [encodeKeyByte_plain plain, List.singleton_append,
      urlencodingDecode_plain (keyByte_visible plain).2.2]
  | false =>
    have digits : ∀ n < 16, hexDigit (upperHexDigit n) = some n := by decide
    have byte := UInt8.toNat_lt b
    have value : hexByte (upperHexDigit (b.toNat / 16)) (upperHexDigit (b.toNat % 16)) =
        some b.toNat := by
      rw [hexByte, digits _ (by omega), digits _ (by omega)]
      simp only [Option.some.injEq]
      omega
    rw [encodeKeyByte_escaped plain, List.cons_append, List.cons_append, List.cons_append,
      List.nil_append, urlencodingDecode, if_pos rfl, value]

/-- The header is decoded into one character for each byte. -/
theorem urlencodingDecode_encodeKey (k : String) : urlencodingDecode (encodeKey k) = bytesAsChars k := by
  unfold encodeKey bytesAsChars
  induction k.toUTF8.data.toList with
  | nil => rfl
  | cons b rest ih => rw [List.flatMap_cons, urlencodingDecode_encodeKeyByte, ih, List.map_cons]

theorem copySource_copyRequest (k : String) (slash : Bool) : copySource (copyRequest bucket k slash) =
    some (bucket.name, String.ofList ((bytesAsChars k).dropWhile (· = '/'))) := by
  have front : ∀ c ∈ (if slash then ['/'] else []) ++ bucket.name.toList ++ ['/'], c ≠ '%' ∧
      32 ≤ c.toNat ∧ c.toNat < 127 := by
    intro c member
    simp only [List.mem_append, List.mem_singleton] at member
    rcases member with (outer | inside) | rfl
    · cases slash with
      | true => rw [List.mem_singleton.mp outer]; decide
      | false => cases outer
    · exact (bucket.slash c inside).2
    · decide
  have value : (if slash then ['/'] else []) ++ bucket.name.toList ++ '/' :: encodeKey k =
      ((if slash then ['/'] else []) ++ bucket.name.toList ++ ['/']) ++ encodeKey k := by
    rw [List.append_assoc _ ['/'], List.singleton_append]
  have visible : ∀ c ∈ (if slash then ['/'] else []) ++ bucket.name.toList ++ '/' :: encodeKey k,
      32 ≤ c.toNat ∧ c.toNat < 127 := by
    intro c member
    rw [value, List.mem_append] at member
    rcases member with start | inside
    · exact (front c start).2
    · exact encodeKey_visible k c inside
  have header : headerStr (copyRequest bucket k slash).headers "x-amz-copy-source" =
      some (String.ofList ((if slash then ['/'] else []) ++ bucket.name.toList ++ '/' :: encodeKey k)) := by
    rw [headerStr, copyRequest, List.lookup_cons_self, Option.bind_some, headerToStr, if_pos]
    rw [List.all_eq_true]
    intro c member
    rw [String.toList_ofList] at member
    exact decide_eq_true (.inr (visible c member))
  have decoded : urlencodingDecode ((if slash then ['/'] else []) ++ bucket.name.toList ++
      '/' :: encodeKey k) =
      (if slash then ['/'] else []) ++ (bucket.name.toList ++ '/' :: bytesAsChars k) := by
    rw [value, urlencodingDecode_plain_append fun c member => (front c member).1,
      urlencodingDecode_encodeKey]
    simp
  have trimmed : ((if slash then ['/'] else []) ++ (bucket.name.toList ++ '/' :: bytesAsChars k)).dropWhile
      (· = '/') = bucket.name.toList ++ '/' :: bytesAsChars k := by
    cases slash with
    | true =>
      rw [if_pos rfl, List.singleton_append, List.dropWhile_cons_of_pos (by simp),
        bucket.dropWhile_slash]
    | false => rw [if_neg (by simp), List.nil_append, bucket.dropWhile_slash]
  rw [copySource, header, Option.map_some, bytesAsChars_ascii, String.toList_ofList, decoded,
    parseCopySource]
  · simp only [trimmed, bucket.takeWhile_slash, bucket.dropWhile_name, String.ofList_toList]
    rw [List.dropWhile_cons_of_pos (by simp)]
  · intro c member
    rw [String.toList_ofList] at member
    have bounds := visible c member
    omega

end Copy

/-! ## Entities -/

section Entities

/-- What is escaped once the entities of `done` have been replaced. -/
def escapedBut (done : List Char) (c : Char) : List Char := if c ∈ done then [c] else escapeXmlChar c

/-- The characters with an entity, and its name. -/
def entities : List (Char × String) :=
  [('<', "lt;"), ('>', "gt;"), ('\'', "apos;"), ('"', "quot;"), ('&', "amp;")]

theorem escapeXmlChar_cases (c : Char) : (c ≠ '&' ∧ escapeXmlChar c = [c]) ∨
    ∃ e ∈ entities, c = e.1 ∧ escapeXmlChar c = '&' :: e.2.toList := by
  by_cases special : c = '&' ∨ c = '<' ∨ c = '>' ∨ c = '\'' ∨ c = '"'
  · right
    rcases special with rfl | rfl | rfl | rfl | rfl <;> decide
  · left
    simp only [not_or] at special
    exact ⟨special.1, by simp [escapeXmlChar, special]⟩

/-- The name of an entity is no beginning of another one. -/
theorem entities_apart {e e' : Char × String} (listed : e ∈ entities) (listed' : e' ∈ entities)
    (other : e.1 ≠ e'.1) (rest : List Char) :
    ('&' :: e.2.toList).isPrefixOf ('&' :: (e'.2.toList ++ rest)) = false := by
  have apart : ∀ e ∈ entities, ∀ e' ∈ entities, e.1 ≠ e'.1 →
      ¬ e.2.toList <+: e'.2.toList ∧ ¬ e'.2.toList <+: e.2.toList := by decide
  rw [Bool.eq_false_iff]
  intro found
  have inside := (List.cons_prefix_cons.mp (List.isPrefixOf_iff_prefix.mp found)).2
  rcases List.prefix_or_prefix_of_prefix inside (List.prefix_append _ rest) with front | front
  · exact (apart e listed e' listed' other).1 front
  · exact (apart e listed e' listed' other).2 front

/-- One of the replacements of `unescape_xml`. -/
theorem replace_escaped {done : List Char} {e : Char × String} (listed : e ∈ entities)
    (last : '&' ∉ done) (text : List Char) :
    RustStr.replace ('&' :: e.2.toList) [e.1] (text.flatMap (escapedBut done)) =
      text.flatMap (escapedBut (e.1 :: done)) := by
  refine replace_flatMap (fun c rest => ?_) text
  by_cases inDone : c ∈ done
  · have other : c ≠ '&' := fun same => last (same ▸ inDone)
    rw [escapedBut, if_pos inDone, escapedBut, if_pos (List.mem_cons_of_mem _ inDone),
      List.singleton_append, replace_cons_of_ne other, List.singleton_append]
  · rw [escapedBut, if_neg inDone]
    rcases escapeXmlChar_cases c with ⟨other, plain⟩ | ⟨e', listed', named, entity⟩
    · have after : escapedBut (e.1 :: done) c = [c] := by
        rw [escapedBut]
        split
        · rfl
        · exact plain
      rw [plain, after, List.singleton_append, replace_cons_of_ne other, List.singleton_append]
    · by_cases same : e'.1 = e.1
      · have unique : ∀ a ∈ entities, ∀ b ∈ entities, a.1 = b.1 → a = b := by decide
        obtain rfl := unique e' listed' e listed same
        rw [entity, replace_self, escapedBut, if_pos (by simp [named]), named]
      · have after : escapedBut (e.1 :: done) c = escapeXmlChar c := by
          refine if_neg fun member => ?_
          rcases List.mem_cons.mp member with here | there
          · exact same (named.symm.trans here)
          · exact inDone there
        have plain : ∀ a ∈ entities, '&' ∉ a.2.toList := by decide
        rw [after, entity]
        exact replace_other (plain e' listed') (entities_apart listed listed' (Ne.symm same)) _ _

theorem unescapeXml_escapeXml (text : List Char) : unescapeXml (text.flatMap escapeXmlChar) = text := by
  have start : text.flatMap escapeXmlChar = text.flatMap (escapedBut []) :=
    List.flatMap_congr fun c _ => (if_neg List.not_mem_nil).symm
  have finish : text.flatMap (escapedBut ['&', '"', '\'', '>', '<']) = text := by
    have all : ∀ e ∈ entities, e.1 ∈ ['&', '"', '\'', '>', '<'] := by decide
    refine (List.flatMap_congr fun c _ => ?_).trans (List.flatMap_singleton' text)
    rw [escapedBut]
    split
    · rfl
    · next outside =>
      rcases escapeXmlChar_cases c with ⟨_, plain⟩ | ⟨e, listed, named, _⟩
      · exact plain
      · exact absurd (named ▸ all e listed) outside
  have step : unescapeXml (text.flatMap (escapedBut [])) =
      text.flatMap (escapedBut ['&', '"', '\'', '>', '<']) := by
    rw [← replace_escaped (e := ('&', "amp;")) (by decide) (by decide),
      ← replace_escaped (e := ('"', "quot;")) (by decide) (by decide),
      ← replace_escaped (e := ('\'', "apos;")) (by decide) (by decide),
      ← replace_escaped (e := ('>', "gt;")) (by decide) (by decide),
      ← replace_escaped (e := ('<', "lt;")) (by decide) (by decide)]
    rfl
  rw [start, step, finish]

theorem escapeXmlChar_ne (special : c ∈ ['&', '<', '>', '"', '\'']) :
    escapeXmlChar c ≠ [c] := by
  simp only [List.mem_cons, List.not_mem_nil, or_false] at special
  rcases special with rfl | rfl | rfl | rfl | rfl <;> decide

theorem ampersand_begins (text : List Char) {front rest : List Char}
    (split : text.flatMap escapeXmlChar = front ++ '&' :: rest) : ∃ e ∈ entities, e.2.toList <+: rest := by
  induction text generalizing front with
  | nil => exact absurd split (by simp)
  | cons c text ih =>
    rw [List.flatMap_cons] at split
    rcases escapeXmlChar_cases c with ⟨other, plain⟩ | ⟨e, listed, _, entity⟩
    · rw [plain] at split
      cases front with
      | nil => exact absurd (List.cons.inj split).1 other
      | cons d front => exact ih (List.cons.inj split).2
    · rw [entity] at split
      cases front with
      | nil => exact ⟨e, listed, text.flatMap escapeXmlChar, (List.cons.inj split).2⟩
      | cons d front =>
        have names : ∀ e ∈ entities, '&' ∉ e.2.toList := by decide
        rcases List.append_eq_append_iff.mp (List.cons.inj split).2 with
          ⟨later, rfl, tail⟩ | ⟨name, here, tail⟩
        · exact ih tail
        · -- the ampersand would stand inside the name of the entity, or right behind it
          cases name with
          | nil =>
            have here : text.flatMap escapeXmlChar = [] ++ '&' :: rest := tail.symm
            exact ih here
          | cons d name =>
            obtain ⟨rfl, _⟩ := List.cons.inj tail
            exact absurd (here ▸ List.mem_append_right _ List.mem_cons_self) (names e listed)

theorem xmlEscapeChar_eq (c : Char) : xmlEscapeChar c = escapeXmlChar c := by
  rcases escapeXmlChar_cases c with ⟨other, plain⟩ | ⟨e, listed, named, _⟩
  · rw [plain]
    exact xmlEscapeChar_plain fun special => escapeXmlChar_ne (by simpa using special) plain
  · rw [named]
    simp only [entities, List.mem_cons, List.not_mem_nil, or_false] at listed
    rcases listed with rfl | rfl | rfl | rfl | rfl <;> rfl

theorem toList_xmlEscape_eq (s : String) :
    (Openstack.xmlEscape s).toList = s.toList.flatMap escapeXmlChar :=
  (toList_xmlEscape s).trans (List.flatMap_congr fun c _ => xmlEscapeChar_eq c)

theorem escaped_plain (k : List Char) : '<' ∉ k.flatMap escapeXmlChar := by
  have plain := markup_not_mem_xmlEscape List.mem_cons_self (String.ofList k)
  rwa [toList_xmlEscape_eq, String.toList_ofList] at plain

/-- What `xml_escape` writes as a text node is read back by `unescape_xml`. -/
theorem xml_text_round_trip (s : String) :
    unescapeXml (Openstack.xmlEscape s).toList = s.toList ∧
      (∀ c ∈ ['<', '>', '"', '\''], c ∉ (Openstack.xmlEscape s).toList) ∧
        ∀ front rest, (Openstack.xmlEscape s).toList = front ++ '&' :: rest →
          ∃ e ∈ entities, e.2.toList <+: rest := by
  refine ⟨?_, fun c special => markup_not_mem_xmlEscape special s, ?_⟩
  · rw [toList_xmlEscape_eq, unescapeXml_escapeXml]
  · rw [toList_xmlEscape_eq]
    exact fun front rest => ampersand_begins s.toList

end Entities

/-! ## The body of DeleteObjects -/

section Deletes

variable (bucket : PlainBucket)

/-- What stands between the tags of an object. -/
def objectXml (k : String) : List Char :=
  '<' :: "Key>".toList ++ (k.toList.flatMap escapeXmlChar ++ ('<' :: "/Key>".toList ++ []))

theorem objectXml_eq (k : String) : objectXml k = element "Key" (k.toList.flatMap escapeXmlChar) := by
  have opening : openTag "Key" = '<' :: "Key>".toList := by decide
  have closing : closeTag "Key" = '<' :: "/Key>".toList := by decide
  have regroup : ∀ a b c : List Char, a ++ (b ++ (c ++ [])) = a ++ (b ++ c) := by simp
  rw [element, opening, closing]
  exact regroup _ _ _

theorem listedObject_eq (k : String) : listedObject k = element "Object" (objectXml k) := by
  have opening : "<Object><Key>".toList = openTag "Object" ++ openTag "Key" := by decide
  have closing : "</Key></Object>".toList = closeTag "Key" ++ closeTag "Object" := by decide
  have regroup : ∀ a b c d e : List Char, (a ++ b) ++ c ++ (d ++ e) = a ++ ((b ++ (c ++ d)) ++ e) := by
    simp
  rw [objectXml_eq]
  exact (congrArg₂ (fun a b => a ++ k.toList.flatMap escapeXmlChar ++ b) opening closing).trans
    (regroup _ _ _ _ _)

theorem skips_objectXml {pat : List Char} (tag : IsTag pat) (other : pat ∉ tagsOf "Key") (k : String) :
    Skips pat (objectXml k) := by
  rw [objectXml_eq]
  exact skips_element tag (by decide) other (skips_text tag (escaped_plain _))

/-- The text of the first element with the tag. -/
theorem extractXmlText_element {tag : String} {front content : List Char}
    (before : Skips (openTag tag) front) (inside : Skips (closeTag tag) content) (rest : List Char) :
    extractXmlText (front ++ (element tag content ++ rest)) tag = some (unescapeXml content) := by
  have start : RustStr.after (openTag tag) (front ++ (element tag content ++ rest)) =
      some (content ++ (closeTag tag ++ rest)) := by
    rw [after_skips before, element, List.append_assoc, List.append_assoc,
      after_keyword (openTag_ne_nil tag)]
  have finish := inside.before_keyword rest (closeTag_ne_nil tag)
  unfold openTag at start
  unfold closeTag at start finish
  rw [extractXmlText, start, Option.bind_some, finish, Option.map_some]

theorem extractXmlText_eq_none {tag : String} (skips : Skips (openTag tag) text) :
    extractXmlText text tag = none := by
  have absent := skips []
  have nothing : RustStr.before (openTag tag) [] = none := by
    simp [RustStr.before, openTag_ne_nil]
  rw [List.append_nil, nothing, Option.map_none] at absent
  unfold openTag at absent
  rw [extractXmlText, RustStr.after, absent]
  rfl

theorem extractXmlText_key (k : String) : extractXmlText (objectXml k) "Key" = some k.toList := by
  have plain : Skips (closeTag "Key") (k.toList.flatMap escapeXmlChar) :=
    skips_text (by decide) (escaped_plain _)
  have found := extractXmlText_element skips_nil plain []
  rw [List.nil_append, List.append_nil, ← objectXml_eq, unescapeXml_escapeXml] at found
  exact found

theorem extractXmlText_versionId (k : String) : extractXmlText (objectXml k) "VersionId" = none :=
  extractXmlText_eq_none (skips_objectXml (by decide) (by decide) k)

/-- What the parser may stand before: the start of the document or the end of an object. -/
def Between (front : List Char) : Prop := front = "<Delete>".toList ∨ front = "</Object>".toList

theorem Between.skips (between : Between front) : Skips (openTag "Object") front := by
  rcases between with rfl | rfl
  · exact skips_tag (by decide) (by decide) (by decide)
  · exact skips_tag (by decide) (by decide) (by decide)

/-- The keys of the document, but for empty ones. -/
def namedKeys (keys : List String) : List (String × Option String) :=
  (keys.filter (· ≠ "")).map fun k => (k, none)

theorem parseDeletes_objects (between : Between front) {keys : List String}
    {fuel : Nat} (enough : keys.length < fuel) :
    parseDeletes fuel (front ++ (keys.flatMap listedObject ++ "</Delete>".toList)) = namedKeys keys := by
  have opening : "<Object>".toList = openTag "Object" := by decide
  have closing : "</Object>".toList = closeTag "Object" := by decide
  induction keys generalizing front fuel with
  | nil =>
    obtain ⟨fuel, rfl⟩ : ∃ n, fuel = n + 1 := ⟨fuel - 1, by simp at enough; omega⟩
    have last : Skips (openTag "Object") "</Delete>".toList :=
      skips_tag (by decide) (by decide) (by decide)
    rw [List.flatMap_nil, List.nil_append, parseDeletes, opening,
      after_of_skips (openTag_ne_nil _) (between.skips.append last)]
    rfl
  | cons k keys ih =>
    rw [List.length_cons] at enough
    obtain ⟨fuel, rfl⟩ : ∃ n, fuel = n + 1 := ⟨fuel - 1, by omega⟩
    obtain ⟨others, more⟩ : ∃ others, keys.flatMap listedObject ++ "</Delete>".toList = others :=
      ⟨_, rfl⟩
    have text : front ++ ((k :: keys).flatMap listedObject ++ "</Delete>".toList) =
        front ++ (openTag "Object" ++ (objectXml k ++ (closeTag "Object" ++ others))) := by
      rw [List.flatMap_cons, List.append_assoc, more, listedObject_eq, element, List.append_assoc,
        List.append_assoc]
    have inside : RustStr.before (closeTag "Object") (objectXml k ++ (closeTag "Object" ++ others)) =
        some (objectXml k) :=
      (skips_objectXml (by decide) (by decide) k).before_keyword others (closeTag_ne_nil _)
    have rest := ih (.inr closing.symm) (Nat.lt_of_succ_lt_succ enough)
    rw [more] at rest
    rw [text, parseDeletes, opening, after_skips between.skips, after_keyword (openTag_ne_nil _)]
    simp only [closing, inside, Option.getD_some, extractXmlText_key, extractXmlText_versionId,
      String.ofList_toList, Option.map_none, Option.filter_none, List.drop_left, rest]
    by_cases empty : k = ""
    · simp [namedKeys, empty]
    · simp [namedKeys, empty]

theorem length_le_flatMap {A : Type} {f : A → List Char} (some : ∀ x, f x ≠ []) (l : List A) :
    l.length ≤ (l.flatMap f).length := by
  rw [List.length_flatMap, ← List.length_map fun x => (f x).length]
  apply List.length_le_sum_of_one_le
  intro n member
  obtain ⟨x, _, rfl⟩ := List.mem_map.mp member
  exact List.length_pos_iff.mpr (some x)

theorem bodyText_deleteRequest (keys : List String) : bodyText (deleteRequest bucket keys) =
    "<Delete>".toList ++ (keys.flatMap listedObject ++ "</Delete>".toList) := by
  have text := State.fromUtf8Unchecked_toUTF8 (String.ofList
    ("<Delete>".toList ++ keys.flatMap listedObject ++ "</Delete>".toList))
  calc bodyText (deleteRequest bucket keys)
      = (String.ofList ("<Delete>".toList ++ keys.flatMap listedObject ++ "</Delete>".toList)).toList :=
        congrArg String.toList text
    _ = "<Delete>".toList ++ keys.flatMap listedObject ++ "</Delete>".toList := String.toList_ofList
    _ = _ := List.append_assoc _ _ _

theorem deletedObjects_deleteRequest (keys : List String) :
    deletedObjects (deleteRequest bucket keys) =
      (keys.filter (· ≠ "")).map fun k => (bucket.name, k) := by
  have named : bucketFromPath ("/" ++ bucket.name) = some bucket.name := by
    have path : ("/" ++ bucket.name).toList.dropWhile (· = '/') = bucket.name.toList := by
      have trimmed := bucket.dropWhile_slash []
      rw [List.append_nil] at trimmed
      rw [String.toList_append]
      exact trimmed
    have all : bucket.name.toList.takeWhile (· ≠ '/') = bucket.name.toList := by
      rw [List.takeWhile_eq_self_iff]
      intro c member
      exact decide_eq_true (bucket.slash c member).1
    simp only [bucketFromPath, path, all, List.isEmpty_iff, bucket.toList_ne_nil, if_false,
      String.ofList_toList]
  have parsed : requestedDeletes (deleteRequest bucket keys) = namedKeys keys := by
    have enough : keys.length <
        ("<Delete>".toList ++ (keys.flatMap listedObject ++ "</Delete>".toList)).length := by
      have some : ∀ k, listedObject k ≠ [] := by
        intro k
        rw [listedObject_eq]
        exact element_ne_nil _ _
      have objects := length_le_flatMap some keys
      have opening : "<Delete>".toList.length = 8 := by decide
      rw [List.length_append, List.length_append, opening]
      omega
    rw [requestedDeletes, bodyText_deleteRequest]
    exact parseDeletes_objects (.inl rfl) enough
  have path : (deleteRequest bucket keys).path = "/" ++ bucket.name := rfl
  rw [deletedObjects, path, named, parsed, namedKeys, Option.toList_some, List.flatMap_singleton,
    List.map_map]
  rfl

end Deletes

/-! ## Keys that are written as they are -/

section Plain

variable {k : String}

theorem keyByte_char (ascii : c.toNat < 128) : keyByte (UInt8.ofNat c.toNat) = true ↔
    (c.isAlphanum = true ∨ c ∈ ['-', '_', '.', '~', '/']) := by
  have all : ∀ n < 128, keyByte (UInt8.ofNat n) = true ↔
      ((Char.ofNat n).isAlphanum = true ∨ Char.ofNat n ∈ ['-', '_', '.', '~', '/']) := by decide +kernel
  have this := all c.toNat ascii
  rwa [Char.ofNat_toNat] at this

theorem PlainKey.ascii (plain : PlainKey k) : ∀ c ∈ k.toList, c.toNat < 128 := by
  intro c member
  rcases plain.2.2 c member with letter | listed
  · have bounds := RustStr.isAlphanum_bounds letter
    omega
  · simp only [List.mem_cons, List.not_mem_nil, or_false] at listed
    rcases listed with rfl | rfl | rfl | rfl | rfl <;> decide

/-- The encoding of an ASCII key, character by character. -/
theorem encodeKey_ascii (ascii : ∀ c ∈ k.toList, c.toNat < 128) :
    encodeKey k = k.toList.flatMap fun c => encodeKeyByte (UInt8.ofNat c.toNat) := by
  rw [encodeKey, toUTF8_ascii ascii, List.flatMap_map]

theorem dropWhile_slash_of_head (head : text.head? ≠ some '/') :
    text.dropWhile (· = '/') = text := by
  cases text with
  | nil => rfl
  | cons c text => exact List.dropWhile_cons_of_neg (by simpa using head)

theorem PlainKey.encodeKey_eq (plain : PlainKey k) : encodeKey k = k.toList := by
  rw [encodeKey_ascii plain.ascii]
  refine (List.flatMap_congr fun c member => ?_).trans (List.flatMap_singleton' _)
  have ascii := plain.ascii c member
  rw [encodeKeyByte_plain ((keyByte_char ascii).mpr (plain.2.2 c member)), ofNat_byte ascii]

theorem encodeKeyByte_ne_nil (b : UInt8) : 1 ≤ (encodeKeyByte b).length := by
  cases plain : keyByte b with
  | true => simp [encodeKeyByte_plain plain]
  | false => simp [encodeKeyByte_escaped plain]

theorem length_le_encoded (text : List Char) :
    text.length ≤ (text.flatMap fun c => encodeKeyByte (UInt8.ofNat c.toNat)).length := by
  induction text with
  | nil => simp
  | cons c text ih =>
    have one := encodeKeyByte_ne_nil (UInt8.ofNat c.toNat)
    rw [List.flatMap_cons, List.length_append, List.length_cons]
    omega

/-- An escape makes the text longer, so a text that stays the same has none. -/
theorem keyByte_of_encoded_eq (ascii : ∀ c ∈ text, c.toNat < 128)
    (same : (text.flatMap fun c => encodeKeyByte (UInt8.ofNat c.toNat)) = text) :
    ∀ c ∈ text, keyByte (UInt8.ofNat c.toNat) = true := by
  induction text with
  | nil => simp
  | cons c text ih =>
    rw [List.flatMap_cons] at same
    cases plain : keyByte (UInt8.ofNat c.toNat) with
    | true =>
      rw [encodeKeyByte_plain plain, ofNat_byte (ascii c List.mem_cons_self), List.singleton_append,
        List.cons.injEq] at same
      intro d member
      rcases List.mem_cons.mp member with rfl | inside
      · exact plain
      · exact ih (fun d inside => ascii d (List.mem_cons_of_mem _ inside)) same.2 d inside
    | false =>
      have longer := congrArg List.length same
      have rest := length_le_encoded text
      rw [encodeKeyByte_escaped plain, List.length_append] at longer
      simp only [List.length_cons, List.length_nil] at longer
      omega

theorem plainKey_of_encodeKey (nonempty : k ≠ "")
    (same : (encodeKey k).dropWhile (· = '/') = k.toList) : PlainKey k := by
  have ascii : ∀ c ∈ k.toList, c.toNat < 128 := by
    intro c member
    rw [← same] at member
    have visible := encodeKey_visible k c ((List.dropWhile_sublist _).subset member)
    omega
  have head : k.toList.head? ≠ some '/' := by
    intro slash
    have found := List.head?_dropWhile_not (fun c : Char => decide (c = '/')) (encodeKey k)
    rw [same, slash] at found
    simp at found
  have whole : encodeKey k = k.toList := by
    rw [← same]
    refine (dropWhile_slash_of_head ?_).symm
    rw [encodeKey_ascii ascii]
    -- the first chunk is the first character or begins with a percent sign
    cases text : k.toList with
    | nil => simp
    | cons c rest =>
      rw [text] at head
      have first : c ≠ '/' := by simpa using head
      rw [List.flatMap_cons]
      cases plain : keyByte (UInt8.ofNat c.toNat) with
      | true =>
        rw [encodeKeyByte_plain plain, ofNat_byte (ascii c (by simp [text]))]
        simpa using first
      | false =>
        rw [encodeKeyByte_escaped plain]
        simp
  refine ⟨nonempty, head, fun c member => ?_⟩
  rw [encodeKey_ascii ascii] at whole
  exact (keyByte_char (ascii c member)).mp (keyByte_of_encoded_eq ascii whole c member)

end Plain

/-! ## Agreement -/

theorem AddressesAgree.plainKey {bucket : PlainBucket} {keys : List String}
    (agree : AddressesAgree bucket keys) : ∀ k ∈ keys, PlainKey k := by
  have delete := agree.delete
  rw [deletedObjects_deleteRequest, List.map_map] at delete
  have lengths := congrArg List.length delete
  rw [List.length_map, List.length_map] at lengths
  have nonempty : ∀ k ∈ keys, k ≠ "" := by
    have all := List.length_filter_eq_length_iff.mp lengths
    intro k member
    simpa using all k member
  have whole : keys.filter (· ≠ "") = keys := by
    rw [List.filter_eq_self]
    intro k member
    exact decide_eq_true (nonempty k member)
  rw [whole, List.map_inj_left] at delete
  intro k member
  have same := delete k member
  rw [pathObject_objectRequest] at same
  simp only [Function.comp_apply, Option.some.injEq, Prod.mk.injEq, true_and] at same
  refine plainKey_of_encodeKey (nonempty k member) ?_
  rw [← String.toList_ofList (l := (encodeKey k).dropWhile _), ← same]

theorem PlainKey.pathObject_eq {k : String} (plain : PlainKey k) (bucket : PlainBucket) :
    pathObject (objectRequest bucket k) = some (bucket.name, k) := by
  rw [pathObject_objectRequest, plain.encodeKey_eq, dropWhile_slash_of_head plain.2.1,
    String.ofList_toList]

theorem key_addressing_iff (bucket : PlainBucket) (keys : List String) :
    AddressesAgree bucket keys ↔ ∀ k ∈ keys, PlainKey k := by
  refine ⟨AddressesAgree.plainKey, fun plain => ⟨?_, ?_, ?_⟩⟩
  · intro k member slash
    rw [(plain k member).pathObject_eq, copySource_copyRequest,
      bytesAsChars_ascii (plain k member).ascii, dropWhile_slash_of_head (plain k member).2.1,
      String.ofList_toList]
  · have whole : keys.filter (· ≠ "") = keys := by
      rw [List.filter_eq_self]
      intro k member
      exact decide_eq_true (plain k member).1
    rw [deletedObjects_deleteRequest, whole, List.map_map]
    exact List.map_congr_left fun k member => ((plain k member).pathObject_eq bucket).symm
  · intro k member k' member' different same
    rw [(plain k member).pathObject_eq, (plain k' member').pathObject_eq] at same
    simp only [Option.some.injEq, Prod.mk.injEq, true_and] at same
    exact different same

def docsBucket : PlainBucket where
  name := "docs"
  nonempty := by simp
  plain := by simp

/-- A key with a space is stored under its escapes and deleted under its name. -/
theorem key_with_space_disagrees : pathObject (objectRequest docsBucket "a b") = some ("docs", "a%20b") ∧
    deletedObjects (deleteRequest docsBucket ["a b"]) = [("docs", "a b")] ∧
    ¬ AddressesAgree docsBucket ["a b"] := by
  refine ⟨by decide +kernel, by decide +kernel, fun agree => ?_⟩
  exact absurd agree.delete (by decide +kernel)

example : entities.length = 5 := by decide +kernel

end Openstack.S3

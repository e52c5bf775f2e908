import Openstack.Framework.QueueDelivery
import Openstack.Lib.Utf8

/-!
# Forms between services

`url_encode` of `service-framework/src/xml.rs`, and `url_decode` of the SQS and the SNS provider. The encoder
writes the bytes of a text, and both decoders turn each byte into a character of its own, so only ASCII comes
back. The SQS decoder leaves a text without escapes as it is, and the SNS decoder does not.
-/
namespace Openstack

/-- `url_decode` of the SNS provider: the loop of the SQS provider on every text. -/
def Sns.urlDecode (s : String) : String := String.ofList (Sqs.urlDecodeBytes (utf8Bytes s))

def Ascii (s : String) : Prop := ∀ c ∈ s.toList, c.toNat < 128

/-- What the SQS decoder looks for first. -/
def hasEscape (s : String) : Bool := (utf8Bytes s).any fun b => b = 37 ∨ b = 43

section Decoder

/-- A byte that does not begin an escape. -/
theorem urlDecodeBytes_plain {b : UInt8} (plain : b ≠ 37) (rest : List UInt8) :
    Sqs.urlDecodeBytes (b :: rest) =
      (if b = 43 then ' ' else Char.ofNat b.toNat) :: Sqs.urlDecodeBytes rest := by
  cases rest with
  | nil => rfl
  | cons hi rest =>
    cases rest with
    | nil => rfl
    | cons lo rest => rw [Sqs.urlDecodeBytes, if_neg plain]

/-- Without escapes every byte becomes a character. -/
theorem urlDecodeBytes_without {bytes : List UInt8} (none : ∀ b ∈ bytes, b ≠ 37 ∧ b ≠ 43) :
    Sqs.urlDecodeBytes bytes = bytes.map fun b => Char.ofNat b.toNat := by
  induction bytes with
  | nil => rfl
  | cons b rest ih =>
    obtain ⟨here, later⟩ := List.forall_mem_cons.mp none
    rw [urlDecodeBytes_plain here.1, if_neg here.2, ih later, List.map_cons]

theorem urlEncodeByte_ascii {b : UInt8} {c : Char} (member : c ∈ urlEncodeByte b) : c.toNat < 128 := by
  have all : ∀ n < 256, (urlEncodeByte (UInt8.ofNat n)).all (fun c => c.toNat < 128) = true := by
    decide +kernel
  have here := all b.toNat (UInt8.toNat_lt b)
  rw [UInt8.ofNat_toNat, List.all_eq_true] at here
  simpa using here c member

theorem urlEncode_ascii (s : String) : Ascii (urlEncode s) := by
  intro c member
  rw [urlEncode, String.toList_ofList] at member
  obtain ⟨b, -, inside⟩ := List.mem_flatMap.mp member
  exact urlEncodeByte_ascii inside

theorem urlEncodeByte_unreserved {b : UInt8} (free : unreserved b = true) :
    urlEncodeByte b = [Char.ofNat b.toNat] ∧ UInt8.ofNat (Char.ofNat b.toNat).toNat = b ∧
      b ≠ 37 ∧ b ≠ 43 := by
  have all : ∀ n < 256, unreserved (UInt8.ofNat n) = true →
      UInt8.ofNat (Char.ofNat n).toNat = UInt8.ofNat n ∧ UInt8.ofNat n ≠ 37 ∧ UInt8.ofNat n ≠ 43 := by
    decide +kernel
  have here := all b.toNat (UInt8.toNat_lt b)
  rw [UInt8.ofNat_toNat] at here
  exact ⟨if_pos free, here free⟩

theorem hexByte_upperHexDigit (b : UInt8) :
    Sqs.hexByte (UInt8.ofNat (upperHexDigit (b.toNat / 16)).toNat)
      (UInt8.ofNat (upperHexDigit (b.toNat % 16)).toNat) = some b.toNat := by
  have all : ∀ n < 256, Sqs.hexByte (UInt8.ofNat (upperHexDigit (n / 16)).toNat)
      (UInt8.ofNat (upperHexDigit (n % 16)).toNat) = some n := by decide +kernel
  exact all b.toNat (UInt8.toNat_lt b)

/-- The loop reads an encoded byte as the character with its number. -/
theorem urlDecodeBytes_encoded (b : UInt8) (rest : List UInt8) :
    Sqs.urlDecodeBytes ((urlEncodeByte b).map (fun c => UInt8.ofNat c.toNat) ++ rest) =
      Char.ofNat b.toNat :: Sqs.urlDecodeBytes rest := by
  by_cases free : unreserved b = true
  · obtain ⟨encoded, byte, plain, space⟩ := urlEncodeByte_unreserved free
    rw [encoded, List.map_singleton, byte, List.singleton_append, urlDecodeBytes_plain plain, if_neg space]
  · rw [urlEncodeByte, if_neg free]
    simp only [List.map_cons, List.map_nil, List.cons_append, List.nil_append]
    rw [show UInt8.ofNat '%'.toNat = 37 from rfl, Sqs.urlDecodeBytes, if_pos rfl, hexByte_upperHexDigit]

/-- The loop turns an encoded text into the bytes that were encoded. -/
theorem urlDecodeBytes_urlEncode (s : String) : Sqs.urlDecodeBytes (utf8Bytes (urlEncode s)) =
    (utf8Bytes s).map fun b => Char.ofNat b.toNat := by
  have bytes : utf8Bytes (urlEncode s) =
      (utf8Bytes s).flatMap fun b => (urlEncodeByte b).map fun c => UInt8.ofNat c.toNat := by
    rw [utf8Bytes, Utf8.toUTF8_ascii, urlEncode, String.toList_ofList, List.map_flatMap]
    · rfl
    · exact urlEncode_ascii s
  rw [bytes]
  induction utf8Bytes s with
  | nil => rfl
  | cons b rest ih => rw [List.flatMap_cons, urlDecodeBytes_encoded, ih, List.map_cons]

end Decoder

/-- The SQS decoder differs from the other where it leaves a text that is not ASCII as it is. -/
theorem urlDecode_agree_iff (t : String) :
    Sqs.urlDecode t = Sns.urlDecode t ↔ Ascii t ∨ hasEscape t = true := by
  have fast : Sqs.urlDecode t = if hasEscape t then Sns.urlDecode t else t := rfl
  rw [fast]
  cases escaped : hasEscape t with
  | true => simp
  | false =>
    have plain : ∀ b ∈ utf8Bytes t, b ≠ 37 ∧ b ≠ 43 := by
      rw [hasEscape, List.any_eq_false] at escaped
      simpa using escaped
    rw [if_neg Bool.false_ne_true, or_iff_left Bool.false_ne_true, Sns.urlDecode,
      urlDecodeBytes_without plain, eq_comm, ← String.toList_inj, String.toList_ofList]
    exact Utf8.bytes_as_chars_iff

theorem sns_urlDecode_urlEncode_iff (s : String) : Sns.urlDecode (urlEncode s) = s ↔ Ascii s := by
  rw [Sns.urlDecode, urlDecodeBytes_urlEncode, ← String.toList_inj, String.toList_ofList]
  exact Utf8.bytes_as_chars_iff

theorem sqs_urlDecode_urlEncode_iff (s : String) : Sqs.urlDecode (urlEncode s) = s ↔ Ascii s := by
  rw [(urlDecode_agree_iff (urlEncode s)).mpr (.inl (urlEncode_ascii s))]
  exact sns_urlDecode_urlEncode_iff s

/-- A text survives the encoding exactly when it is ASCII, with either decoder, and the decoders agree on
ASCII and on what has an escape. -/
theorem form_encoding_iff (s : String) :
    (Sqs.urlDecode (urlEncode s) = s ↔ Ascii s) ∧ (Sns.urlDecode (urlEncode s) = s ↔ Ascii s) ∧
      (Sqs.urlDecode s = Sns.urlDecode s ↔ Ascii s ∨ hasEscape s = true) :=
  ⟨sqs_urlDecode_urlEncode_iff s, sns_urlDecode_urlEncode_iff s, urlDecode_agree_iff s⟩

/-- An accented letter comes back as two characters, which the SQS decoder spares it when nothing else in the
text is encoded. -/
theorem accent_lost : Sqs.urlDecode (urlEncode "é") ≠ "é" ∧ Sns.urlDecode (urlEncode "é") ≠ "é" ∧
    Sqs.urlDecode "é" ≠ Sns.urlDecode "é" := by
  decide +kernel

end Openstack

import Openstack.DynamoDb.KeyConditionSplit
import Openstack.DynamoDb.UpdateExpression

/-!
# The scans over bytes

`store.rs:1017-1129`, `store.rs:1185-1196` and `provider.rs:286-418` as they are written: loops over the
bytes of a text that slice it at byte positions, where a slice that starts or ends inside a character, or
outside the text, panics (`none`). They are the scans over characters of `Expression`, `UpdateExpression`
and `KeyCondition`.
-/
namespace Openstack.DynamoDb

variable {c : Char} {k : Nat} {text : Text} {depth : Int}

/-! ## Slices -/

theorem byteLen_append (a b : Text) : byteLen (a ++ b) = byteLen a + byteLen b := by
  simp [byteLen]

theorem byteLen_cons (c : Char) (rest : Text) : byteLen (c :: rest) = c.utf8Size + byteLen rest := by
  simp [byteLen]

theorem splitAtByte_append (front text : Text) (n : Nat) :
    splitAtByte (byteLen front + n) (front ++ text) =
      (splitAtByte n text).map fun p => (front ++ p.1, p.2) := by
  induction front with
  | nil => simp [byteLen]
  | cons c more ih =>
    have positive := c.utf8Size_pos
    obtain ⟨m, size⟩ : ∃ m, byteLen (c :: more) + n = m + 1 :=
      ⟨byteLen (c :: more) + n - 1, by rw [byteLen_cons]; omega⟩
    have fits : c.utf8Size ≤ m + 1 := by
      rw [byteLen_cons] at size
      omega
    have left : m + 1 - c.utf8Size = byteLen more + n := by
      rw [byteLen_cons] at size
      omega
    rw [size, List.cons_append, splitAtByte, if_pos fits, left, ih, Option.map_map]
    rfl

theorem splitAtByte_eq_some_iff {n : Nat} {text a b : Text} :
    splitAtByte n text = some (a, b) ↔ text = a ++ b ∧ byteLen a = n := by
  constructor
  · intro cut
    induction text generalizing n a with
    | nil =>
      cases n with
      | zero =>
        cases cut
        exact ⟨rfl, rfl⟩
      | succ n => cases cut
    | cons c rest ih =>
      cases n with
      | zero =>
        cases cut
        exact ⟨rfl, rfl⟩
      | succ n =>
        rw [splitAtByte] at cut
        split at cut
        · next fits =>
          obtain ⟨⟨x, y⟩, later, same⟩ := Option.map_eq_some_iff.mp cut
          cases same
          obtain ⟨rfl, size⟩ := ih later
          exact ⟨rfl, by rw [byteLen_cons, size]; omega⟩
        · cases cut
  · rintro ⟨rfl, rfl⟩
    exact splitAtByte_byteLen a b

theorem isSome_splitAtByte (n : Nat) (text : Text) :
    (splitAtByte n text).isSome = isCharBoundary n text := by
  induction text generalizing n with
  | nil => cases n <;> rfl
  | cons c rest ih =>
    cases n with
    | zero => rfl
    | succ n =>
      rw [splitAtByte, isCharBoundary]
      split
      · next fits => rw [Option.isSome_map, ih, decide_eq_true fits, Bool.true_and]
      · next long => rw [decide_eq_false long]; rfl

/-- A slice of a text behind `front`. -/
theorem slice_append (front text : Text) (n : Nat) :
    slice (byteLen front) (byteLen front + n) (front ++ text) = sliceTo n text := by
  rw [slice, if_pos (by omega), sliceTo, splitAtByte_append, sliceTo]
  cases splitAtByte n text with
  | none => rfl
  | some p =>
    rw [Option.map_some, Option.map_some, Option.bind_some, sliceFrom, splitAtByte_byteLen]
    rfl

theorem sliceFrom_append (front text : Text) : sliceFrom (byteLen front) (front ++ text) = some text := by
  rw [sliceFrom, splitAtByte_byteLen]
  rfl

theorem sliceTo_append (front text : Text) : sliceTo (byteLen front) (front ++ text) = some front := by
  rw [sliceTo, splitAtByte_byteLen]
  rfl

/-- No slice starts inside a character. -/
theorem splitAtByte_inside (front : Text) (inside : 0 < k ∧ k < c.utf8Size) (rest : Text) :
    splitAtByte (byteLen front + k) (front ++ c :: rest) = none := by
  obtain ⟨m, rfl⟩ : ∃ m, k = m + 1 := ⟨k - 1, by omega⟩
  rw [splitAtByte_append, splitAtByte, if_neg (by omega)]
  rfl

theorem sliceFrom_inside (front : Text) (inside : 0 < k ∧ k < c.utf8Size) (rest : Text) :
    sliceFrom (byteLen front + k) (front ++ c :: rest) = none := by
  rw [sliceFrom, splitAtByte_inside front inside]
  rfl

theorem slice_inside (front : Text) (inside : 0 < k ∧ k < c.utf8Size) (rest : Text)
    (hi : Nat) : slice (byteLen front + k) hi (front ++ c :: rest) = none := by
  rw [slice]
  split
  · cases cut : sliceTo hi (front ++ c :: rest) with
    | none => rfl
    | some part =>
      rw [Option.bind_some]
      cases start : sliceFrom (byteLen front + k) part with
      | none => rfl
      | some tail =>
        -- a slice of a front part would be a cut of the whole text
        obtain ⟨⟨a, b⟩, whole, same⟩ := Option.map_eq_some_iff.mp cut
        cases same
        obtain ⟨⟨x, y⟩, inner, same⟩ := Option.map_eq_some_iff.mp start
        cases same
        obtain ⟨text, -⟩ := splitAtByte_eq_some_iff.mp whole
        obtain ⟨rfl, size⟩ := splitAtByte_eq_some_iff.mp inner
        have none_here := splitAtByte_inside front inside rest
        rw [← size, text, List.append_assoc, splitAtByte_byteLen] at none_here
        cases none_here
  · rfl

/-! ## Bytes -/

def depthAfterByte (depth : Int) (b : UInt8) : Int :=
  if b = 40 then depth + 1 else if b = 41 then depth - 1 else depth

/-- The first byte of a character counts as the character does, the others count nothing. -/
theorem utf8EncodeChar_depth (c : Char) : ∃ b tail, String.utf8EncodeChar c = b :: tail ∧
    (∀ depth, depthAfterByte depth b = depthAfter depth c) ∧
    (∀ x ∈ tail, ∀ depth, depthAfterByte depth x = depth) ∧ tail.length + 1 = c.utf8Size := by
  have length := String.length_utf8EncodeChar c
  -- a byte from 128 on is no bracket
  have flat : ∀ n, 128 ≤ n % 256 → ∀ depth, depthAfterByte depth (UInt8.ofNat n) = depth := by
    intro n large depth
    have value : (UInt8.ofNat n).toNat = n % 256 := UInt8.toNat_ofNat'
    have notOpen : UInt8.ofNat n ≠ 40 := by
      intro same
      rw [same] at value
      change 40 = n % 256 at value
      omega
    have notClosed : UInt8.ofNat n ≠ 41 := by
      intro same
      rw [same] at value
      change 41 = n % 256 at value
      omega
    rw [depthAfterByte, if_neg notOpen, if_neg notClosed]
  have code : c.val.toNat = c.toNat := rfl
  have plain : 127 < c.toNat → ∀ depth, depthAfter depth c = depth := by
    intro large depth
    have notOpen : c ≠ '(' := by
      rintro rfl
      exact absurd large (by decide)
    have notClosed : c ≠ ')' := by
      rintro rfl
      exact absurd large (by decide)
    rw [depthAfter, if_neg notOpen, if_neg notClosed]
  unfold String.utf8EncodeChar at length ⊢
  simp only [code] at length ⊢
  split at length
  · next ascii =>
    refine ⟨_, [], if_pos ascii, fun depth => ?_, by simp, by simpa using length⟩
    have same : ∀ d : Char, d.toNat ≤ 127 → (UInt8.ofNat c.toNat = UInt8.ofNat d.toNat ↔ c = d) := by
      intro d small
      rw [← UInt8.toNat_inj, UInt8.toNat_ofNat', UInt8.toNat_ofNat', ← Char.toNat_inj]
      omega
    have openByte := same '(' (by decide)
    have closeByte := same ')' (by decide)
    change UInt8.ofNat c.toNat = 40 ↔ c = '(' at openByte
    change UInt8.ofNat c.toNat = 41 ↔ c = ')' at closeByte
    simp only [depthAfterByte, depthAfter, openByte, closeByte]
  · next wide =>
    rw [if_neg wide]
    split at length
    · next two =>
      rw [if_pos two]
      refine ⟨_, _, rfl, fun depth => ?_, ?_, by simpa using length⟩
      · rw [flat _ (by omega), plain (by omega)]
      · simp only [List.mem_singleton, forall_eq]
        exact flat _ (by omega)
    · next notTwo =>
      rw [if_neg notTwo]
      split at length
      · next three =>
        rw [if_pos three]
        refine ⟨_, _, rfl, fun depth => ?_, ?_, by simpa using length⟩
        · rw [flat _ (by omega), plain (by omega)]
        · simp only [List.mem_cons, List.not_mem_nil, or_false, forall_eq_or_imp, forall_eq]
          exact ⟨flat _ (by omega), flat _ (by omega)⟩
      · next notThree =>
        rw [if_neg notThree]
        refine ⟨_, _, rfl, fun depth => ?_, ?_, by simpa using length⟩
        · rw [flat _ (by omega), plain (by omega)]
        · simp only [List.mem_cons, List.not_mem_nil, or_false, forall_eq_or_imp, forall_eq]
          exact ⟨flat _ (by omega), flat _ (by omega), flat _ (by omega)⟩

theorem utf8Bytes_cons (c : Char) (rest : Text) :
    utf8Bytes (c :: rest) = String.utf8EncodeChar c ++ utf8Bytes rest := by
  rw [utf8Bytes, List.flatMap_cons, ← utf8Bytes]

/-! ## Finding a keyword -/

section Find

variable (haystack keyword : Text)

/-- The loop `for i in 0..bytes.len()`, at byte `i`. -/
def findBytesFrom : (i : Nat) → (depth : Int) → List UInt8 → Option (Option Nat)
  | _, _, [] => some none
  | i, depth, b :: bytes =>
    let depth := depthAfterByte depth b
    if depth = 0 ∧ i + byteLen keyword ≤ byteLen haystack then
      match slice i (i + byteLen keyword) haystack with
      | none => none
      | some part => if part = keyword then some (some i) else findBytesFrom (i + 1) depth bytes
    else findBytesFrom (i + 1) depth bytes

/-- `find_top_level` and `find_keyword_pos`, which have the same body. -/
def findBytes : Option (Option Nat) := findBytesFrom haystack keyword 0 0 (utf8Bytes haystack)

end Find

section FindText

variable {keyword : Text}

/-- The bytes inside a character: the first of them that is tried panics. -/
theorem findBytesFrom_inside (keyword front : Text) (c : Char) (rest : Text) {tail : List UInt8}
     (depth : Int) (flat : ∀ x ∈ tail, ∀ depth, depthAfterByte depth x = depth) (size : k + tail.length = c.utf8Size)
    (positive : 0 < k) (bytes : List UInt8) :
    findBytesFrom (front ++ c :: rest) keyword (byteLen front + k) depth (tail ++ bytes) =
      if depth = 0 ∧ tail ≠ [] ∧ byteLen front + k + byteLen keyword ≤ byteLen (front ++ c :: rest)
        then none
      else findBytesFrom (front ++ c :: rest) keyword (byteLen front + c.utf8Size) depth bytes := by
  induction tail generalizing k with
  | nil =>
    rw [if_neg (by simp), List.nil_append]
    rw [List.length_nil, Nat.add_zero] at size
    rw [size]
  | cons x tail ih =>
    rw [List.length_cons] at size
    rw [List.cons_append, findBytesFrom]
    simp only [flat x (by simp)]
    split
    · next tried =>
      rw [slice_inside front ⟨positive, by omega⟩, if_pos ⟨tried.1, by simp, tried.2⟩]
    · next passed =>
      have later := ih (fun y mem => flat y (by simp [mem])) (k := k + 1) (by omega) (by omega)
      rw [Nat.add_assoc, later, if_neg fun h => passed ⟨h.1, by omega⟩,
        if_neg fun h => passed ⟨h.1, h.2.2⟩]

/-- The loop over the bytes of what is left finds what the scan over its characters finds. -/
theorem findBytesFrom_eq (ascii : ∀ x ∈ keyword, x.utf8Size = 1) (front text : Text) (depth : Int) :
    findBytesFrom (front ++ text) keyword (byteLen front) depth (utf8Bytes text) =
      (findTopLevel keyword depth text).map (Option.map fun p => byteLen front + byteLen p.1) := by
  have klen := byteLen_of_ascii ascii
  induction text generalizing front depth with
  | nil => rfl
  | cons c rest ih =>
    obtain ⟨b, tail, bytes, first, flat, size⟩ := utf8EncodeChar_depth c
    have later := ih (front ++ [c]) (depthAfter depth c)
    rw [List.append_assoc, List.singleton_append, byteLen_append] at later
    have total : byteLen (front ++ c :: rest) = byteLen front + byteLen (c :: rest) := byteLen_append _ _
    have wide : tail ≠ [] ↔ 1 < c.utf8Size := by
      rw [← size, Ne, ← List.length_eq_zero_iff]
      omega
    have inside := findBytesFrom_inside keyword front c rest (depthAfter depth c) flat
      (by omega : 1 + tail.length = c.utf8Size) (by omega) (utf8Bytes rest)
    have onward : findBytesFrom (front ++ c :: rest) keyword (byteLen front + c.utf8Size)
        (depthAfter depth c) (utf8Bytes rest) =
        (prepend [c] (findTopLevel keyword (depthAfter depth c) rest)).map
          (Option.map fun p => byteLen front + byteLen p.1) := by
      have one : byteLen [c] = c.utf8Size := by simp [byteLen]
      rw [← one, later, prepend, Option.map_map]
      congr 1
      funext found
      cases found with
      | none => rfl
      | some p => simp [byteLen_cons c p.1, one, Nat.add_assoc]
    rw [utf8Bytes_cons, bytes, List.cons_append, findBytesFrom, findTopLevel]
    simp only [first, klen, slice_append, inside, onward, total, Nat.add_le_add_iff_left]
    by_cases tried : depthAfter depth c = 0 ∧ keyword.length ≤ byteLen (c :: rest)
    · rw [if_pos tried, if_pos tried, sliceTo, ← isSome_splitAtByte]
      cases cut : splitAtByte keyword.length (c :: rest) with
      | none => rfl
      | some p =>
        obtain ⟨part, left⟩ := p
        obtain ⟨text, partLen⟩ := splitAtByte_eq_some_iff.mp cut
        have here : part = keyword ↔ keyword.isPrefixOf (c :: rest) = true := by
          rw [List.isPrefixOf_iff_prefix]
          constructor
          · rintro rfl
            exact ⟨left, text.symm⟩
          · rintro ⟨behind, whole⟩
            rw [← whole, ← klen, splitAtByte_byteLen] at cut
            cases cut
            rfl
        simp only [Option.map_some, here, Option.isSome_some, if_true]
        split
        · simp [byteLen]
        · have same : (depthAfter depth c = 0 ∧ tail ≠ [] ∧
              byteLen front + 1 + keyword.length ≤ byteLen front + byteLen (c :: rest)) ↔
              (1 < c.utf8Size ∧ keyword.length < byteLen (c :: rest)) := by
            rw [wide]
            constructor
            · rintro ⟨-, more, fits⟩
              exact ⟨more, by omega⟩
            · rintro ⟨more, fits⟩
              exact ⟨tried.1, more, by omega⟩
          simp only [same]
          split
          · rfl
          · rfl
    · rw [if_neg tried, if_neg tried, if_neg fun h => tried ⟨h.1, by omega⟩]

theorem findBytes_eq (ascii : ∀ x ∈ keyword, x.utf8Size = 1) (haystack : Text) :
    findBytes haystack keyword = (findTopLevel keyword 0 haystack).map (Option.map fun p => byteLen p.1) := by
  have whole := findBytesFrom_eq ascii [] haystack 0
  simpa [findBytes, byteLen] using whole

end FindText

/-! ## Cutting at every AND -/

/-- `s.eq_ignore_ascii_case(t)`. -/
def eqIgnoreAsciiCase (s t : Text) : Bool := s.map Char.toLower == t.map Char.toLower

/-- The loop of `split_top_level_and` at byte `i`; `skip` bytes of an `AND` are still to be left out. -/
def splitBytesFrom (expr : Text) : (i start : Nat) → (depth : Int) → (skip : Nat) → (parts : List Text) →
    List UInt8 → Option (List Text)
  | _, start, _, _, parts, [] => (sliceFrom start expr).map fun last => parts ++ [last]
  | i, start, depth, skip + 1, parts, _ :: bytes => splitBytesFrom expr (i + 1) start depth skip parts bytes
  | i, start, depth, 0, parts, b :: bytes =>
    let depth := depthAfterByte depth b
    if depth = 0 then
      match sliceFrom i expr with
      | none => none
      | some upperSlice =>
        if 5 ≤ byteLen upperSlice then
          match sliceTo 5 upperSlice with
          | none => none
          | some candidate =>
            if eqIgnoreAsciiCase candidate andKeyword then
              match slice start i expr with
              | none => none
              | some part => splitBytesFrom expr (i + 1) (i + 5) depth 4 (parts ++ [part]) bytes
            else splitBytesFrom expr (i + 1) start depth 0 parts bytes
        else splitBytesFrom expr (i + 1) start depth 0 parts bytes
    else splitBytesFrom expr (i + 1) start depth 0 parts bytes

def splitTopLevelAndBytes (expr : Text) : Option (List Text) :=
  splitBytesFrom expr 0 0 0 0 [] (utf8Bytes expr)

theorem splitBytesFrom_skip (expr : Text) (start : Nat) (depth : Int) (parts : List Text)
    (left bytes : List UInt8) (i : Nat) : splitBytesFrom expr i start depth left.length parts (left ++ bytes) =
      splitBytesFrom expr (i + left.length) start depth 0 parts bytes := by
  induction left generalizing i with
  | nil => rfl
  | cons x left ih =>
    rw [List.length_cons, List.cons_append, splitBytesFrom, ih]
    congr 1
    omega

theorem splitFromDepth_skip (depth : Int) (left rest : Text) :
    splitFromDepth depth left.length (left ++ rest) = splitFromDepth depth 0 rest := by
  induction left with
  | nil => rfl
  | cons c left ih => rw [List.length_cons, List.cons_append, splitFromDepth, ih]

/-- The bytes inside a character: outside parentheses the first of them panics. -/
theorem splitBytesFrom_inside (front : Text) (c : Char) (rest : Text) {tail : List UInt8}
    (depth : Int) (start : Nat) (parts : List Text)
    (flat : ∀ x ∈ tail, ∀ depth, depthAfterByte depth x = depth) (size : k + tail.length = c.utf8Size)
    (positive : 0 < k) (bytes : List UInt8) :
    splitBytesFrom (front ++ c :: rest) (byteLen front + k) start depth 0 parts (tail ++ bytes) =
      if depth = 0 ∧ tail ≠ [] then none
      else splitBytesFrom (front ++ c :: rest) (byteLen front + c.utf8Size) start depth 0 parts bytes := by
  induction tail generalizing k with
  | nil =>
    rw [if_neg (by simp), List.nil_append]
    rw [List.length_nil, Nat.add_zero] at size
    rw [size]
  | cons x tail ih =>
    rw [List.length_cons] at size
    rw [List.cons_append, splitBytesFrom]
    simp only [flat x (by simp)]
    split
    · next outside =>
      rw [sliceFrom_inside front ⟨positive, by omega⟩, if_pos ⟨outside, by simp⟩]
    · next deep =>
      have later := ih (fun y mem => flat y (by simp [mem])) (k := k + 1) (by omega) (by omega)
      rw [Nat.add_assoc, later, if_neg fun h => deep h.1, if_neg fun h => deep h.1]

theorem ascii_of_toLower (ascii : c.toLower.utf8Size = 1) : c.utf8Size = 1 := by
  by_cases upper : c.isUpper = true
  · have bound : c.toNat ≤ 90 := by
      simp only [Char.isUpper, decide_eq_true_eq, UInt32.le_iff_toNat_le] at upper
      exact upper.2
    rw [Char.utf8Size_eq_one_iff, UInt32.le_iff_toNat_le]
    change c.toNat ≤ 127
    omega
  · rwa [Char.toLower_eq_of_not_isUpper upper] at ascii

/-- What equals the keyword but for the case of its letters has its length, in characters and in bytes. -/
theorem eq_and_bytes {candidate : Text} (same : eqIgnoreAsciiCase candidate andKeyword = true) :
    (∀ c ∈ candidate, c.utf8Size = 1) ∧ candidate.length = 5 := by
  rw [eqIgnoreAsciiCase, beq_iff_eq] at same
  constructor
  · intro c member
    have folded : c.toLower ∈ andKeyword.map Char.toLower := same ▸ List.mem_map_of_mem member
    have ascii : ∀ d ∈ andKeyword.map Char.toLower, d.utf8Size = 1 := forall_mem_of_all (by decide)
    exact ascii_of_toLower (ascii _ folded)
  · have length := congrArg List.length same
    rw [List.length_map, List.length_map] at length
    exact length

theorem startsWithAnd_iff (text : Text) : startsWithAnd text = true ↔
    ∃ candidate left, text = candidate ++ left ∧ byteLen candidate = 5 ∧
      eqIgnoreAsciiCase candidate andKeyword = true := by
  constructor
  · intro starts
    have same : eqIgnoreAsciiCase (text.take 5) andKeyword = true := by
      rw [startsWithAnd, beq_iff_eq] at starts
      rw [eqIgnoreAsciiCase, beq_iff_eq, starts]
    obtain ⟨ascii, length⟩ := eq_and_bytes same
    exact ⟨text.take 5, text.drop 5, (List.take_append_drop 5 text).symm,
      by rw [byteLen_of_ascii ascii, length], same⟩
  · rintro ⟨candidate, left, rfl, -, same⟩
    obtain ⟨-, length⟩ := eq_and_bytes same
    rw [startsWithAnd, ← length, List.take_left, beq_iff_eq]
    rw [eqIgnoreAsciiCase, beq_iff_eq] at same
    exact same.symm

theorem length_utf8Bytes : (utf8Bytes text).length = byteLen text := by
  induction text with
  | nil => rfl
  | cons c rest ih => rw [utf8Bytes_cons, List.length_append, String.length_utf8EncodeChar, ih, byteLen_cons]

theorem utf8Bytes_append (a b : Text) : utf8Bytes (a ++ b) = utf8Bytes a ++ utf8Bytes b := by
  rw [utf8Bytes, List.flatMap_append, ← utf8Bytes, ← utf8Bytes]

/-- Once an `AND` is found, the loop goes on behind it with an empty part. -/
theorem splitBytesFrom_and {done pending more left : Text} {parts : List Text}
    (same : eqIgnoreAsciiCase (c :: more) andKeyword = true)
    (later : splitBytesFrom (done ++ pending ++ c :: more ++ [] ++ left)
        (byteLen (done ++ pending ++ c :: more ++ [])) (byteLen (done ++ pending ++ c :: more)) depth 0
        (parts ++ [pending]) (utf8Bytes left) =
      (splitFromDepth depth 0 left).map fun found => parts ++ [pending] ++ prependPart [] found) :
    splitBytesFrom (done ++ pending ++ c :: (more ++ left)) (byteLen (done ++ pending) + 1)
        (byteLen (done ++ pending) + 5) depth 4 (parts ++ [pending]) (utf8Bytes (more ++ left)) =
      (splitFromDepth depth 4 (more ++ left)).map fun found => parts ++ pending :: found := by
  obtain ⟨ascii, five⟩ := eq_and_bytes same
  have bytes5 : byteLen (c :: more) = 5 := (byteLen_of_ascii ascii).trans five
  have four : more.length = 4 := Nat.succ.inj five
  have bytes4 : (utf8Bytes more).length = 4 := by
    rw [length_utf8Bytes, byteLen_of_ascii fun x mem => ascii x (by simp [mem]), four]
  rw [List.append_nil, List.append_assoc, List.cons_append, byteLen_append, bytes5] at later
  have skipped := splitBytesFrom_skip (done ++ pending ++ c :: (more ++ left)) (byteLen (done ++ pending) + 5)
    depth (parts ++ [pending]) (utf8Bytes more) (utf8Bytes left) (byteLen (done ++ pending) + 1)
  have passed := splitFromDepth_skip depth more left
  rw [bytes4] at skipped
  rw [four] at passed
  rw [utf8Bytes_append, skipped, passed, later]
  congr 1
  funext found
  cases found <;> simp [prependPart]

/-- The loop over the bytes of what is left, where `pending` stands in front of it in its part, cuts as the
scan over its characters does. -/
theorem splitBytesFrom_eq (done pending text : Text) (depth : Int) (parts : List Text) :
    splitBytesFrom (done ++ pending ++ text) (byteLen (done ++ pending)) (byteLen done) depth 0 parts
        (utf8Bytes text) =
      (splitFromDepth depth 0 text).map fun found => parts ++ prependPart pending found := by
  induction size : text.length using Nat.strong_induction_on generalizing done pending text depth parts with
  | _ n ih =>
  subst size
  cases text with
  | nil =>
    rw [List.append_nil, splitFromDepth, Option.map_some, prependPart, List.append_nil]
    have last : sliceFrom (byteLen done) (done ++ pending) = some pending := sliceFrom_append done pending
    have stop : utf8Bytes [] = [] := rfl
    rw [stop, splitBytesFrom, last]
    rfl
  | cons c rest =>
    obtain ⟨b, tail, bytes, first, flat, length⟩ := utf8EncodeChar_depth c
    have wide : tail ≠ [] ↔ c.utf8Size ≠ 1 := by
      rw [← length, Ne, ← List.length_eq_zero_iff]
      omega
    have onward : splitBytesFrom (done ++ pending ++ c :: rest) (byteLen (done ++ pending) + 1) (byteLen done)
        (depthAfter depth c) 0 parts (tail ++ utf8Bytes rest) =
        if depthAfter depth c = 0 ∧ tail ≠ [] then none
        else (splitFromDepth (depthAfter depth c) 0 rest).map fun found =>
          parts ++ prependPart (pending ++ [c]) found := by
      have later := ih rest.length (by simp) done (pending ++ [c]) rest (depthAfter depth c) parts rfl
      rw [← List.append_assoc, List.append_assoc, List.singleton_append, byteLen_append,
        show byteLen [c] = c.utf8Size by simp [byteLen]] at later
      rw [splitBytesFrom_inside (done ++ pending) c rest (depthAfter depth c) (byteLen done) parts flat
        (by omega : 1 + tail.length = c.utf8Size) (by omega), later]
    rw [utf8Bytes_cons, bytes, List.cons_append, splitBytesFrom, splitFromDepth]
    simp only [first, onward, sliceFrom_append]
    by_cases top : depthAfter depth c = 0
    · have here : slice (byteLen done) (byteLen (done ++ pending)) (done ++ pending ++ c :: rest) =
          some pending := by
        rw [byteLen_append, List.append_assoc, slice_append, sliceTo_append]
      have passOver (short : startsWithAnd (c :: rest) = false)
          (bound : byteLen (c :: rest) < 5 ∨ isCharBoundary 5 (c :: rest) = true) :
          (if depthAfter depth c = 0 ∧ tail ≠ [] then none
            else (splitFromDepth (depthAfter depth c) 0 rest).map fun found =>
              parts ++ prependPart (pending ++ [c]) found) =
          (if sliceable (c :: rest) = true then
            if startsWithAnd (c :: rest) = true then
              (splitFromDepth (depthAfter depth c) 4 rest).map ([] :: ·)
            else (splitFromDepth (depthAfter depth c) 0 rest).map (prependPart [c])
          else none).map fun found => parts ++ prependPart pending found := by
        have sliced : sliceable (c :: rest) = true ↔ ¬ (depthAfter depth c = 0 ∧ tail ≠ []) := by
          rw [sliceable, Bool.and_eq_true, Bool.or_eq_true, decide_eq_true_eq, beq_iff_eq, wide]
          simp [top, bound]
        rw [short, if_neg Bool.false_ne_true]
        by_cases stops : depthAfter depth c = 0 ∧ tail ≠ []
        · rw [if_pos stops, if_neg fun h => sliced.mp h stops]
          rfl
        · rw [if_neg stops, if_pos (sliced.mpr stops), Option.map_map]
          congr 1
          funext found
          rw [Function.comp_apply, prependPart_append]
      rw [if_pos top, if_pos top]
      by_cases long : 5 ≤ byteLen (c :: rest)
      · rw [if_pos long, sliceTo]
        have boundary := isSome_splitAtByte 5 (c :: rest)
        cases cut : splitAtByte 5 (c :: rest) with
        | none =>
          rw [cut, Option.isSome_none] at boundary
          rw [sliceable, ← boundary, decide_eq_false (by omega), Bool.or_self, Bool.and_false,
            if_neg Bool.false_ne_true]
          rfl
        | some p =>
          obtain ⟨candidate, left⟩ := p
          rw [cut, Option.isSome_some] at boundary
          obtain ⟨text, bytes5⟩ := splitAtByte_eq_some_iff.mp cut
          simp only [Option.map_some, here]
          by_cases same : eqIgnoreAsciiCase candidate andKeyword = true
          · rw [if_pos same]
            obtain ⟨ascii, five⟩ := eq_and_bytes same
            obtain ⟨d, more, rfl⟩ := List.exists_cons_of_length_eq_add_one five
            rw [List.cons_append, List.cons.injEq] at text
            obtain ⟨rfl, rfl⟩ := text
            have one : c.utf8Size = 1 := ascii c (by simp)
            have flatTail : tail = [] := by
              by_contra some_more
              exact wide.mp some_more one
            have starts : startsWithAnd (c :: (more ++ left)) = true :=
              (startsWithAnd_iff _).mpr ⟨c :: more, left, rfl, bytes5, same⟩
            have sliced : sliceable (c :: (more ++ left)) = true := by
              rw [sliceable, one, ← boundary, Bool.or_true]
              rfl
            have later := ih left.length (by simp) (done ++ pending ++ c :: more) [] left
              (depthAfter depth c) (parts ++ [pending]) rfl
            rw [flatTail, List.nil_append, splitBytesFrom_and same later, if_pos sliced, if_pos starts,
              Option.map_map]
            congr 1
            funext found
            simp [prependPart]
          · rw [if_neg same]
            refine passOver (Bool.eq_false_iff.mpr fun starts => ?_) (.inr boundary.symm)
            obtain ⟨other, behind, text', size, found⟩ := (startsWithAnd_iff _).mp starts
            have twice := splitAtByte_eq_some_iff.mpr ⟨text', size⟩
            rw [cut, Option.some.injEq, Prod.mk.injEq] at twice
            exact same (twice.1 ▸ found)
      · rw [if_neg long]
        refine passOver (Bool.eq_false_iff.mpr fun starts => long ?_) (.inl (by omega))
        obtain ⟨candidate, left, text, size, -⟩ := (startsWithAnd_iff _).mp starts
        rw [text, byteLen_append]
        omega
    · rw [if_neg top, if_neg top, if_neg fun h => top h.1, Option.map_map]
      congr 1
      funext found
      rw [Function.comp_apply, prependPart_append]

theorem splitTopLevelAndBytes_eq (expr : Text) : splitTopLevelAndBytes expr = splitTopLevelAnd expr := by
  have whole := splitBytesFrom_eq [] [] expr 0 []
  exact whole.trans (map_prependPart_nil _)

/-! ## Slices at positions that a search gives -/

/-- `text.find(pat)`, with the slices in front of it and behind it. -/
def sliceAround (pat text : Text) : Option (Option (Text × Text)) :=
  match RustStr.before pat text with
  | none => some none
  | some front => do
    let lhs ← sliceTo (byteLen front) text
    let rhs ← sliceFrom (byteLen front + byteLen pat) text
    some (some (lhs, rhs))

theorem sliceAround_eq (pat text : Text) : sliceAround pat text =
    some ((RustStr.before pat text).bind fun lhs => (RustStr.after pat text).map fun rhs => (lhs, rhs)) := by
  unfold sliceAround
  cases found : RustStr.before pat text with
  | none => rfl
  | some front =>
    obtain ⟨behind, rfl⟩ := RustStr.before_isPrefix found
    have rest : RustStr.after pat (front ++ pat ++ behind) = some behind := by
      rw [RustStr.after, found, Option.map_some, ← List.length_append, List.drop_left]
    have left : sliceTo (byteLen front) (front ++ pat ++ behind) = some front := by
      rw [List.append_assoc, sliceTo_append]
    have right := sliceFrom_append (front ++ pat) behind
    rw [byteLen_append] at right
    simp only [left, right, rest]
    rfl

/-- `&expr[n..expr.len() - 1]` behind a function name and its bracket. -/
def callArgumentsBytes (function : String) (expr : Text) : Option (Option Text) :=
  let front := function.toList ++ ['(']
  if front.isPrefixOf expr ∧ expr.getLast? = some ')' then
    (slice (byteLen front) (byteLen expr - 1) expr).map some
  else some none

theorem callArgumentsBytes_eq (function : String) (expr : Text) :
    callArgumentsBytes function expr = some (callArguments function expr) := by
  simp only [callArgumentsBytes, callArguments]
  split
  · next call =>
    obtain ⟨behind, rfl⟩ := List.isPrefixOf_iff_prefix.mp call.1
    -- the bracket that opens is not the one that closes
    cases behind using List.reverseRecOn with
    | nil =>
      have last := call.2
      rw [List.append_nil, List.getLast?_concat] at last
      cases last
    | append_singleton inner d =>
      have last := call.2
      rw [← List.append_assoc, List.getLast?_concat, Option.some.injEq] at last
      subst last
      have size : byteLen (function.toList ++ ['('] ++ (inner ++ [')'])) - 1 =
          byteLen (function.toList ++ ['(']) + byteLen inner := by
        rw [byteLen_append, byteLen_append inner, show byteLen [')'] = 1 from rfl]
        omega
      rw [size, slice_append, sliceTo_append, List.drop_left, List.dropLast_concat]
      rfl
  · rfl

/-! ## `evaluate_expr` -/

section Evaluate

variable (item : Item) (names : AttrNames) (values : AttrValues)

def evaluateComparisonBytes (expr : Text) : List CmpOp → Option Bool
  | [] => some true
  | op :: rest => do
    match ← sliceAround op.symbol expr with
    | some (lhs, rhs) =>
      some (op.holds (avCompare (resolveItemValue item (RustStr.trim lhs) names)
        (resolveValue (RustStr.trim rhs) values)))
    | none => evaluateComparisonBytes expr rest

def evaluateAtomBytes (expr : Text) : Option Bool := do
  match ← callArgumentsBytes "attribute_exists" expr with
  | some inner => some (item.contains (resolveName (RustStr.trim inner) names))
  | none =>
    match ← callArgumentsBytes "attribute_not_exists" expr with
    | some inner => some (!item.contains (resolveName (RustStr.trim inner) names))
    | none =>
      match ← callArgumentsBytes "begins_with" expr with
      | some inner => some (stringTest beginsWithTest item inner names values)
      | none =>
        match ← callArgumentsBytes "contains" expr with
        | some inner => some (stringTest containsTest item inner names values)
        | none => evaluateComparisonBytes item names values expr CmpOp.all

/-- The text in front of position `pos` and behind the keyword there; the second is sliced only when it is
evaluated. -/
def evaluateBytes : (fuel : Nat) → Text → Option Bool
  | 0, _ => none
  | fuel + 1, expr =>
    let expr := RustStr.trim expr
    match findBytes expr andKeyword with
    | none => none
    | some (some pos) =>
      shortCircuit false ((sliceTo pos expr).bind (evaluateBytes fuel))
        ((sliceFrom (pos + 5) expr).bind (evaluateBytes fuel))
    | some none =>
      match findBytes expr orKeyword with
      | none => none
      | some (some pos) =>
        shortCircuit true ((sliceTo pos expr).bind (evaluateBytes fuel))
          ((sliceFrom (pos + 4) expr).bind (evaluateBytes fuel))
      | some none =>
        if notKeyword.isPrefixOf expr then
          (evaluateBytes fuel (expr.drop notKeyword.length)).map (!·)
        else evaluateAtomBytes item names values expr

def evaluateFilterBytes (expression : String) : Option Bool :=
  evaluateBytes item names values (expression.length + 1) (RustStr.trim expression.toList)

theorem evaluateComparisonBytes_eq (expr : Text) (ops : List CmpOp) :
    evaluateComparisonBytes item names values expr ops =
      some (evaluateComparison item expr names values ops) := by
  induction ops with
  | nil => rfl
  | cons op rest ih =>
    rw [evaluateComparisonBytes, evaluateComparison, sliceAround_eq]
    cases RustStr.before op.symbol expr with
    | none => exact ih
    | some lhs =>
      cases RustStr.after op.symbol expr with
      | none => exact ih
      | some rhs => rfl

theorem evaluateAtomBytes_eq (expr : Text) :
    evaluateAtomBytes item names values expr = some (evaluateAtom item expr names values) := by
  unfold evaluateAtomBytes evaluateAtom
  simp only [callArgumentsBytes_eq, evaluateComparisonBytes_eq, Option.bind_eq_bind, Option.bind_some]
  cases callArguments "attribute_exists" expr with
  | some inner => rfl
  | none =>
    cases callArguments "attribute_not_exists" expr with
    | some inner => rfl
    | none =>
      cases callArguments "begins_with" expr with
      | some inner => rfl
      | none => cases callArguments "contains" expr <;> rfl

/-- Where the scan finds a keyword, the text falls into what it gives. -/
theorem findTopLevel_found {keyword text : Text} {l r : Text}
    (found : findTopLevel keyword depth text = some (some (l, r))) : text = l ++ (keyword ++ r) := by
  induction text generalizing depth l r with
  | nil => cases found
  | cons c rest ih =>
    have later : ∀ {l r : Text}, prepend [c] (findTopLevel keyword (depthAfter depth c) rest) =
        some (some (l, r)) → c :: rest = l ++ (keyword ++ r) := by
      intro l r onward
      obtain ⟨found', inner, same⟩ := Option.map_eq_some_iff.mp onward
      obtain ⟨p, rfl, same⟩ := Option.map_eq_some_iff.mp same
      cases same
      rw [ih inner]
      rfl
    rw [findTopLevel] at found
    split at found
    · split at found
      · split at found
        · next here =>
          cases found
          obtain ⟨behind, whole⟩ := List.isPrefixOf_iff_prefix.mp here
          rw [← whole, List.drop_left, List.nil_append]
        · split at found
          · cases found
          · exact later found
      · cases found
    · exact later found

/-- The two slices around a keyword that is found. -/
theorem slices_of_found {keyword expr l r : Text} (ascii : ∀ x ∈ keyword, x.utf8Size = 1)
    (found : findTopLevel keyword depth expr = some (some (l, r))) :
    sliceTo (byteLen l) expr = some l ∧ sliceFrom (byteLen l + keyword.length) expr = some r := by
  have whole := findTopLevel_found found
  have right := sliceFrom_append (l ++ keyword) r
  rw [byteLen_append, byteLen_of_ascii ascii, List.append_assoc, ← whole] at right
  exact ⟨whole ▸ sliceTo_append l (keyword ++ r), right⟩

theorem andKeyword_ascii : ∀ x ∈ andKeyword, x.utf8Size = 1 := forall_mem_of_all (by decide)

theorem orKeyword_ascii : ∀ x ∈ orKeyword, x.utf8Size = 1 := forall_mem_of_all (by decide)

theorem evaluateBytes_eq (fuel : Nat) (expr : Text) :
    evaluateBytes item names values fuel expr = evaluateExpr item names values fuel expr := by
  induction fuel generalizing expr with
  | zero => rfl
  | succ fuel ih =>
    rw [evaluateBytes, evaluateExpr]
    simp only [findBytes_eq andKeyword_ascii, findBytes_eq orKeyword_ascii]
    cases byAnd : findTopLevel andKeyword 0 (RustStr.trim expr) with
    | none => rfl
    | some found =>
      cases found with
      | some p =>
        obtain ⟨left, right⟩ := slices_of_found andKeyword_ascii byAnd
        have right : sliceFrom (byteLen p.1 + 5) (RustStr.trim expr) = some p.2 := right
        simp [left, right, ih]
      | none =>
        cases byOr : findTopLevel orKeyword 0 (RustStr.trim expr) with
        | none => rfl
        | some found =>
          cases found with
          | some p =>
            obtain ⟨left, right⟩ := slices_of_found orKeyword_ascii byOr
            have right : sliceFrom (byteLen p.1 + 4) (RustStr.trim expr) = some p.2 := right
            simp [left, right, ih]
          | none =>
            simp [evaluateAtomBytes_eq, ih]

theorem evaluateFilterBytes_eq (expression : String) :
    evaluateFilterBytes item names values expression = evaluateFilter item expression names values :=
  evaluateBytes_eq item names values _ _

end Evaluate

/-! ## `extract_clause` -/

/-- The least position at which a keyword is found, or the length of the text. -/
def clauseEndBytes (input : Text) : Nat :=
  clauseKeywords.foldl (fun last kw =>
    match (RustStr.before kw input).map byteLen with
    | some pos => if pos < last then pos else last
    | none => last) (byteLen input)

def extractClauseBytes (input : Text) : Option (Text × Text) := do
  let clause ← sliceTo (clauseEndBytes input) input
  let rest ← sliceFrom (clauseEndBytes input) input
  some (RustStr.trim clause, rest)

theorem byteLen_take_lt {m n : Nat} (less : m < n) (bound : n ≤ text.length) :
    byteLen (text.take m) < byteLen (text.take n) := by
  have cut : text.take n = text.take m ++ (text.drop m).take (n - m) := by
    rw [← List.take_add, Nat.add_sub_cancel' less.le]
  have some_more : 0 < byteLen ((text.drop m).take (n - m)) := by
    cases behind : (text.drop m).take (n - m) with
    | nil =>
      have length := congrArg List.length behind
      rw [List.length_take, List.length_drop, List.length_nil] at length
      omega
    | cons c rest =>
      have := c.utf8Size_pos
      rw [byteLen_cons]
      omega
  rw [cut, byteLen_append]
  omega

theorem byteLen_take_lt_iff {m n : Nat} (boundM : m ≤ text.length) (boundN : n ≤ text.length) :
    byteLen (text.take m) < byteLen (text.take n) ↔ m < n := by
  constructor
  · intro less
    by_contra above
    rcases Nat.lt_or_eq_of_le (Nat.le_of_not_lt above) with other | rfl
    · have := byteLen_take_lt other boundM
      omega
    · omega
  · exact fun less => byteLen_take_lt less boundN

/-- The byte positions are those of characters, in the same order. -/
theorem clauseEndBytes_eq (input : Text) : clauseEndBytes input = byteLen (input.take (clauseEnd input)) := by
  have fold : ∀ (keywords : List Text) (last : Nat), last ≤ input.length →
      keywords.foldl (fun last kw => ((RustStr.before kw input).map byteLen).elim last
        fun pos => if pos < last then pos else last) (byteLen (input.take last)) =
      byteLen (input.take (keywords.foldl (fun last kw => (RustStr.before kw input).elim last
        fun front => if front.length < last then front.length else last) last)) := by
    intro keywords
    induction keywords with
    | nil => exact fun _ _ => rfl
    | cons kw rest ih =>
      intro last bound
      rw [List.foldl_cons, List.foldl_cons]
      cases found : RustStr.before kw input with
      | none => exact ih last bound
      | some front =>
        obtain ⟨behind, whole⟩ := RustStr.before_isPrefix found
        have short : front.length ≤ input.length := by
          rw [← whole, List.append_assoc, List.length_append]
          omega
        have here : byteLen front = byteLen (input.take front.length) := by
          rw [← whole, List.append_assoc, List.take_left]
        simp only [Option.map_some, Option.elim_some, here, byteLen_take_lt_iff short bound]
        split
        · exact ih front.length short
        · exact ih last bound
  have whole := fold clauseKeywords input.length le_rfl
  rw [List.take_length, ← clauseEnd_eq_foldl] at whole
  rw [← whole, clauseEndBytes]
  congr 1
  funext last kw
  cases RustStr.before kw input <;> rfl

/-- Both slices of a clause lie between characters, for every text. -/
theorem extractClauseBytes_eq (input : Text) : extractClauseBytes input = some (extractClause input) := by
  have left : sliceTo (clauseEndBytes input) input = some (input.take (clauseEnd input)) := by
    have cut := sliceTo_append (input.take (clauseEnd input)) (input.drop (clauseEnd input))
    rwa [List.take_append_drop, ← clauseEndBytes_eq] at cut
  have right : sliceFrom (clauseEndBytes input) input = some (input.drop (clauseEnd input)) := by
    have cut := sliceFrom_append (input.take (clauseEnd input)) (input.drop (clauseEnd input))
    rwa [List.take_append_drop, ← clauseEndBytes_eq] at cut
  rw [extractClauseBytes, left, right]
  rfl

/-! ## `parse_key_condition` -/

section KeyCondition

variable (C : CaseMapping) (rangeKeyName : String) (attrNames : AttrNames) (attrValues : AttrValues)

/-- `readBetween`, with the scan over the bytes of the upper-cased copy. -/
def readBetweenBytes (pos : Nat) (part : Text) (read : KeyRead) : Option KeyRead := do
  let lhs ← sliceTo pos part
  let rest ← sliceFrom (pos + 9) part
  match ← findBytes (C.toUppercase rest) andKeyword with
  | none => pure read
  | some ap =>
    let lo ← sliceTo ap rest
    let hi ← sliceFrom (ap + 5) rest
    if resolveName (RustStr.trim lhs) attrNames = rangeKeyName then
      pure (read.1, some (.between (resolveValue (RustStr.trim lo) attrValues)
        (resolveValue (RustStr.trim hi) attrValues)))
    else pure read

def readComparisonBytes (part : Text) (read : KeyRead) : List CmpOp → Option KeyRead
  | [] => some read
  | op :: rest => do
    match ← sliceAround op.symbol part with
    | some (lhs, rhs) =>
      some (readOperator rangeKeyName op (resolveName (RustStr.trim lhs) attrNames)
        (resolveValue (RustStr.trim rhs) attrValues) read)
    | none => readComparisonBytes part read rest

/-- The body of the loop over the parts. -/
def readPartBytes (read : KeyRead) (part : Text) : Option KeyRead := do
  let part := RustStr.trim part
  match ← beginsWithArguments C part with
  | some inner => pure (readBeginsWith rangeKeyName attrNames attrValues inner read)
  | none =>
    match ← findBytes (C.toUppercase part) betweenKeyword with
    | some pos => readBetweenBytes C rangeKeyName attrNames attrValues pos part read
    | none => readComparisonBytes rangeKeyName attrNames attrValues part read keyOperators

def parseKeyConditionBytes (expr : String) : Option KeyRead :=
  (splitTopLevelAndBytes (RustStr.trim expr.toList)).bind fun parts =>
    parts.foldlM (readPartBytes C rangeKeyName attrNames attrValues) (none, none)

theorem betweenKeyword_ascii : ∀ x ∈ betweenKeyword, x.utf8Size = 1 := forall_mem_of_all (by decide)

theorem readComparisonBytes_eq (part : Text) (read : KeyRead) (ops : List CmpOp) :
    readComparisonBytes rangeKeyName attrNames attrValues part read ops =
      some (readComparison rangeKeyName attrNames attrValues part read ops) := by
  induction ops with
  | nil => rfl
  | cons op rest ih =>
    rw [readComparisonBytes, readComparison, sliceAround_eq]
    cases RustStr.before op.symbol part with
    | none => exact ih
    | some lhs =>
      cases RustStr.after op.symbol part with
      | none => exact ih
      | some rhs => rfl

theorem readPartBytes_eq (read : KeyRead) (part : Text) :
    readPartBytes C rangeKeyName attrNames attrValues read part =
      readPart C rangeKeyName attrNames attrValues read part := by
  simp only [readPartBytes, readPart, readBetweenBytes, readBetween, findKeywordPos,
    findBytes_eq betweenKeyword_ascii, findBytes_eq andKeyword_ascii, readComparisonBytes_eq,
    Option.pure_def]
  all_goals rfl

theorem parseKeyConditionBytes_eq (expr : String) :
    parseKeyConditionBytes C rangeKeyName attrNames attrValues expr =
      parseKeyCondition C rangeKeyName attrNames attrValues expr := by
  have step : readPartBytes C rangeKeyName attrNames attrValues =
      readPart C rangeKeyName attrNames attrValues := by
    funext read part
    exact readPartBytes_eq C rangeKeyName attrNames attrValues read part
  rw [parseKeyConditionBytes, parseKeyCondition, splitTopLevelAndBytes_eq, step]

end KeyCondition

end Openstack.DynamoDb

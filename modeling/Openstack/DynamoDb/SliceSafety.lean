import Openstack.DynamoDb.ByteScans
import Openstack.DynamoDb.KeyConditionParse

/-!
# Where the scans panic

The scans look at every byte outside parentheses, up to the first occurrence of their keyword, and slice as
many bytes from there as the keyword has. That goes well at a character of one byte when the slice ends
between characters, and at the last bytes of a text. Clauses of update expressions are cut at positions that
a search gives, which is always right.
-/
namespace Openstack.DynamoDb

/-- The places outside parentheses at which the keyword is looked for, up to its first occurrence. -/
def examined (keyword : Text) : (depth : Int) → Text → List Text
  | _, [] => []
  | depth, c :: rest =>
    let depth := depthAfter depth c
    if depth = 0 then
      (c :: rest) :: if keyword.isPrefixOf (c :: rest) then [] else examined keyword depth rest
    else examined keyword depth rest

/-- When there are `n` bytes, they end between characters, and they start a character of one byte or are all
that is left. -/
def Cuttable (n : Nat) (place : Text) : Prop :=
  n ≤ byteLen place →
    isCharBoundary n place = true ∧ ((∀ c ∈ place.head?, c.utf8Size = 1) ∨ n = byteLen place)

def ScansClean (keyword text : Text) : Prop :=
  ∀ place ∈ examined keyword 0 text, Cuttable keyword.length place

/-- The text before and after the first occurrence outside parentheses. -/
def topLevelSplit (keyword : Text) : (depth : Int) → Text → Option (Text × Text)
  | _, [] => none
  | depth, c :: rest =>
    let depth := depthAfter depth c
    if depth = 0 ∧ keyword.isPrefixOf (c :: rest) then some ([], (c :: rest).drop keyword.length)
    else (topLevelSplit keyword depth rest).map fun p => (c :: p.1, p.2)

section Keyword

variable {keyword : Text} (nonempty : keyword ≠ []) (ascii : ∀ x ∈ keyword, x.utf8Size = 1)

include nonempty ascii

/-- Where the keyword stands, it can be cut off. -/
theorem cuttable_of_isPrefixOf {place : Text} (here : keyword.isPrefixOf place = true) :
    keyword.length ≤ byteLen place ∧ isCharBoundary keyword.length place = true ∧
      ∀ c ∈ place.head?, c.utf8Size = 1 := by
  obtain ⟨behind, rfl⟩ := List.isPrefixOf_iff_prefix.mp here
  refine ⟨?_, ?_, ?_⟩
  · rw [byteLen_append, byteLen_of_ascii ascii]
    omega
  · rw [← isSome_splitAtByte, ← byteLen_of_ascii ascii, splitAtByte_byteLen]
    rfl
  · intro c first
    refine ascii c ?_
    cases keyword with
    | nil => exact absurd rfl nonempty
    | cons k more =>
      cases first
      exact List.mem_cons_self

/-- The scan gets through, and then finds the first occurrence, when it slices no character. -/
theorem findTopLevel_eq_some_iff (depth : Int) (text : Text) (found : Option (Text × Text)) :
    findTopLevel keyword depth text = some found ↔
      (∀ place ∈ examined keyword depth text, Cuttable keyword.length place) ∧
        topLevelSplit keyword depth text = found := by
  induction text generalizing depth found with
  | nil => simp [findTopLevel, examined, topLevelSplit]
  | cons c rest ih =>
    have onward : prepend [c] (findTopLevel keyword (depthAfter depth c) rest) = some found ↔
        (∀ place ∈ examined keyword (depthAfter depth c) rest, Cuttable keyword.length place) ∧
          (topLevelSplit keyword (depthAfter depth c) rest).map (fun p => (c :: p.1, p.2)) = found := by
      rw [prepend, Option.map_eq_some_iff]
      simp only [ih]
      constructor
      · rintro ⟨inner, ⟨clean, rfl⟩, rfl⟩
        exact ⟨clean, rfl⟩
      · rintro ⟨clean, rfl⟩
        exact ⟨_, ⟨clean, rfl⟩, rfl⟩
    rw [findTopLevel, examined, topLevelSplit]
    by_cases top : depthAfter depth c = 0
    · simp only [top, true_and, if_true] at onward ⊢
      by_cases here : keyword.isPrefixOf (c :: rest) = true
      · obtain ⟨fits, boundary, first⟩ := cuttable_of_isPrefixOf nonempty ascii here
        have cuttable : Cuttable keyword.length (c :: rest) := fun _ => ⟨boundary, .inl first⟩
        simp [here, fits, boundary, cuttable]
      · rw [if_neg here, if_neg here, if_neg here, List.forall_mem_cons, and_assoc, ← onward]
        by_cases fits : keyword.length ≤ byteLen (c :: rest)
        · have cuttable : Cuttable keyword.length (c :: rest) ↔
              isCharBoundary keyword.length (c :: rest) = true ∧
              ¬ (1 < c.utf8Size ∧ keyword.length < byteLen (c :: rest)) := by
            have positive := c.utf8Size_pos
            have one : (∀ x ∈ (c :: rest).head?, x.utf8Size = 1) ↔ c.utf8Size = 1 := by simp
            rw [Cuttable, one]
            constructor
            · intro cut
              obtain ⟨boundary, either⟩ := cut fits
              exact ⟨boundary, by omega⟩
            · rintro ⟨boundary, stays⟩ _
              exact ⟨boundary, by omega⟩
          rw [if_pos fits, cuttable]
          split
          · next boundary =>
            simp only [boundary, true_and]
            split
            · next stops => simp [stops]
            · next goes => simp [goes]
          · next inside => simp [inside]
        · have cuttable : Cuttable keyword.length (c :: rest) := fun long => absurd long fits
          rw [if_neg fits, and_iff_right cuttable]
    · rw [if_neg fun h => top h.1, if_neg top, if_neg fun h => top h.1]
      exact onward

theorem not_scansClean_of_none {text : Text} (panics : findTopLevel keyword 0 text = none) :
    ¬ ScansClean keyword text := fun clean => by
  have got := (findTopLevel_eq_some_iff nonempty ascii 0 text _).mpr ⟨clean, rfl⟩
  rw [panics] at got
  cases got

end Keyword

theorem topLevelSplit_found {keyword text : Text} {depth : Int} {l r : Text}
    (found : topLevelSplit keyword depth text = some (l, r)) : text = l ++ (keyword ++ r) := by
  induction text generalizing depth l with
  | nil => cases found
  | cons c rest ih =>
    rw [topLevelSplit] at found
    split at found
    · next here =>
      cases found
      obtain ⟨behind, whole⟩ := List.isPrefixOf_iff_prefix.mp here.2
      rw [← whole, List.drop_left, List.nil_append]
    · obtain ⟨p, inner, same⟩ := Option.map_eq_some_iff.mp found
      cases same
      rw [ih inner]
      rfl

section Evaluate

variable (item : Item) (names : AttrNames) (values : AttrValues)

/-- The value of an expression, whether or not the code gets to it. -/
def truthOf : (fuel : Nat) → Text → Bool
  | 0, _ => false
  | fuel + 1, expr =>
    let expr := RustStr.trim expr
    match topLevelSplit andKeyword 0 expr with
    | some (left, right) => truthOf fuel left && truthOf fuel right
    | none =>
      match topLevelSplit orKeyword 0 expr with
      | some (left, right) => truthOf fuel left || truthOf fuel right
      | none =>
        if notKeyword.isPrefixOf expr then !truthOf fuel (expr.drop notKeyword.length)
        else evaluateAtom item expr names values

/-- Every operand that is evaluated is scanned without slicing a character. -/
def EvaluatesClean : (fuel : Nat) → Text → Prop
  | 0, _ => True
  | fuel + 1, expr =>
    let expr := RustStr.trim expr
    ScansClean andKeyword expr ∧
      match topLevelSplit andKeyword 0 expr with
      | some (left, right) =>
        EvaluatesClean fuel left ∧ (truthOf item names values fuel left = true → EvaluatesClean fuel right)
      | none =>
        ScansClean orKeyword expr ∧
          match topLevelSplit orKeyword 0 expr with
          | some (left, right) =>
            EvaluatesClean fuel left ∧
              (truthOf item names values fuel left = false → EvaluatesClean fuel right)
          | none => notKeyword.isPrefixOf expr = true → EvaluatesClean fuel (expr.drop notKeyword.length)

/-- The two sides of a connective. -/
theorem shortCircuit_eq_some_iff {decisive : Bool} {left right : Option Bool} {cleanL cleanR : Prop}
    {x y v : Bool} (onLeft : ∀ v, left = some v ↔ cleanL ∧ x = v)
    (onRight : ∀ v, right = some v ↔ cleanR ∧ y = v) :
    shortCircuit decisive left right = some v ↔
      (cleanL ∧ (x = !decisive → cleanR)) ∧ (if x = decisive then decisive else y) = v := by
  rw [shortCircuit, Option.bind_eq_some_iff]
  constructor
  · rintro ⟨l, isLeft, made⟩
    obtain ⟨clean, rfl⟩ := (onLeft l).mp isLeft
    split at made
    · next decided =>
      subst decided
      rw [Option.some.injEq] at made
      rw [if_pos rfl]
      exact ⟨⟨clean, fun other => absurd other (by simp)⟩, made⟩
    · next open_ =>
      obtain ⟨cleanRight, value⟩ := (onRight v).mp made
      rw [if_neg open_]
      exact ⟨⟨clean, fun _ => cleanRight⟩, value⟩
  · rintro ⟨⟨clean, later⟩, value⟩
    refine ⟨x, (onLeft x).mpr ⟨clean, rfl⟩, ?_⟩
    split at value
    · next decided => rw [if_pos decided, value]
    · next open_ =>
      rw [if_neg open_]
      exact (onRight v).mpr ⟨later (Bool.eq_not.mpr open_), value⟩

theorem operands_shorter {keyword expr l r : Text} {fuel : Nat} (positive : 0 < keyword.length)
    (enough : expr.length < fuel + 1) (split : topLevelSplit keyword 0 (RustStr.trim expr) = some (l, r)) :
    l.length < fuel ∧ r.length < fuel := by
  have short := trim_length_le expr
  have whole := congrArg List.length (topLevelSplit_found split)
  rw [List.length_append, List.length_append] at whole
  omega

theorem evaluateExpr_eq_some_iff {fuel : Nat} {expr : Text} (enough : expr.length < fuel) (v : Bool) :
    evaluateExpr item names values fuel expr = some v ↔
      EvaluatesClean item names values fuel expr ∧ truthOf item names values fuel expr = v := by
  induction fuel generalizing expr v with
  | zero => omega
  | succ fuel ih =>
    have scanAnd := @findTopLevel_eq_some_iff andKeyword (by decide) andKeyword_ascii 0
      (RustStr.trim expr)
    have scanOr := @findTopLevel_eq_some_iff orKeyword (by decide) orKeyword_ascii 0
      (RustStr.trim expr)
    rw [evaluateExpr, EvaluatesClean, truthOf]
    cases byAnd : findTopLevel andKeyword 0 (RustStr.trim expr) with
    | none =>
      simp [not_scansClean_of_none (by decide) andKeyword_ascii byAnd]
    | some found =>
      obtain ⟨clean, split⟩ := (scanAnd found).mp byAnd
      have clean : ScansClean andKeyword (RustStr.trim expr) := clean
      cases found with
      | some p =>
        obtain ⟨left, right⟩ := operands_shorter (by decide) enough split
        simp only [split, clean, true_and]
        rw [shortCircuit_eq_some_iff (ih left) (ih right)]
        cases truthOf item names values fuel p.1 <;> simp
      | none =>
        simp only [split, clean, true_and]
        cases byOr : findTopLevel orKeyword 0 (RustStr.trim expr) with
        | none =>
          simp [not_scansClean_of_none (by decide) orKeyword_ascii byOr]
        | some found =>
          obtain ⟨clean, split⟩ := (scanOr found).mp byOr
          have clean : ScansClean orKeyword (RustStr.trim expr) := clean
          cases found with
          | some p =>
            obtain ⟨left, right⟩ := operands_shorter (by decide) enough split
            simp only [split, clean, true_and]
            rw [shortCircuit_eq_some_iff (ih left) (ih right)]
            cases truthOf item names values fuel p.1 <;> simp
          | none =>
            simp only [split, clean, true_and]
            by_cases negated : notKeyword.isPrefixOf (RustStr.trim expr) = true
            · have short := trim_length_le expr
              have operand : ((RustStr.trim expr).drop notKeyword.length).length < fuel := by
                have := drop_shorter negated notKeyword.length (by decide) le_rfl
                omega
              simp only [negated, if_true, forall_const, Option.map_eq_some_iff, ih operand]
              constructor
              · rintro ⟨w, ⟨good, rfl⟩, rfl⟩
                exact ⟨good, rfl⟩
              · rintro ⟨good, rfl⟩
                exact ⟨_, ⟨good, rfl⟩, rfl⟩
            · simp [negated]

theorem evaluateFilter_isSome_iff (expression : String) :
    (evaluateFilter item expression names values).isSome = true ↔
      EvaluatesClean item names values (expression.length + 1) (RustStr.trim expression.toList) := by
  have enough : (RustStr.trim expression.toList).length < expression.length + 1 := by
    have := trim_length_le expression.toList
    rw [String.length_toList] at this
    omega
  rw [Option.isSome_iff_exists, evaluateFilter]
  simp only [evaluateExpr_eq_some_iff item names values enough]
  constructor
  · rintro ⟨_, clean, _⟩
    exact clean
  · exact fun clean => ⟨_, clean, rfl⟩

end Evaluate

/-- The places outside parentheses at which an `AND` is looked for: all but those inside one. -/
def examinedForAnd : (depth : Int) → (skip : Nat) → Text → List Text
  | _, _, [] => []
  | depth, skip + 1, _ :: rest => examinedForAnd depth skip rest
  | depth, 0, c :: rest =>
    let depth := depthAfter depth c
    if depth = 0 then
      (c :: rest) :: examinedForAnd depth (if startsWithAnd (c :: rest) then 4 else 0) rest
    else examinedForAnd depth 0 rest

/-- The parts between the `AND`s outside parentheses. -/
def andParts : (depth : Int) → (skip : Nat) → Text → List Text
  | _, _, [] => [[]]
  | depth, skip + 1, _ :: rest => andParts depth skip rest
  | depth, 0, c :: rest =>
    let depth := depthAfter depth c
    if depth = 0 ∧ startsWithAnd (c :: rest) then [] :: andParts depth 4 rest
    else prependPart [c] (andParts depth 0 rest)

/-- At every place a character of one byte, with no character across the fifth byte from it on. -/
def SplitsClean (expr : Text) : Prop := ∀ place ∈ examinedForAnd 0 0 expr, sliceable place = true

theorem splitFromDepth_eq_some_iff (depth : Int) (skip : Nat) (text : Text) (parts : List Text) :
    splitFromDepth depth skip text = some parts ↔
      (∀ place ∈ examinedForAnd depth skip text, sliceable place = true) ∧
        andParts depth skip text = parts := by
  induction text generalizing depth skip parts with
  | nil => simp [splitFromDepth, examinedForAnd, andParts]
  | cons c rest ih =>
    cases skip with
    | succ skip => exact ih depth skip parts
    | zero =>
      rw [splitFromDepth, examinedForAnd, andParts]
      by_cases top : depthAfter depth c = 0
      · simp only [top, true_and, if_true, List.forall_mem_cons]
        by_cases sliced : sliceable (c :: rest) = true
        · rw [if_pos sliced, and_iff_right sliced]
          by_cases starts : startsWithAnd (c :: rest) = true
          · simp only [starts, if_true, Option.map_eq_some_iff, ih]
            constructor
            · rintro ⟨later, ⟨clean, rfl⟩, rfl⟩
              exact ⟨clean, rfl⟩
            · rintro ⟨clean, rfl⟩
              exact ⟨_, ⟨clean, rfl⟩, rfl⟩
          · simp only [starts, if_false, Bool.false_eq_true, Option.map_eq_some_iff, ih]
            constructor
            · rintro ⟨later, ⟨clean, rfl⟩, rfl⟩
              exact ⟨clean, rfl⟩
            · rintro ⟨clean, rfl⟩
              exact ⟨_, ⟨clean, rfl⟩, rfl⟩
        · simp [sliced]
      · simp only [top, false_and, if_false, Option.map_eq_some_iff, ih]
        constructor
        · rintro ⟨later, ⟨clean, rfl⟩, rfl⟩
          exact ⟨clean, rfl⟩
        · rintro ⟨clean, rfl⟩
          exact ⟨_, ⟨clean, rfl⟩, rfl⟩

/-- `str::to_lowercase` also of text outside ASCII: only the Kelvin sign, with a `k`, and the I with a dot
above, with an `i` and a dot behind it, have characters of ASCII in their lower case. -/
structure UnicodeCase extends CaseMapping where
  lowercase_ascii_front : ∀ front text : Text, front.all (fun c => c.utf8Size == 1) = true → 'k' ∉ front →
    front.getLast? ≠ some 'i' → front <+: toLowercase text →
      ∃ original, original.length = front.length ∧ original.all (fun c => c.utf8Size == 1) = true ∧
        original <+: text

section KeyCondition

variable (C : UnicodeCase)

/-- The text behind byte `n`. -/
def behindByte (n : Nat) (text : Text) : Text := (sliceFrom n text).getD []

/-- The bounds of a `BETWEEN` at byte `pos` of the upper-cased copy. -/
def BetweenClean (pos : Nat) (part : Text) : Prop :=
  (isCharBoundary pos part = true ∧ isCharBoundary (pos + 9) part = true) ∧
    ScansClean andKeyword (C.toUppercase (behindByte (pos + 9) part)) ∧
    ∀ p, topLevelSplit andKeyword 0 (C.toUppercase (behindByte (pos + 9) part)) = some p →
      isCharBoundary (byteLen p.1) (behindByte (pos + 9) part) = true ∧
        isCharBoundary (byteLen p.1 + 5) (behindByte (pos + 9) part) = true

/-- A part is a call of `begins_with`, or its upper-cased copy is scanned without slicing a character and the
positions found there lie between characters of the part. -/
def PartClean (part : Text) : Prop :=
  let part := RustStr.trim part
  ("begins_with(".toList.isPrefixOf (C.toLowercase part) = true ∧ part.getLast? = some ')') ∨
    ScansClean betweenKeyword (C.toUppercase part) ∧
      ∀ p, topLevelSplit betweenKeyword 0 (C.toUppercase part) = some p →
        BetweenClean C (byteLen p.1) part

/-- The text is cut without slicing a character, and each part is read so. -/
def KeyConditionClean (expr : Text) : Prop :=
  SplitsClean expr ∧ ∀ part ∈ andParts 0 0 expr, PartClean C part

variable {C} {rangeKeyName : String} {attrNames : AttrNames} {attrValues : AttrValues}

/-- The argument text of a call is sliced between characters, whatever the case of the name. -/
theorem beginsWithArguments_isSome (part : Text) :
    (beginsWithArguments C.toCaseMapping part).isSome = true := by
  unfold beginsWithArguments
  split
  · next call =>
    have starts := List.isPrefixOf_iff_prefix.mp call.1
    obtain ⟨name, length, ascii, behind, rfl⟩ :=
      C.lowercase_ascii_front "begins_with(".toList part (by decide) (by decide) (by decide) starts
    have bytes : byteLen name = 12 := by
      rw [byteLen_of_ascii (by simpa using ascii), length]
      rfl
    cases behind using List.reverseRecOn with
    | nil =>
      -- the name would be the whole part, with both brackets at its end
      rw [List.append_nil] at call starts
      rw [C.lowercase_ascii name ascii] at starts
      have same := starts.eq_of_length (by rw [List.length_map, length])
      have last := congrArg List.getLast? same
      rw [List.getLast?_map, call.2] at last
      exact absurd last (by decide)
    | append_singleton inner d =>
      have last := call.2
      rw [← List.append_assoc, List.getLast?_concat, Option.some.injEq] at last
      subst last
      have size : byteLen (name ++ (inner ++ [')'])) - 1 = byteLen name + byteLen inner := by
        rw [byteLen_append, byteLen_append inner, show byteLen [')'] = 1 from rfl]
        omega
      have cut := slice_append name (inner ++ [')']) (byteLen inner)
      rw [sliceTo_append, ← size, bytes] at cut
      rw [cut]
      rfl
  · rfl

theorem sliceTo_isSome (n : Nat) (text : Text) : (sliceTo n text).isSome = isCharBoundary n text := by
  rw [sliceTo, Option.isSome_map, isSome_splitAtByte]

theorem sliceFrom_isSome (n : Nat) (text : Text) : (sliceFrom n text).isSome = isCharBoundary n text := by
  rw [sliceFrom, Option.isSome_map, isSome_splitAtByte]

/-- A scan of the loop over bytes, as a condition on the text. -/
theorem findKeywordPos_bind_isSome {keyword text : Text} (nonempty : keyword ≠ [])
    (ascii : ∀ x ∈ keyword, x.utf8Size = 1) {β : Type} (next : Option Nat → Option β) :
    ((findKeywordPos text keyword).bind next).isSome = true ↔
      ScansClean keyword text ∧
        (next ((topLevelSplit keyword 0 text).map fun p => byteLen p.1)).isSome = true := by
  rw [findKeywordPos]
  cases found : findTopLevel keyword 0 text with
  | none =>
    simp [not_scansClean_of_none nonempty ascii found]
  | some p =>
    obtain ⟨clean, split⟩ := (findTopLevel_eq_some_iff nonempty ascii 0 text p).mp found
    have clean : ScansClean keyword text := clean
    rw [split]
    simp [clean]

theorem readBetween_isSome_iff (pos : Nat) (part : Text) (read : KeyRead) :
    (readBetween C.toCaseMapping rangeKeyName attrNames attrValues pos part read).isSome = true ↔
      BetweenClean C pos part := by
  rw [BetweenClean, ← sliceTo_isSome, ← sliceFrom_isSome, readBetween]
  cases sliceTo pos part with
  | none => simp
  | some lhs =>
    cases behind : sliceFrom (pos + 9) part with
    | none => simp
    | some rest =>
      have rest_eq : behindByte (pos + 9) part = rest := by rw [behindByte, behind, Option.getD_some]
      simp only [Option.bind_eq_bind, Option.bind_some, Option.isSome_some, and_self, true_and]
      rw [findKeywordPos_bind_isSome (by decide) andKeyword_ascii, rest_eq]
      refine and_congr_right fun _ => ?_
      cases topLevelSplit andKeyword 0 (C.toUppercase rest) with
      | none => simp
      | some p =>
        simp only [Option.map_some, Option.some.injEq, forall_eq']
        rw [← sliceTo_isSome (byteLen p.1), ← sliceFrom_isSome (byteLen p.1 + 5)]
        cases sliceTo (byteLen p.1) rest with
        | none => simp
        | some lo =>
          cases sliceFrom (byteLen p.1 + 5) rest with
          | none => simp
          | some hi =>
            simp only [Option.bind_some, Option.isSome_some, and_self, iff_true]
            split
            · rfl
            · rfl

theorem readPart_isSome_iff (read : KeyRead) (part : Text) :
    (readPart C.toCaseMapping rangeKeyName attrNames attrValues read part).isSome = true ↔
      PartClean C part := by
  rw [PartClean, readPart]
  by_cases call : "begins_with(".toList.isPrefixOf (C.toLowercase (RustStr.trim part)) = true ∧
      (RustStr.trim part).getLast? = some ')'
  · have sliced := beginsWithArguments_isSome (C := C) (RustStr.trim part)
    have shape : beginsWithArguments C.toCaseMapping (RustStr.trim part) =
        (slice 12 (byteLen (RustStr.trim part) - 1) (RustStr.trim part)).map some := by
      rw [beginsWithArguments, if_pos call]
    rw [shape, Option.isSome_map] at sliced
    obtain ⟨inner, found⟩ := Option.isSome_iff_exists.mp sliced
    simp only [shape, found]
    exact iff_of_true rfl (.inl call)
  · have shape : beginsWithArguments C.toCaseMapping (RustStr.trim part) = some none := by
      rw [beginsWithArguments, if_neg call]
    simp only [shape, Option.bind_eq_bind, Option.bind_some, call, false_or]
    rw [findKeywordPos_bind_isSome (by decide) betweenKeyword_ascii]
    refine and_congr_right fun _ => ?_
    cases topLevelSplit betweenKeyword 0 (C.toUppercase (RustStr.trim part)) with
    | none => simp
    | some p =>
      simp only [Option.map_some, Option.some.injEq, forall_eq']
      exact readBetween_isSome_iff (byteLen p.1) (RustStr.trim part) read

/-- A fold that can stop at an element for what the element is. -/
theorem foldlM_isSome_iff {α β : Type} {f : β → α → Option β} {p : α → Prop}
    (each : ∀ b a, (f b a).isSome = true ↔ p a) (l : List α) (b : β) :
    (l.foldlM f b).isSome = true ↔ ∀ a ∈ l, p a := by
  induction l generalizing b with
  | nil => simp
  | cons a rest ih =>
    rw [List.foldlM_cons, List.forall_mem_cons, ← each b a]
    cases f b a with
    | none => simp
    | some b' => simpa using ih b'

theorem parseKeyCondition_isSome_iff (expr : String) :
    (parseKeyCondition C.toCaseMapping rangeKeyName attrNames attrValues expr).isSome = true ↔
      KeyConditionClean C (RustStr.trim expr.toList) := by
  have split := splitFromDepth_eq_some_iff 0 0 (RustStr.trim expr.toList)
  rw [parseKeyCondition, KeyConditionClean, splitTopLevelAnd]
  cases cut : splitFromDepth 0 0 (RustStr.trim expr.toList) with
  | none =>
    have unclean : ¬ SplitsClean (RustStr.trim expr.toList) := fun clean => by
      have got := (split _).mpr ⟨clean, rfl⟩
      rw [cut] at got
      cases got
    simp [unclean]
  | some parts =>
    obtain ⟨clean, same⟩ := (split parts).mp cut
    have clean : SplitsClean (RustStr.trim expr.toList) := clean
    rw [Option.bind_some, foldlM_isSome_iff readPart_isSome_iff, same, and_iff_right clean]

end KeyCondition

/-- A text that is scanned: a condition or filter expression, what is left of an update expression behind a
keyword of a clause, or a key condition expression. -/
inductive ScannedText where
  | filter (item : Item) (expression : String) (names : AttrNames) (values : AttrValues)
  | update (input : Text)
  | keyCondition (C : UnicodeCase) (expression rangeKeyName : String) (names : AttrNames) (values : AttrValues)

/-- Every slice that is taken has both ends between characters and within its text: no slice panics. -/
def ScannedText.SlicesCharacters : ScannedText → Prop
  | .filter item expression names values => (evaluateFilterBytes item names values expression).isSome = true
  | .update input => (extractClauseBytes input).isSome = true
  | .keyCondition C expression rangeKeyName names values =>
    (parseKeyConditionBytes C.toCaseMapping rangeKeyName names values expression).isSome = true

/-- A clause of an update expression is clean whatever it is. -/
def ScannedText.Clean : ScannedText → Prop
  | .filter item expression names values =>
    EvaluatesClean item names values (expression.length + 1) (RustStr.trim expression.toList)
  | .update _ => True
  | .keyCondition C expression _ _ _ => KeyConditionClean C (RustStr.trim expression.toList)

/-- The scans take no slice inside a character exactly in the clean texts. -/
theorem slices_characters_iff (s : ScannedText) : s.SlicesCharacters ↔ s.Clean := by
  cases s with
  | filter item expression names values =>
    rw [ScannedText.SlicesCharacters, evaluateFilterBytes_eq]
    exact evaluateFilter_isSome_iff item names values expression
  | update input =>
    rw [ScannedText.SlicesCharacters, extractClauseBytes_eq]
    exact iff_of_true rfl trivial
  | keyCondition C expression rangeKeyName names values =>
    rw [ScannedText.SlicesCharacters, parseKeyConditionBytes_eq]
    exact parseKeyCondition_isSome_iff expression

/-- The case mapping of ASCII keeps every other character, so a front in ASCII comes from one. -/
def asciiUnicodeCase : UnicodeCase where
  toCaseMapping := asciiCaseMapping
  lowercase_ascii_front front text ascii _ _ starts := by
    obtain ⟨behind, whole⟩ := starts
    refine ⟨text.take front.length, ?_, ?_, List.take_prefix _ _⟩
    · have length := congrArg List.length whole
      change (front ++ behind).length = (text.map Char.toLower).length at length
      rw [List.length_append, List.length_map] at length
      rw [List.length_take]
      omega
    · have same : (text.take front.length).map Char.toLower = front := by
        rw [List.map_take]
        change front ++ behind = text.map Char.toLower at whole
        rw [← whole, List.take_left]
      refine List.all_eq_true.mpr fun c member => beq_iff_eq.mpr (ascii_of_toLower ?_)
      have folded : c.toLower ∈ front := same ▸ List.mem_map_of_mem member
      exact beq_iff_eq.mp (List.all_eq_true.mp ascii _ folded)

example : (ScannedText.keyCondition asciiUnicodeCase "pk = :p AND begins_with(sk, :é)" "sk" ∅
    ∅).SlicesCharacters := by
  change (parseKeyConditionBytes _ _ _ _ _).isSome = true
  decide +kernel

/-- In `é = :v` the second byte is the start of a slice. -/
theorem accent_is_sliced : ¬ (ScannedText.filter ∅ "é = :v" ∅ ∅).SlicesCharacters := by
  rw [ScannedText.SlicesCharacters, Bool.not_eq_true]
  decide +kernel

end Openstack.DynamoDb

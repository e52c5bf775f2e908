import Openstack.DynamoDb.KeyConditionSplit

/-!
# Reading key conditions

The key conditions that have an equality on the hash key and at most one condition on the range key, their
text and what they denote, and what the parser makes of the text.
-/
namespace Openstack.DynamoDb

inductive RangeOp where
  | eq
  | lt
  | le
  | gt
  | ge
  deriving DecidableEq, Repr

def RangeOp.cmp : RangeOp → CmpOp
  | eq => .eq
  | lt => .lt
  | le => .le
  | gt => .gt
  | ge => .ge

def RangeOp.condition : RangeOp → AttributeValue → RangeCondition
  | eq => .eq
  | lt => .lt
  | le => .lte
  | gt => .gt
  | ge => .gte

inductive RangeForm where
  | compare (op : RangeOp) (bound : ValueToken)
  | between (lo hi : ValueToken)
  | beginsWith (start : ValueToken)

/-- The condition on the range key. -/
structure RangeClause where
  name : NameToken
  form : RangeForm

/-- The equality on the hash key. -/
structure HashClause where
  name : NameToken
  value : ValueToken

inductive KeyExpr where
  | hash (h : HashClause)
  | both (hashFirst : Bool) (h : HashClause) (r : RangeClause)

def HashClause.atom (h : HashClause) : Atom := .compare h.name .eq h.value

def RangeClause.print (r : RangeClause) : Text :=
  match r.form with
  | .compare op bound => (Atom.compare r.name op.cmp bound).print
  | .between lo hi => r.name.text ++ betweenKeyword ++ lo.text ++ andKeyword ++ hi.text
  | .beginsWith start => (Atom.beginsWith r.name start).print

def KeyExpr.printText : KeyExpr → Text
  | .hash h => h.atom.print
  | .both true h r => h.atom.print ++ andKeyword ++ r.print
  | .both false h r => r.print ++ andKeyword ++ h.atom.print

def KeyExpr.print (e : KeyExpr) : String := String.ofList e.printText

/-- The names are those of the keys, or placeholders for them. -/
def KeyExpr.Names (names : AttrNames) (hashKey rangeKey : String) : KeyExpr → Prop
  | .hash h => resolveName h.name.text names = hashKey
  | .both _ h r => resolveName h.name.text names = hashKey ∧ resolveName r.name.text names = rangeKey

/-- The key string under which the rows of the partition are stored. -/
def HashClause.keyString (values : AttrValues) (h : HashClause) : Option String :=
  avToKeyStr (resolveValue h.value.text values)

/-- Only a string is the start of strings. -/
def RangeClause.denote (values : AttrValues) (r : RangeClause) : Option RangeCondition :=
  match r.form with
  | .compare op bound => some (op.condition (resolveValue bound.text values))
  | .between lo hi => some (.between (resolveValue lo.text values) (resolveValue hi.text values))
  | .beginsWith start =>
    match resolveValue start.text values with
    | .s s => some (.beginsWith s)
    | _ => none

/-- The parser returns the key string and the range condition of the expression. -/
def ParsesRight (C : CaseMapping) (names : AttrNames) (values : AttrValues) (rangeKey : String)
    (e : KeyExpr) : Prop :=
  match e with
  | .hash h => parseKeyCondition C rangeKey names values e.print = some (h.keyString values, none)
  | .both _ h r => ∃ rc, r.denote values = some rc ∧
      parseKeyCondition C rangeKey names values e.print = some (h.keyString values, some rc)

def isBool : AttributeValue → Bool
  | .bool _ => true
  | _ => false

def isString : AttributeValue → Bool
  | .s _ => true
  | _ => false

/-- A comparison in ASCII, or a `begins_with` of a string whose first three characters after the bracket
are in ASCII. -/
def RangeClause.readable (values : AttrValues) (r : RangeClause) : Bool :=
  match r.form with
  | .compare op bound => (Atom.compare r.name op.cmp bound).readable
  | .between _ _ => false
  | .beginsWith start =>
    (Atom.beginsWith r.name start).readable && isString (resolveValue start.text values)

/-- Where both keys are one attribute, the equality is itself read as a range condition, which does no harm
if its value has no key string and the range clause has the last word or says the same. -/
def KeyExpr.ReadRight (values : AttrValues) (hashKey rangeKey : String) : KeyExpr → Prop
  | .hash h => h.atom.readable = true ∧ hashKey ≠ rangeKey ∧ isBool (resolveValue h.value.text values) = false
  | .both hashFirst h r => h.atom.readable = true ∧ r.readable values = true ∧
      (hashKey ≠ rangeKey → isBool (resolveValue h.value.text values) = false) ∧
      (hashKey = rangeKey → h.keyString values = none ∧
        (hashFirst = true ∨ r.denote values = some (.eq (resolveValue h.value.text values))))

def Passes (piece : Text) : Prop :=
  ∀ tail, AsciiFor 4 tail →
    splitFromDepth 0 0 (piece ++ tail) = (splitFromDepth 0 0 tail).map (prependPart piece)

def Stops (piece : Text) : Prop := ∀ tail, splitFromDepth 0 0 (piece ++ tail) = none

/-- The scan passes over the piece or panics in it. -/
def Scanned (piece : Text) (passable : Bool) : Prop := if passable then Passes piece else Stops piece

theorem splitFromDepth_and (rest : Text) :
    splitFromDepth 0 0 (andKeyword ++ rest) = (splitFromDepth 0 0 rest).map ([] :: ·) := by
  have ascii : AsciiFor 5 (andKeyword ++ rest) := by
    intro c mem
    rw [show 5 = andKeyword.length from rfl, List.take_left] at mem
    revert c
    exact forall_mem_of_all (by decide)
  have here : startsWithAnd (andKeyword ++ rest) = true := by
    rw [startsWithAnd, show 5 = andKeyword.length from rfl, List.take_left, beq_self_eq_true]
  have ready := sliceable_of_ascii ascii
  simp only [andKeyword_eq, List.cons_append] at here ready ⊢
  rw [splitFromDepth]
  simp only [show depthAfter 0 ' ' = 0 from rfl, if_pos, ready, here]
  rfl

theorem split_intercalate {pieces : List (Text × Bool)} (nonempty : pieces ≠ [])
    (scanned : ∀ p ∈ pieces, Scanned p.1 p.2) :
    splitFromDepth 0 0 (andKeyword.intercalate (pieces.map (·.1))) =
      if pieces.all (·.2) then some (pieces.map (·.1)) else none := by
  induction pieces with
  | nil => exact absurd rfl nonempty
  | cons p rest ih =>
    obtain ⟨piece, passable⟩ := p
    have first := scanned (piece, passable) (by simp)
    have later := fun more => ih more fun p mem => scanned p (by simp [mem])
    cases rest with
    | nil =>
      rw [List.map_singleton, List.intercalate_singleton, ← List.append_nil piece]
      cases passable with
      | true =>
        have passes : Passes piece := first
        rw [passes [] (by intro c mem; cases mem)]
        simp [splitFromDepth, prependPart]
      | false =>
        have stops : Stops piece := first
        rw [stops []]
        simp
    | cons q others =>
      have later := later (by simp)
      rw [List.map_cons] at later
      rw [List.map_cons, List.map_cons, List.intercalate_cons_cons, List.append_assoc]
      cases passable with
      | true =>
        have passes : Passes piece := first
        have ascii : AsciiFor 4 (andKeyword ++ andKeyword.intercalate (q.1 :: others.map (·.1))) := by
          intro c mem
          rw [List.take_append_of_le_length (by decide)] at mem
          revert c
          exact forall_mem_of_all (by decide)
        rw [passes _ ascii, splitFromDepth_and, later]
        cases every : (q :: others).all (·.2) <;> simp [every, prependPart]
      | false =>
        have stops : Stops piece := first
        rw [stops]
        simp

/-- Text without parentheses is passed if it is in ASCII. -/
theorem scanned_flat {piece : Text} (flat : ∀ c ∈ piece, c ≠ '(' ∧ c ≠ ')')
    (free : ∀ tail, AndFree tail piece) : Scanned piece (piece.all isAscii) := by
  cases all : piece.all isAscii with
  | true =>
    intro tail ascii
    exact splitFromDepth_segment (asciiFor_append (ascii_of_all all) (ascii.mono (by omega))) flat (free tail)
  | false =>
    intro tail
    obtain ⟨c, mem, wide⟩ := List.all_eq_false.mp all
    obtain ⟨front, back, rfl⟩ := List.append_of_mem mem
    have panic : splitFromDepth 0 0 (c :: back ++ tail) = none :=
      splitFromDepth_panic (flat c mem) (not_sliceable_of_wide (by simpa [isAscii] using wide) _)
    rw [List.append_assoc]
    exact splitFromDepth_none (fun x inFront => flat x (by simp [inFront])) (free tail).front panic

theorem compare_flat (name : NameToken) (op : CmpOp) (value : ValueToken) :
    ∀ c ∈ (Atom.compare name op value).print, c ≠ '(' ∧ c ≠ ')' := by
  intro c mem
  simp only [Atom.print, List.mem_append, List.mem_cons] at mem
  rcases mem with inName | rfl | inOp | rfl | inValue
  · exact name.flat c inName
  · decide
  · exact (op.symbol_flat c inOp).2
  · decide
  · exact value.flat c inValue

theorem compare_andFree (name : NameToken) (op : CmpOp) (value : ValueToken) (tail : Text) :
    AndFree tail (Atom.compare name op value).print := by
  have shape : (Atom.compare name op value).print =
      name.text ++ ([' '] ++ (op.symbol ++ ([' '] ++ value.text))) := by simp [Atom.print]
  -- the blanks are followed by the operator and by the colon of the value
  have beforeOp : ∀ t : Text, AndFree (op.symbol ++ t) [' '] := by
    intro t
    cases op <;> exact andFree_blank (by decide)
  have beforeValue : AndFree (value.text ++ tail) [' '] := andFree_blank (by decide)
  rw [shape]
  refine (andFree_word name.noBlank).append (AndFree.append ?_ ?_)
  · rw [List.append_assoc]
    exact beforeOp _
  · exact (andFree_word fun c mem => (op.symbol_flat c mem).1).append
      (beforeValue.append (andFree_word value.noBlank))

theorem compare_all_ascii (name : NameToken) (op : CmpOp) (value : ValueToken) :
    (Atom.compare name op value).print.all isAscii = (Atom.compare name op value).readable := by
  have symbol : op.symbol.all isAscii = true := by cases op <;> rfl
  have blank : isAscii ' ' = true := rfl
  have colon : isAscii ':' = true := rfl
  simp [Atom.print, Atom.readable, ValueToken.text, symbol, blank, colon]

theorem scanned_compare (name : NameToken) (op : CmpOp) (value : ValueToken) :
    Scanned (Atom.compare name op value).print (Atom.compare name op value).readable := by
  rw [← compare_all_ascii]
  exact scanned_flat (compare_flat name op value) (compare_andFree name op value)

/-- The part of a `BETWEEN` in front of its `AND`. -/
def betweenFront (name : NameToken) (lo : ValueToken) : Text := name.text ++ betweenKeyword ++ lo.text

theorem betweenKeyword_eq : betweenKeyword = ' ' :: "BETWEEN ".toList := rfl

theorem betweenFront_flat (name : NameToken) (lo : ValueToken) :
    ∀ c ∈ betweenFront name lo, c ≠ '(' ∧ c ≠ ')' := by
  have keyword : ∀ c ∈ betweenKeyword, c ≠ '(' ∧ c ≠ ')' := forall_mem_of_all (by decide)
  intro c mem
  simp only [betweenFront, List.mem_append] at mem
  rcases mem with (inName | inKeyword) | inValue
  · exact name.flat c inName
  · exact keyword c inKeyword
  · exact lo.flat c inValue

theorem scanned_betweenFront (name : NameToken) (lo : ValueToken) :
    Scanned (betweenFront name lo) (name.text.all isAscii && lo.rest.all isAscii) := by
  have ascii : (betweenFront name lo).all isAscii = (name.text.all isAscii && lo.rest.all isAscii) := by
    have keyword : betweenKeyword.all isAscii = true := rfl
    have colon : isAscii ':' = true := rfl
    simp [betweenFront, ValueToken.text, keyword, colon]
  rw [← ascii]
  refine scanned_flat (betweenFront_flat name lo) fun tail => ?_
  have word : AndFree ([' '] ++ lo.text ++ tail) "BETWEEN".toList :=
    andFree_word (forall_mem_of_all (by decide))
  have beforeWord : AndFree ("BETWEEN".toList ++ ([' '] ++ lo.text) ++ tail) [' '] := andFree_blank (by decide)
  have beforeValue : AndFree (lo.text ++ tail) [' '] := andFree_blank (by decide)
  have behind := word.append (beforeValue.append (andFree_word lo.noBlank))
  have shape : betweenFront name lo = name.text ++ ([' '] ++ ("BETWEEN".toList ++ ([' '] ++ lo.text))) := by
    rw [betweenFront, show betweenKeyword = [' '] ++ ("BETWEEN".toList ++ [' ']) from rfl]
    simp only [List.append_assoc]
  rw [shape]
  exact (andFree_word name.noBlank).append (beforeWord.append behind)

theorem scanned_value (value : ValueToken) : Scanned value.text (value.rest.all isAscii) := by
  have ascii : value.text.all isAscii = value.rest.all isAscii := by
    have colon : isAscii ':' = true := rfl
    simp [ValueToken.text, colon]
  rw [← ascii]
  exact scanned_flat value.flat fun tail => andFree_word value.noBlank

/-- A slice that starts four characters before a character outside ASCII ends inside it. -/
theorem stops_before_wide (seg front : Text) {more tail : Text} {d : Char}
    (flat : ∀ c ∈ seg, c ≠ ' ' ∧ c ≠ '(' ∧ c ≠ ')') (four : front.length = 4) (first : ∀ c ∈ front.head?, c ≠ '(' ∧ c ≠ ')')
    (ascii : ∀ c ∈ front, c.utf8Size = 1) (wide : d.utf8Size ≠ 1) :
    splitFromDepth 0 0 (seg ++ (front ++ d :: more) ++ tail) = none := by
  have cut := not_sliceable_of_inside (more ++ tail) four ascii wide
  have panic : splitFromDepth 0 0 (front ++ d :: (more ++ tail)) = none := by
    cases front with
    | nil => cases four
    | cons c rest => exact splitFromDepth_panic (first c rfl) cut
  have shape : seg ++ (front ++ d :: more) ++ tail = seg ++ (front ++ d :: (more ++ tail)) := by simp
  rw [shape]
  exact splitFromDepth_none (fun c mem => (flat c mem).2) (andFree_word fun c mem => (flat c mem).1) panic

theorem scanned_beginsWith (name : NameToken) (value : ValueToken) :
    Scanned (Atom.beginsWith name value).print (Atom.beginsWith name value).readable := by
  have inName := functionNames_flat "begins_with" (by decide)
  cases ok : (Atom.beginsWith name value).readable with
  | true =>
    intro tail ascii
    have inner : AsciiFor 3 (twoArgs name value ++ ')' :: tail) := by
      refine asciiFor_take_append (ascii_of_all ok) ?_
      exact asciiFor_append (a := [')']) (forall_mem_of_all (by decide)) (ascii.mono (by simp))
    have opened : AsciiFor 4 ('(' :: (twoArgs name value ++ ')' :: tail)) :=
      asciiFor_append (a := ['(']) (forall_mem_of_all (by decide)) inner
    have bracket : splitFromDepth 0 0 ('(' :: (twoArgs name value ++ ')' :: tail)) =
        (splitFromDepth 0 0 tail).map (prependPart ('(' :: (twoArgs name value ++ [')']))) := by
      rw [splitFromDepth]
      simp only [show depthAfter 0 '(' = 1 from rfl, if_neg (show ¬ (1 : Int) = 0 by decide),
        splitFromDepth_inside (twoArgs_flat name value) ascii, map_prependPart]
      rfl
    have shape : (Atom.beginsWith name value).print ++ tail =
        "begins_with".toList ++ '(' :: (twoArgs name value ++ ')' :: tail) := by simp [Atom.print, call]
    have whole : AsciiFor ("begins_with".toList.length + 4)
        ("begins_with".toList ++ '(' :: (twoArgs name value ++ ')' :: tail)) :=
      asciiFor_append (fun c mem => (inName c mem).1) (opened.mono (by omega))
    rw [shape, splitFromDepth_segment whole (fun c mem => (inName c mem).2.2)
      (andFree_word fun c mem => (inName c mem).2.1), bracket, map_prependPart]
    rfl
  | false =>
    intro tail
    obtain ⟨a, b, c, more, args⟩ : ∃ a b c more, twoArgs name value = a :: b :: c :: more := by
      rcases shape : name.text with _ | ⟨a, _ | ⟨b, _ | ⟨c, more⟩⟩⟩
      · exact absurd shape name.nonempty
      · exact ⟨a, ',', ' ', _, by rw [twoArgs, shape]; rfl⟩
      · exact ⟨a, b, ',', _, by rw [twoArgs, shape]; rfl⟩
      · exact ⟨a, b, c, _, by rw [twoArgs, shape]; rfl⟩
    have text : (Atom.beginsWith name value).print =
        "begins_with".toList ++ '(' :: a :: b :: c :: (more ++ [')']) := by
      rw [Atom.print, call, args]
      rfl
    rw [Atom.readable, args] at ok
    simp only [List.take_succ_cons, List.take_zero, List.all_cons, List.all_nil, Bool.and_true,
      Bool.and_eq_false_iff, isAscii, beq_eq_false_iff_ne] at ok
    have asciiFront : ∀ front back : Text, (∀ x ∈ front, x.utf8Size = 1) → (∀ x ∈ back, x.utf8Size = 1) →
        ∀ x ∈ front ++ back, x.utf8Size = 1 :=
      fun front back inFront inBack => List.forall_mem_append.mpr ⟨inFront, inBack⟩
    rw [text]
    by_cases wideA : a.utf8Size = 1
    · by_cases wideB : b.utf8Size = 1
      · have wide : c.utf8Size ≠ 1 := (ok.resolve_left (· wideA)).resolve_left (· wideB)
        exact stops_before_wide "begins_wit".toList ['h', '(', a, b] (forall_mem_of_all (by decide)) rfl (by simp)
          (asciiFront ['h', '('] [a, b] (forall_mem_of_all (by decide)) (by simp [wideA, wideB])) wide
      · exact stops_before_wide "begins_wi".toList ['t', 'h', '(', a] (forall_mem_of_all (by decide)) rfl (by simp)
          (asciiFront ['t', 'h', '('] [a] (forall_mem_of_all (by decide)) (by simp [wideA])) wideB
    · exact stops_before_wide "begins_w".toList ['i', 't', 'h', '('] (forall_mem_of_all (by decide)) rfl
        (by simp) (forall_mem_of_all (by decide)) wideA

/-- The parts at which the splitter cuts, and whether it comes past each. A `BETWEEN` is cut at its `AND`. -/
@[grind] def RangeClause.pieces (r : RangeClause) : List (Text × Bool) :=
  match r.form with
  | .compare op bound =>
    [((Atom.compare r.name op.cmp bound).print, (Atom.compare r.name op.cmp bound).readable)]
  | .between lo hi =>
    [(betweenFront r.name lo, r.name.text.all isAscii && lo.rest.all isAscii), (hi.text, hi.rest.all isAscii)]
  | .beginsWith start => [((Atom.beginsWith r.name start).print, (Atom.beginsWith r.name start).readable)]

def HashClause.piece (h : HashClause) : Text × Bool := (h.atom.print, h.atom.readable)

@[grind] def KeyExpr.pieces : KeyExpr → List (Text × Bool)
  | .hash h => [h.piece]
  | .both true h r => h.piece :: r.pieces
  | .both false h r => r.pieces ++ [h.piece]

theorem RangeClause.scanned (r : RangeClause) : ∀ p ∈ r.pieces, Scanned p.1 p.2 := by
  obtain ⟨name, form⟩ := r
  intro p mem
  cases form with
  | compare op bound =>
    cases List.mem_singleton.mp mem
    exact scanned_compare name op.cmp bound
  | between lo hi =>
    rcases List.mem_pair.mp mem with rfl | rfl
    · exact scanned_betweenFront name lo
    · exact scanned_value hi
  | beginsWith start =>
    cases List.mem_singleton.mp mem
    exact scanned_beginsWith name start

theorem RangeClause.print_eq (r : RangeClause) : r.print = andKeyword.intercalate (r.pieces.map (·.1)) := by
  obtain ⟨name, form⟩ := r
  cases form with
  | compare op bound => rw [pieces, List.map_singleton, List.intercalate_singleton, print]
  | between lo hi =>
    rw [pieces, List.map_cons, List.map_singleton, List.intercalate_cons_cons, List.intercalate_singleton,
      print, betweenFront]
  | beginsWith start => rw [pieces, List.map_singleton, List.intercalate_singleton, print]

theorem KeyExpr.scanned (e : KeyExpr) : ∀ p ∈ e.pieces, Scanned p.1 p.2 := by
  have equality : ∀ h : HashClause, Scanned h.piece.1 h.piece.2 := fun h => scanned_compare h.name .eq h.value
  intro p mem
  cases e with
  | hash h =>
    cases List.mem_singleton.mp mem
    exact equality h
  | both hashFirst h r =>
    cases hashFirst with
    | true =>
      rcases List.mem_cons.mp mem with rfl | inRange
      · exact equality h
      · exact r.scanned p inRange
    | false =>
      rcases List.mem_append.mp mem with inRange | inHash
      · exact r.scanned p inRange
      · cases List.mem_singleton.mp inHash
        exact equality h

theorem intercalate_append_singleton {sep : Text} {parts : List Text} (nonempty : parts ≠ []) (last : Text) :
    sep.intercalate (parts ++ [last]) = sep.intercalate parts ++ sep ++ last := by
  induction parts with
  | nil => exact absurd rfl nonempty
  | cons p rest ih =>
    cases rest with
    | nil => simp [List.intercalate_cons_cons]
    | cons q others =>
      have later := ih (by simp)
      rw [List.cons_append] at later
      rw [List.cons_append, List.cons_append, List.intercalate_cons_cons, later, List.intercalate_cons_cons]
      simp only [List.append_assoc]

theorem RangeClause.pieces_ne_nil (r : RangeClause) : r.pieces ≠ [] := by
  obtain ⟨name, form⟩ := r
  cases form <;> simp [pieces]

theorem KeyExpr.printText_eq (e : KeyExpr) : e.printText = andKeyword.intercalate (e.pieces.map (·.1)) := by
  cases e with
  | hash h => rw [pieces, List.map_singleton, List.intercalate_singleton, printText, HashClause.piece]
  | both hashFirst h r =>
    cases hashFirst with
    | true =>
      rw [pieces, printText, r.print_eq, List.map_cons]
      cases shape : r.pieces with
      | nil => exact absurd shape r.pieces_ne_nil
      | cons q others => rw [List.map_cons, List.intercalate_cons_cons, HashClause.piece]
    | false =>
      rw [pieces, printText, r.print_eq, List.map_append, List.map_singleton,
        intercalate_append_singleton (by simp [r.pieces_ne_nil]), HashClause.piece]

theorem KeyExpr.split_printText (e : KeyExpr) :
    splitTopLevelAnd e.printText =
      if e.pieces.all (·.2) then some (e.pieces.map (·.1)) else none := by
  have nonempty : e.pieces ≠ [] := by
    cases e with
    | hash h => simp [pieces]
    | both hashFirst h r => cases hashFirst <;> simp [pieces]
  rw [splitTopLevelAnd, e.printText_eq, split_intercalate nonempty e.scanned]

end Openstack.DynamoDb

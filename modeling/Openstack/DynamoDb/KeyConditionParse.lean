import Openstack.DynamoDb.KeyConditionReading
import Openstack.DynamoDb.TransactWrite

/-!
# What key conditions are parsed to

Each part of a key condition is read to what it says, except that the two parts of a `BETWEEN` say nothing to
the parser.
-/
namespace Openstack.DynamoDb

variable {r : RangeClause} {h : HashClause} {value : ValueToken} {hashFirst : Bool}

variable {C : CaseMapping} {rangeKey : String} {names : AttrNames} {values : AttrValues} {part : Text}

theorem not_mem_map_toUpper {d : Char} (plain : d.isAlpha = false) (absent : ∀ c ∈ part, c ≠ d) :
    ∀ c ∈ part.map Char.toUpper, c ≠ d := by
  intro c mem same
  obtain ⟨x, inPart, rfl⟩ := List.mem_map.mp mem
  exact absent x inPart (eq_of_toUpper same plain)

theorem map_toUpper_flat (flat : ∀ c ∈ part, c ≠ '(' ∧ c ≠ ')') :
    ∀ c ∈ part.map Char.toUpper, c ≠ '(' ∧ c ≠ ')' := fun c mem =>
  ⟨not_mem_map_toUpper (by decide) (fun x inPart => (flat x inPart).1) c mem,
    not_mem_map_toUpper (by decide) (fun x inPart => (flat x inPart).2) c mem⟩

theorem map_toUpper_ascii (ascii : ∀ c ∈ part, c.utf8Size = 1) :
    ∀ c ∈ part.map Char.toUpper, c.utf8Size = 1 := by
  intro c mem
  obtain ⟨x, inPart, rfl⟩ := List.mem_map.mp mem
  exact toUpper_ascii (ascii x inPart)

theorem asciiFor_of_all {n : Nat} (ascii : ∀ c ∈ part, c.utf8Size = 1) : AsciiFor n part :=
  fun c mem => ascii c (List.mem_of_mem_take mem)

/-- A part without an opening bracket is no call. -/
theorem beginsWithArguments_flat (ascii : part.all isAscii = true) (flat : ∀ c ∈ part, c ≠ '(' ∧ c ≠ ')') :
    beginsWithArguments C part = some none := by
  rw [beginsWithArguments, if_neg]
  rintro ⟨here, _⟩
  rw [C.lowercase_ascii part ascii, List.isPrefixOf_iff_prefix] at here
  have bracket : '(' ∈ part.map Char.toLower := here.subset (by decide)
  obtain ⟨c, mem, folded⟩ := List.mem_map.mp bracket
  exact (flat c mem).1 (eq_of_toLower folded (by decide))

theorem findKeywordPos_none {word : Text} (ascii : ∀ c ∈ part, c.utf8Size = 1)
    (flat : ∀ c ∈ part, c ≠ '(' ∧ c ≠ ')') (blanks : BlanksSafe word [] part) :
    findKeywordPos part (' ' :: word) = some none := by
  have asciiFor : AsciiFor (part.length + word.length) (part ++ []) := by
    rw [List.append_nil]
    exact asciiFor_of_all ascii
  have scanned := findTopLevel_segment asciiFor flat blanks
  rw [List.append_nil] at scanned
  rw [findKeywordPos, scanned]
  rfl

/-- A tight part in ASCII without brackets and without a `BETWEEN` is searched for operators. -/
theorem readPart_plain (tight : Tight part) (ascii : part.all isAscii = true)
    (flat : ∀ c ∈ part, c ≠ '(' ∧ c ≠ ')')
    (blanks : BlanksSafe "BETWEEN ".toList [] (part.map Char.toUpper)) (read : KeyRead) :
    readPart C rangeKey names values read part =
      some (readComparison rangeKey names values part read keyOperators) := by
  have absent := findKeywordPos_none (map_toUpper_ascii (ascii_of_all ascii)) (map_toUpper_flat flat) blanks
  rw [← betweenKeyword_eq] at absent
  simp only [readPart, tight.trim, beginsWithArguments_flat ascii flat, C.uppercase_ascii part ascii, absent,
    Option.bind_eq_bind, Option.bind_some]
  rfl

theorem compare_blanksSafe (name : NameToken) (op : CmpOp) (value : ValueToken) :
    BlanksSafe "BETWEEN ".toList [] ((Atom.compare name op value).print.map Char.toUpper) := by
  have upperName : ∀ c ∈ name.text.map Char.toUpper, c ≠ ' ' := not_mem_map_toUpper (by decide) name.noBlank
  have upperValue : ∀ c ∈ value.text.map Char.toUpper, c ≠ ' ' := not_mem_map_toUpper (by decide) value.noBlank
  have symbol : op.symbol.map Char.toUpper = op.symbol := by cases op <;> rfl
  have shape : (Atom.compare name op value).print.map Char.toUpper =
      name.text.map Char.toUpper ++ ' ' :: (op.symbol ++ ' ' :: value.text.map Char.toUpper) := by
    rw [Atom.print, List.map_append, List.map_cons, List.map_append, List.map_cons, symbol]
    rfl
  rw [shape]
  refine blanksSafe_append (blanksSafe_word upperName) ⟨fun _ => ?_, ?_⟩
  · cases op <;> rfl
  · refine blanksSafe_append (blanksSafe_word fun c mem => (op.symbol_flat c mem).1) ⟨fun _ => ?_, ?_⟩
    · rfl
    · exact blanksSafe_word upperValue

theorem compare_tight (name : NameToken) (op : CmpOp) (value : ValueToken) :
    Tight (Atom.compare name op value).print := by
  have whole := name.tight.append (' ' :: (op.symbol ++ [' '])) value.tight
  simpa [Atom.print] using whole

/-- The search for operators finds the one of the comparison. -/
theorem readComparison_print (name : NameToken) {op : CmpOp} (value : ValueToken) (ordered : op ≠ .ne)
    (read : KeyRead) :
    readComparison rangeKey names values (Atom.compare name op value).print read keyOperators =
      readOperator rangeKey op (resolveName name.text names) (resolveValue value.text values) read := by
  obtain ⟨found, rest⟩ := before_own_symbol name op value
  have earlier := before_earlier_symbol name op value
  have own : ∀ later,
      readComparison rangeKey names values (Atom.compare name op value).print read (op :: later) =
        readOperator rangeKey op (resolveName name.text names) (resolveValue value.text values) read := by
    intro later
    simp only [readComparison, found, rest, name.tight.trim_blank_after, value.tight.trim_blank_before]
  have skip : ∀ other later, CmpOp.all.idxOf other < CmpOp.all.idxOf op →
      readComparison rangeKey names values (Atom.compare name op value).print read (other :: later) =
        readComparison rangeKey names values (Atom.compare name op value).print read later := by
    intro other later before
    simp only [readComparison, earlier other before]
  unfold keyOperators
  cases op with
  | ne => exact absurd rfl ordered
  | le => exact own _
  | ge => rw [skip .le _ (by decide), own]
  | lt => rw [skip .le _ (by decide), skip .ge _ (by decide), skip .ne _ (by decide), own]
  | gt =>
    rw [skip .le _ (by decide), skip .ge _ (by decide), skip .ne _ (by decide), skip .lt _ (by decide), own]
  | eq =>
    rw [skip .le _ (by decide), skip .ge _ (by decide), skip .ne _ (by decide), skip .lt _ (by decide),
      skip .gt _ (by decide), own]

theorem readPart_compare {name : NameToken} {op : CmpOp} (ordered : op ≠ .ne)
    (readable : (Atom.compare name op value).readable = true) (read : KeyRead) :
    readPart C rangeKey names values read (Atom.compare name op value).print =
      some (readOperator rangeKey op (resolveName name.text names) (resolveValue value.text values) read) := by
  have ascii : (Atom.compare name op value).print.all isAscii = true := by rw [compare_all_ascii, readable]
  rw [readPart_plain (compare_tight name op value) ascii (compare_flat name op value)
    (compare_blanksSafe name op value), readComparison_print name value ordered]

theorem beginsWithArguments_call (args : Text) :
    beginsWithArguments C (call "begins_with" args) = some (some args) := by
  have shape : call "begins_with" args = "begins_with(".toList ++ args ++ [')'] := by simp [call]
  have here : "begins_with(".toList.isPrefixOf (C.toLowercase (call "begins_with" args)) = true := by
    have front := C.lowercase_front "begins_with(".toList (args ++ [')']) (by decide)
    rw [← List.append_assoc, ← shape] at front
    exact List.isPrefixOf_iff_prefix.mpr front
  have last : (call "begins_with" args).getLast? = some ')' := by rw [shape, List.getLast?_concat]
  have length : byteLen (call "begins_with" args) - 1 = byteLen ("begins_with(".toList ++ args) := by
    have closing : byteLen [')'] = 1 := rfl
    rw [shape]
    simp only [byteLen, List.map_append, List.sum_append] at closing ⊢
    omega
  have long : 12 ≤ byteLen ("begins_with(".toList ++ args) := by
    have front : byteLen "begins_with(".toList = 12 := by decide
    simp only [byteLen, List.map_append, List.sum_append] at front ⊢
    omega
  have inner : slice 12 (byteLen (call "begins_with" args) - 1) (call "begins_with" args) = some args := by
    rw [length, slice, if_pos long, shape, sliceTo, splitAtByte_byteLen, Option.map_some, Option.bind_some,
      sliceFrom, show 12 = "begins_with(".toList.length from rfl,
      splitAtByte_ascii (forall_mem_of_all (by decide))]
    rfl
  rw [beginsWithArguments, if_pos ⟨here, last⟩, inner]
  rfl

theorem readPart_beginsWith (name : NameToken) (value : ValueToken) (read : KeyRead) :
    readPart C rangeKey names values read (Atom.beginsWith name value).print =
      some (readBeginsWith rangeKey names values (twoArgs name value) read) := by
  have tight : Tight (Atom.beginsWith name value).print := tight_call (by decide) _
  have arguments : beginsWithArguments C (Atom.beginsWith name value).print =
      some (some (twoArgs name value)) := beginsWithArguments_call _
  simp only [readPart, tight.trim, arguments, Option.bind_eq_bind, Option.bind_some]
  rfl

theorem readBeginsWith_twoArgs (name : NameToken) {start : String}
    (bound : resolveValue value.text values = .s start) (read : KeyRead) :
    readBeginsWith rangeKey names values (twoArgs name value) read =
      if resolveName name.text names = rangeKey then (read.1, some (.beginsWith start)) else read := by
  have noComma : ',' ∉ name.text := fun mem => (plainChar_ne (name.plain ',' mem)).2.2.2.1 rfl
  have cut : RustStr.splitn ',' 2 (twoArgs name value) = [name.text, ' ' :: value.text] :=
    RustStr.splitn_append noComma 0 (' ' :: value.text)
  simp only [readBeginsWith, cut, name.tight.trim, value.tight.trim_blank_before, bound]

/-- No `AND` is left behind the `BETWEEN`. -/
theorem readPart_betweenFront {name : NameToken} {lo : ValueToken} (asciiName : name.text.all isAscii = true)
    (asciiLo : lo.rest.all isAscii = true) (read : KeyRead) :
    readPart C rangeKey names values read (betweenFront name lo) = some read := by
  have asciiName' := ascii_of_all asciiName
  have asciiLo' : lo.text.all isAscii = true := by
    rw [ValueToken.text, List.all_cons, asciiLo]
    rfl
  have ascii : (betweenFront name lo).all isAscii = true := by
    rw [betweenFront, List.all_append, List.all_append, asciiName, asciiLo']
    rfl
  have tight : Tight (betweenFront name lo) := name.tight.append betweenKeyword lo.tight
  have upperName : ∀ c ∈ name.text.map Char.toUpper, c ≠ ' ' := not_mem_map_toUpper (by decide) name.noBlank
  have upperLo : ∀ c ∈ lo.text.map Char.toUpper, c ≠ ' ' := not_mem_map_toUpper (by decide) lo.noBlank
  have length : byteLen (name.text.map Char.toUpper) = name.text.length := by
    rw [byteLen_of_ascii (map_toUpper_ascii asciiName'), List.length_map]
  have found : findKeywordPos (C.toUppercase (betweenFront name lo)) betweenKeyword =
      some (some name.text.length) := by
    have shape : (betweenFront name lo).map Char.toUpper =
        name.text.map Char.toUpper ++ (betweenKeyword ++ lo.text.map Char.toUpper) := by
      rw [betweenFront, List.map_append, List.map_append, List.append_assoc]
      rfl
    have whole : ∀ c ∈ (betweenFront name lo).map Char.toUpper, c.utf8Size = 1 :=
      map_toUpper_ascii (ascii_of_all ascii)
    rw [shape] at whole
    have blanks : BlanksSafe "BETWEEN ".toList (betweenKeyword ++ lo.text.map Char.toUpper)
        (name.text.map Char.toUpper) := blanksSafe_word upperName
    have scanned := findTopLevel_segment (asciiFor_of_all whole) (map_toUpper_flat name.flat) blanks
    have here : findTopLevel betweenKeyword 0 (betweenKeyword ++ lo.text.map Char.toUpper) =
        some (some ([], lo.text.map Char.toUpper)) :=
      findTopLevel_here (forall_mem_of_all (by decide)) (by decide)
        (List.isPrefixOf_iff_prefix.mpr (List.prefix_append betweenKeyword _))
    rw [← betweenKeyword_eq, here] at scanned
    rw [C.uppercase_ascii _ ascii, shape, findKeywordPos, scanned, prepend, Option.map_some, Option.map_some,
      Option.map_some, Option.map_some, List.append_nil, length]
  have lhs : sliceTo name.text.length (betweenFront name lo) = some name.text := by
    rw [betweenFront, List.append_assoc, sliceTo, splitAtByte_ascii asciiName', Option.map_some]
  have rest : sliceFrom (name.text.length + 9) (betweenFront name lo) = some lo.text := by
    have front : ∀ c ∈ name.text ++ betweenKeyword, c.utf8Size = 1 :=
      List.forall_mem_append.mpr ⟨asciiName', forall_mem_of_all (by decide)⟩
    have size : (name.text ++ betweenKeyword).length = name.text.length + 9 := by
      rw [List.length_append]
      rfl
    rw [betweenFront, sliceFrom, ← size, splitAtByte_ascii front, Option.map_some]
  have noAnd : findKeywordPos (C.toUppercase lo.text) andKeyword = some none := by
    rw [C.uppercase_ascii _ asciiLo', andKeyword_eq]
    exact findKeywordPos_none (map_toUpper_ascii (ascii_of_all asciiLo')) (map_toUpper_flat lo.flat)
      (blanksSafe_word upperLo)
  simp only [readPart, tight.trim, beginsWithArguments_flat ascii (betweenFront_flat name lo), found,
    readBetween, lhs, rest, noAnd, Option.bind_eq_bind, Option.bind_some]
  rfl

/-- The upper bound stands alone and holds no operator. -/
theorem readPart_value (ascii : value.rest.all isAscii = true) (read : KeyRead) :
    readPart C rangeKey names values read value.text = some read := by
  have ascii' : value.text.all isAscii = true := by
    rw [ValueToken.text, List.all_cons, ascii]
    rfl
  have upper : ∀ c ∈ value.text.map Char.toUpper, c ≠ ' ' := not_mem_map_toUpper (by decide) value.noBlank
  have absent : ∀ op : CmpOp, RustStr.before op.symbol value.text = none := by
    intro op
    obtain ⟨p, ps, eq, symbol⟩ := op.symbol_cons
    rw [eq]
    exact KeywordSearch.before_none_of_absent List.mem_cons_self (value.symbol_not_mem symbol)
  have nothing : ∀ ops, readComparison rangeKey names values value.text read ops = read := by
    intro ops
    induction ops with
    | nil => rfl
    | cons op rest ih => simp only [readComparison, absent op, ih]
  rw [readPart_plain value.tight ascii' value.flat (blanksSafe_word upper), nothing]

theorem RangeClause.tight (r : RangeClause) : Tight r.print := by
  obtain ⟨name, form⟩ := r
  cases form with
  | compare op bound => exact compare_tight name op.cmp bound
  | between lo hi =>
    have whole := name.tight.append (betweenKeyword ++ lo.text ++ andKeyword) hi.tight
    simpa only [print, List.append_assoc] using whole
  | beginsWith start => exact tight_call (by decide) _

theorem KeyExpr.tight (e : KeyExpr) : Tight e.printText := by
  have equality : ∀ h : HashClause, Tight h.atom.print := fun h => compare_tight h.name .eq h.value
  cases e with
  | hash h => exact equality h
  | both hashFirst h r =>
    cases hashFirst with
    | true => exact (equality h).append andKeyword r.tight
    | false => exact r.tight.append andKeyword (equality h)

theorem parseKeyCondition_print (e : KeyExpr) :
    parseKeyCondition C rangeKey names values e.print =
      if e.pieces.all (·.2) then
        (e.pieces.map (·.1)).foldlM (readPart C rangeKey names values) (none, none)
      else none := by
  rw [parseKeyCondition, KeyExpr.print, String.toList_ofList, e.tight.trim, e.split_printText]
  cases e.pieces.all (·.2) <;> rfl

/-- An equality on the range key's name is a range condition, any other one the hash condition. -/
def HashClause.read (values : AttrValues) (hashKey rangeKey : String) (h : HashClause) (read : KeyRead) :
    KeyRead :=
  if hashKey = rangeKey then (read.1, some (.eq (resolveValue h.value.text values)))
  else (avToString (resolveValue h.value.text values), read.2)

theorem HashClause.readPart_piece (readable : h.atom.readable = true) (read : KeyRead) :
    readPart C rangeKey names values read h.piece.1 =
      some (h.read values (resolveName h.name.text names) rangeKey read) :=
  readPart_compare (by decide) readable read

theorem readOperator_range (op : RangeOp) (bound : AttributeValue) (read : KeyRead) :
    readOperator rangeKey op.cmp rangeKey bound read = (read.1, some (op.condition bound)) := by
  cases op <;> simp only [RangeOp.cmp, RangeOp.condition, readOperator, if_pos]

/-- A readable clause is read to what it denotes. -/
theorem RangeClause.read_of_readable (readable : r.readable values = true)
    (named : resolveName r.name.text names = rangeKey) :
    ∃ rc, r.denote values = some rc ∧ r.pieces.all (·.2) = true ∧
      ∀ read, (r.pieces.map (·.1)).foldlM (readPart C rangeKey names values) read =
        some (read.1, some rc) := by
  obtain ⟨name, form⟩ := r
  cases form with
  | compare op bound =>
    have ordered : op.cmp ≠ .ne := by cases op <;> decide
    refine ⟨op.condition (resolveValue bound.text values), rfl, ?_, fun read => ?_⟩
    · rw [pieces, List.all_cons, List.all_nil, Bool.and_true]
      exact readable
    · rw [pieces, List.map_singleton, List.foldlM_cons, readPart_compare ordered readable, named,
        readOperator_range]
      rfl
  | between lo hi => cases readable
  | beginsWith start =>
    rw [RangeClause.readable, Bool.and_eq_true] at readable
    cases value : resolveValue start.text values with
    | s text =>
      refine ⟨.beginsWith text, ?_, ?_, fun read => ?_⟩
      · simp only [denote, value]
      · rw [pieces, List.all_cons, List.all_nil, Bool.and_true]
        exact readable.1
      · rw [pieces, List.map_singleton, List.foldlM_cons, readPart_beginsWith,
          readBeginsWith_twoArgs name value, if_pos named]
        rfl
    | n | b | bool | null | ss | ns | bs | l | m =>
      have second := readable.2
      rw [value] at second
      cases second

/-- What denotes a condition and can be scanned, and is not readable, is a `BETWEEN`, which is read to
nothing. -/
theorem RangeClause.read_of_unreadable {rc : RangeCondition}
    (unreadable : r.readable values = false) (denotes : r.denote values = some rc) (passable : r.pieces.all (·.2) = true) :
    (∃ lo hi, rc = .between lo hi) ∧
      ∀ read, (r.pieces.map (·.1)).foldlM (readPart C rangeKey names values) read = some read := by
  obtain ⟨name, form⟩ := r
  cases form with
  | compare op bound =>
    rw [pieces, List.all_cons, List.all_nil, Bool.and_true] at passable
    exact absurd (passable.symm.trans unreadable) (by decide)
  | between lo hi =>
    simp only [pieces, List.all_cons, List.all_nil, Bool.and_true, Bool.and_eq_true] at passable
    refine ⟨⟨_, _, (Option.some.inj denotes).symm⟩, fun read => ?_⟩
    rw [pieces, List.map_cons, List.map_singleton, List.foldlM_cons,
      readPart_betweenFront passable.1.1 passable.1.2, Option.bind_eq_bind, Option.bind_some, List.foldlM_cons,
      readPart_value passable.2]
    rfl
  | beginsWith start =>
    rw [pieces, List.all_cons, List.all_nil, Bool.and_true] at passable
    have scanned : (Atom.beginsWith name start).readable = true := passable
    simp only [RangeClause.readable, scanned, Bool.true_and] at unreadable
    cases value : resolveValue start.text values with
    | s text =>
      rw [value] at unreadable
      cases unreadable
    | n | b | bool | null | ss | ns | bs | l | m =>
      simp only [denote, value] at denotes
      cases denotes

theorem avToString_eq_iff (v : AttributeValue) : avToString v = avToKeyStr v ↔ isBool v = false := by
  cases v <;> simp [avToString, avToKeyStr, isBool]

theorem parseKeyCondition_hash (h : HashClause) :
    parseKeyCondition C rangeKey names values (KeyExpr.hash h).print =
      if h.atom.readable then some (h.read values (resolveName h.name.text names) rangeKey (none, none))
      else none := by
  rw [parseKeyCondition_print, KeyExpr.pieces, List.all_cons, List.all_nil, Bool.and_true]
  cases readable : h.atom.readable with
  | true =>
    rw [HashClause.piece, readable, if_pos rfl, if_pos rfl, List.map_singleton, List.foldlM_cons]
    have first : readPart C rangeKey names values (none, none) h.atom.print =
        some (h.read values (resolveName h.name.text names) rangeKey (none, none)) :=
      HashClause.readPart_piece readable (none, none)
    rw [first]
    rfl
  | false => rw [HashClause.piece, readable, if_neg Bool.false_ne_true, if_neg Bool.false_ne_true]

theorem both_all (hashFirst : Bool) (h : HashClause) (r : RangeClause) :
    (KeyExpr.both hashFirst h r).pieces.all (·.2) = (h.atom.readable && r.pieces.all (·.2)) := by
  cases hashFirst with
  | true => rw [KeyExpr.pieces, List.all_cons, HashClause.piece]
  | false =>
    rw [KeyExpr.pieces, List.all_append, List.all_cons, List.all_nil, Bool.and_true, HashClause.piece,
      Bool.and_comm]

/-- The clauses are read one after the other. -/
theorem parseKeyCondition_both
    {change : KeyRead → KeyRead} (readable : h.atom.readable = true) (passable : r.pieces.all (·.2) = true)
    (reads : ∀ read, (r.pieces.map (·.1)).foldlM (readPart C rangeKey names values) read = some (change read)) :
    parseKeyCondition C rangeKey names values (KeyExpr.both hashFirst h r).print =
      some (if hashFirst then change (h.read values (resolveName h.name.text names) rangeKey (none, none))
        else h.read values (resolveName h.name.text names) rangeKey (change (none, none))) := by
  rw [parseKeyCondition_print, both_all, readable, passable, Bool.and_self, if_pos rfl]
  cases hashFirst with
  | true =>
    rw [KeyExpr.pieces, List.map_cons, List.foldlM_cons, HashClause.readPart_piece readable,
      Option.bind_eq_bind, Option.bind_some, reads, if_pos rfl]
  | false =>
    rw [KeyExpr.pieces, List.map_append, List.foldlM_append, reads, Option.bind_eq_bind, Option.bind_some,
      List.map_singleton, List.foldlM_cons, HashClause.readPart_piece readable, if_neg Bool.false_ne_true]
    rfl

theorem hash_parsesRight_iff {hashKey : String} (h : HashClause)
    (named : resolveName h.name.text names = hashKey) :
    ParsesRight C names values rangeKey (.hash h) ↔ (KeyExpr.hash h).ReadRight values hashKey rangeKey := by
  rw [ParsesRight, parseKeyCondition_hash, named, KeyExpr.ReadRight, HashClause.keyString]
  by_cases readable : h.atom.readable = true
  · rw [if_pos readable, HashClause.read]
    by_cases same : hashKey = rangeKey
    · simp [same]
    · rw [if_neg same, Option.some.injEq, Prod.mk.injEq, avToString_eq_iff]
      simp [readable, same]
  · rw [if_neg readable]
    simp [readable]

theorem both_parsesRight_of_readable {hashKey : String} (hashNamed : resolveName h.name.text names = hashKey)
    (rangeNamed : resolveName r.name.text names = rangeKey) (readable : h.atom.readable = true) (rangeReadable : r.readable values = true) :
    ParsesRight C names values rangeKey (.both hashFirst h r) ↔
      (KeyExpr.both hashFirst h r).ReadRight values hashKey rangeKey := by
  obtain ⟨rc, denotes, passable, reads⟩ := RangeClause.read_of_readable (C := C) rangeReadable rangeNamed
  have parsed : parseKeyCondition C rangeKey names values (KeyExpr.both hashFirst h r).print = _ :=
    parseKeyCondition_both readable passable reads
  rw [hashNamed] at parsed
  have right : ParsesRight C names values rangeKey (.both hashFirst h r) ↔
      parseKeyCondition C rangeKey names values (KeyExpr.both hashFirst h r).print =
        some (h.keyString values, some rc) := by
    simp [ParsesRight, denotes]
  rw [right, parsed, Option.some.injEq, KeyExpr.ReadRight, HashClause.keyString, HashClause.read,
    HashClause.read, denotes]
  by_cases same : hashKey = rangeKey
  · -- one attribute: the equality sets the range condition, and the key string stays empty
    have absent := @eq_comm _ none (avToKeyStr (resolveValue h.value.text values))
    have twice := @eq_comm _ (RangeCondition.eq (resolveValue h.value.text values)) rc
    cases hashFirst with
    | true => simp [same, readable, rangeReadable, absent]
    | false => simp [same, readable, rangeReadable, absent, twice]
  · have keyString := avToString_eq_iff (resolveValue h.value.text values)
    cases hashFirst with
    | true => simp [same, readable, rangeReadable, keyString]
    | false => simp [same, readable, rangeReadable, keyString]

theorem both_not_parsesRight (unreadable : h.atom.readable = false ∨ r.readable values = false) :
    ¬ ParsesRight C names values rangeKey (.both hashFirst h r) := by
  rintro ⟨rc, denotes, parsed⟩
  have all : (KeyExpr.both hashFirst h r).pieces.all (·.2) = true := by
    by_contra stopped
    rw [parseKeyCondition_print, if_neg stopped] at parsed
    cases parsed
  rw [both_all, Bool.and_eq_true] at all
  have rangeUnreadable : r.readable values = false := unreadable.resolve_left (by simp [all.1])
  obtain ⟨⟨lo, hi, between⟩, reads⟩ := r.read_of_unreadable rangeUnreadable denotes all.2
  have unchanged : parseKeyCondition C rangeKey names values (KeyExpr.both hashFirst h r).print =
      some (h.read values (resolveName h.name.text names) rangeKey (none, none)) := by
    rw [parseKeyCondition_both all.1 all.2 fun read => reads read]
    exact congrArg some (ite_self _)
  rw [unchanged, between, HashClause.read] at parsed
  have second := congrArg Prod.snd (Option.some.inj parsed)
  split at second <;> cases second

/-- The parser returns the key string and the range condition exactly of the expressions that it can read. -/
theorem parseKeyCondition_right_iff (C : CaseMapping) (names : AttrNames) (values : AttrValues)
    (hashKey rangeKey : String) (e : KeyExpr) (named : e.Names names hashKey rangeKey) :
    ParsesRight C names values rangeKey e ↔ e.ReadRight values hashKey rangeKey := by
  cases e with
  | hash h => exact hash_parsesRight_iff h named
  | both hashFirst h r =>
    by_cases readable : h.atom.readable = true ∧ r.readable values = true
    · exact both_parsesRight_of_readable named.1 named.2 readable.1 readable.2
    · have unreadable : h.atom.readable = false ∨ r.readable values = false := by
        cases ok : h.atom.readable with
        | false => exact .inl rfl
        | true => exact .inr (Bool.eq_false_iff.mpr fun range => readable ⟨ok, range⟩)
      refine iff_of_false (both_not_parsesRight unreadable) fun right => readable ⟨right.1, right.2.1⟩

/-- The case mapping of ASCII. -/
def asciiCaseMapping : CaseMapping where
  toLowercase text := text.map Char.toLower
  toUppercase text := text.map Char.toUpper
  lowercase_front front rest _ := by
    rw [List.map_append]
    exact List.prefix_append _ _
  lowercase_ascii _ _ := rfl
  uppercase_ascii _ _ := rfl

def nameToken (text : Text) (h : text ≠ [] ∧ text.all plainChar = true ∧ text ≠ "AND".toList ∧
    text ≠ "OR".toList ∧ text ≠ "NOT".toList) : NameToken :=
  ⟨text, h.1, List.all_eq_true.mp h.2.1, h.2.2⟩

def valueToken (rest : Text) (h : rest.all plainChar = true) : ValueToken := ⟨rest, List.all_eq_true.mp h⟩

def pkIsId : HashClause := ⟨nameToken "#pk".toList (by decide), valueToken "id".toList (by decide)⟩

/-- `#pk = :id AND #sk BETWEEN :lo AND :hi`. -/
def betweenExpr : KeyExpr :=
  .both true pkIsId ⟨nameToken "#sk".toList (by decide),
    .between (valueToken "lo".toList (by decide)) (valueToken "hi".toList (by decide))⟩

/-- `begins_with(sk, :lo) AND #pk = :id`. -/
def beginsWithExpr : KeyExpr :=
  .both false pkIsId ⟨nameToken "sk".toList (by decide), .beginsWith (valueToken "lo".toList (by decide))⟩

example : betweenExpr.print = "#pk = :id AND #sk BETWEEN :lo AND :hi" := by decide

example : beginsWithExpr.print = "begins_with(sk, :lo) AND #pk = :id" := by decide

def keyPlaceholders : AttrNames := ((∅ : AttrNames).insert "#pk" "pk").insert "#sk" "sk"

def keyBounds (id : AttributeValue) : AttrValues :=
  (((∅ : AttrValues).insert ":id" id).insert ":lo" (.s "a")).insert ":hi" (.s "c")

theorem parseKeyCondition_right_iff_beginsWith :
    ParsesRight asciiCaseMapping keyPlaceholders (keyBounds (.s "1")) "sk" beginsWithExpr :=
  (parseKeyCondition_right_iff asciiCaseMapping keyPlaceholders (keyBounds (.s "1")) "pk" "sk" beginsWithExpr
    ⟨by decide +kernel, by decide +kernel⟩).mpr
      ⟨by decide, by decide +kernel, fun _ => by decide +kernel, fun same => absurd same (by decide)⟩

/-- The range condition of a `BETWEEN` is lost, with the bounds and the names all given. -/
theorem between_is_lost :
    betweenExpr.Names keyPlaceholders "pk" "sk" ∧
      ¬ ParsesRight asciiCaseMapping keyPlaceholders (keyBounds (.s "1")) "sk" betweenExpr :=
  ⟨⟨by decide +kernel, by decide +kernel⟩, both_not_parsesRight (.inr rfl)⟩

end Openstack.DynamoDb

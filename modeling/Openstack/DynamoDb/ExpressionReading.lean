import Openstack.Lib.KeywordSearch
import Openstack.DynamoDb.ExpressionSemantics

/-!
# Reading printed expressions

The scan for a connective passes over a printed literal without finding anything and
without slicing a character, so the evaluator splits a chain of literals exactly at
its connectives, and a literal is evaluated to its meaning.
-/
namespace Openstack.DynamoDb

variable {text : Text} {e : Expr} {c : Char} {a b : Text} {n : Nat} {word : Text} {f : String}

/-! ## The scan -/

/-- The first `n` characters are in ASCII. -/
def AsciiFor (n : Nat) (text : Text) : Prop := ∀ c ∈ text.take n, c.utf8Size = 1

/-- A property of every character of a text, decided along the text. -/
theorem forall_mem_of_all {p : Char → Prop} [DecidablePred p]
    (all : text.all (fun c => decide (p c)) = true) : ∀ c ∈ text, p c := by
  simpa using all

theorem AsciiFor.tail (ascii : AsciiFor (n + 1) (c :: text)) :
    AsciiFor n text := fun x mem => ascii x (by simp [mem])

theorem AsciiFor.mono {m n : Nat} (ascii : AsciiFor n text) (le : m ≤ n) :
    AsciiFor m text := fun x mem => ascii x (List.take_subset_take_left text le mem)

theorem asciiFor_append (front : ∀ c ∈ a, c.utf8Size = 1)
    (back : AsciiFor (n - a.length) b) : AsciiFor n (a ++ b) := by
  intro c mem
  rw [List.take_append] at mem
  rcases List.mem_append.mp mem with inFront | inBack
  · exact front c (List.mem_of_mem_take inFront)
  · exact back c inBack

theorem isCharBoundary_of_ascii (ascii : AsciiFor n text)
    (long : n ≤ text.length) : isCharBoundary n text = true := by
  induction n generalizing text with
  | zero => simp [isCharBoundary]
  | succ n ih =>
    cases text with
    | nil => simp at long
    | cons c rest =>
      have one : c.utf8Size = 1 := ascii c (by simp)
      have later := ih ascii.tail (by simpa using long)
      simp [isCharBoundary, one, later]

theorem byteLen_of_ascii (ascii : ∀ c ∈ text, c.utf8Size = 1) :
    byteLen text = text.length := by
  induction text with
  | nil => rfl
  | cons c rest ih =>
    have later := ih (fun x mem => ascii x (by simp [mem]))
    have one := ascii c (by simp)
    simp only [byteLen, List.map_cons, List.sum_cons, List.length_cons] at later ⊢
    omega

/-- When the keyword fits by its bytes and they are in ASCII, it fits by its
characters. -/
theorem long_of_byteLen (ascii : AsciiFor n text) (long : n ≤ byteLen text) : n ≤ text.length := by
  by_contra short
  have all : text.take n = text := List.take_of_length_le (by omega)
  have bytes : byteLen text = text.length :=
    byteLen_of_ascii fun c mem => ascii c (by rwa [all])
  omega

@[simp] theorem prepend_nil (found : Option (Option (Text × Text))) : prepend [] found = found := by
  rcases found with _ | _ | ⟨x, y⟩ <;> rfl

theorem prepend_append (a b : Text) (found : Option (Option (Text × Text))) :
    prepend a (prepend b found) = prepend (a ++ b) found := by
  rcases found with _ | _ | ⟨x, y⟩ <;> simp [prepend]

section Scan

variable {kw : Text} {depth : Int} {c : Char} {rest : Text}

/-- Inside parentheses the scan only counts. -/
theorem findTopLevel_deep (deep : depthAfter depth c ≠ 0) :
    findTopLevel kw depth (c :: rest) =
      prepend [c] (findTopLevel kw (depthAfter depth c) rest) := by
  rw [findTopLevel, if_neg (fun h => deep h.1)]

theorem findTopLevel_pass (nonempty : kw ≠ []) (ascii : AsciiFor kw.length (c :: rest))
    (elsewhere : kw.isPrefixOf (c :: rest) = false) :
    findTopLevel kw depth (c :: rest) =
      prepend [c] (findTopLevel kw (depthAfter depth c) rest) := by
  have one : c.utf8Size = 1 := by
    refine ascii c ?_
    cases kw with
    | nil => exact absurd rfl nonempty
    | cons k ks => simp
  rw [findTopLevel]
  split
  · next check =>
    rw [if_pos (isCharBoundary_of_ascii ascii (long_of_byteLen ascii check.2)), elsewhere,
      if_neg Bool.false_ne_true, if_neg (by omega)]
  · rfl

theorem findTopLevel_here (asciiKw : ∀ x ∈ kw, x.utf8Size = 1) (top : depthAfter depth c = 0)
    (here : kw.isPrefixOf (c :: rest) = true) :
    findTopLevel kw depth (c :: rest) = some (some ([], (c :: rest).drop kw.length)) := by
  obtain ⟨after, eq⟩ := List.isPrefixOf_iff_prefix.mp here
  have ascii : AsciiFor kw.length (c :: rest) := by
    intro x mem
    rw [← eq, List.take_left] at mem
    exact asciiKw x mem
  have long : kw.length ≤ (c :: rest).length := by
    rw [← eq, List.length_append]
    omega
  have bytes : kw.length ≤ byteLen (c :: rest) := by
    have front := byteLen_of_ascii asciiKw
    rw [← eq, byteLen, List.map_append, List.sum_append, ← byteLen]
    omega
  rw [findTopLevel, if_pos ⟨top, bytes⟩, if_pos (isCharBoundary_of_ascii ascii long), if_pos here]

end Scan

/-- No blank of `seg` starts the keyword `' ' :: word` in `seg ++ tail`. -/
def BlanksSafe (word : Text) (tail : Text) : Text → Prop
  | [] => True
  | c :: rest => (c = ' ' → word.isPrefixOf (rest ++ tail) = false) ∧ BlanksSafe word tail rest

theorem blanksSafe_append {word tail a b : Text} (front : BlanksSafe word (b ++ tail) a)
    (back : BlanksSafe word tail b) : BlanksSafe word tail (a ++ b) := by
  induction a with
  | nil => exact back
  | cons c rest ih =>
    refine ⟨?_, ih front.2⟩
    intro blank
    have here := front.1 blank
    rwa [← List.append_assoc] at here

theorem blanksSafe_word {word tail seg : Text} (noBlank : ∀ c ∈ seg, c ≠ ' ') :
    BlanksSafe word tail seg := by
  induction seg with
  | nil => trivial
  | cons c rest ih =>
    exact ⟨fun blank => absurd blank (noBlank c (by simp)), ih fun x mem => noBlank x (by simp [mem])⟩

/-- The scan passes over a segment without parentheses. -/
theorem findTopLevel_segment {word seg tail : Text}
    (ascii : AsciiFor (seg.length + word.length) (seg ++ tail))
    (flat : ∀ c ∈ seg, c ≠ '(' ∧ c ≠ ')') (blanks : BlanksSafe word tail seg) :
    findTopLevel (' ' :: word) 0 (seg ++ tail) =
      prepend seg (findTopLevel (' ' :: word) 0 tail) := by
  induction seg with
  | nil => simp
  | cons c rest ih =>
    obtain ⟨notOpen, notClose⟩ := flat c (by simp)
    have top : depthAfter 0 c = 0 := by simp [depthAfter, notOpen, notClose]
    have elsewhere : (' ' :: word).isPrefixOf (c :: (rest ++ tail)) = false := by
      rw [List.isPrefixOf]
      by_cases blank : c = ' '
      · rw [blanks.1 blank, Bool.and_false]
      · have differs : (' ' == c) = false := by simpa using Ne.symm blank
        rw [differs, Bool.false_and]
    have asciiHere : AsciiFor (' ' :: word).length (c :: (rest ++ tail)) :=
      ascii.mono (by simp only [List.length_cons]; omega)
    have asciiRest : AsciiFor (rest.length + word.length) (rest ++ tail) := by
      refine AsciiFor.tail (c := c) ?_
      exact ascii.mono (by simp only [List.length_cons]; omega)
    rw [List.cons_append, findTopLevel_pass (by simp) asciiHere elsewhere, top,
      ih asciiRest (fun x mem => flat x (by simp [mem])) blanks.2, prepend_append]
    rfl

/-- The scan passes over what stands in parentheses. -/
theorem findTopLevel_inside {word inner tail : Text}
    (flat : ∀ c ∈ inner, c ≠ '(' ∧ c ≠ ')') (ascii : AsciiFor word.length tail) :
    findTopLevel (' ' :: word) 1 (inner ++ ')' :: tail) =
      prepend (inner ++ [')']) (findTopLevel (' ' :: word) 0 tail) := by
  induction inner with
  | nil =>
    have asciiHere : AsciiFor (' ' :: word).length (')' :: tail) := by
      intro x mem
      rw [List.length_cons, List.take_succ_cons] at mem
      rcases List.mem_cons.mp mem with rfl | later
      · rfl
      · exact ascii x later
    rw [List.nil_append, findTopLevel_pass (by simp) asciiHere (by rfl)]
    rfl
  | cons c rest ih =>
    obtain ⟨notOpen, notClose⟩ := flat c (by simp)
    have depth : depthAfter 1 c = 1 := by simp [depthAfter, notOpen, notClose]
    rw [List.cons_append, findTopLevel_deep (by rw [depth]; omega), depth,
      ih (fun x mem => flat x (by simp [mem])), prepend_append]
    rfl

/-- The scan passes over a function call. -/
theorem findTopLevel_call {word tail args : Text} {function : String}
    (asciiCall : AsciiFor (function.toList.length + word.length)
      (function.toList ++ '(' :: (args ++ ')' :: tail)))
    (asciiTail : AsciiFor word.length tail)
    (flatName : ∀ c ∈ function.toList, c ≠ ' ' ∧ c ≠ '(' ∧ c ≠ ')')
    (flatArgs : ∀ c ∈ args, c ≠ '(' ∧ c ≠ ')') :
    findTopLevel (' ' :: word) 0 (call function args ++ tail) =
      prepend (call function args) (findTopLevel (' ' :: word) 0 tail) := by
  have opened : findTopLevel (' ' :: word) 0 ('(' :: (args ++ ')' :: tail)) =
      prepend ('(' :: (args ++ [')'])) (findTopLevel (' ' :: word) 0 tail) := by
    rw [findTopLevel_deep (by decide), show depthAfter 0 '(' = 1 from rfl,
      findTopLevel_inside flatArgs asciiTail, prepend_append]
    rfl
  have shape : call function args ++ tail = function.toList ++ '(' :: (args ++ ')' :: tail) := by
    simp [call]
  rw [shape, findTopLevel_segment asciiCall (fun c mem => (flatName c mem).2)
    (blanksSafe_word fun c mem => (flatName c mem).1), opened, prepend_append]
  rfl

/-! ## Literals -/

theorem plainChar_ne (plain : plainChar c = true) :
    c ≠ ' ' ∧ c ≠ '(' ∧ c ≠ ')' ∧ c ≠ ',' ∧ c ≠ '<' ∧ c ≠ '>' ∧ c ≠ '=' := by
  refine ⟨?_, ?_, ?_, ?_, ?_, ?_, ?_⟩ <;>
    · intro same
      rw [same] at plain
      exact absurd plain (by decide)

theorem notKeyword_eq : notKeyword = ['N', 'O', 'T', ' '] := rfl

theorem andKeyword_eq : andKeyword = ' ' :: "AND ".toList := rfl

theorem orKeyword_eq : orKeyword = [' ', 'O', 'R', ' '] := rfl

theorem andKeyword_length : andKeyword.length = 5 := rfl

theorem orKeyword_length : orKeyword.length = 4 := rfl

/-- The keywords behind their leading blank. -/
def Connective (word : Text) : Prop := word = "AND ".toList ∨ word = "OR ".toList

theorem Connective.length_le (conn : Connective word) : word.length ≤ 4 := by
  rcases conn with rfl | rfl <;> decide

namespace NameToken

variable (name : NameToken)

theorem noBlank : ∀ c ∈ name.text, c ≠ ' ' := fun c mem => (plainChar_ne (name.plain c mem)).1

theorem blank_not_mem : ' ' ∉ name.text := fun mem => name.noBlank ' ' mem rfl

theorem flat : ∀ c ∈ name.text, c ≠ '(' ∧ c ≠ ')' :=
  fun c mem => ⟨(plainChar_ne (name.plain c mem)).2.1, (plainChar_ne (name.plain c mem)).2.2.1⟩

/-- In front of a blank a name starts no keyword. -/
theorem not_connective (conn : Connective word) (tail : Text) :
    word.isPrefixOf (name.text ++ ' ' :: tail) = false := by
  rcases conn with rfl | rfl
  · exact KeywordSearch.not_isPrefixOf_of_ne name.blank_not_mem (by decide) name.unreserved.1.symm tail
  · exact KeywordSearch.not_isPrefixOf_of_ne name.blank_not_mem (by decide) name.unreserved.2.1.symm tail

theorem not_not (tail : Text) : notKeyword.isPrefixOf (name.text ++ ' ' :: tail) = false :=
  KeywordSearch.not_isPrefixOf_of_ne name.blank_not_mem (by decide) name.unreserved.2.2.symm tail

end NameToken

theorem ValueToken.flat (value : ValueToken) : ∀ c ∈ value.text, c ≠ '(' ∧ c ≠ ')' := by
  intro c mem
  rcases List.mem_cons.mp mem with rfl | later
  · decide
  · exact ⟨(plainChar_ne (value.plain c later)).2.1, (plainChar_ne (value.plain c later)).2.2.1⟩

theorem ValueToken.noBlank (value : ValueToken) : ∀ c ∈ value.text, c ≠ ' ' := by
  intro c mem
  rcases List.mem_cons.mp mem with rfl | later
  · decide
  · exact (plainChar_ne (value.plain c later)).1

theorem ascii_of_all (all : text.all isAscii = true) : ∀ c ∈ text, c.utf8Size = 1 := by
  intro c mem
  have ascii := List.all_eq_true.mp all c mem
  simpa [isAscii] using ascii

theorem CmpOp.symbol_ascii (op : CmpOp) : ∀ c ∈ op.symbol, c.utf8Size = 1 := by
  cases op <;> exact forall_mem_of_all (by decide)

theorem CmpOp.symbol_flat (op : CmpOp) : ∀ c ∈ op.symbol, c ≠ ' ' ∧ c ≠ '(' ∧ c ≠ ')' := by
  cases op <;> exact forall_mem_of_all (by decide)

theorem compare_ascii {name : NameToken} {op : CmpOp} {value : ValueToken}
    (readable : (Atom.compare name op value).readable = true) :
    ∀ c ∈ (Atom.compare name op value).print, c.utf8Size = 1 := by
  rw [Atom.readable, Bool.and_eq_true] at readable
  intro c mem
  simp only [Atom.print, ValueToken.text, List.mem_append, List.mem_cons] at mem
  rcases mem with inName | rfl | inOp | rfl | rfl | inValue
  · exact ascii_of_all readable.1 c inName
  · rfl
  · exact op.symbol_ascii c inOp
  · rfl
  · rfl
  · exact ascii_of_all readable.2 c inValue

/-- The scan passes over a comparison. -/
theorem findTopLevel_compare {word tail : Text} (conn : Connective word) {name : NameToken}
    {op : CmpOp} {value : ValueToken} (readable : (Atom.compare name op value).readable = true)
    (ascii : AsciiFor 4 tail) :
    findTopLevel (' ' :: word) 0 ((Atom.compare name op value).print ++ tail) =
      prepend (Atom.compare name op value).print (findTopLevel (' ' :: word) 0 tail) := by
  refine findTopLevel_segment ?_ ?_ ?_
  · refine asciiFor_append (compare_ascii readable) (ascii.mono ?_)
    have := conn.length_le
    omega
  · intro c mem
    simp only [Atom.print, List.mem_append, List.mem_cons] at mem
    rcases mem with inName | rfl | inOp | rfl | inValue
    · exact name.flat c inName
    · decide
    · exact (op.symbol_flat c inOp).2
    · decide
    · exact value.flat c inValue
  · -- the blanks are followed by the operator and by the colon of the value
    have beforeOp : ∀ t : Text, word.isPrefixOf (op.symbol ++ t) = false := by
      intro t
      rcases conn with rfl | rfl <;> cases op <;> rfl
    have beforeValue : ∀ t : Text, word.isPrefixOf (value.text ++ t) = false := by
      intro t
      rcases conn with rfl | rfl <;> rfl
    refine blanksSafe_append (blanksSafe_word name.noBlank) ⟨fun _ => ?_, ?_⟩
    · rw [List.append_assoc]
      exact beforeOp _
    · refine blanksSafe_append (blanksSafe_word fun c mem => (op.symbol_flat c mem).1) ⟨fun _ => ?_, ?_⟩
      · exact beforeValue tail
      · exact blanksSafe_word value.noBlank

theorem asciiFor_take_append (front : AsciiFor n a) (back : AsciiFor n b) :
    AsciiFor n (a ++ b) := by
  intro c mem
  rw [List.take_append] at mem
  rcases List.mem_append.mp mem with inFront | inBack
  · exact front c inFront
  · exact back c (List.take_subset_take_left b (by omega) inBack)

/-- The functions of the grammar. -/
def functionNames : List String :=
  ["attribute_exists", "attribute_not_exists", "begins_with", "contains"]

theorem functionNames_flat : ∀ f ∈ functionNames, ∀ c ∈ f.toList,
    c.utf8Size = 1 ∧ c ≠ ' ' ∧ c ≠ '(' ∧ c ≠ ')' := by
  intro f known
  apply forall_mem_of_all
  revert f
  decide

/-- The scan passes over a call of a function of the grammar. -/
theorem findTopLevel_functionCall {word tail args : Text} (conn : Connective word)
    (known : f ∈ functionNames) (flat : ∀ c ∈ args, c ≠ '(' ∧ c ≠ ')')
    (readable : (args.take 3).all isAscii = true) (ascii : AsciiFor 4 tail) :
    findTopLevel (' ' :: word) 0 (call f args ++ tail) =
      prepend (call f args) (findTopLevel (' ' :: word) 0 tail) := by
  have names := functionNames_flat f known
  refine findTopLevel_call ?_ (ascii.mono conn.length_le) (fun c mem => (names c mem).2) flat
  refine asciiFor_append (fun c mem => (names c mem).1) ?_
  have inner : AsciiFor 3 (args ++ ')' :: tail) := by
    refine asciiFor_take_append (ascii_of_all readable) ?_
    exact asciiFor_append (a := [')']) (forall_mem_of_all (by decide)) (ascii.mono (by simp))
  have opened : AsciiFor 4 ('(' :: (args ++ ')' :: tail)) :=
    asciiFor_append (a := ['(']) (forall_mem_of_all (by decide)) inner
  refine opened.mono ?_
  have := conn.length_le
  omega

theorem twoArgs_flat (name : NameToken) (value : ValueToken) :
    ∀ c ∈ twoArgs name value, c ≠ '(' ∧ c ≠ ')' := by
  intro c mem
  simp only [twoArgs, List.mem_append, List.mem_cons] at mem
  rcases mem with inName | rfl | rfl | inValue
  · exact name.flat c inName
  · decide
  · decide
  · exact value.flat c inValue

theorem findTopLevel_atom {word tail : Text} (conn : Connective word) {a : Atom}
    (readable : a.readable = true) (ascii : AsciiFor 4 tail) :
    findTopLevel (' ' :: word) 0 (a.print ++ tail) =
      prepend a.print (findTopLevel (' ' :: word) 0 tail) := by
  cases a with
  | compare name op value => exact findTopLevel_compare conn readable ascii
  | attributeExists name =>
    exact findTopLevel_functionCall conn (by decide) name.flat readable ascii
  | attributeNotExists name =>
    exact findTopLevel_functionCall conn (by decide) name.flat readable ascii
  | beginsWith name value =>
    exact findTopLevel_functionCall conn (by decide) (twoArgs_flat name value) readable ascii
  | contains name value =>
    exact findTopLevel_functionCall conn (by decide) (twoArgs_flat name value) readable ascii

/-- A literal starts with four ASCII characters. -/
theorem asciiFor_literal (literal : e.isLiteral = true) (p : Nat) {tail : Text}
    (ascii : AsciiFor 4 tail) : AsciiFor 4 (e.printAt p ++ tail) := by
  have ofCall : ∀ f ∈ functionNames, ∀ args : Text, AsciiFor 4 (call f args ++ tail) := by
    intro f known args
    have names := functionNames_flat f known
    have long : ∀ f ∈ functionNames, 4 ≤ f.toList.length := by decide
    rw [call, List.append_assoc]
    refine asciiFor_append (fun c mem => (names c mem).1) ?_
    have := long f known
    intro c mem
    rw [Nat.sub_eq_zero_of_le this] at mem
    simp at mem
  cases e with
  | atom a =>
    cases a with
    | compare name op value => exact asciiFor_append (compare_ascii literal) (ascii.mono (by omega))
    | attributeExists name => exact ofCall _ (by decide) _
    | attributeNotExists name => exact ofCall _ (by decide) _
    | beginsWith name value => exact ofCall _ (by decide) _
    | contains name value => exact ofCall _ (by decide) _
  | not e =>
    rw [Expr.printAt, List.append_assoc]
    refine asciiFor_append (forall_mem_of_all (by decide)) ?_
    intro c mem
    simp [notKeyword] at mem
  | and l r => simp [Expr.isLiteral] at literal
  | or l r => simp [Expr.isLiteral] at literal
  | paren e => simp [Expr.isLiteral] at literal

/-- A literal does not start with the word of a connective. -/
theorem literal_not_connective (conn : Connective word) (literal : e.isLiteral = true) (p : Nat) (tail : Text) :
    word.isPrefixOf (e.printAt p ++ tail) = false := by
  have ofCall : ∀ f ∈ functionNames, ∀ args : Text,
      word.isPrefixOf (call f args ++ tail) = false := by
    intro f known args
    rw [call, List.append_assoc]
    simp only [functionNames, List.mem_cons, List.not_mem_nil, or_false] at known
    rcases conn with rfl | rfl <;> rcases known with rfl | rfl | rfl | rfl <;> rfl
  cases e with
  | atom a =>
    cases a with
    | compare name op value =>
      rw [Expr.printAt, Atom.print, List.append_assoc]
      exact name.not_connective conn _
    | attributeExists name => exact ofCall _ (by decide) _
    | attributeNotExists name => exact ofCall _ (by decide) _
    | beginsWith name value => exact ofCall _ (by decide) _
    | contains name value => exact ofCall _ (by decide) _
  | not e => rcases conn with rfl | rfl <;> rfl
  | and l r => simp [Expr.isLiteral] at literal
  | or l r => simp [Expr.isLiteral] at literal
  | paren e => simp [Expr.isLiteral] at literal

/-- The scan passes over a literal. -/
theorem findTopLevel_literal {word tail : Text} (conn : Connective word)
    (literal : e.isLiteral = true) (p : Nat) (ascii : AsciiFor 4 tail) :
    findTopLevel (' ' :: word) 0 (e.printAt p ++ tail) =
      prepend (e.printAt p) (findTopLevel (' ' :: word) 0 tail) := by
  induction e generalizing p with
  | atom a => exact findTopLevel_atom conn literal ascii
  | not e ih =>
    have inner : e.isLiteral = true := literal
    have passNot : findTopLevel (' ' :: word) 0 (notKeyword ++ (e.printAt 2 ++ tail)) =
        prepend notKeyword (findTopLevel (' ' :: word) 0 (e.printAt 2 ++ tail)) := by
      refine findTopLevel_segment ?_ (forall_mem_of_all (by decide)) ?_
      · refine asciiFor_append (forall_mem_of_all (by decide)) ((asciiFor_literal inner 2 ascii).mono ?_)
        have := conn.length_le
        omega
      · rw [notKeyword_eq]
        exact ⟨by simp, by simp, by simp, fun _ => literal_not_connective conn inner 2 tail, trivial⟩
    rw [Expr.printAt, List.append_assoc, passNot, ih inner 2, prepend_append]
  | and l r => simp [Expr.isLiteral] at literal
  | or l r => simp [Expr.isLiteral] at literal
  | paren e => simp [Expr.isLiteral] at literal

/-! ## Trimming -/

/-- The text has no whitespace at its ends. -/
def Tight (text : Text) : Prop :=
  ∃ c d, text.head? = some c ∧ RustStr.isWhitespace c = false ∧
    text.getLast? = some d ∧ RustStr.isWhitespace d = false

theorem Tight.dropWhile (tight : Tight text) (more : Text) :
    (text ++ more).dropWhile RustStr.isWhitespace = text ++ more := by
  obtain ⟨c, _, first, hc, _⟩ := tight
  cases text with
  | nil => cases first
  | cons x rest =>
    cases first
    rw [List.cons_append, List.dropWhile_cons, hc, if_neg Bool.false_ne_true]

theorem Tight.rdropWhile (tight : Tight text) :
    text.rdropWhile RustStr.isWhitespace = text := by
  obtain ⟨_, d, _, _, last, hd⟩ := tight
  rw [List.rdropWhile_eq_self_iff]
  intro nonempty
  rw [List.getLast?_eq_some_getLast nonempty] at last
  rw [Option.some.inj last, hd]
  exact Bool.false_ne_true

theorem Tight.trim (tight : Tight text) : RustStr.trim text = text := by
  have front := tight.dropWhile []
  rw [List.append_nil] at front
  rw [RustStr.trim, front, tight.rdropWhile]

theorem Tight.trim_blank_after (tight : Tight text) :
    RustStr.trim (text ++ [' ']) = text := by
  rw [RustStr.trim, tight.dropWhile, List.rdropWhile_concat_pos _ _ _ (by decide),
    tight.rdropWhile]

theorem Tight.trim_blank_before (tight : Tight text) :
    RustStr.trim (' ' :: text) = text := by
  have blank : RustStr.isWhitespace ' ' = true := by decide
  have whole := tight.trim
  rwa [RustStr.trim, List.dropWhile_cons, blank, if_pos rfl]

theorem Tight.append (front : Tight a) (mid : Text) (back : Tight b) :
    Tight (a ++ mid ++ b) := by
  obtain ⟨c, _, first, hc, _, _⟩ := front
  obtain ⟨_, d, _, _, last, hd⟩ := back
  refine ⟨c, d, ?_, hc, ?_, hd⟩
  · rw [List.append_assoc, List.head?_append, first]
    rfl
  · rw [List.getLast?_append, last]
    rfl

theorem plainChar_not_whitespace (plain : plainChar c = true) :
    RustStr.isWhitespace c = false := by
  simp only [plainChar, Bool.and_eq_true, Bool.not_eq_true'] at plain
  exact plain.1

theorem tight_of_plain (nonempty : text ≠ []) (plain : ∀ c ∈ text, RustStr.isWhitespace c = false) : Tight text := by
  refine ⟨text.head nonempty, text.getLast nonempty, List.head?_eq_some_head nonempty,
    plain _ (List.head_mem nonempty), List.getLast?_eq_some_getLast nonempty,
    plain _ (List.getLast_mem nonempty)⟩

theorem NameToken.tight (name : NameToken) : Tight name.text :=
  tight_of_plain name.nonempty fun c mem => plainChar_not_whitespace (name.plain c mem)

theorem ValueToken.tight (value : ValueToken) : Tight value.text := by
  refine tight_of_plain (by simp [text]) ?_
  intro c mem
  rcases List.mem_cons.mp mem with rfl | later
  · decide
  · exact plainChar_not_whitespace (value.plain c later)

theorem tight_call (known : f ∈ functionNames) (args : Text) : Tight (call f args) := by
  have first : ∀ f ∈ functionNames, Tight f.toList := by
    intro f known
    refine tight_of_plain ?_ ?_
    · revert f
      decide
    · apply forall_mem_of_all
      revert f
      decide
  have closing : Tight [')'] := ⟨')', ')', rfl, by decide, rfl, by decide⟩
  have whole := (first f known).append ('(' :: args) closing
  rwa [List.append_assoc] at whole

theorem tight_literal (literal : e.isLiteral = true) (p : Nat) : Tight (e.printAt p) := by
  induction e generalizing p with
  | atom a =>
    cases a with
    | compare name op value =>
      have whole := name.tight.append (' ' :: (op.symbol ++ [' '])) value.tight
      simpa [Expr.printAt, Atom.print] using whole
    | attributeExists name => exact tight_call (by decide) _
    | attributeNotExists name => exact tight_call (by decide) _
    | beginsWith name value => exact tight_call (by decide) _
    | contains name value => exact tight_call (by decide) _
  | not e ih =>
    have front : Tight "NOT".toList := tight_of_plain (by decide) (forall_mem_of_all (by decide))
    exact front.append [' '] (ih literal 2)
  | and l r => simp [Expr.isLiteral] at literal
  | or l r => simp [Expr.isLiteral] at literal
  | paren e => simp [Expr.isLiteral] at literal

/-! ## Atoms -/

theorem before_found {p : Char} {ps pre rest : Text} (absent : p ∉ pre) :
    RustStr.before (p :: ps) (pre ++ (p :: ps ++ rest)) = some pre :=
  (KeywordSearch.skips_of_absent absent).before_keyword rest (by simp)

theorem after_found {p : Char} {ps pre rest : Text} (absent : p ∉ pre) :
    RustStr.after (p :: ps) (pre ++ (p :: ps ++ rest)) = some rest := by
  rw [RustStr.after, before_found absent, Option.map_some, ← List.append_assoc,
    ← List.length_append, List.drop_left]

theorem callArguments_none (flat : '(' ∉ text) :
    callArguments f text = none := by
  have absent : (f.toList ++ ['(']).isPrefixOf text = false := by
    rw [Bool.eq_false_iff]
    intro here
    exact flat ((List.isPrefixOf_iff_prefix.mp here).subset (by simp))
  simp [callArguments, absent]

theorem callArguments_call (f : String) (args : Text) : callArguments f (call f args) = some args := by
  have shape : call f args = (f.toList ++ ['(']) ++ (args ++ [')']) := by simp [call]
  have front : (f.toList ++ ['(']).isPrefixOf (call f args) = true := by
    rw [shape]
    exact List.isPrefixOf_iff_prefix.mpr (List.prefix_append _ _)
  have last : (call f args).getLast? = some ')' := by
    rw [shape, List.getLast?_append, List.getLast?_concat]
    rfl
  simp only [callArguments, front, last, and_self, if_true]
  rw [shape, List.drop_left, List.dropLast_concat]

/-- A character of an operator symbol. -/
def SymbolChar (c : Char) : Prop := c = '<' ∨ c = '>' ∨ c = '='

theorem plainChar_not_symbol (plain : plainChar c = true) : ¬ SymbolChar c := by
  have ne := plainChar_ne plain
  intro symbol
  rcases symbol with rfl | rfl | rfl
  · exact ne.2.2.2.2.1 rfl
  · exact ne.2.2.2.2.2.1 rfl
  · exact ne.2.2.2.2.2.2 rfl

theorem NameToken.symbol_not_mem (name : NameToken) (symbol : SymbolChar c) :
    c ∉ name.text ++ [' '] := by
  intro mem
  rcases List.mem_append.mp mem with inName | inBlank
  · exact plainChar_not_symbol (name.plain c inName) symbol
  · rw [List.mem_singleton.mp inBlank] at symbol
    exact absurd symbol (by unfold SymbolChar; decide)

theorem ValueToken.symbol_not_mem (value : ValueToken) (symbol : SymbolChar c) :
    c ∉ value.text := by
  intro mem
  rcases List.mem_cons.mp mem with rfl | later
  · exact absurd symbol (by unfold SymbolChar; decide)
  · exact plainChar_not_symbol (value.plain c later) symbol

theorem CmpOp.symbol_cons (op : CmpOp) : ∃ p ps, op.symbol = p :: ps ∧ SymbolChar p := by
  cases op <;> exact ⟨_, _, rfl, by unfold SymbolChar; decide⟩

section Comparison

variable (name : NameToken) (op : CmpOp) (value : ValueToken)

theorem compare_shape : (Atom.compare name op value).print =
    (name.text ++ [' ']) ++ (op.symbol ++ (' ' :: value.text)) := by
  simp [Atom.print]

/-- The operator of a comparison is found where it stands. -/
theorem before_own_symbol :
    RustStr.before op.symbol (Atom.compare name op value).print = some (name.text ++ [' ']) ∧
    RustStr.after op.symbol (Atom.compare name op value).print = some (' ' :: value.text) := by
  obtain ⟨p, ps, eq, symbol⟩ := op.symbol_cons
  rw [compare_shape, eq]
  exact ⟨before_found (name.symbol_not_mem symbol), after_found (name.symbol_not_mem symbol)⟩

/-- An operator that is looked for earlier does not occur. -/
theorem before_earlier_symbol (other : CmpOp)
    (earlier : CmpOp.all.idxOf other < CmpOp.all.idxOf op) :
    RustStr.before other.symbol (Atom.compare name op value).print = none := by
  obtain ⟨p, ps, eq, symbol⟩ := other.symbol_cons
  have noValue : RustStr.before other.symbol (' ' :: value.text) = none := by
    rw [eq]
    apply KeywordSearch.before_none_of_absent List.mem_cons_self
    intro mem
    rcases List.mem_cons.mp mem with rfl | inValue
    · exact absurd symbol (by unfold SymbolChar; decide)
    · exact value.symbol_not_mem symbol inValue
  have noOperator : RustStr.before other.symbol (op.symbol ++ (' ' :: value.text)) = none := by
    cases other <;> cases op <;>
      first
        | exact absurd earlier (by decide)
        | (rw [CmpOp.symbol] at noValue
           simp [CmpOp.symbol, RustStr.before] at noValue ⊢
           exact noValue)
  rw [compare_shape, eq, KeywordSearch.skips_of_absent (name.symbol_not_mem symbol), ← eq, noOperator]
  rfl

/-- Reading a comparison finds its operator. -/
theorem evaluateComparison_print (item : Item) (names : AttrNames) (values : AttrValues) :
    evaluateComparison item (Atom.compare name op value).print names values CmpOp.all =
      (Atom.compare name op value).denote item names values := by
  obtain ⟨found, rest⟩ := before_own_symbol name op value
  have earlier := before_earlier_symbol name op value
  have own : ∀ later, evaluateComparison item (Atom.compare name op value).print names values
      (op :: later) = (Atom.compare name op value).denote item names values := by
    intro later
    simp only [evaluateComparison, found, rest, name.tight.trim_blank_after,
      value.tight.trim_blank_before, Atom.denote]
  have skip : ∀ other later, CmpOp.all.idxOf other < CmpOp.all.idxOf op →
      evaluateComparison item (Atom.compare name op value).print names values (other :: later) =
        evaluateComparison item (Atom.compare name op value).print names values later := by
    intro other later before
    simp only [evaluateComparison, earlier other before]
  unfold CmpOp.all at *
  cases op with
  | ne => exact own _
  | le => rw [skip .ne _ (by decide), own]
  | ge => rw [skip .ne _ (by decide), skip .le _ (by decide), own]
  | lt => rw [skip .ne _ (by decide), skip .le _ (by decide), skip .ge _ (by decide), own]
  | gt =>
    rw [skip .ne _ (by decide), skip .le _ (by decide), skip .ge _ (by decide),
      skip .lt _ (by decide), own]
  | eq =>
    rw [skip .ne _ (by decide), skip .le _ (by decide), skip .ge _ (by decide),
      skip .lt _ (by decide), skip .gt _ (by decide), own]

end Comparison

theorem stringTest_twoArgs (test : Text → Text → Bool) (item : Item) (names : AttrNames)
    (values : AttrValues) (name : NameToken) (value : ValueToken) :
    stringTest test item (twoArgs name value) names values =
      denoteTest test item names values name value := by
  have comma : ',' ∉ name.text := fun mem => (plainChar_ne (name.plain ',' mem)).2.2.2.1 rfl
  have first : RustStr.before [','] (twoArgs name value) = some name.text :=
    @before_found ',' [] name.text (' ' :: value.text) comma
  have second : RustStr.after [','] (twoArgs name value) = some (' ' :: value.text) :=
    @after_found ',' [] name.text (' ' :: value.text) comma
  simp only [stringTest, first, second, name.tight.trim, value.tight.trim_blank_before]
  rfl

/-- An atom is evaluated to its meaning. -/
theorem evaluateAtom_print (item : Item) (names : AttrNames) (values : AttrValues) (a : Atom) :
    evaluateAtom item a.print names values = a.denote item names values := by
  cases a with
  | compare name op value =>
    have flat : '(' ∉ (Atom.compare name op value).print := by
      intro mem
      simp only [Atom.print, List.mem_append, List.mem_cons] at mem
      rcases mem with inName | blank | inOp | blank | inValue
      · exact (name.flat _ inName).1 rfl
      · exact absurd blank (by decide)
      · exact (op.symbol_flat _ inOp).2.1 rfl
      · exact absurd blank (by decide)
      · exact (value.flat _ inValue).1 rfl
    simp only [evaluateAtom, callArguments_none flat]
    exact evaluateComparison_print name op value item names values
  | attributeExists name =>
    simp only [evaluateAtom, Atom.print, callArguments_call, name.tight.trim, Atom.denote]
  | attributeNotExists name =>
    have other : callArguments "attribute_exists" (call "attribute_not_exists" name.text) = none :=
      rfl
    simp only [evaluateAtom, Atom.print, other, callArguments_call, name.tight.trim, Atom.denote]
  | beginsWith name value =>
    have first : callArguments "attribute_exists" (call "begins_with" (twoArgs name value)) = none :=
      rfl
    have second : callArguments "attribute_not_exists" (call "begins_with" (twoArgs name value)) =
        none := rfl
    simp only [evaluateAtom, Atom.print, first, second, callArguments_call, stringTest_twoArgs,
      Atom.denote]
  | contains name value =>
    have first : callArguments "attribute_exists" (call "contains" (twoArgs name value)) = none :=
      rfl
    have second : callArguments "attribute_not_exists" (call "contains" (twoArgs name value)) =
        none := rfl
    have third : callArguments "begins_with" (call "contains" (twoArgs name value)) = none := rfl
    simp only [evaluateAtom, Atom.print, first, second, third, callArguments_call,
      stringTest_twoArgs, Atom.denote]

theorem atom_not_not (a : Atom) : notKeyword.isPrefixOf a.print = false := by
  cases a with
  | compare name op value => exact name.not_not _
  | attributeExists name => rfl
  | attributeNotExists name => rfl
  | beginsWith name value => rfl
  | contains name value => rfl

/-! ## Chains of literals -/

section Evaluate

variable (item : Item) (names : AttrNames) (values : AttrValues)

/-- The text has the value `v` with any sufficient fuel. -/
def Reads (text : Text) (v : Bool) : Prop :=
  ∀ fuel, text.length < fuel → evaluateExpr item names values fuel text = some v

variable {item names values}

/-- A text without a top-level connective is read without splitting it. -/
theorem evaluateExpr_unsplit (tight : Tight text) (noAnd : findTopLevel andKeyword 0 text = some none)
    (noOr : findTopLevel orKeyword 0 text = some none) (fuel : Nat) :
    evaluateExpr item names values (fuel + 1) text =
      if notKeyword.isPrefixOf text then
        (evaluateExpr item names values fuel (text.drop notKeyword.length)).map (!·)
      else some (evaluateAtom item text names values) := by
  simp only [evaluateExpr, tight.trim, noAnd, noOr]

theorem unsplit_literal (literal : e.isLiteral = true) (p : Nat) :
    findTopLevel andKeyword 0 (e.printAt p) = some none ∧
      findTopLevel orKeyword 0 (e.printAt p) = some none := by
  have empty : AsciiFor 4 [] := by simp [AsciiFor]
  have scan : ∀ word, Connective word → findTopLevel (' ' :: word) 0 (e.printAt p) = some none := by
    intro word conn
    have passed := findTopLevel_literal conn literal p empty
    rw [List.append_nil] at passed
    rw [passed]
    rfl
  exact ⟨scan _ (.inl rfl), scan _ (.inr rfl)⟩

/-- A literal is read as its meaning. -/
theorem reads_literal (literal : e.isLiteral = true) (p : Nat) :
    Reads item names values (e.printAt p) (e.denote item names values) := by
  induction e generalizing p with
  | atom a =>
    intro fuel enough
    obtain ⟨fuel, rfl⟩ : ∃ n, fuel = n + 1 := ⟨fuel - 1, by omega⟩
    obtain ⟨noAnd, noOr⟩ := unsplit_literal literal p
    rw [evaluateExpr_unsplit (tight_literal literal p) noAnd noOr, Expr.printAt,
      if_neg (by rw [atom_not_not]; exact Bool.false_ne_true), evaluateAtom_print]
    rfl
  | not e ih =>
    intro fuel enough
    obtain ⟨fuel, rfl⟩ : ∃ n, fuel = n + 1 := ⟨fuel - 1, by omega⟩
    obtain ⟨noAnd, noOr⟩ := unsplit_literal literal p
    have long : (notKeyword ++ e.printAt 2).length < fuel + 1 := enough
    rw [List.length_append] at long
    have four : notKeyword.length = 4 := rfl
    have front : notKeyword.isPrefixOf (notKeyword ++ e.printAt 2) = true :=
      List.isPrefixOf_iff_prefix.mpr (List.prefix_append _ _)
    rw [evaluateExpr_unsplit (tight_literal literal p) noAnd noOr, Expr.printAt, if_pos front,
      List.drop_left, ih literal 2 fuel (by omega)]
    rfl
  | and l r => simp [Expr.isLiteral] at literal
  | or l r => simp [Expr.isLiteral] at literal
  | paren e => simp [Expr.isLiteral] at literal

theorem evaluateExpr_and {text left right : Text} (tight : Tight text)
    (split : findTopLevel andKeyword 0 text = some (some (left, right))) (fuel : Nat) :
    evaluateExpr item names values (fuel + 1) text =
      shortCircuit false (evaluateExpr item names values fuel left)
        (evaluateExpr item names values fuel right) := by
  simp only [evaluateExpr, tight.trim, split]

theorem evaluateExpr_or {text left right : Text} (tight : Tight text)
    (noAnd : findTopLevel andKeyword 0 text = some none)
    (split : findTopLevel orKeyword 0 text = some (some (left, right))) (fuel : Nat) :
    evaluateExpr item names values (fuel + 1) text =
      shortCircuit true (evaluateExpr item names values fuel left)
        (evaluateExpr item names values fuel right) := by
  simp only [evaluateExpr, tight.trim, noAnd, split]

/-- The scan finds the connective behind a literal. -/
theorem findTopLevel_behind (conn : Connective word) (literal : e.isLiteral = true) (p : Nat) (rest : Text) :
    findTopLevel (' ' :: word) 0 (e.printAt p ++ ' ' :: word ++ rest) =
      some (some (e.printAt p, rest)) := by
  have asciiWord : ∀ c ∈ ' ' :: word, c.utf8Size = 1 := by
    rcases conn with rfl | rfl <;> exact forall_mem_of_all (by decide)
  have ascii : AsciiFor 4 ((' ' :: word) ++ rest) := by
    refine asciiFor_append asciiWord ?_
    intro c mem
    rcases conn with rfl | rfl <;> simp at mem
  have here : (' ' :: word).isPrefixOf (' ' :: (word ++ rest)) = true :=
    List.isPrefixOf_iff_prefix.mpr (List.prefix_append (' ' :: word) rest)
  have drop : (' ' :: (word ++ rest)).drop (' ' :: word).length = rest := by
    rw [← List.cons_append, List.drop_left]
  rw [List.append_assoc, findTopLevel_literal conn literal p ascii, List.cons_append,
    findTopLevel_here asciiWord (by rfl) here, drop]
  simp [prepend]

variable (item names values) in
/-- The text has the value `v`, alone and in front of a further conjunct. -/
structure ConjunctText (text : Text) (v : Bool) : Prop where
  tight : Tight text
  alone : Reads item names values text v
  before : ∀ rest w, Tight rest → Reads item names values rest w →
    Reads item names values (text ++ andKeyword ++ rest) (v && w)

theorem conjunctText_literal (literal : e.isLiteral = true) (p : Nat) :
    ConjunctText item names values (e.printAt p) (e.denote item names values) where
  tight := tight_literal literal p
  alone := reads_literal literal p
  before := by
    intro rest w tightRest reads fuel enough
    obtain ⟨fuel, rfl⟩ : ∃ n, fuel = n + 1 := ⟨fuel - 1, by omega⟩
    simp only [List.length_append, andKeyword_length] at enough
    rw [evaluateExpr_and ((tight_literal literal p).append andKeyword tightRest)
      (findTopLevel_behind (.inl rfl) literal p rest), reads_literal literal p fuel (by omega),
      reads fuel (by omega)]
    cases e.denote item names values <;> rfl

theorem ConjunctText.and {v w : Bool} (left : ConjunctText item names values a v)
    (right : ConjunctText item names values b w) :
    ConjunctText item names values (a ++ andKeyword ++ b) (v && w) where
  tight := left.tight.append andKeyword right.tight
  alone := left.before b w right.tight right.alone
  before := by
    intro rest x tightRest reads
    have later := right.before rest x tightRest reads
    have whole := left.before _ _ (right.tight.append andKeyword tightRest) later
    simpa [List.append_assoc, Bool.and_assoc] using whole

/-- A conjunction is read as its meaning. -/
theorem conjunctText_conjunction (conj : e.isConjunction = true) {p : Nat}
    (le : p ≤ 1) : ConjunctText item names values (e.printAt p) (e.denote item names values) := by
  induction e generalizing p with
  | atom a => exact conjunctText_literal conj p
  | not e _ => exact conjunctText_literal conj p
  | and l r ihl ihr =>
    rw [Expr.isConjunction, Bool.and_eq_true] at conj
    have text : (Expr.and l r).printAt p = l.printAt 1 ++ andKeyword ++ r.printAt 1 := by
      rw [Expr.printAt, if_neg (by omega)]
    rw [text]
    exact (ihl conj.1 (Nat.le_refl 1)).and (ihr conj.2 (Nat.le_refl 1))
  | or l r => simp [Expr.isConjunction, Expr.isLiteral] at conj
  | paren e => simp [Expr.isConjunction, Expr.isLiteral] at conj

/-- A text in which the scan for `AND` finds nothing, whatever is joined to it. -/
structure WithoutAnd (text : Text) : Prop where
  tight : Tight text
  ascii : ∀ tail, AsciiFor 4 tail → AsciiFor 4 (text ++ tail)
  start : ∀ tail, "AND ".toList.isPrefixOf (text ++ tail) = false
  pass : ∀ tail, AsciiFor 4 tail →
    findTopLevel andKeyword 0 (text ++ tail) = prepend text (findTopLevel andKeyword 0 tail)

theorem withoutAnd_literal (literal : e.isLiteral = true) (p : Nat) :
    WithoutAnd (e.printAt p) where
  tight := tight_literal literal p
  ascii := fun _ ascii => asciiFor_literal literal p ascii
  start := literal_not_connective (.inl rfl) literal p
  pass := fun _ ascii => findTopLevel_literal (.inl rfl) literal p ascii

theorem WithoutAnd.or (left : WithoutAnd a) (right : WithoutAnd b) :
    WithoutAnd (a ++ orKeyword ++ b) where
  tight := left.tight.append orKeyword right.tight
  ascii := by
    intro tail ascii
    rw [List.append_assoc, List.append_assoc]
    refine left.ascii _ (asciiFor_append (forall_mem_of_all (by decide)) ?_)
    exact (right.ascii tail ascii).mono (by omega)
  start := by
    intro tail
    rw [List.append_assoc, List.append_assoc]
    exact left.start _
  pass := by
    intro tail ascii
    have passOr : findTopLevel andKeyword 0 (orKeyword ++ (b ++ tail)) =
        prepend orKeyword (findTopLevel andKeyword 0 (b ++ tail)) := by
      rw [andKeyword_eq]
      refine findTopLevel_segment ?_ (forall_mem_of_all (by decide)) ?_
      · exact asciiFor_append (forall_mem_of_all (by decide)) ((right.ascii tail ascii).mono (by decide))
      · rw [orKeyword_eq]
        exact ⟨fun _ => rfl, by simp, by simp, fun _ => right.start tail, trivial⟩
    have asciiOr : AsciiFor 4 (orKeyword ++ (b ++ tail)) :=
      asciiFor_append (forall_mem_of_all (by decide)) ((right.ascii tail ascii).mono (by omega))
    rw [List.append_assoc, List.append_assoc, left.pass _ asciiOr, passOr, right.pass tail ascii,
      prepend_append, prepend_append, List.append_assoc]

theorem WithoutAnd.noAnd (without : WithoutAnd text) :
    findTopLevel andKeyword 0 text = some none := by
  have passed := without.pass [] (by simp [AsciiFor])
  rw [List.append_nil] at passed
  rw [passed]
  rfl

variable (item names values) in
/-- The text has the value `v`, alone and in front of a further disjunct. -/
structure DisjunctText (text : Text) (v : Bool) : Prop where
  without : WithoutAnd text
  alone : Reads item names values text v
  before : ∀ rest w, WithoutAnd rest → Reads item names values rest w →
    Reads item names values (text ++ orKeyword ++ rest) (v || w)

theorem disjunctText_literal (literal : e.isLiteral = true) (p : Nat) :
    DisjunctText item names values (e.printAt p) (e.denote item names values) where
  without := withoutAnd_literal literal p
  alone := reads_literal literal p
  before := by
    intro rest w withoutRest reads fuel enough
    obtain ⟨fuel, rfl⟩ : ∃ n, fuel = n + 1 := ⟨fuel - 1, by omega⟩
    have whole := (withoutAnd_literal literal p).or withoutRest
    simp only [List.length_append, orKeyword_length] at enough
    rw [evaluateExpr_or whole.tight whole.noAnd (findTopLevel_behind (.inr rfl) literal p rest),
      reads_literal literal p fuel (by omega), reads fuel (by omega)]
    cases e.denote item names values <;> rfl

theorem DisjunctText.or {v w : Bool} (left : DisjunctText item names values a v)
    (right : DisjunctText item names values b w) :
    DisjunctText item names values (a ++ orKeyword ++ b) (v || w) where
  without := left.without.or right.without
  alone := left.before b w right.without right.alone
  before := by
    intro rest x withoutRest reads
    have later := right.before rest x withoutRest reads
    have whole := left.before _ _ (right.without.or withoutRest) later
    simpa [List.append_assoc, Bool.or_assoc] using whole

/-- A disjunction is read as its meaning. -/
theorem disjunctText_disjunction (disj : e.isDisjunction = true) :
    DisjunctText item names values (e.printAt 0) (e.denote item names values) := by
  induction e with
  | atom a => exact disjunctText_literal disj 0
  | not e _ => exact disjunctText_literal disj 0
  | and l r => simp [Expr.isDisjunction, Expr.isLiteral] at disj
  | or l r ihl ihr =>
    rw [Expr.isDisjunction, Bool.and_eq_true] at disj
    have text : (Expr.or l r).printAt 0 = l.printAt 0 ++ orKeyword ++ r.printAt 0 := by
      rw [Expr.printAt, if_neg (by omega)]
    rw [text]
    exact (ihl disj.1).or (ihr disj.2)
  | paren e => simp [Expr.isDisjunction, Expr.isLiteral] at disj

end Evaluate

def nameA : NameToken := ⟨['a'], by decide, forall_mem_of_all (by decide), by decide⟩

def nameB : NameToken := ⟨['b'], by decide, forall_mem_of_all (by decide), by decide⟩

def nameC : NameToken := ⟨['c'], by decide, forall_mem_of_all (by decide), by decide⟩

def nameAccent : NameToken := ⟨['é'], by decide, forall_mem_of_all (by decide), by decide⟩

def valueV : ValueToken := ⟨['v'], forall_mem_of_all (by decide)⟩

/-- `name = :v`. -/
def equalsV (name : NameToken) : Expr := .atom (.compare name .eq valueV)

/-- `a = :v OR b = :v AND c = :v`. -/
def mixed : Expr := .or (equalsV nameA) (.and (equalsV nameB) (equalsV nameC))

/-- Only `a` is present. -/
def onlyA : Item := (∅ : Item).insert "a" (.s "1")

def vIsOne : AttrValues := (∅ : AttrValues).insert ":v" (.s "1")

end Openstack.DynamoDb

import Openstack.Lib.Json
import Openstack.Lib.JsonText

/-!
JSON values as text: printed without blanks, and read back. A number is printed by its digits or by the
text it has; a text that is no number is kept as a string behind a tilde, so that every value of the type
can be read back.
-/
namespace Openstack.JsonText

def isNumberChar (c : Char) : Bool := c.isDigit || "+-.eE".toList.contains c

def isInteger (text : List Char) : Bool :=
  text.all Char.isDigit || (text.head? = some '-' && text.tail.all Char.isDigit)

/-- The number that a text stands for. -/
@[grind] def numberOf (text : List Char) : Json :=
  if text.all Char.isDigit then .posInt (RustFmt.digitsValue text)
  else if isInteger text then .negInt (RustFmt.digitsValue text.tail)
  else .float (String.ofList text)

def printFloat (text : List Char) : List Char :=
  if text.all isNumberChar && !isInteger text then text else '~' :: printString text

mutual

def print : Json → List Char
  | .null => "null".toList
  | .bool b => if b then "true".toList else "false".toList
  | .posInt n => Nat.toDigits 10 n
  | .negInt n => '-' :: Nat.toDigits 10 n
  | .float text => printFloat text.toList
  | .str s => printString s.toList
  | .arr items => '[' :: printItems items
  | .obj fields => '\x7b' :: printFields fields

/-- The items with the bracket that closes them. -/
def printItems : List Json → List Char
  | [] => [']']
  | x :: rest => print x ++ if rest.isEmpty then [']'] else ',' :: printItems rest

def printFields : List (String × Json) → List Char
  | [] => ['\x7d']
  | (key, x) :: rest =>
    printString key.toList ++ ':' :: (print x ++ if rest.isEmpty then ['\x7d'] else ',' :: printFields rest)

end

/-- The words of the grammar. -/
def readWord (s : List Char) : Option (Json × List Char) :=
  if "null".toList.isPrefixOf s then some (.null, s.drop 4)
  else if "true".toList.isPrefixOf s then some (.bool true, s.drop 4)
  else if "false".toList.isPrefixOf s then some (.bool false, s.drop 5)
  else none

/-- What stands after the first character, when it is that one. -/
def expect (c : Char) (s : List Char) : Option (List Char) := if s.head? = some c then some s.tail else none

mutual

/-- The value at the start of a text; a bound on the number of calls comes first. -/
def read : Nat → List Char → Option (Json × List Char)
  | 0, _ => none
  | n + 1, s =>
    if s.head? = some '"' then (readString s).map fun r => (.str (String.ofList r.1), r.2)
    else if s.head? = some '~' then (readString s.tail).map fun r => (.float (String.ofList r.1), r.2)
    else if s.head? = some '[' then
      if s.tail.head? = some ']' then some (.arr [], s.tail.tail)
      else (readItems n s.tail).map fun r => (.arr r.1, r.2)
    else if s.head? = some '\x7b' then
      if s.tail.head? = some '\x7d' then some (.obj [], s.tail.tail)
      else (readFields n s.tail).map fun r => (.obj r.1, r.2)
    else if s.head?.any isNumberChar then
      some (numberOf (s.takeWhile isNumberChar), s.dropWhile isNumberChar)
    else readWord s

def readItems : Nat → List Char → Option (List Json × List Char)
  | 0, _ => none
  | n + 1, s =>
    (read n s).bind fun r =>
      if r.2.head? = some ']' then some ([r.1], r.2.tail)
      else (expect ',' r.2).bind fun rest => (readItems n rest).map fun more => (r.1 :: more.1, more.2)

def readFields : Nat → List Char → Option (List (String × Json) × List Char)
  | 0, _ => none
  | n + 1, s =>
    (readString s).bind fun key => (expect ':' key.2).bind fun value =>
      (read n value).bind fun r =>
        if r.2.head? = some '\x7d' then some ([(String.ofList key.1, r.1)], r.2.tail)
        else (expect ',' r.2).bind fun rest =>
          (readFields n rest).map fun more => ((String.ofList key.1, r.1) :: more.1, more.2)

end

/-- `serde_json::from_str` on a text without blanks. -/
def parse (text : List Char) : Option Json :=
  (read text.length text).bind fun r => if r.2.isEmpty then some r.1 else none

/-- A number does not go on in the text. -/
def Ends (rest : List Char) : Prop := ∀ c, rest.head? = some c → isNumberChar c = false

section Numbers

variable {token rest : List Char}

theorem isNumberChar_of_isDigit {c : Char} (digit : c.isDigit = true) : isNumberChar c = true := by
  rw [isNumberChar, digit, Bool.true_or]

/-- A text of number characters begins like no other value, and not like the end of a list. -/
theorem head_ne_of_number (nonempty : token ≠ []) (number : ∀ c ∈ token, isNumberChar c = true)
    {d : Char} (other : isNumberChar d = false) : (token ++ rest).head? ≠ some d := by
  cases token with
  | nil => exact absurd rfl nonempty
  | cons c more =>
    intro same
    cases same
    rw [number d List.mem_cons_self] at other
    cases other

theorem takeWhile_number (number : ∀ c ∈ token, isNumberChar c = true) (ends : Ends rest) :
    (token ++ rest).takeWhile isNumberChar = token ∧ (token ++ rest).dropWhile isNumberChar = rest := by
  rw [List.takeWhile_append_of_pos number, List.dropWhile_append_of_pos number]
  cases rest with
  | nil => simp
  | cons c more =>
    have stop := ends c rfl
    simp [stop]

theorem read_number (nonempty : token ≠ []) (number : ∀ c ∈ token, isNumberChar c = true)
    (ends : Ends rest) (n : Nat) : read (n + 1) (token ++ rest) = some (numberOf token, rest) := by
  have other {d : Char} (plain : isNumberChar d = false) :=
    @head_ne_of_number token rest nonempty number d plain
  have first : (token ++ rest).head?.any isNumberChar = true := by
    cases token with
    | nil => exact absurd rfl nonempty
    | cons c more => exact number c List.mem_cons_self
  obtain ⟨taken, left⟩ := takeWhile_number number ends
  rw [read, if_neg (other (by decide)), if_neg (other (by decide)), if_neg (other (by decide)),
    if_neg (other (by decide)), if_pos first, taken, left]

theorem isDigit_of_mem_toDigits {n : Nat} {c : Char} (member : c ∈ Nat.toDigits 10 n) : c.isDigit = true :=
  Nat.isDigit_of_mem_toDigits (by decide) (by decide) member

theorem numberOf_toDigits (n : Nat) : numberOf (Nat.toDigits 10 n) = .posInt n := by
  rw [numberOf, if_pos (List.all_eq_true.mpr fun _ member => isDigit_of_mem_toDigits member),
    RustFmt.digitsValue_toDigits]

theorem numberOf_minus (n : Nat) : numberOf ('-' :: Nat.toDigits 10 n) = .negInt n := by
  have digits : (Nat.toDigits 10 n).all Char.isDigit = true :=
    List.all_eq_true.mpr fun _ member => isDigit_of_mem_toDigits member
  have sign : Char.isDigit '-' = false := by decide
  simp [numberOf, isInteger, sign, digits, RustFmt.digitsValue_toDigits]

theorem number_minus {n : Nat} : ∀ c ∈ '-' :: Nat.toDigits 10 n, isNumberChar c = true :=
  List.forall_mem_cons.mpr
    ⟨by decide, fun _ member => isNumberChar_of_isDigit (isDigit_of_mem_toDigits member)⟩

theorem printFloat_cases (text : List Char) :
    (printFloat text = text ∧ text ≠ [] ∧ (∀ c ∈ text, isNumberChar c = true) ∧
      numberOf text = .float (String.ofList text)) ∨ printFloat text = '~' :: printString text := by
  rw [printFloat]
  split
  · next plain =>
    rw [Bool.and_eq_true, Bool.not_eq_true', List.all_eq_true] at plain
    obtain ⟨number, other⟩ := plain
    refine .inl ⟨rfl, ?_, number, ?_⟩
    · rintro rfl
      cases other
    · have digits : text.all Char.isDigit = false := by
        rw [isInteger, Bool.or_eq_false_iff] at other
        exact other.1
      simp [numberOf, digits, other]
  · exact .inr rfl

end Numbers

section Values

variable {rest : List Char}

theorem expect_self (c : Char) : expect c (c :: rest) = some rest := if_pos rfl

/-- The round trip of one value, whatever follows it. -/
def Reads (v : Json) : Prop :=
  (∀ rest, (print v ++ rest).head? ≠ some ']') ∧
    ∀ rest n, Ends rest → (print v).length ≤ n → read n (print v ++ rest) = some (v, rest)

theorem ends_cons {c : Char} (plain : isNumberChar c = false) : Ends (c :: rest) := by
  intro d same
  cases same
  exact plain

theorem reads_number {v : Json} {token : List Char} (printed : print v = token) (nonempty : token ≠ [])
    (number : ∀ c ∈ token, isNumberChar c = true) (value : numberOf token = v) : Reads v := by
  rw [Reads, printed]
  refine ⟨fun rest => head_ne_of_number nonempty number (by decide), fun rest n ends long => ?_⟩
  cases n with
  | zero => exact absurd (List.length_eq_zero_iff.mp (Nat.le_zero.mp long)) nonempty
  | succ n => rw [read_number nonempty number ends, value]

theorem reads_string (s : String) : Reads (.str s) := by
  refine ⟨fun rest => by rw [print, printString]; simp, fun rest n _ long => ?_⟩
  cases n with
  | zero =>
    rw [print, printString] at long
    cases long
  | succ n =>
    rw [print, read, readString_printString, if_pos (by rw [printString]; rfl), Option.map_some,
      String.ofList_toList]

theorem reads_float (text : String) : Reads (.float text) := by
  rcases printFloat_cases text.toList with ⟨plain, nonempty, number, value⟩ | quoted
  · rw [String.ofList_toList] at value
    exact @reads_number _ text.toList plain nonempty number value
  · have printed : print (.float text) = '~' :: printString text.toList := quoted
    rw [Reads, printed]
    refine ⟨fun rest => by simp, fun rest n _ long => ?_⟩
    cases n with
    | zero => cases long
    | succ n =>
      rw [read, if_neg (by simp), if_pos (by simp), List.cons_append, List.tail_cons,
        readString_printString, Option.map_some, String.ofList_toList]

/-- The items of a list, with the bracket that closes it. -/
theorem readItems_print {items : List Json} (each : ∀ x ∈ items, Reads x) (nonempty : items ≠ [])
    (rest : List Char) {n : Nat} (long : (printItems items).length ≤ n) :
    readItems n (printItems items ++ rest) = some (items, rest) := by
  induction items generalizing n with
  | nil => exact absurd rfl nonempty
  | cons x more ih =>
    cases n with
    | zero =>
      rw [printItems] at long
      split at long <;> simp at long
    | succ n =>
      have here := (each x List.mem_cons_self).2
      rw [printItems, List.length_append] at long
      rw [printItems, List.append_assoc, readItems]
      cases more with
      | nil =>
        simp only [List.isEmpty_nil, if_true, List.length_singleton] at long ⊢
        rw [List.singleton_append, here _ n (ends_cons (by decide)) (by omega), Option.bind_some]
        rfl
      | cons y later =>
        simp only [List.isEmpty_cons, Bool.false_eq_true, if_false, List.length_cons] at long ⊢
        rw [List.cons_append, here _ n (ends_cons (by decide)) (by omega), Option.bind_some]
        dsimp only
        rw [if_neg (by simp), expect_self, Option.bind_some,
          ih (fun v member => each v (List.mem_cons_of_mem _ member)) (by simp) (by omega)]
        rfl

theorem readFields_print {fields : List (String × Json)} (each : ∀ field ∈ fields, Reads field.2)
    (nonempty : fields ≠ []) (rest : List Char) {n : Nat} (long : (printFields fields).length ≤ n) :
    readFields n (printFields fields ++ rest) = some (fields, rest) := by
  induction fields generalizing n with
  | nil => exact absurd rfl nonempty
  | cons field more ih =>
    obtain ⟨key, x⟩ := field
    cases n with
    | zero =>
      rw [printFields] at long
      simp at long
    | succ n =>
      have here : ∀ rest n, Ends rest → (print x).length ≤ n →
          read n (print x ++ rest) = some (x, rest) := (each (key, x) List.mem_cons_self).2
      rw [printFields, List.length_append, List.length_cons, List.length_append] at long
      rw [printFields, List.append_assoc, List.cons_append, List.append_assoc, readFields,
        readString_printString, Option.bind_some]
      dsimp only
      rw [expect_self, Option.bind_some]
      cases more with
      | nil =>
        simp only [List.isEmpty_nil, if_true, List.length_singleton] at long ⊢
        rw [List.singleton_append, here _ n (ends_cons (by decide)) (by omega), Option.bind_some,
          String.ofList_toList]
        rfl
      | cons other later =>
        simp only [List.isEmpty_cons, Bool.false_eq_true, if_false, List.length_cons] at long ⊢
        rw [List.cons_append, here _ n (ends_cons (by decide)) (by omega), Option.bind_some]
        dsimp only
        rw [if_neg (by simp), expect_self, Option.bind_some,
          ih (fun v member => each v (List.mem_cons_of_mem _ member)) (by simp) (by omega),
          String.ofList_toList]
        rfl

theorem reads_array {items : List Json} (each : ∀ x ∈ items, Reads x) : Reads (.arr items) := by
  rw [Reads, print]
  refine ⟨fun rest => by simp, fun rest n _ long => ?_⟩
  cases n with
  | zero => cases long
  | succ n =>
    rw [List.cons_append, read, if_neg (by simp), if_neg (by simp), if_pos (by simp), List.tail_cons]
    cases items with
    | nil => rfl
    | cons x more =>
      have head : (printItems (x :: more) ++ rest).head? ≠ some ']' := by
        rw [printItems, List.append_assoc]
        exact (each x List.mem_cons_self).1 _
      rw [if_neg head, readItems_print each (by simp) rest (Nat.le_of_succ_le_succ long)]
      rfl

theorem reads_object {fields : List (String × Json)} (each : ∀ field ∈ fields, Reads field.2) :
    Reads (.obj fields) := by
  rw [Reads, print]
  refine ⟨fun rest => by simp, fun rest n _ long => ?_⟩
  cases n with
  | zero => cases long
  | succ n =>
    rw [List.cons_append, read, if_neg (by simp), if_neg (by simp), if_neg (by simp), if_pos (by simp),
      List.tail_cons]
    cases fields with
    | nil => rfl
    | cons field more =>
      have head : (printFields (field :: more) ++ rest).head? ≠ some '\x7d' := by
        rw [printFields, printString]
        simp
      rw [if_neg head, readFields_print each (by simp) rest (Nat.le_of_succ_le_succ long)]
      rfl

theorem reads_word {v : Json} {c : Char} {word : List Char} (printed : print v = c :: word)
    (other : c ∉ ['"', '~', '[', '\x7b', ']'] ∧ isNumberChar c = false)
    (known : ∀ rest, readWord (c :: word ++ rest) = some (v, rest)) : Reads v := by
  rw [Reads, printed]
  simp only [List.mem_cons, List.not_mem_nil, or_false, not_or] at other
  refine ⟨fun rest => by simpa using other.1.2.2.2.2, fun rest n _ long => ?_⟩
  cases n with
  | zero => cases long
  | succ n =>
    rw [read, if_neg (by simpa using other.1.1), if_neg (by simpa using other.1.2.1),
      if_neg (by simpa using other.1.2.2.1), if_neg (by simpa using other.1.2.2.2.1),
      if_neg (by simpa using other.2), known]

theorem reads (v : Json) : Reads v := by
  refine @Json.rec Reads (fun items => ∀ x ∈ items, Reads x)
    (fun fields => ∀ field ∈ fields, Reads field.2) (fun field => Reads field.2)
    ?_ ?_ ?_ ?_ ?_ ?_ ?_ ?_ ?_ ?_ ?_ ?_ ?_ v
  · exact reads_word rfl (by decide) fun _ => rfl
  · intro b
    cases b
    · exact reads_word rfl (by decide) fun _ => rfl
    · exact reads_word rfl (by decide) fun _ => rfl
  · intro n
    refine @reads_number _ (Nat.toDigits 10 n) rfl (by simp) ?_ (numberOf_toDigits n)
    exact fun _ member => isNumberChar_of_isDigit (isDigit_of_mem_toDigits member)
  · intro n
    exact @reads_number _ ('-' :: Nat.toDigits 10 n) rfl (by simp) number_minus (numberOf_minus n)
  · exact reads_float
  · exact reads_string
  · intro items each
    exact reads_array each
  · intro fields each
    exact reads_object each
  · exact List.forall_mem_nil _
  · intro first more here later
    exact List.forall_mem_cons.mpr ⟨here, later⟩
  · exact List.forall_mem_nil _
  · intro first more here later
    exact List.forall_mem_cons.mpr ⟨here, later⟩
  · intro key x here
    exact here

end Values

/-- Every value is read back from what is printed of it. -/
theorem parse_print (v : Json) : parse (print v) = some v := by
  have read := (reads v).2 [] _ (fun c some_char => by cases some_char) le_rfl
  rw [List.append_nil] at read
  rw [parse, read]
  rfl

end Openstack.JsonText

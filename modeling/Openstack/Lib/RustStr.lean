import Mathlib.Data.List.DropRight

/-!
String methods of the Rust standard library, on character lists: a Rust `str` is
valid UTF-8, so a pattern made of whole characters matches at character
boundaries only.
-/
namespace Openstack.RustStr

def startsWith (s pat : String) : Bool := pat.toList.isPrefixOf s.toList

def endsWith (s pat : String) : Bool := pat.toList.isSuffixOf s.toList

/-- `s.rsplit(sep).next().unwrap_or("")`: the text after the last `sep`. -/
def rsplitFirst (sep : Char) (s : String) : String :=
  String.ofList (s.toList.rtakeWhile (· ≠ sep))

/-- `s.find(pat).map(|pos| &s[..pos])`: the text before the first occurrence. -/
def before (pat : List Char) : List Char → Option (List Char)
  | [] => if pat.isEmpty then some [] else none
  | c :: rest =>
    if pat.isPrefixOf (c :: rest) then some [] else (before pat rest).map (c :: ·)

/-- `s.find(pat).map(|pos| &s[pos + pat.len()..])`: the text after the first occurrence. -/
def after (pat s : List Char) : Option (List Char) :=
  (before pat s).map fun x => s.drop (x.length + pat.length)

/-- `s.contains(pat)`. -/
def contains (s pat : List Char) : Bool := (before pat s).isSome

/-- `s.strip_prefix(pat)`. -/
def stripPrefix (pat s : List Char) : Option (List Char) :=
  if pat.isPrefixOf s then some (s.drop pat.length) else none

/-- `s.trim_start_matches(pat)` for a nonempty pattern, with a bound on the number of matches. -/
def trimStartMatchesUpTo (pat : List Char) : (bound : Nat) → List Char → List Char
  | 0, s => s
  | n + 1, s => if pat.isPrefixOf s then trimStartMatchesUpTo pat n (s.drop pat.length) else s

/-- `s.trim_start_matches(pat)` for a nonempty pattern. -/
def trimStartMatches (pat s : List Char) : List Char := trimStartMatchesUpTo pat s.length s

/-- `char::is_whitespace`, the property `White_Space`. -/
def isWhitespace (c : Char) : Bool :=
  let n := c.toNat
  (9 ≤ n && n ≤ 13) || n == 0x20 || n == 0x85 || n == 0xA0 || n == 0x1680 ||
    (0x2000 ≤ n && n ≤ 0x200A) || n == 0x2028 || n == 0x2029 || n == 0x202F || n == 0x205F ||
    n == 0x3000

/-- `s.trim()`. -/
def trim (s : List Char) : List Char := (s.dropWhile isWhitespace).rdropWhile isWhitespace

/-- `s.splitn(n, sep)`. -/
def splitn (sep : Char) : (n : Nat) → List Char → List (List Char)
  | 0, _ => []
  | 1, s => [s]
  | n + 2, s =>
    if sep ∈ s then
      s.takeWhile (· ≠ sep) :: splitn sep (n + 1) ((s.dropWhile (· ≠ sep)).drop 1)
    else [s]

/-- `s.to_ascii_lowercase()`. -/
def toAsciiLowercase (s : String) : String := String.ofList (s.toList.map Char.toLower)

/-- `s.eq_ignore_ascii_case(t)`. -/
def eqIgnoreAsciiCase (s t : String) : Bool := toAsciiLowercase s = toAsciiLowercase t

/-- `s.replace(pat, repl)` for a nonempty pattern, `skip` characters into a match. -/
@[grind] def replaceFrom (pat repl : List Char) : (skip : Nat) → List Char → List Char
  | _, [] => []
  | skip + 1, _ :: rest => replaceFrom pat repl skip rest
  | 0, c :: rest =>
    if pat.isPrefixOf (c :: rest) then repl ++ replaceFrom pat repl (pat.length - 1) rest
    else c :: replaceFrom pat repl 0 rest

/-- `s.replace(pat, repl)` for a nonempty pattern. -/
def replace (pat repl s : List Char) : List Char := replaceFrom pat repl 0 s

/-- `s.split(pat)` for a nonempty pattern; `current` is the part read so far, in reverse. -/
def splitFrom (pat : List Char) : (skip : Nat) → (current : List Char) → List Char → List (List Char)
  | _, current, [] => [current.reverse]
  | skip + 1, current, _ :: rest => splitFrom pat skip current rest
  | 0, current, c :: rest =>
    if pat.isPrefixOf (c :: rest) then current.reverse :: splitFrom pat (pat.length - 1) [] rest
    else splitFrom pat 0 (c :: current) rest

/-- `s.split(pat)`. The empty pattern is found around every character. -/
def split (pat s : List Char) : List (List Char) :=
  if pat.isEmpty then [] :: (s.map fun c => [c]) ++ [[]] else splitFrom pat 0 [] s

/-- What stands before the first occurrence is followed by the pattern. -/
theorem before_isPrefix {pat s x : List Char} (found : before pat s = some x) :
    x ++ pat <+: s := by
  induction s generalizing x with
  | nil =>
    simp only [before, List.isEmpty_iff, Option.ite_none_right_eq_some, Option.some.injEq] at found
    obtain ⟨rfl, rfl⟩ := found
    exact List.prefix_rfl
  | cons c rest ih =>
    rw [before] at found
    split at found
    · next here =>
      cases found
      exact List.isPrefixOf_iff_prefix.mp here
    · obtain ⟨y, hy, rfl⟩ := Option.map_eq_some_iff.mp found
      exact List.cons_prefix_cons.mpr ⟨rfl, ih hy⟩

/-- An occurrence that starts earlier would lie within the text up to the first. -/
theorem before_eq_of_isPrefix {pat s s' x : List Char} (found : before pat s = some x)
    (again : x ++ pat <+: s') : before pat s' = some x := by
  induction s generalizing s' x with
  | nil =>
    simp only [before, List.isEmpty_iff, Option.ite_none_right_eq_some, Option.some.injEq] at found
    obtain ⟨rfl, rfl⟩ := found
    cases s' <;> simp [before]
  | cons c rest ih =>
    rw [before] at found
    split at found
    · cases found
      cases s' with
      | nil => simpa [before] using again
      | cons d more => simpa [before] using again
    · next elsewhere =>
      obtain ⟨y, hy, rfl⟩ := Option.map_eq_some_iff.mp found
      cases s' with
      | nil => simp at again
      | cons d more =>
        obtain ⟨rfl, tail⟩ := List.cons_prefix_cons.mp again
        have not_here : pat.isPrefixOf (c :: more) = false := by
          rw [Bool.eq_false_iff]
          intro here
          -- `pat` is no longer than the common part, so it would start here in `s` too
          have front : pat <+: c :: (y ++ pat) :=
            List.prefix_of_prefix_length_le (List.isPrefixOf_iff_prefix.mp here)
              (List.cons_prefix_cons.mpr ⟨rfl, tail⟩) (by simp; omega)
          have there : pat <+: c :: rest :=
            front.trans (List.cons_prefix_cons.mpr ⟨rfl, before_isPrefix hy⟩)
          exact elsewhere (List.isPrefixOf_iff_prefix.mpr there)
        rw [before, not_here]
        simp [ih hy tail]

/-- The text after the first occurrence, where nothing before the end of it is another one. -/
theorem after_append {pat front : List Char} (first : before pat (front ++ pat) = some front)
    (rest : List Char) : after pat (front ++ pat ++ rest) = some rest := by
  have found := before_eq_of_isPrefix first (List.prefix_append (front ++ pat) rest)
  rw [after, found, Option.map_some, ← List.length_append, List.drop_left]

/-- Letters and digits of ASCII lie between `0` and `z`. -/
theorem isAlphanum_bounds {c : Char} (letter : c.isAlphanum = true) : 48 ≤ c.toNat ∧ c.toNat < 123 := by
  have code : c.val.toNat = c.toNat := rfl
  delta Char.isAlphanum Char.isAlpha Char.isUpper Char.isLower Char.isDigit at letter
  simp only [Bool.or_eq_true, Bool.and_eq_true, decide_eq_true_eq, ge_iff_le, UInt32.le_iff_toNat_le,
    code] at letter
  simp at letter
  omega

theorem isAlphanum_of_isWhitespace {c : Char} (white : isWhitespace c = true) : c.isAlphanum = false := by
  rw [Bool.eq_false_iff]
  intro letter
  have bounds := isAlphanum_bounds letter
  simp [isWhitespace] at white
  omega

theorem trim_eq_self {s : List Char} (first : ∀ c ∈ s.head?, isWhitespace c = false)
    (last : ∀ c ∈ s.getLast?, isWhitespace c = false) : trim s = s := by
  cases s with
  | nil => rfl
  | cons c rest =>
    have front : (c :: rest).dropWhile isWhitespace = c :: rest :=
      List.dropWhile_cons_of_neg (by simp [first c rfl])
    rw [trim, front, List.rdropWhile_eq_self_iff]
    intro nonempty
    simp [last _ (List.getLast?_eq_some_getLast nonempty)]

theorem startsWith_append {s pat : String} (starts : startsWith s pat = true) (rest : String) :
    startsWith (s ++ rest) pat = true := by
  rw [startsWith, List.isPrefixOf_iff_prefix] at starts ⊢
  rw [String.toList_append]
  exact starts.trans (List.prefix_append _ _)

section LastPart

variable {sep : Char}

theorem rtakeWhile_append_cons (front back : List Char) :
    (front ++ sep :: back).rtakeWhile (· ≠ sep) = back.rtakeWhile (· ≠ sep) := by
  have cut : ∀ l r : List Char,
      (l ++ sep :: r).takeWhile (· ≠ sep) = l.takeWhile (· ≠ sep) := by
    intro l r
    induction l with
    | nil => simp
    | cons c l ih =>
      by_cases same : c = sep
      · simp [same]
      · simpa [same] using ih
  rw [List.rtakeWhile, List.rtakeWhile, List.reverse_append, List.reverse_cons, List.append_assoc,
    List.singleton_append, cut]

theorem rsplitFirst_eq_self {s : String} (plain : sep ∉ s.toList) : rsplitFirst sep s = s := by
  have all : s.toList.rtakeWhile (· ≠ sep) = s.toList := by
    rw [List.rtakeWhile_eq_self_iff]
    intro c member
    rw [decide_eq_true_iff]
    rintro rfl
    exact plain member
  rw [rsplitFirst, all, String.ofList_toList]

theorem rsplitFirst_append_cons {front : String} {stem : List Char} (ends : front.toList = stem ++ [sep])
    (back : String) : rsplitFirst sep (front ++ back) = rsplitFirst sep back := by
  rw [rsplitFirst, rsplitFirst, String.toList_append, ends, List.append_assoc, List.singleton_append,
    rtakeWhile_append_cons]

/-- A pattern that ends in the separator takes nothing from the last part. -/
theorem rtakeWhile_trimStartMatches (stem s : List Char) :
    (trimStartMatches (stem ++ [sep]) s).rtakeWhile (· ≠ sep) = s.rtakeWhile (· ≠ sep) := by
  rw [trimStartMatches]
  generalize s.length = bound
  induction bound generalizing s with
  | zero => rfl
  | succ n ih =>
    rw [trimStartMatchesUpTo]
    split
    · next starts =>
      obtain ⟨back, rfl⟩ := List.isPrefixOf_iff_prefix.mp starts
      rw [ih, List.drop_left, List.append_assoc, List.singleton_append, rtakeWhile_append_cons]
    · rfl

end LastPart

/-- A text is cut at its first separator in one way. -/
theorem first_inj {sep : Char} {x y s t : List Char} (first : sep ∉ x) (second : sep ∉ y)
    (same : x ++ sep :: s = y ++ sep :: t) : x = y ∧ s = t := by
  rcases List.append_eq_append_iff.mp same with ⟨more, rfl, tail⟩ | ⟨more, rfl, tail⟩
  all_goals
    cases more with
    | nil => simpa [eq_comm] using tail
    | cons c more =>
      obtain rfl := (List.cons.inj tail).1
      simp at first second

theorem splitn_append {sep : Char} {a : List Char} (plain : sep ∉ a) (n : Nat) (rest : List Char) :
    splitn sep (n + 2) (a ++ sep :: rest) = a :: splitn sep (n + 1) rest := by
  have apart : ∀ c ∈ a, decide (c ≠ sep) = true := fun c member =>
    decide_eq_true fun same => plain (same ▸ member)
  have front : (a ++ sep :: rest).takeWhile (· ≠ sep) = a := by
    rw [List.takeWhile_append_of_pos apart, List.takeWhile_cons_of_neg (by simp), List.append_nil]
  have back : (a ++ sep :: rest).dropWhile (· ≠ sep) = sep :: rest := by
    rw [List.dropWhile_append_of_pos apart, List.dropWhile_cons_of_neg (by simp)]
  rw [splitn, if_pos (by simp), front, back, List.drop_one, List.tail_cons]

section Split

variable {sep : Char} {s a b : List Char}

theorem splitFrom_plain (plain : sep ∉ s) (current : List Char) :
    splitFrom [sep] 0 current s = [current.reverse ++ s] := by
  induction s generalizing current with
  | nil => rw [splitFrom, List.append_nil]
  | cons c rest ih =>
    have apart : [sep].isPrefixOf (c :: rest) = false := by
      have differ : (sep == c) = false := beq_eq_false_iff_ne.mpr fun same => plain (by simp [same])
      rw [List.isPrefixOf, differ, Bool.false_and]
    rw [splitFrom, apart, if_neg Bool.false_ne_true, ih fun member => plain (by simp [member])]
    simp

theorem splitFrom_append (plain : sep ∉ a) (current rest : List Char) :
    splitFrom [sep] 0 current (a ++ sep :: rest) = (current.reverse ++ a) :: splitFrom [sep] 0 [] rest := by
  induction a generalizing current with
  | nil => simp [splitFrom]
  | cons c more ih =>
    have apart : [sep].isPrefixOf (c :: (more ++ sep :: rest)) = false := by
      have differ : (sep == c) = false := beq_eq_false_iff_ne.mpr fun same => plain (by simp [same])
      rw [List.isPrefixOf, differ, Bool.false_and]
    rw [List.cons_append, splitFrom, apart, if_neg Bool.false_ne_true,
      ih fun member => plain (by simp [member])]
    simp

/-- There are two parts where the separator stands once. -/
theorem split_eq_pair_iff : split [sep] s = [a, b] ↔ sep ∉ a ∧ sep ∉ b ∧ s = a ++ sep :: b := by
  have unfolded : split [sep] s = splitFrom [sep] 0 [] s := by simp [split]
  rw [unfolded]
  constructor
  · intro parts
    by_cases member : sep ∈ s
    · obtain ⟨front, rest, rfl, plain⟩ := List.eq_append_cons_of_mem member
      rw [splitFrom_append plain, List.reverse_nil, List.nil_append, List.cons.injEq] at parts
      obtain ⟨rfl, tail⟩ := parts
      by_cases again : sep ∈ rest
      · obtain ⟨front', rest', rfl, plain'⟩ := List.eq_append_cons_of_mem again
        rw [splitFrom_append plain', List.cons.injEq] at tail
        have nonempty : splitFrom [sep] 0 [] rest' ≠ [] := by
          by_cases more : sep ∈ rest'
          · obtain ⟨front'', rest'', rfl, plain''⟩ := List.eq_append_cons_of_mem more
            rw [splitFrom_append plain'']
            simp
          · rw [splitFrom_plain more]
            simp
        exact absurd tail.2 nonempty
      · rw [splitFrom_plain again, List.reverse_nil, List.nil_append, List.cons.injEq] at tail
        rw [← tail.1]
        exact ⟨plain, again, rfl⟩
    · rw [splitFrom_plain member] at parts
      cases parts
  · rintro ⟨plain, plain', rfl⟩
    rw [splitFrom_append plain, splitFrom_plain plain']
    rfl

end Split

end Openstack.RustStr

import Openstack.Lib.Replacement

/-!
A text with marked names in it, and values for the names: all put in at once, and one after the other by
replacing each mark in the whole text. The two agree where every mark that a round finds is one of the text.
-/
namespace Openstack.Substitution

variable {done : List (String × String)} {name : String} {text : List Piece} {piece : Piece}

inductive Piece where
  | char (c : Char)
  | hole (name : String)
  deriving DecidableEq, Repr

/-- The pieces of a text; `holeAt` says whether a marked name begins there. -/
@[grind]
def pieces (mark : String → List Char) (holeAt : List Char → Option String) : (skip : Nat) → List Char → List Piece
  | _, [] => []
  | skip + 1, _ :: rest => pieces mark holeAt skip rest
  | 0, c :: rest =>
    match holeAt (c :: rest) with
    | some name => .hole name :: pieces mark holeAt ((mark name).length - 1) rest
    | none => .char c :: pieces mark holeAt 0 rest

/-- A piece after some names have got their values. -/
def shown (mark : String → List Char) (done : List (String × String)) : Piece → List Char
  | .char c => [c]
  | .hole name =>
    match done.lookup name with
    | some value => value.toList
    | none => mark name

/-- Wherever the mark stands after these rounds, the text has it itself. -/
def OwnOnly (mark : String → List Char) (text : List Piece) (done : List (String × String)) (name : String) : Prop :=
  ∀ front rest, text.flatMap (shown mark done) = front ++ mark name ++ rest →
    ∃ before after, text = before ++ .hole name :: after ∧ front = before.flatMap (shown mark done) ∧
      done.lookup name = none

section Pieces

variable {mark : String → List Char} {holeAt : List Char → Option String}

theorem pieces_drop (skip : Nat) (text : List Char) :
    pieces mark holeAt skip text = pieces mark holeAt 0 (text.drop skip) := by
  induction text generalizing skip with
  | nil => cases skip <;> rfl
  | cons c rest ih =>
    cases skip with
    | zero => rfl
    | succ skip => rw [pieces, List.drop_succ_cons, ih]

/-- Nothing of a text is lost in its pieces. -/
theorem flatMap_pieces (nonempty : ∀ name, mark name ≠ [])
    (begins : ∀ text name, holeAt text = some name → mark name <+: text) (text : List Char) :
    (pieces mark holeAt 0 text).flatMap (shown mark []) = text := by
  induction length : text.length using Nat.strong_induction_on generalizing text with
  | _ n ih =>
    cases text with
    | nil => rfl
    | cons c rest =>
      rw [pieces]
      cases found : holeAt (c :: rest) with
      | none =>
        rw [List.flatMap_cons, ih rest.length (by rw [← length]; exact Nat.lt_succ_self _) rest rfl]
        rfl
      | some name =>
        obtain ⟨later, whole⟩ := begins _ name found
        cases marked : mark name with
        | nil => exact absurd marked (nonempty name)
        | cons d tail =>
          rw [marked, List.cons_append] at whole
          obtain ⟨rfl, rfl⟩ := List.cons.inj whole
          have shorter : later.length < n := by
            rw [← length, List.length_cons, List.length_append]
            omega
          have now : shown mark [] (.hole name) = d :: tail := marked
          simp only
          rw [List.flatMap_cons, now, pieces_drop, marked, List.length_cons, Nat.add_sub_cancel, List.drop_left,
            ih later.length shorter later rfl, List.cons_append]

theorem holeAt_of_mem {text : List Char} (member : .hole name ∈ pieces mark holeAt 0 text) :
    ∃ rest, holeAt rest = some name := by
  induction length : text.length using Nat.strong_induction_on generalizing text with
  | _ n ih =>
    cases text with
    | nil => cases member
    | cons c rest =>
      have shorter : ∀ skip, (rest.drop skip).length < n := by
        intro skip
        rw [← length, List.length_drop, List.length_cons]
        omega
      rw [pieces] at member
      cases found : holeAt (c :: rest) with
      | none =>
        rw [found] at member
        exact ih _ (shorter 0) (by simpa using member) rfl
      | some first =>
        rw [found] at member
        rcases List.mem_cons.mp member with same | later
        · rw [Piece.hole.inj same]
          exact ⟨c :: rest, found⟩
        · rw [pieces_drop] at later
          exact ih _ (shorter _) later rfl

end Pieces

section Round

variable {mark : String → List Char}

/-- Text in which no match begins stays as it is. -/
theorem replace_append_of_none {pat : List Char} (repl : List Char) {front rest : List Char}
    (none : ∀ before c after, front = before ++ c :: after → ¬ pat <+: c :: after ++ rest) :
    RustStr.replace pat repl (front ++ rest) = front ++ RustStr.replace pat repl rest := by
  induction front with
  | nil => rfl
  | cons c front ih =>
    have here : ¬ pat.isPrefixOf (c :: (front ++ rest)) = true := by
      rw [List.isPrefixOf_iff_prefix]
      exact none [] c front rfl
    have later := ih fun before d after split => none (c :: before) d after (by rw [split, List.cons_append])
    rw [RustStr.replace] at later ⊢
    rw [List.cons_append, RustStr.replaceFrom, if_neg here, later, RustStr.replace, List.cons_append]

theorem shown_append_of_ne {name value : String} (other : piece = .hole name → done.lookup name ≠ none) :
    shown mark (done ++ [(name, value)]) piece = shown mark done piece := by
  cases piece with
  | char c => rfl
  | hole hole =>
    rw [shown, shown, List.lookup_append]
    cases found : done.lookup hole with
    | some v => rfl
    | none =>
      have apart : hole ≠ name := by
        rintro rfl
        exact other rfl found
      have missing : List.lookup hole [(name, value)] = none := by
        rw [List.lookup_cons, beq_false_of_ne apart]
        rfl
      rw [missing]
      rfl

/-- The pieces behind the first one: a mark there is one of theirs. -/
theorem OwnOnly.tail (own : OwnOnly mark (piece :: text) done name)
    (short : ∀ front rest, text.flatMap (shown mark done) = front ++ mark name ++ rest →
      shown mark done piece ++ front ≠ [] ∨ piece ≠ .hole name ∨ done.lookup name ≠ none) :
    OwnOnly mark text done name := by
  intro front rest split
  obtain ⟨before, after, whole, start, fresh⟩ := own (shown mark done piece ++ front) rest
    (by rw [List.flatMap_cons, split]; simp only [List.append_assoc])
  cases before with
  | nil =>
    obtain ⟨same, -⟩ := List.cons.inj whole
    rw [List.flatMap_nil] at start
    rcases short front rest split with more | other | old
    · exact absurd start more
    · exact absurd same other
    · exact absurd fresh old
  | cons first before =>
    obtain ⟨rfl, rest'⟩ := List.cons.inj whole
    rw [List.flatMap_cons] at start
    exact ⟨before, after, rest', List.append_cancel_left start, fresh⟩

/-- A round gives one name its value in all places, and changes nothing else. -/
theorem replace_round (nonempty : mark name ≠ []) (own : OwnOnly mark text done name) (value : String) :
    RustStr.replace (mark name) value.toList (text.flatMap (shown mark done)) =
      text.flatMap (shown mark (done ++ [(name, value)])) := by
  induction text with
  | nil => rfl
  | cons piece text ih =>
    rw [List.flatMap_cons, List.flatMap_cons]
    by_cases here : piece = .hole name ∧ done.lookup name = none
    · obtain ⟨rfl, fresh⟩ := here
      have now : shown mark done (.hole name) = mark name := by rw [shown, fresh]
      have then' : shown mark (done ++ [(name, value)]) (.hole name) = value.toList := by
        rw [shown, List.lookup_append, fresh, Option.none_or, List.lookup_cons, beq_self_eq_true]
      have later := own.tail fun front rest _ => .inl (by simp [now, nonempty])
      rw [now, then', ← ih later]
      cases marked : mark name with
      | nil => exact absurd marked nonempty
      | cons p pat => exact Replacement.replace_self p pat _ _
    · have elsewhere : piece ≠ .hole name ∨ done.lookup name ≠ none := not_and_or.mp here
      have later := own.tail fun front rest _ => .inr elsewhere
      rw [shown_append_of_ne fun same => elsewhere.resolve_left (not_not_intro same), ← ih later]
      refine replace_append_of_none _ fun before c after split found => ?_
      obtain ⟨rest, whole⟩ := found
      obtain ⟨front, back, pieces, start, fresh⟩ := own before rest (by
        rw [List.flatMap_cons, split, List.append_assoc, ← whole, List.append_assoc])
      cases front with
      | nil => exact elsewhere.elim (fun other => other (List.cons.inj pieces).1) fun old => old fresh
      | cons first front =>
        obtain ⟨rfl, -⟩ := List.cons.inj pieces
        have lengths := congrArg List.length start
        rw [List.flatMap_cons, split, List.length_append, List.length_append, List.length_cons] at lengths
        omega

/-- Only at the start of a name that has no value yet does the sign stand. -/
theorem open_of_sign {sign : Char} (char : piece ≠ .char sign) (values : ∀ round ∈ done, sign ∉ round.2.toList)
    (hole : ∀ name, piece = .hole name → ∃ body, mark name = sign :: body ∧ sign ∉ body) {front more : List Char}
    (here : shown mark done piece = front ++ sign :: more) :
    ∃ name, piece = .hole name ∧ done.lookup name = none ∧ front = [] := by
  have inside : sign ∈ shown mark done piece := by
    rw [here]
    exact List.mem_append_right _ List.mem_cons_self
  cases piece with
  | char c =>
    rw [List.mem_singleton.mp inside] at char
    exact absurd rfl char
  | hole name =>
    rw [shown] at here inside
    cases found : done.lookup name with
    | some value =>
      rw [found] at inside
      obtain ⟨earlier, later, rfl, -⟩ := List.lookup_eq_some_iff.mp found
      exact absurd inside (values (name, value) (List.mem_append_right _ List.mem_cons_self))
    | none =>
      rw [found] at here
      obtain ⟨body, marked, free⟩ := hole name rfl
      refine ⟨name, rfl, found, ?_⟩
      cases front with
      | nil => rfl
      | cons c front =>
        rw [marked] at here
        obtain ⟨-, rest⟩ := List.cons.inj here
        rw [rest] at free
        exact absurd (List.mem_append_right _ List.mem_cons_self) free

/-- Where the sign that every mark begins with stands nowhere else, all marks are the text's own. -/
theorem ownOnly_of_sign {sign : Char} (starts : ∃ body, mark name = sign :: body) (chars : .char sign ∉ text)
    (values : ∀ round ∈ done, sign ∉ round.2.toList)
    (holes : ∀ hole, .hole hole ∈ text → ∃ body, mark hole = sign :: body ∧ sign ∉ body)
    (apart : ∀ hole rest, .hole hole ∈ text → mark name <+: mark hole ++ rest → hole = name) :
    OwnOnly mark text done name := by
  obtain ⟨body, marked⟩ := starts
  induction text with
  | nil =>
    intro front rest split
    simp [marked] at split
  | cons piece text ih =>
    have own : OwnOnly mark text done name := ih (fun there => chars (List.mem_cons_of_mem _ there))
      (fun hole there => holes hole (List.mem_cons_of_mem _ there))
      (fun hole rest there => apart hole rest (List.mem_cons_of_mem _ there))
    intro front rest split
    have behind : ∀ later, front = shown mark done piece ++ later →
        text.flatMap (shown mark done) = later ++ mark name ++ rest →
        ∃ before after, piece :: text = before ++ .hole name :: after ∧
          front = before.flatMap (shown mark done) ∧ done.lookup name = none := by
      intro later start found
      obtain ⟨before, after, rfl, rfl, fresh⟩ := own later rest found
      exact ⟨piece :: before, after, rfl, start, fresh⟩
    rw [List.flatMap_cons, List.append_assoc] at split
    rcases List.append_eq_append_iff.mp split with ⟨later, start, found⟩ | ⟨more, here, found⟩
    · exact behind later start (by rw [found, List.append_assoc])
    · cases more with
      | nil => exact behind [] (by rw [here]; simp) found.symm
      | cons c more =>
        -- the mark begins inside the piece
        obtain rfl : c = sign := by
          rw [marked] at found
          exact (List.cons.inj found).1.symm
        obtain ⟨hole, rfl, fresh, rfl⟩ := open_of_sign (fun same => chars (same ▸ List.mem_cons_self)) values
          (fun hole same => holes hole (same ▸ List.mem_cons_self)) here
        have begun : mark name <+: mark hole ++ text.flatMap (shown mark done) := by
          refine ⟨rest, ?_⟩
          have shows : shown mark done (.hole hole) = mark hole := by rw [shown, fresh]
          rw [found, ← shows, here, List.nil_append]
        obtain rfl := apart hole _ List.mem_cons_self begun
        exact ⟨[], text, rfl, rfl, fresh⟩

/-- All rounds, each of which finds marks of the text only. -/
theorem foldl_rounds (nonempty : ∀ name, mark name ≠ []) {rounds : List (String × String)}
    (own : ∀ done name value rest, rounds = done ++ (name, value) :: rest → OwnOnly mark text done name) :
    rounds.foldl (fun shown round => RustStr.replace (mark round.1) round.2.toList shown)
        (text.flatMap (shown mark [])) = text.flatMap (shown mark rounds) := by
  induction rounds using List.reverseRecOn with
  | nil => rfl
  | append_singleton done round ih =>
    have before := ih fun earlier name value rest split => own earlier name value (rest ++ [round]) (by
      rw [split, List.append_assoc, List.cons_append])
    rw [List.foldl_concat, before]
    exact replace_round (nonempty round.1) (own done round.1 round.2 [] rfl) round.2

end Round

end Openstack.Substitution

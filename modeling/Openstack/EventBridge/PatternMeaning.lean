import Openstack.EventBridge.Routing

/-!
# What event patterns mean

`event_matches_pattern` and `matches_value` (`crates/services/eventbridge/src/provider.rs`, lines 91-142) beside
the meaning of a pattern of nested objects and arrays of alternatives. A pattern puts questions to the parts
of an event; the code answers each of them by a value that is `null` where the event has none.
-/
namespace Openstack.EventBridge

inductive Literal where
  | null
  | bool (v : Bool)
  | posInt (v : Nat)
  | negInt (magnitude : Nat)
  | float (text : String)
  | str (v : String)
  deriving DecidableEq

def Literal.json : Literal → Json
  | .null => .null
  | .bool v => .bool v
  | .posInt v => .posInt v
  | .negInt v => .negInt v
  | .float text => .float text
  | .str v => .str v

inductive Alternative where
  | literal (l : Literal)
  | startsWith (start : String)
  | present (is : Bool)
  deriving DecidableEq

def Alternative.json : Alternative → Json
  | .literal l => l.json
  | .startsWith start => .obj [("prefix", .str start)]
  | .present is => .obj [("exists", .bool is)]

inductive Pattern where
  | fields (entries : List (String × Pattern))
  | leaf (alternatives : List Alternative)

mutual

def Pattern.json : Pattern → Json
  | .fields entries => .obj (entriesJson entries)
  | .leaf alternatives => .arr (alternatives.map Alternative.json)

def entriesJson : List (String × Pattern) → List (String × Json)
  | [] => []
  | (key, pattern) :: rest => (key, pattern.json) :: entriesJson rest

end

def textStartsWith (start : String) (value : Json) : Bool :=
  (value.asStr?.map fun s => RustStr.startsWith s start).getD false

/-- The value has the property, or is an array with an element that has it. -/
@[grind] def orAnyElement (holds : Json → Bool) (value : Json) : Bool :=
  holds value ||
    match value with
    | .arr elements => elements.any holds
    | _ => false

/-- An alternative on a field that is there or not. -/
@[grind] def Alternative.matches : Alternative → Option Json → Bool
  | .literal l, value => (value.map (orAnyElement fun v => sameValue v l.json)).getD false
  | .startsWith start, value => (value.map (orAnyElement (textStartsWith start))).getD false
  | .present is, value => is == value.isSome

mutual

/-- Every field of the pattern is there, absent only where a leaf says so, and every leaf has an alternative
that matches. -/
def Matches (value : Option Json) : Pattern → Prop
  | .fields entries => value.isSome ∧ MatchesEntries value entries
  | .leaf alternatives => alternatives.any (·.matches value)

def MatchesEntries (value : Option Json) : List (String × Pattern) → Prop
  | [] => True
  | (key, pattern) :: rest => Matches (value.bind (Json.get? key)) pattern ∧ MatchesEntries value rest

end

/-- What a pattern asks of one part of an event. -/
inductive Question where
  | fields (value : Option Json)
  | leaf (value : Option Json) (alternatives : List Alternative)

mutual

def questions (value : Option Json) : Pattern → List Question
  | .fields entries => .fields value :: entryQuestions value entries
  | .leaf alternatives => [.leaf value alternatives]

def entryQuestions (value : Option Json) : List (String × Pattern) → List Question
  | [] => []
  | (key, pattern) :: rest => questions (value.bind (Json.get? key)) pattern ++ entryQuestions value rest

end

def Question.holds : Question → Bool
  | .fields value => value.isSome
  | .leaf value alternatives => alternatives.any (·.matches value)

def isObject : Option Json → Bool
  | some (.obj _) => true
  | _ => false

/-- The code's answer. -/
def Question.answer : Question → Bool
  | .fields value => isObject value
  | .leaf value alternatives => (alternatives.map Alternative.json).any (matchesAlternative (value.getD .null))

/-- A question that fails and is answered with yes: an absent field passes for `null`, and `null` for an
absent field. -/
def Question.Mistaken : Question → Prop
  | .fields _ => False
  | .leaf none alternatives => .literal .null ∈ alternatives ∧ .present false ∉ alternatives
  | .leaf (some .null) alternatives =>
    .present false ∈ alternatives ∧ .present true ∉ alternatives ∧ .literal .null ∉ alternatives
  | .leaf _ _ => False

/-- A question that holds and is answered with no: fields asked of a value that has none, `exists` asked of
`null`, and `prefix` asked of an array. -/
def Question.Missed : Question → Prop
  | .fields value => value.isSome ∧ isObject value = false
  | .leaf (some .null) alternatives =>
    .present true ∈ alternatives ∧ .present false ∉ alternatives ∧ .literal .null ∉ alternatives
  | .leaf (some (.arr elements)) alternatives =>
    (∃ start, .startsWith start ∈ alternatives ∧ elements.any (textStartsWith start)) ∧
      .present true ∉ alternatives ∧
      ∀ l, .literal l ∈ alternatives → elements.any (fun e => sameValue e l.json) = false
  | .leaf _ _ => False

/-- Where the event has all that the pattern asks for, nothing of it is missed; where it has not, something
that it lacks is not mistaken, or something else is missed. -/
structure ReadAsMeant (event : Json) (pattern : Pattern) : Prop where
  accepted : Matches (some event) pattern → ∀ q ∈ questions (some event) pattern, ¬ q.Missed
  refused : ¬ Matches (some event) pattern →
    ∃ q ∈ questions (some event) pattern, q.holds = false ∧ ¬ q.Mistaken ∨ q.Missed

mutual

theorem matches_iff (value : Option Json) :
    ∀ pattern, Matches value pattern ↔ ∀ q ∈ questions value pattern, q.holds = true
  | .fields entries => by
    rw [Matches, questions, List.forall_mem_cons, matchesEntries_iff value entries, Question.holds]
  | .leaf alternatives => by
    rw [Matches, questions, List.forall_mem_singleton, Question.holds]

theorem matchesEntries_iff (value : Option Json) :
    ∀ entries, MatchesEntries value entries ↔ ∀ q ∈ entryQuestions value entries, q.holds = true
  | [] => by simp [MatchesEntries, entryQuestions]
  | (key, pattern) :: rest => by
    rw [MatchesEntries, entryQuestions, List.forall_mem_append, matches_iff _ pattern,
      matchesEntries_iff value rest]

end

mutual

theorem matchesValue_iff (value : Option Json) :
    ∀ pattern : Pattern, matchesValue (value.getD .null) pattern.json = true ↔
      ∀ q ∈ questions value pattern, q.answer = true
  | .fields entries => by
    rw [Pattern.json, questions, List.forall_mem_cons, Question.answer]
    match value with
    | some (.obj fields) =>
      simp only [isObject, true_and]
      exact matchesFields_iff fields entries
    | none | some .null | some (.bool _) | some (.posInt _) | some (.negInt _) | some (.float _)
    | some (.str _) | some (.arr _) => simp [isObject, matchesValue]
  | .leaf alternatives => by
    rw [Pattern.json, questions, List.forall_mem_singleton, matchesValue, Question.answer]

theorem matchesFields_iff (fields : List (String × Json)) :
    ∀ entries, matchesFields fields (entriesJson entries) = true ↔
      ∀ q ∈ entryQuestions (some (.obj fields)) entries, q.answer = true
  | [] => by simp [matchesFields, entriesJson, entryQuestions]
  | (key, pattern) :: rest => by
    rw [entriesJson, entryQuestions, List.forall_mem_append, matchesFields, Bool.and_eq_true,
      matchesFields_iff fields rest]
    exact and_congr_left fun _ => matchesValue_iff (fields.lookup key) pattern

end

theorem matchesAlternative_startsWith (event : Json) (start : String) :
    matchesAlternative event (Alternative.json (.startsWith start)) = textStartsWith start event := rfl

theorem matchesAlternative_present (event : Json) (is : Bool) :
    matchesAlternative event (Alternative.json (.present is)) = (is != sameValue event .null) := rfl

theorem matchesAlternative_literal (event : Json) (l : Literal) :
    matchesAlternative event (Alternative.json (.literal l)) = orAnyElement (fun v => sameValue v l.json) event := by
  cases event <;> cases l <;> simp [matchesAlternative, Alternative.json, Literal.json, orAnyElement, sameValue]

theorem sameValue_null_json (l : Literal) : sameValue .null l.json = decide (l = .null) := by
  cases l <;> rfl

/-- A value that is neither `null` nor an array is read as it is meant. -/
theorem answer_eq_holds {value : Json} (nonnull : sameValue value .null = false)
    (single : ∀ elements, value ≠ .arr elements) (alternatives : List Alternative) :
    (Question.leaf (some value) alternatives).answer = (Question.leaf (some value) alternatives).holds := by
  rw [Question.answer, Question.holds, List.any_map]
  congr 1
  funext alternative
  rw [Function.comp_apply, Option.getD_some]
  cases alternative with
  | literal l => exact matchesAlternative_literal value l
  | startsWith start =>
    rw [matchesAlternative_startsWith, Alternative.matches, Option.map_some, Option.getD_some]
    cases value with
    | arr elements => exact absurd rfl (single elements)
    | null | bool _ | posInt _ | negInt _ | float _ | str _ | obj _ => simp [orAnyElement]
  | present is =>
    rw [matchesAlternative_present, nonnull, Alternative.matches]
    cases is <;> rfl

theorem exists_alternative_iff {P : Alternative → Prop} {alternatives : List Alternative} :
    (∃ a ∈ alternatives, P a) ↔ (∃ l, .literal l ∈ alternatives ∧ P (.literal l)) ∨
      (∃ start, .startsWith start ∈ alternatives ∧ P (.startsWith start)) ∨
      ∃ is, .present is ∈ alternatives ∧ P (.present is) := by
  constructor
  · rintro ⟨a, member, holds⟩
    cases a with
    | literal l => exact .inl ⟨l, member, holds⟩
    | startsWith start => exact .inr (.inl ⟨start, member, holds⟩)
    | present is => exact .inr (.inr ⟨is, member, holds⟩)
  · rintro (⟨l, member, holds⟩ | ⟨start, member, holds⟩ | ⟨is, member, holds⟩)
    · exact ⟨_, member, holds⟩
    · exact ⟨_, member, holds⟩
    · exact ⟨_, member, holds⟩

/-- The answer by the kinds of alternatives. -/
theorem answer_leaf_iff (value : Option Json) (alternatives : List Alternative) :
    (Question.leaf value alternatives).answer = true ↔
      (∃ l, .literal l ∈ alternatives ∧
        orAnyElement (fun v => sameValue v l.json) (value.getD .null) = true) ∨
      (∃ start, .startsWith start ∈ alternatives ∧ textStartsWith start (value.getD .null) = true) ∨
      ∃ is, .present is ∈ alternatives ∧ (is != sameValue (value.getD .null) .null) = true := by
  rw [Question.answer, List.any_map, List.any_eq_true]
  simp only [Function.comp_apply]
  rw [exists_alternative_iff]
  simp only [matchesAlternative_literal, matchesAlternative_startsWith, matchesAlternative_present]

theorem holds_leaf_iff (value : Option Json) (alternatives : List Alternative) :
    (Question.leaf value alternatives).holds = true ↔
      (∃ l, .literal l ∈ alternatives ∧ (Alternative.literal l).matches value = true) ∨
      (∃ start, .startsWith start ∈ alternatives ∧ (Alternative.startsWith start).matches value = true) ∨
      ∃ is, .present is ∈ alternatives ∧ (is == value.isSome) = true := by
  rw [Question.holds, List.any_eq_true, exists_alternative_iff]
  simp only [Alternative.matches]

section Leaf

variable (alternatives : List Alternative)

theorem answer_absent : (Question.leaf none alternatives).answer = true ↔
    .literal .null ∈ alternatives ∨ .present false ∈ alternatives := by
  have null : sameValue .null .null = true := rfl
  rw [answer_leaf_iff]
  simp [orAnyElement, textStartsWith, Json.asStr?, sameValue_null_json, null]

theorem holds_absent : (Question.leaf none alternatives).holds = true ↔ .present false ∈ alternatives := by
  rw [holds_leaf_iff]
  simp [Alternative.matches]

theorem answer_null : (Question.leaf (some .null) alternatives).answer = true ↔
    .literal .null ∈ alternatives ∨ .present false ∈ alternatives :=
  answer_absent alternatives

theorem holds_null : (Question.leaf (some .null) alternatives).holds = true ↔
    .literal .null ∈ alternatives ∨ .present true ∈ alternatives := by
  rw [holds_leaf_iff]
  simp [Alternative.matches, orAnyElement, textStartsWith, Json.asStr?, sameValue_null_json]

theorem sameValue_arr_json (elements : List Json) (l : Literal) : sameValue (.arr elements) l.json = false := by
  cases l <;> rfl

theorem answer_arr (elements : List Json) :
    (Question.leaf (some (.arr elements)) alternatives).answer = true ↔
      (∃ l, .literal l ∈ alternatives ∧ elements.any (fun e => sameValue e l.json) = true) ∨
        .present true ∈ alternatives := by
  have nonnull : sameValue (.arr elements) .null = false := rfl
  rw [answer_leaf_iff]
  simp [orAnyElement, textStartsWith, Json.asStr?, sameValue_arr_json, nonnull]

theorem holds_arr (elements : List Json) :
    (Question.leaf (some (.arr elements)) alternatives).holds = true ↔
      (∃ l, .literal l ∈ alternatives ∧ elements.any (fun e => sameValue e l.json) = true) ∨
      (∃ start, .startsWith start ∈ alternatives ∧ elements.any (textStartsWith start) = true) ∨
        .present true ∈ alternatives := by
  rw [holds_leaf_iff]
  simp [Alternative.matches, orAnyElement, textStartsWith, Json.asStr?, sameValue_arr_json]

end Leaf

/-- The value of a question is absent, `null`, an array, or read as it is meant. -/
theorem question_cases (q : Question) : (∃ value, q = .fields value) ∨
    (∃ alternatives, q = .leaf none alternatives) ∨ (∃ alternatives, q = .leaf (some .null) alternatives) ∨
    (∃ elements alternatives, q = .leaf (some (.arr elements)) alternatives) ∨
    (q.answer = q.holds ∧ ¬ q.Mistaken ∧ ¬ q.Missed) := by
  match q with
  | .fields value => exact .inl ⟨value, rfl⟩
  | .leaf none alternatives => exact .inr (.inl ⟨alternatives, rfl⟩)
  | .leaf (some .null) alternatives => exact .inr (.inr (.inl ⟨alternatives, rfl⟩))
  | .leaf (some (.arr elements)) alternatives => exact .inr (.inr (.inr (.inl ⟨elements, alternatives, rfl⟩)))
  | .leaf (some (.bool _)) alternatives | .leaf (some (.posInt _)) alternatives
  | .leaf (some (.negInt _)) alternatives | .leaf (some (.float _)) alternatives
  | .leaf (some (.str _)) alternatives | .leaf (some (.obj _)) alternatives =>
    exact .inr (.inr (.inr (.inr ⟨answer_eq_holds rfl (by simp) alternatives, id, id⟩)))

theorem mistaken_iff (q : Question) : q.Mistaken ↔ q.answer = true ∧ q.holds = false := by
  rw [← Bool.not_eq_true q.holds]
  obtain ⟨value, rfl⟩ | ⟨alternatives, rfl⟩ | ⟨alternatives, rfl⟩ | ⟨elements, alternatives, rfl⟩ |
    ⟨same, right, -⟩ := question_cases q
  · refine iff_of_false id fun ⟨object, absent⟩ => ?_
    cases value with
    | none => cases object
    | some v => exact absent rfl
  · rw [answer_absent, holds_absent, Question.Mistaken]
    tauto
  · rw [answer_null, holds_null, Question.Mistaken]
    tauto
  · rw [answer_arr, holds_arr]
    refine iff_of_false id fun ⟨yes, no⟩ => no ?_
    exact yes.imp_right .inr
  · rw [same]
    exact iff_of_false right fun ⟨yes, no⟩ => no yes

theorem missed_iff (q : Question) : q.Missed ↔ q.holds = true ∧ q.answer = false := by
  rw [← Bool.not_eq_true q.answer]
  obtain ⟨value, rfl⟩ | ⟨alternatives, rfl⟩ | ⟨alternatives, rfl⟩ | ⟨elements, alternatives, rfl⟩ |
    ⟨same, -, right⟩ := question_cases q
  · rw [Bool.not_eq_true]
    rfl
  · rw [answer_absent, holds_absent]
    exact iff_of_false id fun ⟨yes, no⟩ => no (.inr yes)
  · rw [answer_null, holds_null, Question.Missed]
    tauto
  · rw [answer_arr, holds_arr, Question.Missed]
    constructor
    · rintro ⟨starts, present, literals⟩
      refine ⟨.inr (.inl starts), ?_⟩
      rintro (⟨l, member, same⟩ | there)
      · rw [literals l member] at same
        cases same
      · exact present there
    · rintro ⟨literal | starts | there, no⟩
      · exact absurd (.inl literal) no
      · refine ⟨starts, fun there => no (.inr there), fun l member => ?_⟩
        rw [← Bool.not_eq_true]
        exact fun same => no (.inl ⟨l, member, same⟩)
      · exact absurd (.inr there) no
  · rw [same]
    exact iff_of_false right fun ⟨yes, no⟩ => no yes

/-- For every event and every pattern. -/
theorem event_patterns_mean_iff (event : Json) (pattern : Pattern) :
    (eventMatchesPattern event (some pattern.json) = true ↔ Matches (some event) pattern) ↔
      ReadAsMeant event pattern := by
  have code : eventMatchesPattern event (some pattern.json) = true ↔
      ∀ q ∈ questions (some event) pattern, q.answer = true := matchesValue_iff (some event) pattern
  have meaning := matches_iff (some event) pattern
  constructor
  · intro same
    refine ⟨fun holds q asked missed => ?_, fun fails => ?_⟩
    · have yes := code.mp (same.mpr holds) q asked
      rw [((missed_iff q).mp missed).2] at yes
      cases yes
    · have no := mt same.mp fails
      rw [code] at no
      push Not at no
      obtain ⟨q, asked, refused⟩ := no
      refine ⟨q, asked, ?_⟩
      cases lacking : q.holds with
      | false => exact .inl ⟨rfl, fun mistaken => refused ((mistaken_iff q).mp mistaken).1⟩
      | true => exact .inr ((missed_iff q).mpr ⟨lacking, Bool.eq_false_of_not_eq_true refused⟩)
  · intro read
    constructor
    · intro yes
      by_contra fails
      obtain ⟨q, asked, ⟨lacking, notMistaken⟩ | missed⟩ := read.refused fails
      · exact notMistaken ((mistaken_iff q).mpr ⟨code.mp yes q asked, lacking⟩)
      · have answered := code.mp yes q asked
        rw [((missed_iff q).mp missed).2] at answered
        cases answered
    · intro holds
      refine code.mpr fun q asked => ?_
      by_contra no
      exact read.accepted holds q asked
        ((missed_iff q).mpr ⟨meaning.mp holds q asked, Bool.eq_false_of_not_eq_true no⟩)

section Presence

def nullPattern : Pattern := .fields [("detail", .leaf [.literal .null])]

def existsPattern : Pattern := .fields [("detail", .leaf [.present true])]

def tagPattern : Pattern := .fields [("tags", .leaf [.startsWith "a"])]

/-- An absent field passes for `null`, `null` for an absent field, and no element of an array for a text. -/
theorem absent_null_and_arrays_misread :
    (eventMatchesPattern (.obj []) (some nullPattern.json) = true ∧ ¬ Matches (some (.obj [])) nullPattern) ∧
    (eventMatchesPattern (.obj [("detail", .null)]) (some existsPattern.json) = false ∧
      Matches (some (.obj [("detail", .null)])) existsPattern) ∧
    (eventMatchesPattern (.obj [("tags", .arr [.str "ab"])]) (some tagPattern.json) = false ∧
      Matches (some (.obj [("tags", .arr [.str "ab"])])) tagPattern) := by
  refine ⟨⟨rfl, ?_⟩, ⟨rfl, ?_⟩, ⟨rfl, ?_⟩⟩
  · rintro ⟨-, leaf, -⟩
    cases leaf
  · exact ⟨rfl, rfl, trivial⟩
  · exact ⟨rfl, rfl, trivial⟩

end Presence

end Openstack.EventBridge

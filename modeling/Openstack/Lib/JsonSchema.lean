import Mathlib.Computability.RegularExpressions
import Openstack.Lib.Json

/-!
# JSON Schema

The keywords of draft 2020-12 that assert something about types, objects, arrays and strings. A keyword says
nothing about values of another type, and annotations such as `title` and `default` say nothing at all.
-/
namespace Openstack

inductive JsonType where
  | null
  | boolean
  | number
  | string
  | array
  | object
  deriving DecidableEq, Repr

@[grind] def Json.type : Json → JsonType
  | .null => .null
  | .bool _ => .boolean
  | .posInt _ | .negInt _ | .float _ => .number
  | .str _ => .string
  | .arr _ => .array
  | .obj _ => .object

namespace JsonSchema

structure Schema where
  type : Option (List JsonType) := none
  /-- The name under `$defs`. -/
  ref : Option String := none
  required : List String := []
  properties : List (String × Schema) := []
  /-- `some none` is the schema `false`. -/
  additionalProperties : Option (Option Schema) := none
  items : Option Schema := none
  minItems : Nat := 0
  /-- In characters. -/
  minLength : Nat := 0
  /-- A pattern that is anchored at both ends. -/
  pattern : Option (RegularExpression Char) := none
  enum : Option (List Json) := none

/-- The least relation that the keywords ask for; a `$ref` that runs in a circle accepts nothing. -/
inductive Valid (defs : List (String × Schema)) : Schema → Json → Prop where
  | intro (s : Schema) (v : Json)
      (type : ∀ types, s.type = some types → v.type ∈ types)
      (ref : ∀ name, s.ref = some name → defs.lookup name ≠ none)
      (target : ∀ name t, s.ref = some name → defs.lookup name = some t → Valid defs t v)
      (required : ∀ fields, v = .obj fields → ∀ key ∈ s.required, v.get? key ≠ none)
      (properties : ∀ p ∈ s.properties, ∀ x, v.get? p.1 = some x → Valid defs p.2 x)
      (closed : s.additionalProperties = some none →
        ∀ fields, v = .obj fields → ∀ p ∈ fields, p.1 ∈ s.properties.map (·.1))
      (additional : ∀ t, s.additionalProperties = some (some t) →
        ∀ fields, v = .obj fields → ∀ p ∈ fields, p.1 ∉ s.properties.map (·.1) → Valid defs t p.2)
      (items : ∀ t, s.items = some t → ∀ elements, v = .arr elements → ∀ x ∈ elements, Valid defs t x)
      (minItems : ∀ elements, v = .arr elements → s.minItems ≤ elements.length)
      (minLength : ∀ text, v = .str text → s.minLength ≤ text.length)
      (pattern : ∀ r, s.pattern = some r → ∀ text, v = .str text → text.toList ∈ r.matches')
      (enum : ∀ options, s.enum = some options → v ∈ options) : Valid defs s v

variable {defs : List (String × Schema)} {s t : Schema} {v : Json}

theorem valid_ref_iff {name : String} (defined : defs.lookup name = some t) :
    Valid defs { ref := some name } v ↔ Valid defs t v := by
  constructor
  · intro valid
    cases valid with
    | intro _ _ _ _ target => exact target name t rfl defined
  · intro valid
    refine .intro _ _ (by simp) ?_ ?_ (by simp) (by simp) (by simp) (by simp) (by simp) (by simp) (by simp)
      (by simp) (by simp)
    · intro name' same
      cases same
      simp [defined]
    · intro name' t' same found
      cases same
      cases defined.symm.trans found
      exact valid

theorem valid_type_iff {types : List JsonType} : Valid defs { type := some types } v ↔ v.type ∈ types := by
  constructor
  · intro valid
    cases valid with
    | intro _ _ type => exact type types rfl
  · intro typed
    refine .intro _ _ ?_ (by simp) (by simp) (by simp) (by simp) (by simp) (by simp) (by simp) (by simp)
      (by simp) (by simp) (by simp)
    intro types' same
    cases same
    exact typed

theorem valid_string_iff {n : Nat} :
    Valid defs { type := some [.string], minLength := n } v ↔ ∃ text, v = .str text ∧ n ≤ text.length := by
  constructor
  · intro valid
    cases valid with
    | intro _ _ type _ _ _ _ _ _ _ _ minLength =>
      have typed := type _ rfl
      cases v with
      | str text => exact ⟨text, rfl, minLength text rfl⟩
      | null | bool | posInt | negInt | float | arr | obj => simp [Json.type] at typed
  · rintro ⟨text, rfl, long⟩
    refine .intro _ _ ?_ (by simp) (by simp) (by simp) (by simp) (by simp) (by simp) (by simp) (by simp) ?_
      (by simp) (by simp)
    · intro types same
      cases same
      simp [Json.type]
    · intro text' same
      cases same
      exact long

theorem valid_pattern_iff {r : RegularExpression Char} :
    Valid defs { type := some [.string], pattern := some r } v ↔
      ∃ text, v = .str text ∧ text.toList ∈ r.matches' := by
  constructor
  · intro valid
    cases valid with
    | intro _ _ type _ _ _ _ _ _ _ _ _ pattern =>
      have typed := type _ rfl
      cases v with
      | str text => exact ⟨text, rfl, pattern r rfl text rfl⟩
      | null | bool | posInt | negInt | float | arr | obj => simp [Json.type] at typed
  · rintro ⟨text, rfl, accepted⟩
    refine .intro _ _ ?_ (by simp) (by simp) (by simp) (by simp) (by simp) (by simp) (by simp) (by simp)
      (by simp) ?_ (by simp)
    · intro types same
      cases same
      simp [Json.type]
    · intro r' same text' same'
      cases same
      cases same'
      exact accepted

theorem valid_enum_iff {options : List Json} {types : List JsonType} (typed : ∀ x ∈ options, x.type ∈ types) :
    Valid defs { type := some types, enum := some options } v ↔ v ∈ options := by
  constructor
  · intro valid
    cases valid with
    | intro _ _ _ _ _ _ _ _ _ _ _ _ _ enum => exact enum options rfl
  · intro listed
    refine .intro _ _ ?_ (by simp) (by simp) (by simp) (by simp) (by simp) (by simp) (by simp) (by simp)
      (by simp) (by simp) ?_
    · intro types' same
      cases same
      exact typed v listed
    · intro options' same
      cases same
      exact listed

theorem valid_array_iff {n : Nat} :
    Valid defs { type := some [.array], items := some t, minItems := n } v ↔
      ∃ elements, v = .arr elements ∧ n ≤ elements.length ∧ ∀ x ∈ elements, Valid defs t x := by
  constructor
  · intro valid
    cases valid with
    | intro _ _ type _ _ _ _ _ _ items minItems =>
      have typed := type _ rfl
      cases v with
      | arr elements => exact ⟨elements, rfl, minItems elements rfl, items t rfl elements rfl⟩
      | null | bool | posInt | negInt | float | str | obj => simp [Json.type] at typed
  · rintro ⟨elements, rfl, long, all⟩
    refine .intro _ _ ?_ (by simp) (by simp) (by simp) (by simp [Json.get?]) (by simp) (by simp) ?_ ?_ (by simp)
      (by simp) (by simp)
    · intro types same
      cases same
      simp [Json.type]
    · intro t' same elements' same'
      cases same
      cases same'
      exact all
    · intro elements' same
      cases same
      exact long

/-- An object of which only the listed properties may be present. -/
theorem valid_closed_iff {required : List String} {properties : List (String × Schema)} :
    Valid defs { type := some [.object], required, properties, additionalProperties := some none } v ↔
      ∃ fields, v = .obj fields ∧ (∀ key ∈ required, v.get? key ≠ none) ∧
        (∀ p ∈ properties, ∀ x, v.get? p.1 = some x → Valid defs p.2 x) ∧
          ∀ p ∈ fields, p.1 ∈ properties.map (·.1) := by
  constructor
  · intro valid
    cases valid with
    | intro _ _ type _ _ required properties closed =>
      have typed := type _ rfl
      cases v with
      | obj fields => exact ⟨fields, rfl, required fields rfl, properties, closed rfl fields rfl⟩
      | null | bool | posInt | negInt | float | str | arr => simp [Json.type] at typed
  · rintro ⟨fields, rfl, present, properties, closed⟩
    refine .intro _ _ ?_ (by simp) (by simp) (fun _ _ => present) properties ?_ (by simp) (by simp) (by simp)
      (by simp) (by simp) (by simp)
    · intro types same
      cases same
      simp [Json.type]
    · intro _ fields' same
      cases same
      exact closed

/-- An object of values of one kind under any keys. -/
theorem valid_map_iff :
    Valid defs { type := some [.object], additionalProperties := some (some t) } v ↔
      ∃ fields, v = .obj fields ∧ ∀ p ∈ fields, Valid defs t p.2 := by
  constructor
  · intro valid
    cases valid with
    | intro _ _ type _ _ _ _ _ additional =>
      have typed := type _ rfl
      cases v with
      | obj fields => exact ⟨fields, rfl, fun p member => additional t rfl fields rfl p member (by simp)⟩
      | null | bool | posInt | negInt | float | str | arr => simp [Json.type] at typed
  · rintro ⟨fields, rfl, all⟩
    refine .intro _ _ ?_ (by simp) (by simp) (by simp) (by simp) (by simp) ?_ (by simp) (by simp) (by simp)
      (by simp) (by simp)
    · intro types same
      cases same
      simp [Json.type]
    · intro t' same fields' same'
      cases same
      cases same'
      exact fun p member _ => all p member

/-- A required property with its schema. -/
theorem required_iff {key : String} {P : Json → Prop} :
    (v.get? key ≠ none ∧ ∀ x, v.get? key = some x → P x) ↔ ∃ x, v.get? key = some x ∧ P x := by
  constructor
  · rintro ⟨present, holds⟩
    obtain ⟨x, found⟩ := Option.ne_none_iff_exists'.mp present
    exact ⟨x, found, holds x found⟩
  · rintro ⟨x, found, holds⟩
    refine ⟨by simp [found], fun y again => ?_⟩
    cases found.symm.trans again
    exact holds

/-- `[abc]`. -/
def charClass (chars : List Char) : RegularExpression Char :=
  chars.foldr (fun c r => .char c + r) 0

/-- `r+`. -/
def oneOrMore (r : RegularExpression Char) : RegularExpression Char := r * r.star

theorem mem_charClass {chars text : List Char} :
    text ∈ (charClass chars).matches' ↔ ∃ c ∈ chars, text = [c] := by
  induction chars with
  | nil => simp [charClass]
  | cons c rest ih =>
    have single : text ∈ (RegularExpression.char c).matches' ↔ text = [c] := Iff.rfl
    rw [charClass, List.foldr_cons, ← charClass, RegularExpression.matches'_add, Language.mem_add, ih, single]
    simp

theorem mem_oneOrMore_charClass {chars text : List Char} :
    text ∈ (oneOrMore (charClass chars)).matches' ↔ text ≠ [] ∧ ∀ c ∈ text, c ∈ chars := by
  rw [oneOrMore, RegularExpression.matches'_mul, RegularExpression.matches'_star, Language.mem_mul]
  constructor
  · rintro ⟨a, first, b, rest, rfl⟩
    obtain ⟨c, listed, rfl⟩ := mem_charClass.mp first
    obtain ⟨words, rfl, all⟩ := Language.mem_kstar.mp rest
    refine ⟨by simp, ?_⟩
    intro x member
    rcases List.mem_append.mp member with inFirst | inRest
    · rwa [List.mem_singleton.mp inFirst]
    · obtain ⟨word, inWords, inWord⟩ := List.mem_flatten.mp inRest
      obtain ⟨d, listed', rfl⟩ := mem_charClass.mp (all word inWords)
      rwa [List.mem_singleton.mp inWord]
  · rintro ⟨nonempty, all⟩
    cases text with
    | nil => exact absurd rfl nonempty
    | cons c rest =>
      have letters : rest = (rest.map fun d => [d]).flatten := by
        rw [← List.flatMap_def, List.flatMap_singleton']
      refine ⟨[c], mem_charClass.mpr ⟨c, all c (by simp), rfl⟩, rest, ?_, rfl⟩
      refine Language.mem_kstar.mpr ⟨rest.map fun d => [d], letters, ?_⟩
      intro word member
      obtain ⟨d, inRest, rfl⟩ := List.mem_map.mp member
      exact mem_charClass.mpr ⟨d, all d (by simp [inRest]), rfl⟩

end JsonSchema
end Openstack

import Openstack.Lib.JsonSchema

/-!
# The published schema of guided manifests

`schemas/studio-guided-flow.manifest.v1.schema.json`, and what it demands: a shape, and that nothing is
undeclared and no text is empty.
-/
namespace Openstack.Studio

open JsonSchema

def nonemptyString : Schema := { type := some [.string], minLength := 1 }

def nullableString : Schema := { type := some [.string, .null] }

def mapOfStrings : Schema :=
  { type := some [.object], additionalProperties := some (some { type := some [.string] }) }

def listOf (name : String) : Schema := { type := some [.array], items := some { ref := some name } }

def nonemptyListOf (name : String) : Schema :=
  { type := some [.array], items := some { ref := some name }, minItems := 1 }

def decimalDigit : RegularExpression Char := charClass ['0', '1', '2', '3', '4', '5', '6', '7', '8', '9']

/-- `^[0-9]+\.[0-9]+$`. -/
def versionPattern : RegularExpression Char := oneOrMore decimalDigit * .char '.' * oneOrMore decimalDigit

def protocolNames : List String := ["query", "json_target", "rest_xml", "rest_json"]

def manifestSchema : Schema where
  type := some [.object]
  additionalProperties := some none
  required := ["schemaVersion", "service", "protocol", "flows"]
  properties := [
    ("schemaVersion", { type := some [.string], pattern := some versionPattern }),
    ("service", nonemptyString),
    ("protocol", { type := some [.string], enum := some (protocolNames.map Json.str) }),
    ("flows", nonemptyListOf "flow")]

def flowSchema : Schema where
  type := some [.object]
  additionalProperties := some none
  required := ["id", "level", "steps"]
  properties := [
    ("id", nonemptyString),
    ("level", nonemptyString),
    ("steps", nonemptyListOf "step"),
    ("cleanup", listOf "step")]

def stepSchema : Schema where
  type := some [.object]
  additionalProperties := some none
  required := ["id", "title", "operation"]
  properties := [
    ("id", nonemptyString),
    ("title", nonemptyString),
    ("operation", { ref := some "operation" }),
    ("assertions", listOf "assertion"),
    ("captures", listOf "capture"),
    ("errorGuidance", nullableString)]

def operationSchema : Schema where
  type := some [.object]
  additionalProperties := some none
  required := ["method", "path"]
  properties := [
    ("method", nonemptyString),
    ("path", nonemptyString),
    ("headers", mapOfStrings),
    ("query", mapOfStrings),
    ("body", nullableString)]

def assertionSchema : Schema where
  type := some [.object]
  additionalProperties := some none
  required := ["kind", "target", "expected"]
  properties := [("kind", nonemptyString), ("target", nonemptyString), ("expected", nonemptyString)]

def captureSchema : Schema where
  type := some [.object]
  additionalProperties := some none
  required := ["name", "source"]
  properties := [("name", nonemptyString), ("source", nonemptyString)]

def manifestDefs : List (String × Schema) :=
  [("flow", flowSchema), ("step", stepSchema), ("operation", operationSchema), ("assertion", assertionSchema),
    ("capture", captureSchema)]

def IsObject (v : Json) : Prop := ∃ fields, v = .obj fields

def IsString (v : Json) : Prop := ∃ text, v = .str text

def IsStringOrNull (v : Json) : Prop := IsString v ∨ v = .null

def IsStringMap (v : Json) : Prop := ∃ fields, v = .obj fields ∧ ∀ p ∈ fields, IsString p.2

def IsListOf (P : Json → Prop) (v : Json) : Prop := ∃ items, v = .arr items ∧ ∀ x ∈ items, P x

def IsNonemptyListOf (P : Json → Prop) (v : Json) : Prop :=
  ∃ items, v = .arr items ∧ items ≠ [] ∧ ∀ x ∈ items, P x

def Has (key : String) (P : Json → Prop) (v : Json) : Prop := ∃ x, v.get? key = some x ∧ P x

def MayHave (key : String) (P : Json → Prop) (v : Json) : Prop := ∀ x, v.get? key = some x → P x

/-- An object with texts under the keys, or the texts alone in the order of the keys. -/
def IsRecord (keys : List String) (v : Json) : Prop :=
  (IsObject v ∧ ∀ key ∈ keys, Has key IsString v) ∨
    ∃ texts : List String, texts.length = keys.length ∧ v = .arr (texts.map Json.str)

structure OperationShape (v : Json) : Prop where
  object : IsObject v
  method : Has "method" IsString v
  path : Has "path" IsString v
  headers : MayHave "headers" IsStringMap v
  query : MayHave "query" IsStringMap v
  body : MayHave "body" IsStringOrNull v

structure StepShape (v : Json) : Prop where
  object : IsObject v
  id : Has "id" IsString v
  title : Has "title" IsString v
  operation : Has "operation" OperationShape v
  assertions : MayHave "assertions" (IsListOf (IsRecord ["kind", "target", "expected"])) v
  captures : MayHave "captures" (IsListOf (IsRecord ["name", "source"])) v
  errorGuidance : MayHave "errorGuidance" IsStringOrNull v

structure FlowShape (v : Json) : Prop where
  object : IsObject v
  id : Has "id" IsString v
  level : Has "level" IsString v
  steps : Has "steps" (IsNonemptyListOf StepShape) v
  cleanup : MayHave "cleanup" (IsListOf StepShape) v

structure ManifestShape (v : Json) : Prop where
  object : IsObject v
  schemaVersion : Has "schemaVersion" IsString v
  service : Has "service" IsString v
  protocol : Has "protocol" (fun x => ∃ name ∈ protocolNames, x = .str name) v
  flows : Has "flows" (IsNonemptyListOf FlowShape) v

def Declares (names : List String) (v : Json) : Prop := ∀ fields, v = .obj fields → ∀ p ∈ fields, p.1 ∈ names

def Filled (key : String) (v : Json) : Prop := v.get? key ≠ some (.str "")

def Each (P : Json → Prop) (v : Json) : Prop := ∀ items, v = .arr items → ∀ x ∈ items, P x

/-- No array in place of an object, no other property and no empty text. -/
structure RecordStrict (keys : List String) (v : Json) : Prop where
  object : IsObject v
  declares : Declares keys v
  filled : ∀ key ∈ keys, Filled key v

structure OperationStrict (v : Json) : Prop where
  declares : Declares ["method", "path", "headers", "query", "body"] v
  method : Filled "method" v
  path : Filled "path" v

structure StepStrict (v : Json) : Prop where
  declares : Declares ["id", "title", "operation", "assertions", "captures", "errorGuidance"] v
  id : Filled "id" v
  title : Filled "title" v
  operation : MayHave "operation" OperationStrict v
  assertions : MayHave "assertions" (Each (RecordStrict ["kind", "target", "expected"])) v
  captures : MayHave "captures" (Each (RecordStrict ["name", "source"])) v

structure FlowStrict (v : Json) : Prop where
  declares : Declares ["id", "level", "steps", "cleanup"] v
  id : Filled "id" v
  level : Filled "level" v
  steps : MayHave "steps" (Each StepStrict) v
  cleanup : MayHave "cleanup" (Each StepStrict) v

structure ManifestStrict (v : Json) : Prop where
  declares : Declares ["schemaVersion", "service", "protocol", "flows"] v
  service : Filled "service" v
  flows : MayHave "flows" (Each FlowStrict) v

section Valid

variable {defs : List (String × Schema)} {t : Schema} {v : Json} {key name : String} {P Q R : Json → Prop}

theorem valid_nonemptyString_iff : Valid defs nonemptyString v ↔ IsString v ∧ v ≠ .str "" := by
  rw [nonemptyString, valid_string_iff]
  constructor
  · rintro ⟨text, rfl, long⟩
    refine ⟨⟨text, rfl⟩, ?_⟩
    rintro same
    cases same
    exact absurd long (by decide)
  · rintro ⟨⟨text, rfl⟩, nonempty⟩
    refine ⟨text, rfl, Nat.one_le_iff_ne_zero.mpr fun zero => nonempty ?_⟩
    rw [String.length_eq_zero_iff.mp zero]

theorem valid_nullableString_iff : Valid defs nullableString v ↔ IsStringOrNull v := by
  rw [nullableString, valid_type_iff, IsStringOrNull, IsString]
  cases v <;> simp [Json.type]

theorem valid_mapOfStrings_iff : Valid defs mapOfStrings v ↔ IsStringMap v := by
  have text : ∀ x, Valid defs { type := some [.string] } x ↔ IsString x := by
    intro x
    rw [valid_type_iff, IsString]
    cases x <;> simp [Json.type]
  rw [mapOfStrings, valid_map_iff]
  simp only [text, IsStringMap]

theorem valid_listOf_iff (defined : defs.lookup name = some t) :
    Valid defs (listOf name) v ↔ IsListOf (Valid defs t) v := by
  rw [listOf, valid_array_iff]
  simp [valid_ref_iff defined, IsListOf]

theorem valid_nonemptyListOf_iff (defined : defs.lookup name = some t) :
    Valid defs (nonemptyListOf name) v ↔ IsNonemptyListOf (Valid defs t) v := by
  have long : ∀ items : List Json, 1 ≤ items.length ↔ items ≠ [] := by
    intro items
    rw [← List.length_pos_iff]
    rfl
  rw [nonemptyListOf, valid_array_iff]
  simp only [valid_ref_iff defined, IsNonemptyListOf, long]

theorem has_nonemptyString_iff :
    Has key (Valid defs nonemptyString) v ↔ Has key IsString v ∧ Filled key v := by
  constructor
  · rintro ⟨x, found, valid⟩
    obtain ⟨text, nonempty⟩ := valid_nonemptyString_iff.mp valid
    refine ⟨⟨x, found, text⟩, fun empty => nonempty ?_⟩
    cases found.symm.trans empty
    rfl
  · rintro ⟨⟨x, found, text⟩, filled⟩
    refine ⟨x, found, valid_nonemptyString_iff.mpr ⟨text, ?_⟩⟩
    rintro rfl
    exact filled found

/-- A list of values with the shape `Q`, each of which is strict, where a value is valid if it is both. -/
theorem isListOf_and_iff (valid : ∀ x, P x ↔ Q x ∧ R x) : IsListOf P v ↔ IsListOf Q v ∧ Each R v := by
  constructor
  · rintro ⟨items, rfl, all⟩
    refine ⟨⟨items, rfl, fun x member => ((valid x).mp (all x member)).1⟩, ?_⟩
    rintro items' same x member
    cases same
    exact ((valid x).mp (all x member)).2
  · rintro ⟨⟨items, rfl, all⟩, each⟩
    exact ⟨items, rfl, fun x member => (valid x).mpr ⟨all x member, each items rfl x member⟩⟩

theorem isNonemptyListOf_and_iff (valid : ∀ x, P x ↔ Q x ∧ R x) :
    IsNonemptyListOf P v ↔ IsNonemptyListOf Q v ∧ Each R v := by
  constructor
  · rintro ⟨items, rfl, nonempty, all⟩
    refine ⟨⟨items, rfl, nonempty, fun x member => ((valid x).mp (all x member)).1⟩, ?_⟩
    rintro items' same x member
    cases same
    exact ((valid x).mp (all x member)).2
  · rintro ⟨⟨items, rfl, nonempty, all⟩, each⟩
    exact ⟨items, rfl, nonempty, fun x member => (valid x).mpr ⟨all x member, each items rfl x member⟩⟩

theorem mayHave_and_iff (valid : ∀ x, P x ↔ Q x ∧ R x) :
    MayHave key P v ↔ MayHave key Q v ∧ MayHave key R v := by
  simp only [MayHave, valid]
  exact ⟨fun all => ⟨fun x found => (all x found).1, fun x found => (all x found).2⟩,
    fun all x found => ⟨all.1 x found, all.2 x found⟩⟩

theorem has_and_iff (valid : ∀ x, P x ↔ Q x ∧ R x) : Has key P v ↔ Has key Q v ∧ MayHave key R v := by
  constructor
  · rintro ⟨x, found, both⟩
    refine ⟨⟨x, found, ((valid x).mp both).1⟩, fun y again => ?_⟩
    cases found.symm.trans again
    exact ((valid x).mp both).2
  · rintro ⟨⟨x, found, shape⟩, strict⟩
    exact ⟨x, found, (valid x).mpr ⟨shape, strict x found⟩⟩

/-- The schema of an assertion or a capture. -/
theorem valid_record_iff {keys : List String} :
    Valid defs { type := some [.object], required := keys, properties := keys.map fun k => (k, nonemptyString),
                 additionalProperties := some none } v ↔
      IsRecord keys v ∧ RecordStrict keys v := by
  have names : (keys.map fun k => (k, nonemptyString)).map (·.1) = keys := by
    simp [Function.comp_def]
  rw [valid_closed_iff, names]
  constructor
  · rintro ⟨fields, rfl, present, properties, declared⟩
    have each : ∀ key ∈ keys, Has key IsString (.obj fields) ∧ Filled key (.obj fields) := by
      intro key member
      exact has_nonemptyString_iff.mp (required_iff.mp
        ⟨present key member, properties (key, nonemptyString) (List.mem_map.mpr ⟨key, member, rfl⟩)⟩)
    refine ⟨.inl ⟨⟨fields, rfl⟩, fun key member => (each key member).1⟩, ⟨fields, rfl⟩, ?_,
      fun key member => (each key member).2⟩
    rintro fields' same
    cases same
    exact declared
  · rintro ⟨record, strict⟩
    obtain ⟨fields, rfl⟩ := strict.object
    have texts : ∀ key ∈ keys, Has key IsString (.obj fields) := by
      rcases record with ⟨_, texts⟩ | ⟨texts, _, same⟩
      · exact texts
      · cases same
    have each : ∀ key ∈ keys, Json.get? key (.obj fields) ≠ none ∧
        ∀ x, Json.get? key (.obj fields) = some x → Valid defs nonemptyString x := fun key member =>
      required_iff.mpr (has_nonemptyString_iff.mpr ⟨texts key member, strict.filled key member⟩)
    refine ⟨fields, rfl, fun key member => (each key member).1, ?_, strict.declares fields rfl⟩
    intro p member
    obtain ⟨key, listed, rfl⟩ := List.mem_map.mp member
    exact (each key listed).2

theorem valid_assertion_iff : Valid defs assertionSchema v ↔
    IsRecord ["kind", "target", "expected"] v ∧ RecordStrict ["kind", "target", "expected"] v :=
  valid_record_iff

theorem valid_capture_iff :
    Valid defs captureSchema v ↔ IsRecord ["name", "source"] v ∧ RecordStrict ["name", "source"] v :=
  valid_record_iff

theorem valid_operation_iff : Valid defs operationSchema v ↔ OperationShape v ∧ OperationStrict v := by
  rw [operationSchema, valid_closed_iff]
  simp only [List.forall_mem_cons, List.not_mem_nil, false_implies, implies_true, and_true, List.map_cons,
    List.map_nil]
  constructor
  · rintro ⟨fields, rfl, ⟨someMethod, somePath⟩, ⟨method, path, headers, query, body⟩, declared⟩
    have methodText := has_nonemptyString_iff.mp (required_iff.mp ⟨someMethod, method⟩)
    have pathText := has_nonemptyString_iff.mp (required_iff.mp ⟨somePath, path⟩)
    refine ⟨⟨⟨fields, rfl⟩, methodText.1, pathText.1, ?_, ?_, ?_⟩, ⟨?_, methodText.2, pathText.2⟩⟩
    · exact fun x found => valid_mapOfStrings_iff.mp (headers x found)
    · exact fun x found => valid_mapOfStrings_iff.mp (query x found)
    · exact fun x found => valid_nullableString_iff.mp (body x found)
    · rintro fields' same
      cases same
      exact declared
  · rintro ⟨shape, strict⟩
    obtain ⟨fields, rfl⟩ := shape.object
    obtain ⟨someMethod, method⟩ := required_iff.mpr (has_nonemptyString_iff.mpr ⟨shape.method, strict.method⟩)
    obtain ⟨somePath, path⟩ := required_iff.mpr (has_nonemptyString_iff.mpr ⟨shape.path, strict.path⟩)
    exact ⟨fields, rfl, ⟨someMethod, somePath⟩,
      ⟨method, path, fun x found => valid_mapOfStrings_iff.mpr (shape.headers x found),
        fun x found => valid_mapOfStrings_iff.mpr (shape.query x found),
        fun x found => valid_nullableString_iff.mpr (shape.body x found)⟩,
      strict.declares fields rfl⟩

theorem valid_step_iff : Valid manifestDefs stepSchema v ↔ StepShape v ∧ StepStrict v := by
  have operations : Has "operation" (Valid manifestDefs { ref := some "operation" }) v ↔
      Has "operation" OperationShape v ∧ MayHave "operation" OperationStrict v :=
    has_and_iff fun x => (valid_ref_iff rfl).trans valid_operation_iff
  have assertions : MayHave "assertions" (Valid manifestDefs (listOf "assertion")) v ↔
      MayHave "assertions" (IsListOf (IsRecord ["kind", "target", "expected"])) v ∧
        MayHave "assertions" (Each (RecordStrict ["kind", "target", "expected"])) v :=
    mayHave_and_iff fun x => (valid_listOf_iff rfl).trans (isListOf_and_iff fun y => valid_assertion_iff)
  have captures : MayHave "captures" (Valid manifestDefs (listOf "capture")) v ↔
      MayHave "captures" (IsListOf (IsRecord ["name", "source"])) v ∧
        MayHave "captures" (Each (RecordStrict ["name", "source"])) v :=
    mayHave_and_iff fun x => (valid_listOf_iff rfl).trans (isListOf_and_iff fun y => valid_capture_iff)
  rw [stepSchema, valid_closed_iff]
  simp only [List.forall_mem_cons, List.not_mem_nil, false_implies, implies_true, and_true, List.map_cons,
    List.map_nil]
  constructor
  · rintro ⟨fields, rfl, ⟨someId, someTitle, someOperation⟩,
      ⟨id, title, operation, assertion, capture, guidance⟩, declared⟩
    have idText := has_nonemptyString_iff.mp (required_iff.mp ⟨someId, id⟩)
    have titleText := has_nonemptyString_iff.mp (required_iff.mp ⟨someTitle, title⟩)
    have operationBoth := operations.mp (required_iff.mp ⟨someOperation, operation⟩)
    have assertionBoth := assertions.mp assertion
    have captureBoth := captures.mp capture
    refine ⟨⟨⟨fields, rfl⟩, idText.1, titleText.1, operationBoth.1, assertionBoth.1, captureBoth.1, ?_⟩,
      ⟨?_, idText.2, titleText.2, operationBoth.2, assertionBoth.2, captureBoth.2⟩⟩
    · exact fun x found => valid_nullableString_iff.mp (guidance x found)
    · rintro fields' same
      cases same
      exact declared
  · rintro ⟨shape, strict⟩
    obtain ⟨fields, rfl⟩ := shape.object
    obtain ⟨someId, id⟩ := required_iff.mpr (has_nonemptyString_iff.mpr ⟨shape.id, strict.id⟩)
    obtain ⟨someTitle, title⟩ := required_iff.mpr (has_nonemptyString_iff.mpr ⟨shape.title, strict.title⟩)
    obtain ⟨someOperation, operation⟩ := required_iff.mpr (operations.mpr ⟨shape.operation, strict.operation⟩)
    exact ⟨fields, rfl, ⟨someId, someTitle, someOperation⟩,
      ⟨id, title, operation, assertions.mpr ⟨shape.assertions, strict.assertions⟩,
        captures.mpr ⟨shape.captures, strict.captures⟩,
        fun x found => valid_nullableString_iff.mpr (shape.errorGuidance x found)⟩,
      strict.declares fields rfl⟩

theorem valid_flow_iff : Valid manifestDefs flowSchema v ↔ FlowShape v ∧ FlowStrict v := by
  have steps : Has "steps" (Valid manifestDefs (nonemptyListOf "step")) v ↔
      Has "steps" (IsNonemptyListOf StepShape) v ∧ MayHave "steps" (Each StepStrict) v :=
    has_and_iff fun x =>
      (valid_nonemptyListOf_iff rfl).trans (isNonemptyListOf_and_iff fun y => valid_step_iff)
  have cleanups : MayHave "cleanup" (Valid manifestDefs (listOf "step")) v ↔
      MayHave "cleanup" (IsListOf StepShape) v ∧ MayHave "cleanup" (Each StepStrict) v :=
    mayHave_and_iff fun x => (valid_listOf_iff rfl).trans (isListOf_and_iff fun y => valid_step_iff)
  rw [flowSchema, valid_closed_iff]
  simp only [List.forall_mem_cons, List.not_mem_nil, false_implies, implies_true, and_true, List.map_cons,
    List.map_nil]
  constructor
  · rintro ⟨fields, rfl, ⟨someId, someLevel, someSteps⟩, ⟨id, level, step, cleanup⟩, declared⟩
    have idText := has_nonemptyString_iff.mp (required_iff.mp ⟨someId, id⟩)
    have levelText := has_nonemptyString_iff.mp (required_iff.mp ⟨someLevel, level⟩)
    have stepsBoth := steps.mp (required_iff.mp ⟨someSteps, step⟩)
    have cleanupBoth := cleanups.mp cleanup
    refine ⟨⟨⟨fields, rfl⟩, idText.1, levelText.1, stepsBoth.1, cleanupBoth.1⟩,
      ⟨?_, idText.2, levelText.2, stepsBoth.2, cleanupBoth.2⟩⟩
    rintro fields' same
    cases same
    exact declared
  · rintro ⟨shape, strict⟩
    obtain ⟨fields, rfl⟩ := shape.object
    obtain ⟨someId, id⟩ := required_iff.mpr (has_nonemptyString_iff.mpr ⟨shape.id, strict.id⟩)
    obtain ⟨someLevel, level⟩ := required_iff.mpr (has_nonemptyString_iff.mpr ⟨shape.level, strict.level⟩)
    obtain ⟨someSteps, step⟩ := required_iff.mpr (steps.mpr ⟨shape.steps, strict.steps⟩)
    exact ⟨fields, rfl, ⟨someId, someLevel, someSteps⟩,
      ⟨id, level, step, cleanups.mpr ⟨shape.cleanup, strict.cleanup⟩⟩, strict.declares fields rfl⟩

end Valid

/-- Two numbers in decimal digits around a dot. -/
def IsDotted (version : String) : Prop :=
  ∃ major minor : List Char, major ≠ [] ∧ minor ≠ [] ∧ (∀ c ∈ major, c.isDigit = true) ∧
    (∀ c ∈ minor, c.isDigit = true) ∧ version.toList = major ++ '.' :: minor

def versionOf (v : Json) : String := ((v.get? "schemaVersion").bind Json.asStr?).getD ""

theorem mem_digits_iff (c : Char) :
    c ∈ ['0', '1', '2', '3', '4', '5', '6', '7', '8', '9'] ↔ c.isDigit = true := by
  constructor
  · intro member
    exact List.all_eq_true.mp (by decide) c member
  · intro digit
    have bounds : 48 ≤ c.toNat ∧ c.toNat ≤ 57 := by
      simpa [Char.isDigit, UInt32.le_iff_toNat_le] using digit
    have small : ∀ n < 58, 48 ≤ n →
        Char.ofNat n ∈ ['0', '1', '2', '3', '4', '5', '6', '7', '8', '9'] := by decide
    have listed := small c.toNat (by omega) bounds.1
    rwa [Char.ofNat_toNat] at listed

theorem mem_versionPattern_iff (version : String) :
    version.toList ∈ versionPattern.matches' ↔ IsDotted version := by
  have digits : ∀ text, text ∈ (oneOrMore decimalDigit).matches' ↔
      text ≠ [] ∧ ∀ c ∈ text, c.isDigit = true := by
    intro text
    rw [decimalDigit, mem_oneOrMore_charClass]
    simp only [mem_digits_iff]
  rw [versionPattern, RegularExpression.matches'_mul, RegularExpression.matches'_mul, Language.mem_mul]
  constructor
  · rintro ⟨front, inFront, minor, inMinor, whole⟩
    obtain ⟨major, inMajor, dot, rfl, rfl⟩ := Language.mem_mul.mp inFront
    obtain ⟨someMajor, majorDigits⟩ := (digits major).mp inMajor
    obtain ⟨someMinor, minorDigits⟩ := (digits minor).mp inMinor
    exact ⟨major, minor, someMajor, someMinor, majorDigits, minorDigits, by rw [← whole]; simp⟩
  · rintro ⟨major, minor, someMajor, someMinor, majorDigits, minorDigits, whole⟩
    refine ⟨major ++ ['.'], ?_, minor, (digits minor).mpr ⟨someMinor, minorDigits⟩, by rw [whole]; simp⟩
    exact Language.mem_mul.mpr ⟨major, (digits major).mpr ⟨someMajor, majorDigits⟩, ['.'], rfl, rfl⟩

/-- A valid document has the shape, is strict, and has a dotted version. -/
theorem valid_manifest_iff (v : Json) :
    Valid manifestDefs manifestSchema v ↔ ManifestShape v ∧ ManifestStrict v ∧ IsDotted (versionOf v) := by
  have flows : Has "flows" (Valid manifestDefs (nonemptyListOf "flow")) v ↔
      Has "flows" (IsNonemptyListOf FlowShape) v ∧ MayHave "flows" (Each FlowStrict) v :=
    has_and_iff fun x =>
      (valid_nonemptyListOf_iff rfl).trans (isNonemptyListOf_and_iff fun y => valid_flow_iff)
  have protocols : ∀ x, Valid manifestDefs
      { type := some [.string], enum := some (protocolNames.map Json.str) } x ↔
        ∃ name ∈ protocolNames, x = .str name := by
    intro x
    rw [valid_enum_iff (by simp [Json.type])]
    simp [eq_comm]
  have versions : Has "schemaVersion" (Valid manifestDefs
      { type := some [.string], pattern := some versionPattern }) v ↔
        Has "schemaVersion" IsString v ∧ IsDotted (versionOf v) := by
    constructor
    · rintro ⟨x, found, valid⟩
      obtain ⟨text, rfl, accepted⟩ := valid_pattern_iff.mp valid
      refine ⟨⟨_, found, text, rfl⟩, ?_⟩
      rw [versionOf, found]
      exact (mem_versionPattern_iff text).mp accepted
    · rintro ⟨⟨x, found, text, rfl⟩, dotted⟩
      rw [versionOf, found] at dotted
      exact ⟨_, found, valid_pattern_iff.mpr ⟨text, rfl, (mem_versionPattern_iff text).mpr dotted⟩⟩
  rw [manifestSchema, valid_closed_iff]
  simp only [List.forall_mem_cons, List.not_mem_nil, false_implies, implies_true, and_true, List.map_cons,
    List.map_nil]
  constructor
  · rintro ⟨fields, rfl, ⟨someVersion, someService, someProtocol, someFlows⟩,
      ⟨version, service, protocol, flow⟩, declared⟩
    have versionBoth := versions.mp (required_iff.mp ⟨someVersion, version⟩)
    have serviceText := has_nonemptyString_iff.mp (required_iff.mp ⟨someService, service⟩)
    have flowsBoth := flows.mp (required_iff.mp ⟨someFlows, flow⟩)
    obtain ⟨x, found, named⟩ := required_iff.mp ⟨someProtocol, protocol⟩
    refine ⟨⟨⟨fields, rfl⟩, versionBoth.1, serviceText.1, ⟨x, found, (protocols x).mp named⟩, flowsBoth.1⟩,
      ⟨?_, serviceText.2, flowsBoth.2⟩, versionBoth.2⟩
    rintro fields' same
    cases same
    exact declared
  · rintro ⟨shape, strict, dotted⟩
    obtain ⟨fields, rfl⟩ := shape.object
    obtain ⟨someVersion, version⟩ := required_iff.mpr (versions.mpr ⟨shape.schemaVersion, dotted⟩)
    obtain ⟨someService, service⟩ :=
      required_iff.mpr (has_nonemptyString_iff.mpr ⟨shape.service, strict.service⟩)
    obtain ⟨someFlows, flow⟩ := required_iff.mpr (flows.mpr ⟨shape.flows, strict.flows⟩)
    obtain ⟨x, found, named⟩ := shape.protocol
    obtain ⟨someProtocol, protocol⟩ := required_iff.mpr ⟨x, found, (protocols x).mpr named⟩
    exact ⟨fields, rfl, ⟨someVersion, someService, someProtocol, someFlows⟩,
      ⟨version, service, protocol, flow⟩, strict.declares fields rfl⟩

end Openstack.Studio

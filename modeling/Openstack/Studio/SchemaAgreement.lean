import Openstack.Studio.ManifestParsing
import Openstack.Studio.ManifestSchema

/-!
# Manifest validation and the published schema

What the hand-written validator and the derived deserializers accept together is the shape of a manifest, with
a version that can be parsed; they look for neither undeclared properties nor empty texts.
-/
namespace Openstack.Studio

variable {issues : String → Json → List ValidationIssue}

variable {v : Json} {key path : String} {items : List Json} {P Q R : Json → Prop}

theorem requireString_eq_nil_iff : requireString v key path = [] ↔ Has key IsString v := by
  rw [requireString, Has]
  constructor
  · intro none_found
    split at none_found
    · next text found => exact ⟨_, found, text, rfl⟩
    · cases none_found
    · cases none_found
  · rintro ⟨x, found, text, rfl⟩
    rw [found]

theorem elementIssues_eq_nil_iff (empty : ∀ path x, issues path x = [] ↔ P x) :
    elementIssues issues path items = [] ↔ ∀ x ∈ items, P x := by
  rw [elementIssues, List.flatMap_eq_nil_iff]
  constructor
  · intro all x member
    obtain ⟨i, bound, rfl⟩ := List.mem_iff_getElem.mp member
    have listed : (items[i], i) ∈ items.zipIdx := by
      rw [List.mk_mem_zipIdx_iff_getElem?]
      exact List.getElem?_eq_getElem bound
    exact (empty _ _).mp (all _ listed)
  · rintro all ⟨x, i⟩ listed
    have found := List.mk_mem_zipIdx_iff_getElem?.mp listed
    exact (empty _ _).mpr (all x (List.mem_of_getElem? found))

theorem requireElements_eq_nil_iff {element : String} (empty : ∀ path x, issues path x = [] ↔ P x) :
    requireElements issues v key path element = [] ↔ Has key (IsNonemptyListOf P) v := by
  rw [requireElements]
  constructor
  · intro none_found
    split at none_found
    · next items found =>
      rw [List.append_eq_nil_iff, elementIssues_eq_nil_iff empty] at none_found
      refine ⟨_, found, items, rfl, ?_, none_found.2⟩
      rintro rfl
      cases none_found.1
    · cases none_found
    · cases none_found
  · rintro ⟨x, found, items, rfl, nonempty, all⟩
    rw [found]
    simp only [if_neg nonempty, List.nil_append]
    exact (elementIssues_eq_nil_iff empty).mpr all

theorem optionalElements_eq_nil_iff (empty : ∀ path x, issues path x = [] ↔ P x) :
    optionalElements issues v key path = [] ↔ MayHave key (IsListOf P) v := by
  rw [optionalElements]
  constructor
  · intro none_found x found
    rw [found] at none_found
    cases x with
    | arr items => exact ⟨items, rfl, (elementIssues_eq_nil_iff empty).mp none_found⟩
    | null | bool | posInt | negInt | float | str | obj => cases none_found
  · intro all
    cases found : v.get? key with
    | none => rfl
    | some x =>
      obtain ⟨items, rfl, each⟩ := all x found
      exact (elementIssues_eq_nil_iff empty).mpr each

/-- What the validator looks at in an operation. -/
def OperationFrame (v : Json) : Prop := IsObject v ∧ Has "method" IsString v ∧ Has "path" IsString v

def StepFrame (v : Json) : Prop :=
  IsObject v ∧ Has "id" IsString v ∧ Has "title" IsString v ∧ Has "operation" OperationFrame v

def FlowFrame (v : Json) : Prop :=
  IsObject v ∧ Has "id" IsString v ∧ Has "level" IsString v ∧ Has "steps" (IsNonemptyListOf StepFrame) v ∧
    MayHave "cleanup" (IsListOf StepFrame) v

def ManifestFrame (v : Json) : Prop :=
  IsObject v ∧ Has "schemaVersion" IsString v ∧ Has "service" IsString v ∧ Has "protocol" IsString v ∧
    Has "flows" (IsNonemptyListOf FlowFrame) v

theorem operationIssues_eq_nil_iff : operationIssues path v = [] ↔ Has "operation" OperationFrame v := by
  rw [operationIssues]
  constructor
  · intro none_found
    split at none_found
    · next fields found =>
      rw [List.append_eq_nil_iff, requireString_eq_nil_iff, requireString_eq_nil_iff] at none_found
      exact ⟨_, found, ⟨fields, rfl⟩, none_found⟩
    · cases none_found
    · cases none_found
  · rintro ⟨x, found, ⟨fields, rfl⟩, texts⟩
    rw [found]
    exact List.append_eq_nil_iff.mpr
      ⟨requireString_eq_nil_iff.mpr texts.1, requireString_eq_nil_iff.mpr texts.2⟩

theorem stepIssues_eq_nil_iff (path : String) (v : Json) : stepIssues path v = [] ↔ StepFrame v := by
  cases v with
  | obj fields =>
    simp only [stepIssues, List.append_eq_nil_iff, requireString_eq_nil_iff, operationIssues_eq_nil_iff,
      StepFrame, and_assoc, iff_and_self]
    exact fun _ => ⟨fields, rfl⟩
  | null | bool | posInt | negInt | float | str | arr => simp [stepIssues, StepFrame, IsObject]

theorem flowIssues_eq_nil_iff (path : String) (v : Json) : flowIssues path v = [] ↔ FlowFrame v := by
  cases v with
  | obj fields =>
    simp only [flowIssues, List.append_eq_nil_iff, requireString_eq_nil_iff,
      requireElements_eq_nil_iff stepIssues_eq_nil_iff, optionalElements_eq_nil_iff stepIssues_eq_nil_iff,
      FlowFrame, and_assoc, iff_and_self]
    exact fun _ => ⟨fields, rfl⟩
  | null | bool | posInt | negInt | float | str | arr => simp [flowIssues, FlowFrame, IsObject]

theorem validateManifestStructure_eq_nil_iff (v : Json) :
    validateManifestStructure v = [] ↔ ManifestFrame v := by
  cases v with
  | obj fields =>
    simp only [validateManifestStructure, List.append_eq_nil_iff, requireString_eq_nil_iff,
      requireElements_eq_nil_iff flowIssues_eq_nil_iff, ManifestFrame, and_assoc, iff_and_self]
    exact fun _ => ⟨fields, rfl⟩
  | null | bool | posInt | negInt | float | str | arr =>
    simp [validateManifestStructure, ManifestFrame, IsObject]

section Derive

variable {α β : Type} {read : Json → Option α}

theorem isSome_bind_iff {x : Option α} {f : α → Option β} {p : Prop} (later : ∀ a, (f a).isSome = true ↔ p) :
    (x.bind f).isSome = true ↔ x.isSome = true ∧ p := by
  cases x with
  | none => simp
  | some a => simp [later a]

theorem isSome_mapM_iff {f : α → Option β} (l : List α) :
    (l.mapM f).isSome = true ↔ ∀ x ∈ l, (f x).isSome = true := by
  induction l with
  | nil => simp
  | cons x rest ih =>
    rw [List.mapM_cons, Option.bind_eq_bind, isSome_bind_iff (p := ∀ y ∈ rest, (f y).isSome = true),
      List.forall_mem_cons]
    intro y
    rw [Option.bind_eq_bind, isSome_bind_iff (p := True), ih, and_true]
    simp

theorem isSome_asStr?_iff : v.asStr?.isSome = true ↔ IsString v := by
  rw [IsString]
  cases v <;> simp [Json.asStr?]

theorem isSome_vecOf_iff (reads : ∀ x, (read x).isSome = true ↔ P x) :
    (vecOf read v).isSome = true ↔ IsListOf P v := by
  cases v with
  | arr items => simp [vecOf, isSome_mapM_iff, reads, IsListOf]
  | null | bool | posInt | negInt | float | str | obj => simp [vecOf, IsListOf]

theorem isSome_stringMapOf_iff : (stringMapOf v).isSome = true ↔ IsStringMap v := by
  have entry : ∀ p, (stringEntry p).isSome = true ↔ IsString p.2 := by
    intro p
    rw [stringEntry, Option.isSome_map, isSome_asStr?_iff]
  cases v with
  | obj fields => simp only [stringMapOf, Option.isSome_map, isSome_mapM_iff, entry, IsStringMap,
      Json.obj.injEq, exists_eq_left']
  | null | bool | posInt | negInt | float | str | arr => simp [stringMapOf, IsStringMap]

variable {fields : List (String × Json)} {position : Nat}

theorem isSome_requiredField_iff (reads : ∀ x, (read x).isSome = true ↔ P x) :
    (requiredField read (.obj fields) key position).isSome = true ↔ Has key P (.obj fields) := by
  rw [requiredField, fieldOf, Has]
  cases Json.get? key (.obj fields) with
  | none => simp
  | some x => simp [reads]

theorem isSome_defaultField_iff {default : α} (reads : ∀ x, (read x).isSome = true ↔ P x) :
    (defaultField read default (.obj fields) key position).isSome = true ↔ MayHave key P (.obj fields) := by
  rw [defaultField, fieldOf, MayHave]
  cases Json.get? key (.obj fields) with
  | none => simp
  | some x => simp [reads]

theorem isSome_optionField_iff :
    (optionField Json.asStr? (.obj fields) key position).isSome = true ↔
      MayHave key IsStringOrNull (.obj fields) := by
  rw [optionField, fieldOf, MayHave]
  cases Json.get? key (.obj fields) with
  | none => simp
  | some x =>
    cases x <;> simp [Json.asStr?, IsStringOrNull, IsString]

end Derive

theorem isRecord_obj_iff {keys : List String} {fields : List (String × Json)} :
    IsRecord keys (.obj fields) ↔ ∀ key ∈ keys, Has key IsString (.obj fields) := by
  constructor
  · rintro (⟨_, all⟩ | ⟨texts, _, same⟩)
    · exact all
    · cases same
  · exact fun all => .inl ⟨⟨fields, rfl⟩, all⟩

theorem isRecord_arr_iff {keys : List String} :
    IsRecord keys (.arr items) ↔ items.length = keys.length ∧ ∀ x ∈ items, IsString x := by
  constructor
  · rintro (⟨⟨fields, same⟩, _⟩ | ⟨texts, length, same⟩)
    · cases same
    · cases same
      refine ⟨by simp [length], fun x member => ?_⟩
      obtain ⟨text, _, rfl⟩ := List.mem_map.mp member
      exact ⟨text, rfl⟩
  · rintro ⟨length, all⟩
    have texts : ∃ texts : List String, items = texts.map Json.str := by
      clear length
      induction items with
      | nil => exact ⟨[], rfl⟩
      | cons x rest ih =>
        obtain ⟨text, rfl⟩ := all x (by simp)
        obtain ⟨texts, same⟩ := ih fun y member => all y (by simp [member])
        exact ⟨text :: texts, by rw [same, List.map_cons]⟩
    obtain ⟨texts, rfl⟩ := texts
    exact .inr ⟨texts, by simpa using length, rfl⟩

theorem isSome_assertion_iff (v : Json) :
    (FlowAssertion.fromValue v).isSome = true ↔ IsRecord ["kind", "target", "expected"] v := by
  have strings := fun x => isSome_asStr?_iff (v := x)
  cases v with
  | obj fields =>
    have each : (FlowAssertion.fromValue (.obj fields)).isSome = true ↔
        Has "kind" IsString (.obj fields) ∧ Has "target" IsString (.obj fields) ∧
          Has "expected" IsString (.obj fields) ∧ True := by
      refine (isSome_bind_iff fun _ => isSome_bind_iff fun _ => isSome_bind_iff fun _ =>
        iff_of_true rfl trivial).trans ?_
      exact and_congr (isSome_requiredField_iff strings) (and_congr (isSome_requiredField_iff strings)
        (and_congr (isSome_requiredField_iff strings) Iff.rfl))
    rw [each, isRecord_obj_iff]
    simp
  | arr items =>
    rw [isRecord_arr_iff]
    rcases items with _ | ⟨a, _ | ⟨b, _ | ⟨c, _ | ⟨d, rest⟩⟩⟩⟩
    · simp [FlowAssertion.fromValue, isStruct, requiredField, fieldOf]
    · simp [FlowAssertion.fromValue, isStruct, requiredField, fieldOf]
    · simp [FlowAssertion.fromValue, isStruct, requiredField, fieldOf]
    · have each : (FlowAssertion.fromValue (.arr [a, b, c])).isSome = true ↔
          IsString a ∧ IsString b ∧ IsString c ∧ True := by
        simp only [← strings]
        exact isSome_bind_iff fun _ => isSome_bind_iff fun _ => isSome_bind_iff fun _ => iff_of_true rfl trivial
      rw [each]
      simp
    · simp [FlowAssertion.fromValue, isStruct]
  | null | bool | posInt | negInt | float | str => simp [FlowAssertion.fromValue, isStruct, IsRecord, IsObject]

theorem isSome_capture_iff (v : Json) :
    (CaptureBinding.fromValue v).isSome = true ↔ IsRecord ["name", "source"] v := by
  have strings := fun x => isSome_asStr?_iff (v := x)
  cases v with
  | obj fields =>
    have each : (CaptureBinding.fromValue (.obj fields)).isSome = true ↔
        Has "name" IsString (.obj fields) ∧ Has "source" IsString (.obj fields) ∧ True := by
      refine (isSome_bind_iff fun _ => isSome_bind_iff fun _ => iff_of_true rfl trivial).trans ?_
      exact and_congr (isSome_requiredField_iff strings)
        (and_congr (isSome_requiredField_iff strings) Iff.rfl)
    rw [each, isRecord_obj_iff]
    simp
  | arr items =>
    rw [isRecord_arr_iff]
    rcases items with _ | ⟨a, _ | ⟨b, _ | ⟨c, rest⟩⟩⟩
    · simp [CaptureBinding.fromValue, isStruct, requiredField, fieldOf]
    · simp [CaptureBinding.fromValue, isStruct, requiredField, fieldOf]
    · have each : (CaptureBinding.fromValue (.arr [a, b])).isSome = true ↔ IsString a ∧ IsString b ∧ True := by
        simp only [← strings]
        exact isSome_bind_iff fun _ => isSome_bind_iff fun _ => iff_of_true rfl trivial
      rw [each]
      simp
    · simp [CaptureBinding.fromValue, isStruct]
  | null | bool | posInt | negInt | float | str => simp [CaptureBinding.fromValue, isStruct, IsRecord, IsObject]

theorem isSome_operation_iff (fields : List (String × Json)) :
    (NormalizedOperation.fromValue (.obj fields)).isSome = true ↔ OperationShape (.obj fields) := by
  have strings := fun x => isSome_asStr?_iff (v := x)
  have maps := fun x => isSome_stringMapOf_iff (v := x)
  have each : (NormalizedOperation.fromValue (.obj fields)).isSome = true ↔
      Has "method" IsString (.obj fields) ∧ Has "path" IsString (.obj fields) ∧
        MayHave "headers" IsStringMap (.obj fields) ∧ MayHave "query" IsStringMap (.obj fields) ∧
          MayHave "body" IsStringOrNull (.obj fields) ∧ True := by
    refine (isSome_bind_iff fun _ => isSome_bind_iff fun _ => isSome_bind_iff fun _ => isSome_bind_iff fun _ =>
      isSome_bind_iff fun _ => iff_of_true rfl trivial).trans ?_
    exact and_congr (isSome_requiredField_iff strings) (and_congr (isSome_requiredField_iff strings)
      (and_congr (isSome_defaultField_iff maps) (and_congr (isSome_defaultField_iff maps)
        (and_congr isSome_optionField_iff Iff.rfl))))
  rw [each]
  exact ⟨fun ⟨method, path, headers, query, body, _⟩ => ⟨⟨fields, rfl⟩, method, path, headers, query, body⟩,
    fun shape => ⟨shape.method, shape.path, shape.headers, shape.query, shape.body, trivial⟩⟩

theorem has_inter_iff (both : ∀ x, P x ↔ Q x ∧ R x) : Has key P v ↔ Has key Q v ∧ Has key R v := by
  constructor
  · rintro ⟨x, found, holds⟩
    exact ⟨⟨x, found, ((both x).mp holds).1⟩, x, found, ((both x).mp holds).2⟩
  · rintro ⟨⟨x, found, left⟩, y, again, right⟩
    cases found.symm.trans again
    exact ⟨x, found, (both x).mpr ⟨left, right⟩⟩

theorem isListOf_inter_iff (both : ∀ x, P x ↔ Q x ∧ R x) : IsListOf P v ↔ IsListOf Q v ∧ IsListOf R v := by
  constructor
  · rintro ⟨items, rfl, all⟩
    exact ⟨⟨items, rfl, fun x member => ((both x).mp (all x member)).1⟩,
      items, rfl, fun x member => ((both x).mp (all x member)).2⟩
  · rintro ⟨⟨items, rfl, left⟩, items', same, right⟩
    cases same
    exact ⟨items, rfl, fun x member => (both x).mpr ⟨left x member, right x member⟩⟩

theorem isNonemptyListOf_inter_iff (both : ∀ x, P x ↔ Q x ∧ R x) :
    IsNonemptyListOf P v ↔ IsNonemptyListOf Q v ∧ IsListOf R v := by
  constructor
  · rintro ⟨items, rfl, nonempty, all⟩
    exact ⟨⟨items, rfl, nonempty, fun x member => ((both x).mp (all x member)).1⟩,
      items, rfl, fun x member => ((both x).mp (all x member)).2⟩
  · rintro ⟨⟨items, rfl, nonempty, left⟩, items', same, right⟩
    cases same
    exact ⟨items, rfl, nonempty, fun x member => (both x).mpr ⟨left x member, right x member⟩⟩

theorem operationShape_iff (v : Json) :
    OperationShape v ↔ OperationFrame v ∧ (NormalizedOperation.fromValue v).isSome = true := by
  constructor
  · intro shape
    obtain ⟨fields, rfl⟩ := shape.object
    exact ⟨⟨⟨fields, rfl⟩, shape.method, shape.path⟩, (isSome_operation_iff fields).mpr shape⟩
  · rintro ⟨⟨⟨fields, rfl⟩, _⟩, read⟩
    exact (isSome_operation_iff fields).mp read

theorem stepShape_iff (v : Json) : StepShape v ↔ StepFrame v ∧ (GuidedStep.fromValue v).isSome = true := by
  have strings := fun x => isSome_asStr?_iff (v := x)
  have each : ∀ fields, (GuidedStep.fromValue (.obj fields)).isSome = true ↔
      Has "id" IsString (.obj fields) ∧ Has "title" IsString (.obj fields) ∧
        Has "operation" (fun x => (NormalizedOperation.fromValue x).isSome = true) (.obj fields) ∧
          MayHave "assertions" (IsListOf (IsRecord ["kind", "target", "expected"])) (.obj fields) ∧
            MayHave "captures" (IsListOf (IsRecord ["name", "source"])) (.obj fields) ∧
              MayHave "errorGuidance" IsStringOrNull (.obj fields) ∧ True := by
    intro fields
    refine (isSome_bind_iff fun _ => isSome_bind_iff fun _ => isSome_bind_iff fun _ => isSome_bind_iff fun _ =>
      isSome_bind_iff fun _ => isSome_bind_iff fun _ => iff_of_true rfl trivial).trans ?_
    exact and_congr (isSome_requiredField_iff strings) (and_congr (isSome_requiredField_iff strings)
      (and_congr (isSome_requiredField_iff fun x => Iff.rfl)
        (and_congr (isSome_defaultField_iff fun x => isSome_vecOf_iff isSome_assertion_iff)
          (and_congr (isSome_defaultField_iff fun x => isSome_vecOf_iff isSome_capture_iff)
            (and_congr isSome_optionField_iff Iff.rfl)))))
  have operation : Has "operation" OperationShape v ↔ Has "operation" OperationFrame v ∧
      Has "operation" (fun x => (NormalizedOperation.fromValue x).isSome = true) v :=
    has_inter_iff operationShape_iff
  constructor
  · intro shape
    obtain ⟨fields, rfl⟩ := shape.object
    obtain ⟨frame, read⟩ := operation.mp shape.operation
    exact ⟨⟨⟨fields, rfl⟩, shape.id, shape.title, frame⟩, (each fields).mpr
      ⟨shape.id, shape.title, read, shape.assertions, shape.captures, shape.errorGuidance, trivial⟩⟩
  · rintro ⟨⟨⟨fields, rfl⟩, id, title, frame⟩, read⟩
    obtain ⟨_, _, read, assertions, captures, errorGuidance, _⟩ := (each fields).mp read
    exact ⟨⟨fields, rfl⟩, id, title, operation.mpr ⟨frame, read⟩, assertions, captures, errorGuidance⟩

theorem flowShape_iff (v : Json) : FlowShape v ↔ FlowFrame v ∧ (GuidedFlow.fromValue v).isSome = true := by
  have strings := fun x => isSome_asStr?_iff (v := x)
  have lists : ∀ x, (vecOf GuidedStep.fromValue x).isSome = true ↔
      IsListOf (fun y => (GuidedStep.fromValue y).isSome = true) x :=
    fun x => isSome_vecOf_iff fun y => Iff.rfl
  have each : ∀ fields, (GuidedFlow.fromValue (.obj fields)).isSome = true ↔
      Has "id" IsString (.obj fields) ∧ Has "level" IsString (.obj fields) ∧
        Has "steps" (IsListOf fun x => (GuidedStep.fromValue x).isSome = true) (.obj fields) ∧
          MayHave "cleanup" (IsListOf fun x => (GuidedStep.fromValue x).isSome = true) (.obj fields) ∧
            True := by
    intro fields
    refine (isSome_bind_iff fun _ => isSome_bind_iff fun _ => isSome_bind_iff fun _ => isSome_bind_iff fun _ =>
      iff_of_true rfl trivial).trans ?_
    exact and_congr (isSome_requiredField_iff strings) (and_congr (isSome_requiredField_iff strings)
      (and_congr (isSome_requiredField_iff lists) (and_congr (isSome_defaultField_iff lists) Iff.rfl)))
  have steps : Has "steps" (IsNonemptyListOf StepShape) v ↔ Has "steps" (IsNonemptyListOf StepFrame) v ∧
      Has "steps" (IsListOf fun x => (GuidedStep.fromValue x).isSome = true) v :=
    has_inter_iff fun x => isNonemptyListOf_inter_iff stepShape_iff
  have cleanup : MayHave "cleanup" (IsListOf StepShape) v ↔ MayHave "cleanup" (IsListOf StepFrame) v ∧
      MayHave "cleanup" (IsListOf fun x => (GuidedStep.fromValue x).isSome = true) v :=
    mayHave_and_iff fun x => isListOf_inter_iff stepShape_iff
  constructor
  · intro shape
    obtain ⟨fields, rfl⟩ := shape.object
    obtain ⟨stepFrames, stepsRead⟩ := steps.mp shape.steps
    obtain ⟨cleanupFrames, cleanupRead⟩ := cleanup.mp shape.cleanup
    exact ⟨⟨⟨fields, rfl⟩, shape.id, shape.level, stepFrames, cleanupFrames⟩,
      (each fields).mpr ⟨shape.id, shape.level, stepsRead, cleanupRead, trivial⟩⟩
  · rintro ⟨⟨⟨fields, rfl⟩, id, level, stepFrames, cleanupFrames⟩, read⟩
    obtain ⟨_, _, stepsRead, cleanupRead, _⟩ := (each fields).mp read
    exact ⟨⟨fields, rfl⟩, id, level, steps.mpr ⟨stepFrames, stepsRead⟩,
      cleanup.mpr ⟨cleanupFrames, cleanupRead⟩⟩

/-- A protocol that is a text deserializes if it is one of the four names. -/
theorem protocol_iff (x : Json) : (∃ name ∈ protocolNames, x = .str name) ↔
    IsString x ∧ (ProtocolClass.fromValue x).isSome = true := by
  have names : ∀ name, (ProtocolClass.ofVariant name).isSome = true ↔ name ∈ protocolNames := by
    intro name
    unfold ProtocolClass.ofVariant
    split <;> simp_all [protocolNames]
  constructor
  · rintro ⟨name, listed, rfl⟩
    exact ⟨⟨name, rfl⟩, (names name).mpr listed⟩
  · rintro ⟨⟨name, rfl⟩, read⟩
    exact ⟨name, (names name).mp read, rfl⟩

theorem manifestShape_iff (v : Json) :
    ManifestShape v ↔ ManifestFrame v ∧ (GuidedManifest.fromValue v).isSome = true := by
  have strings := fun x => isSome_asStr?_iff (v := x)
  have each : ∀ fields, (GuidedManifest.fromValue (.obj fields)).isSome = true ↔
      Has "schemaVersion" IsString (.obj fields) ∧ Has "service" IsString (.obj fields) ∧
        Has "protocol" (fun x => (ProtocolClass.fromValue x).isSome = true) (.obj fields) ∧
          Has "flows" (IsListOf fun x => (GuidedFlow.fromValue x).isSome = true) (.obj fields) ∧ True := by
    intro fields
    refine (isSome_bind_iff fun _ => isSome_bind_iff fun _ => isSome_bind_iff fun _ => isSome_bind_iff fun _ =>
      iff_of_true rfl trivial).trans ?_
    exact and_congr (isSome_requiredField_iff strings) (and_congr (isSome_requiredField_iff strings)
      (and_congr (isSome_requiredField_iff fun x => Iff.rfl)
        (and_congr (isSome_requiredField_iff fun x => isSome_vecOf_iff fun y => Iff.rfl) Iff.rfl)))
  have protocol : Has "protocol" (fun x => ∃ name ∈ protocolNames, x = .str name) v ↔
      Has "protocol" IsString v ∧ Has "protocol" (fun x => (ProtocolClass.fromValue x).isSome = true) v :=
    has_inter_iff protocol_iff
  have flows : Has "flows" (IsNonemptyListOf FlowShape) v ↔ Has "flows" (IsNonemptyListOf FlowFrame) v ∧
      Has "flows" (IsListOf fun x => (GuidedFlow.fromValue x).isSome = true) v :=
    has_inter_iff fun x => isNonemptyListOf_inter_iff flowShape_iff
  constructor
  · intro shape
    obtain ⟨fields, rfl⟩ := shape.object
    obtain ⟨protocolText, protocolRead⟩ := protocol.mp shape.protocol
    obtain ⟨flowFrames, flowsRead⟩ := flows.mp shape.flows
    exact ⟨⟨⟨fields, rfl⟩, shape.schemaVersion, shape.service, protocolText, flowFrames⟩,
      (each fields).mpr ⟨shape.schemaVersion, shape.service, protocolRead, flowsRead, trivial⟩⟩
  · rintro ⟨⟨⟨fields, rfl⟩, schemaVersion, service, protocolText, flowFrames⟩, read⟩
    obtain ⟨_, _, protocolRead, flowsRead, _⟩ := (each fields).mp read
    exact ⟨⟨fields, rfl⟩, schemaVersion, service, protocol.mpr ⟨protocolText, protocolRead⟩,
      flows.mpr ⟨flowFrames, flowsRead⟩⟩

/-- What parses as a `u64`: a plus sign may stand in front. -/
def IsU64Text (text : List Char) : Prop :=
  ∃ digits, (text = digits ∨ text = '+' :: digits) ∧ digits ≠ [] ∧ (∀ c ∈ digits, c.isDigit = true) ∧
    RustFmt.digitsValue digits < 2 ^ 64

def IsReadableVersion (version : String) : Prop :=
  ∃ major minor, IsU64Text major ∧ IsU64Text minor ∧ version.toList = major ++ '.' :: minor

theorem IsU64Text.dot_not_mem {text : List Char} (number : IsU64Text text) : '.' ∉ text := by
  obtain ⟨digits, sign, _, all, _⟩ := number
  have plain : '.' ∉ digits := fun member => absurd (all '.' member) (by decide)
  rcases sign with rfl | rfl
  · exact plain
  · simp [plain]

theorem isSome_parseVersion_iff (version : String) :
    (parseVersion version).isSome = true ↔ IsReadableVersion version := by
  have numbers : ∀ major minor : List Char, ((RustFmt.parseUnsigned 64 (String.ofList major)).bind fun a =>
      (RustFmt.parseUnsigned 64 (String.ofList minor)).bind fun b => some (a, b)).isSome = true ↔
        IsU64Text major ∧ IsU64Text minor ∧ True := by
    intro major minor
    refine (isSome_bind_iff fun _ => isSome_bind_iff fun _ => iff_of_true rfl trivial).trans ?_
    exact and_congr (RustFmt.parseUnsigned_isSome_iff 64 major)
      (and_congr (RustFmt.parseUnsigned_isSome_iff 64 minor) Iff.rfl)
  rw [parseVersion]
  constructor
  · intro parsed
    split at parsed
    · next major minor parts =>
      obtain ⟨first, second, _⟩ := (numbers major minor).mp parsed
      exact ⟨major, minor, first, second, (RustStr.split_eq_pair_iff.mp parts).2.2⟩
    · cases parsed
  · rintro ⟨major, minor, first, second, whole⟩
    have parts : RustStr.split ['.'] version.toList = [major, minor] :=
      RustStr.split_eq_pair_iff.mpr ⟨first.dot_not_mem, second.dot_not_mem, whole⟩
    rw [parts]
    exact (numbers major minor).mpr ⟨first, second, trivial⟩

theorem schemaVersion_of_fromValue {fields : List (String × Json)} {m : GuidedManifest}
    (read : GuidedManifest.fromValue (.obj fields) = some m) : m.schemaVersion = versionOf (.obj fields) := by
  rw [GuidedManifest.fromValue, isStruct, if_pos rfl] at read
  simp only [Option.bind_eq_bind, Option.bind_eq_some_iff] at read
  obtain ⟨version, found, service, _, protocol, _, flows, _, same⟩ := read
  cases same
  have field : (Json.get? "schemaVersion" (.obj fields)).bind Json.asStr? = some version := found
  rw [versionOf, field, Option.getD_some]

/-- The document passes the structural validation and deserializes, with a version that can be parsed. -/
def Accepted (v : Json) : Prop :=
  validateManifestStructure v = [] ∧
    ∃ m, GuidedManifest.fromValue v = some m ∧ (parseVersion m.schemaVersion).isSome = true

theorem accepted_iff (v : Json) : Accepted v ↔ ManifestShape v ∧ IsReadableVersion (versionOf v) := by
  rw [Accepted, validateManifestStructure_eq_nil_iff, manifestShape_iff]
  constructor
  · rintro ⟨frame, m, read, parsed⟩
    obtain ⟨fields, rfl⟩ := frame.1
    rw [schemaVersion_of_fromValue read, isSome_parseVersion_iff] at parsed
    exact ⟨⟨frame, by rw [read, Option.isSome_some]⟩, parsed⟩
  · rintro ⟨⟨frame, read⟩, readable⟩
    obtain ⟨m, read⟩ := Option.isSome_iff_exists.mp read
    obtain ⟨fields, rfl⟩ := frame.1
    refine ⟨frame, m, read, ?_⟩
    rwa [schemaVersion_of_fromValue read, isSome_parseVersion_iff]

/-- Of a document with the shape of a manifest: its version can be read exactly if it is a plain dotted pair and
the document has neither undeclared properties, nor empty texts, nor arrays in place of records. -/
def AgreesOn (v : Json) : Prop :=
  ManifestShape v → (IsReadableVersion (versionOf v) ↔ ManifestStrict v ∧ IsDotted (versionOf v))

/-- The validator and the schema agree on exactly these documents. -/
theorem manifest_agreement_iff (v : Json) :
    (Accepted v ↔ JsonSchema.Valid manifestDefs manifestSchema v) ↔ AgreesOn v := by
  rw [accepted_iff, valid_manifest_iff, AgreesOn]
  by_cases shape : ManifestShape v
  · simp only [shape, true_and, true_imp_iff]
  · simp only [shape, false_and, false_imp_iff]

/-- A manifest whose service is the empty text. -/
def namelessManifest : Json :=
  .obj [("flows", .arr [.obj [("id", .str "f"), ("level", .str "L1"), ("steps", .arr [.obj [("id", .str "s"),
    ("operation", .obj [("method", .str "GET"), ("path", .str "/")]), ("title", .str "t")]])]]),
    ("protocol", .str "query"), ("schemaVersion", .str "1.2"), ("service", .str "")]

theorem nameless_manifest_accepted :
    ¬ (Accepted namelessManifest ↔ JsonSchema.Valid manifestDefs manifestSchema namelessManifest) := by
  have accepted : Accepted namelessManifest := ⟨by decide +kernel, _, rfl, by decide +kernel⟩
  intro agrees
  exact ((valid_manifest_iff _).mp (agrees.mp accepted)).2.1.service rfl

/-- What is loaded has been accepted, and its version is one that the runtime supports. -/
theorem readManifest_ok {v : Json} {m : GuidedManifest} (loaded : readManifest v = .ok m) :
    Accepted v ∧ ∃ minor ≤ 2, parseVersion m.schemaVersion = some (1, minor) := by
  have supported : parseVersion supportedSchemaVersion = some (1, 2) := by decide +kernel
  rw [readManifest] at loaded
  split at loaded
  · cases loaded
  · next clean =>
    split at loaded
    · cases loaded
    · next manifest read =>
      rw [checkSchemaCompatibility, supported] at loaded
      cases parsed : parseVersion manifest.schemaVersion with
      | none =>
        rw [parsed] at loaded
        cases loaded
      | some version =>
        rw [parsed] at loaded
        simp only at loaded
        split at loaded
        · cases loaded
        · next compatible =>
          cases loaded
          refine ⟨⟨not_not.mp clean, _, read, by rw [parsed, Option.isSome_some]⟩, version.2, by omega, ?_⟩
          have major : version.1 = 1 := by omega
          rw [parsed, ← major]

end Openstack.Studio

import Openstack.Lib.Json
import Openstack.Lib.RustFmt
import Openstack.Lib.RustStr
import Openstack.Studio.GuidedManifest

/-!
# Reading guided manifests

`guided_manifest.rs:106-152` and `211-378`, with the `Deserialize` implementations that `serde` derives for
the types of lines 12-78. The text has been parsed to a JSON value; the semantic lint is not part of this.
-/
namespace Openstack.Studio

structure ValidationIssue where
  path : String
  message : String
  deriving DecidableEq, Repr

inductive ManifestError where
  /-- The deserializer's own error is not kept. -/
  | invalidManifestData
  | structuralValidation (issues : List ValidationIssue)
  | incompatibleSchemaVersion (manifestVersion runtimeVersion : String)
  deriving DecidableEq, Repr

def requireString (object : Json) (key path : String) : List ValidationIssue :=
  match object.get? key with
  | some (.str _) => []
  | some _ => [⟨path ++ "." ++ key, "must be a string"⟩]
  | none => [⟨path ++ "." ++ key, "is required"⟩]

/-- The issues of each element, under its index. -/
def elementIssues (issues : (path : String) → Json → List ValidationIssue) (path : String)
    (items : List Json) : List ValidationIssue :=
  items.zipIdx.flatMap fun p => issues (path ++ "[" ++ toString p.2 ++ "]") p.1

def operationIssues (stepPath : String) (step : Json) : List ValidationIssue :=
  let path := stepPath ++ ".operation"
  match step.get? "operation" with
  | some (.obj fields) => requireString (.obj fields) "method" path ++ requireString (.obj fields) "path" path
  | some _ => [⟨path, "must be an object"⟩]
  | none => [⟨path, "is required"⟩]

/-- The loop body that the source has twice, for the steps and for the cleanup. -/
def stepIssues (path : String) (step : Json) : List ValidationIssue :=
  match step with
  | .obj _ => requireString step "id" path ++ requireString step "title" path ++ operationIssues path step
  | _ => [⟨path, "step must be an object"⟩]

/-- A list that has to be there and to have elements, each of which is looked at. -/
def requireElements (issues : (path : String) → Json → List ValidationIssue) (object : Json)
    (key path element : String) : List ValidationIssue :=
  let path := path ++ "." ++ key
  match object.get? key with
  | some (.arr items) =>
    (if items = [] then [⟨path, "must contain at least one " ++ element⟩] else []) ++
      elementIssues issues path items
  | some _ => [⟨path, "must be an array"⟩]
  | none => [⟨path, "is required"⟩]

def optionalElements (issues : (path : String) → Json → List ValidationIssue) (object : Json)
    (key path : String) : List ValidationIssue :=
  let path := path ++ "." ++ key
  match object.get? key with
  | some (.arr items) => elementIssues issues path items
  | some _ => [⟨path, "must be an array"⟩]
  | none => []

def flowIssues (path : String) (flow : Json) : List ValidationIssue :=
  match flow with
  | .obj _ =>
    requireString flow "id" path ++ requireString flow "level" path ++
      requireElements stepIssues flow "steps" path "step" ++ optionalElements stepIssues flow "cleanup" path
  | _ => [⟨path, "flow must be an object"⟩]

def validateManifestStructure (value : Json) : List ValidationIssue :=
  match value with
  | .obj _ =>
    requireString value "schemaVersion" "$" ++ requireString value "service" "$" ++
      requireString value "protocol" "$" ++ requireElements flowIssues value "flows" "$" "flow"
  | _ => [⟨"$", "manifest root must be an object"⟩]

section Derive

variable {α : Type}

/-- A struct is read from an object, or from an array that has no more elements than it has fields. -/
def isStruct (arity : Nat) : Json → Bool
  | .obj _ => true
  | .arr items => items.length ≤ arity
  | _ => false

/-- A field is found under its key, or at its position. -/
@[grind] def fieldOf (v : Json) (key : String) (position : Nat) : Option Json :=
  match v with
  | .obj _ => v.get? key
  | .arr items => items[position]?
  | _ => none

def requiredField (read : Json → Option α) (v : Json) (key : String) (position : Nat) : Option α :=
  (fieldOf v key position).bind read

/-- A field with `#[serde(default)]`. -/
def defaultField (read : Json → Option α) (default : α) (v : Json) (key : String) (position : Nat) : Option α :=
  match fieldOf v key position with
  | some x => read x
  | none => some default

/-- A field of type `Option`: an object may lack it, an array may not. -/
def optionField (read : Json → Option α) (v : Json) (key : String) (position : Nat) : Option (Option α) :=
  match fieldOf v key position with
  | some .null => some none
  | some x => (read x).map some
  | none =>
    match v with
    | .obj _ => some none
    | _ => none

def vecOf (read : Json → Option α) : Json → Option (List α)
  | .arr items => items.mapM read
  | _ => none

end Derive

def stringEntry (p : String × Json) : Option (String × String) := p.2.asStr?.map fun text => (p.1, text)

/-- `HashMap<String, String>`. -/
def stringMapOf : Json → Option (StrMap String)
  | .obj fields => (fields.mapM stringEntry).map (·.foldl (fun map p => map.insert p.1 p.2) ∅)
  | _ => none

def ProtocolClass.ofVariant : String → Option ProtocolClass
  | "query" => some .query
  | "json_target" => some .jsonTarget
  | "rest_xml" => some .restXml
  | "rest_json" => some .restJson
  | _ => none

/-- A unit variant is its name, or an object with the name and `null`. -/
def ProtocolClass.fromValue : Json → Option ProtocolClass
  | .str name => ofVariant name
  | .obj [(name, .null)] => ofVariant name
  | _ => none

def FlowAssertion.fromValue (v : Json) : Option FlowAssertion :=
  if isStruct 3 v then do
    let kind ← requiredField Json.asStr? v "kind" 0
    let target ← requiredField Json.asStr? v "target" 1
    let expected ← requiredField Json.asStr? v "expected" 2
    pure { kind, target, expected }
  else none

def CaptureBinding.fromValue (v : Json) : Option CaptureBinding :=
  if isStruct 2 v then do
    let name ← requiredField Json.asStr? v "name" 0
    let source ← requiredField Json.asStr? v "source" 1
    pure { name, source }
  else none

def NormalizedOperation.fromValue (v : Json) : Option NormalizedOperation :=
  if isStruct 5 v then do
    let method ← requiredField Json.asStr? v "method" 0
    let path ← requiredField Json.asStr? v "path" 1
    let headers ← defaultField stringMapOf ∅ v "headers" 2
    let query ← defaultField stringMapOf ∅ v "query" 3
    let body ← optionField Json.asStr? v "body" 4
    pure { method, path, headers, query, body }
  else none

def GuidedStep.fromValue (v : Json) : Option GuidedStep :=
  if isStruct 6 v then do
    let id ← requiredField Json.asStr? v "id" 0
    let title ← requiredField Json.asStr? v "title" 1
    let operation ← requiredField NormalizedOperation.fromValue v "operation" 2
    let assertions ← defaultField (vecOf FlowAssertion.fromValue) [] v "assertions" 3
    let captures ← defaultField (vecOf CaptureBinding.fromValue) [] v "captures" 4
    let errorGuidance ← optionField Json.asStr? v "errorGuidance" 5
    pure { id, title, operation, assertions, captures, errorGuidance }
  else none

def GuidedFlow.fromValue (v : Json) : Option GuidedFlow :=
  if isStruct 4 v then do
    let id ← requiredField Json.asStr? v "id" 0
    let level ← requiredField Json.asStr? v "level" 1
    let steps ← requiredField (vecOf GuidedStep.fromValue) v "steps" 2
    let cleanup ← defaultField (vecOf GuidedStep.fromValue) [] v "cleanup" 3
    pure { id, level, steps, cleanup }
  else none

def GuidedManifest.fromValue (v : Json) : Option GuidedManifest :=
  if isStruct 4 v then do
    let schemaVersion ← requiredField Json.asStr? v "schemaVersion" 0
    let service ← requiredField Json.asStr? v "service" 1
    let protocol ← requiredField ProtocolClass.fromValue v "protocol" 2
    let flows ← requiredField (vecOf GuidedFlow.fromValue) v "flows" 3
    pure { schemaVersion, service, protocol, flows }
  else none

def supportedSchemaVersion : String := "1.2"

def parseVersion (value : String) : Option (Nat × Nat) :=
  match RustStr.split ['.'] value.toList with
  | [major, minor] => do
    let major ← RustFmt.parseUnsigned 64 (String.ofList major)
    let minor ← RustFmt.parseUnsigned 64 (String.ofList minor)
    pure (major, minor)
  | _ => none

def checkSchemaCompatibility (manifestVersion runtimeVersion : String) : Except ManifestError Unit :=
  match parseVersion manifestVersion, parseVersion runtimeVersion with
  | some manifest, some runtime =>
    if manifest.1 ≠ runtime.1 ∨ runtime.2 < manifest.2 then
      .error (.incompatibleSchemaVersion manifestVersion runtimeVersion)
    else .ok ()
  | _, _ => .error (.incompatibleSchemaVersion manifestVersion runtimeVersion)

/-- `parse_and_validate_manifest` between the parse of the text and the semantic lint. -/
def readManifest (value : Json) : Except ManifestError GuidedManifest :=
  let structuralIssues := validateManifestStructure value
  if structuralIssues ≠ [] then .error (.structuralValidation structuralIssues)
  else
    match GuidedManifest.fromValue value with
    | none => .error .invalidManifestData
    | some manifest =>
      (checkSchemaCompatibility manifest.schemaVersion supportedSchemaVersion).map fun _ => manifest

end Openstack.Studio

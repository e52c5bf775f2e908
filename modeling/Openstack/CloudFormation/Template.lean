import Openstack.Framework.JsonService
import Openstack.Lib.JsonRecursion
import Openstack.Lib.RustStr
import Openstack.Lib.StrMap

/-!
# Templates

`resolve_value` and `make_physical_id` of `crates/services/cloudformation/src/provider.rs`, and what
`CreateStack` takes from a template. `str::to_lowercase` and the orders in which hash maps iterate are
parameters.
-/
namespace Openstack.CloudFormation

open JsonService (Uuid)

structure StackResource where
  logicalId : String
  physicalId : String
  resourceType : String
  status : String
  deriving DecidableEq, Repr

structure Env where
  region : String
  accountId : String
  /-- `serde_json::from_str`. -/
  fromStr : String → Option Json
  toLowercase : String → String
  paramOrder : StrMap String → List (String × String)
  resourceOrder : StrMap StackResource → List (String × StackResource)

/-- The stack that a template value is resolved in. -/
structure Scope where
  resources : StrMap StackResource
  params : StrMap String

section Resolving

variable (env : Env) (scope : Scope)

/-- `Ref`: a parameter, a resource or a pseudo-parameter. -/
def refText (r : String) : String :=
  match scope.params[r]? with
  | some p => p
  | none =>
    match scope.resources[r]? with
    | some res => res.physicalId
    | none =>
      if r = "AWS::Region" then env.region
      else if r = "AWS::AccountId" then env.accountId
      else if r = "AWS::NoValue" then ""
      else r

def ref (v : Json) : Option Json :=
  ((v.get? "Ref").bind Json.asStr?).map fun r => .str (refText env scope r)

def attributeText (res : StackResource) (attr : String) : String :=
  if attr = "Arn" then
    "arn:aws:" ++ env.toLowercase res.resourceType ++ ":" ++ env.region ++ ":" ++ env.accountId ++ ":" ++
      res.physicalId
  else res.physicalId

def getAtt (v : Json) : Option Json :=
  match v.get? "Fn::GetAtt" with
  | some (.arr [logical, attr]) =>
    scope.resources[(logical.asStr?).getD ""]?.map fun res =>
      .str (attributeText env res ((attr.asStr?).getD ""))
  | _ => none

/-- The `${…}` that `Fn::Sub` replaces. -/
def placeholder (name : String) : List Char := ("$\x7b" ++ name ++ "\x7d").toList

def substitute (text : List Char) (name value : String) : List Char :=
  RustStr.replace (placeholder name) value.toList text

/-- Parameters first, then resources, then the pseudo-parameters. -/
def subText (s : String) : String :=
  let withParams := (env.paramOrder scope.params).foldl (fun text (k, v) => substitute text k v) s.toList
  let withResources := (env.resourceOrder scope.resources).foldl
    (fun text (k, res) => substitute text k res.physicalId) withParams
  let withRegion := substitute withResources "AWS::Region" env.region
  String.ofList (substitute withRegion "AWS::AccountId" env.accountId)

def sub (v : Json) : Option Json :=
  ((v.get? "Fn::Sub").bind Json.asStr?).map fun s => .str (subText env scope s)

def join (resolve : Json → Json) (v : Json) : Option Json :=
  match v.get? "Fn::Join" with
  | some (.arr [sep, .arr items]) =>
    some (.str (((sep.asStr?).getD "").intercalate (items.map fun i => ((resolve i).asStr?).getD "")))
  | _ => none

def select (resolve : Json → Json) (v : Json) : Option Json :=
  match v.get? "Fn::Select" with
  | some (.arr [idx, .arr items]) => items[(idx.asU64?).getD 0]?.map resolve
  | _ => none

/-- `Fn::If` always takes its first branch. -/
def firstBranch (resolve : Json → Json) (v : Json) : Option Json :=
  match v.get? "Fn::If" with
  | some (.arr [_, first, _]) => some (resolve first)
  | _ => none

def split (v : Json) : Option Json :=
  match v.get? "Fn::Split" with
  | some (.arr [sep, s]) =>
    some (.arr ((RustStr.split ((sep.asStr?).getD ",").toList ((s.asStr?).getD "").toList).map fun p =>
      .str (String.ofList p)))
  | _ => none

/-- The function of an object, if it is one: the first of these that applies. -/
def intrinsic (resolve : Json → Json) (v : Json) : Option Json :=
  (ref env scope v).or <| (getAtt env scope v).or <| (join resolve v).or <| (sub env scope v).or <|
    (select resolve v).or <| (firstBranch resolve v).or <| split v

/-- The body of `resolve_value`. -/
def resolveBody (resolve : Json → Json) (v : Json) : Json :=
  match v with
  | .obj fields =>
    (intrinsic env scope resolve (.obj fields)).getD (.obj (fields.map fun (k, x) => (k, resolve x)))
  | .arr items => .arr (items.map resolve)
  | other => other

def resolveValue : Json → Json := Json.recursion (resolveBody env scope) id

section Below

variable {f g : Json → Json} {v : Json} (same : ∀ x, Json.depth x < Json.depth v → f x = g x)
include same

theorem same_of_item {key : String} {args items : List Json} (found : v.get? key = some (.arr args))
    (there : .arr items ∈ args) {x : Json} (member : x ∈ items) : f x = g x :=
  same x (((Json.depth_lt_of_mem member).trans (Json.depth_lt_of_mem there)).trans
    (Json.depth_lt_of_get? found))

theorem join_congr : join f v = join g v := by
  unfold join
  split
  · next sep items found =>
    have each : items.map (fun i => ((f i).asStr?).getD "") = items.map fun i => ((g i).asStr?).getD "" :=
      List.map_congr_left fun x member => by rw [same_of_item same found (by simp) member]
    rw [each]
  · rfl

theorem select_congr : select f v = select g v := by
  unfold select
  split
  · next idx items found =>
    cases there : items[(idx.asU64?).getD 0]? with
    | none => rfl
    | some x =>
      rw [Option.map_some, Option.map_some, same_of_item same found (by simp) (List.mem_of_getElem? there)]
  · rfl

theorem firstBranch_congr : firstBranch f v = firstBranch g v := by
  unfold firstBranch
  split
  · next condition first other found =>
    have member : first ∈ [condition, first, other] := by simp
    rw [same first ((Json.depth_lt_of_mem member).trans (Json.depth_lt_of_get? found))]
  · rfl

theorem intrinsic_congr : intrinsic env scope f v = intrinsic env scope g v := by
  rw [intrinsic, intrinsic, join_congr same, select_congr same, firstBranch_congr same]

end Below

theorem resolveBody_below : Json.LooksBelow (resolveBody env scope) := by
  intro f g v same
  cases v with
  | obj fields =>
    have each : (fields.map fun (k, x) => (k, f x)) = fields.map fun (k, x) => (k, g x) :=
      List.map_congr_left fun field member =>
        congrArg (Prod.mk field.1) (same field.2 (Json.depth_lt_of_mem_fields member))
    rw [resolveBody, resolveBody, intrinsic_congr env scope same, each]
  | arr items =>
    have each : items.map f = items.map g :=
      List.map_congr_left fun x member => same x (Json.depth_lt_of_mem member)
    rw [resolveBody, resolveBody, each]
  | null | bool _ | posInt _ | negInt _ | float _ | str _ => rfl

/-- `resolve_value` calls itself on parts of its argument only. -/
theorem resolveValue_eq (v : Json) :
    resolveValue env scope v = resolveBody env scope (resolveValue env scope) v :=
  Json.recursion_eq (resolveBody_below env scope) id v

end Resolving

section Stack

variable (env : Env) (template : Json)

/-- The first characters of a uuid follow the logical id, unless the resource takes the id as it is. -/
def makePhysicalId (uuid : Uuid) (logicalId resourceType : String) : String :=
  let suffix := String.ofList (uuid.text.toList.take 8)
  match resourceType with
  | "AWS::S3::Bucket" => env.toLowercase logicalId ++ "-" ++ suffix
  | "AWS::SQS::Queue" => logicalId ++ "-" ++ suffix
  | "AWS::SNS::Topic" => logicalId ++ "-" ++ suffix
  | "AWS::DynamoDB::Table" => logicalId
  | "AWS::Lambda::Function" => logicalId
  | "AWS::IAM::Role" => logicalId
  | "AWS::IAM::Policy" => logicalId ++ "-" ++ suffix
  | _ => logicalId ++ "-" ++ suffix

/-- The entries of a section of the template. -/
def entries (name : String) : List (String × Json) := ((template.get? name).bind Json.asObject?).getD []

def hasResources : Bool := !(entries template "Resources").isEmpty

def resourceType (resourceDef : Json) : String :=
  ((resourceDef.get? "Type").bind Json.asStr?).getD "Unknown"

def newResource (uuid : Uuid) (logicalId : String) (resourceDef : Json) : StackResource where
  logicalId
  physicalId := makePhysicalId env uuid logicalId (resourceType resourceDef)
  resourceType := resourceType resourceDef
  status := "CREATE_COMPLETE"

/-- `uuids` are the uuids drawn for the resources, by logical id. -/
def templateResources (uuids : String → Uuid) : StrMap StackResource :=
  (entries template "Resources").foldl (fun resources (logicalId, resourceDef) =>
    resources.insert logicalId (newResource env (uuids logicalId) logicalId resourceDef)) ∅

/-- An output without a value is passed over; one that is not a text is empty. -/
def templateOutputs (scope : Scope) : StrMap String :=
  (entries template "Outputs").foldl (fun outputs (outputKey, outputDef) =>
    match outputDef.get? "Value" with
    | none => outputs
    | some valueDef =>
      outputs.insert outputKey (((resolveValue env scope valueDef).asStr?).getD "")) ∅

def templateDescription : String := ((template.get? "Description").bind Json.asStr?).getD ""

/-- The logical ids of the template, each with itself and its type. -/
def declared : StrMap (String × String) :=
  (entries template "Resources").foldl (fun types (logicalId, resourceDef) =>
    types.insert logicalId (logicalId, resourceType resourceDef)) ∅

theorem templateResources_declared (uuids : String → Uuid) :
    (templateResources env template uuids).mapValues (fun r => (r.logicalId, r.resourceType)) =
      declared template := by
  rw [templateResources, declared, ← List.foldl_hom (StrMap.mapValues fun r : StackResource =>
    (r.logicalId, r.resourceType))]
  · rw [StrMap.mapValues_empty]
  · intro resources field
    exact (StrMap.mapValues_insert _ resources field.1
      (newResource env (uuids field.1) field.1 field.2)).symm

end Stack

end Openstack.CloudFormation

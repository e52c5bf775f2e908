import Openstack.Framework.JsonService
import Openstack.S3.NotificationXml
import Openstack.StepFunctions.PassStates

/-!
# CloudWatch metrics

`PutMetricData` and `ListMetrics` of `crates/services/cloudwatch/src/provider.rs`, lines 66-339, for one account
and region; of the store it is the list of metrics. The form parameters are a list in the order in which the
hash map is visited, and the numbers of `f64` and their parser an argument.
-/
namespace Openstack.CloudWatch

open JsonService (strParam)
open StepFunctions (insertField)
open TagSearch (element)

/-- The finite numbers of `f64`, the two zeros taken as one. `read` is `parse::<f64>` where the result is finite,
`ofInt` is `as f64`. -/
structure Decimals where
  F : Type
  read : String → Option F
  ofInt : Int → F
  whole : ∀ text i, RustFmt.parseSigned 65 text = some i → read text = some (ofInt i)
  digits : ∀ text f, read text = some f → ∃ c ∈ text.toList, c.isDigit = true

theorem parseSigned_digit {bits : Nat} {text : String} {i : Int} (parsed : RustFmt.parseSigned bits text = some i) :
    ∃ c ∈ text.toList, c.isDigit = true := by
  have first : ∀ digits : List Char, digits ≠ [] → (∀ c ∈ digits, c.isDigit = true) →
      ∃ c ∈ digits, c.isDigit = true := by
    intro digits nonempty all
    obtain ⟨c, member⟩ := List.exists_mem_of_ne_nil digits nonempty
    exact ⟨c, member, all c member⟩
  rw [RustFmt.parseSigned] at parsed
  split at parsed
  · next digits minus =>
    split at parsed
    · cases parsed
    · next plain =>
      rw [not_or, not_not, List.all_eq_true] at plain
      obtain ⟨c, member, digit⟩ := first digits plain.1 plain.2
      rw [minus]
      exact ⟨c, List.mem_cons_of_mem '-' member, digit⟩
  · obtain ⟨n, unsigned, -⟩ := Option.map_eq_some_iff.mp parsed
    have some_value : (RustFmt.parseUnsigned (bits - 1) (String.ofList text.toList)).isSome = true := by
      rw [String.ofList_toList, unsigned]
      rfl
    obtain ⟨digits, shape, nonempty, all, -⟩ := (RustFmt.parseUnsigned_isSome_iff _ _).mp some_value
    obtain ⟨c, member, digit⟩ := first digits nonempty all
    rcases shape with same | signed
    · rw [same]
      exact ⟨c, member, digit⟩
    · rw [signed]
      exact ⟨c, List.mem_cons_of_mem '+' member, digit⟩

/-- Numbers without a fraction. -/
def wholeNumbers : Decimals where
  F := Int
  read := RustFmt.parseSigned 65
  ofInt := id
  whole := fun _ _ => id
  digits := fun _ _ => parseSigned_digit

section Numbers

variable (decimals : Decimals)

def integer (i : Int) : Json := if 0 ≤ i then .posInt i.toNat else .negInt (-i).toNat

/-- `coerce_value`; a number that is no integer keeps the text that it is read from. -/
def coerceValue (raw : String) : Json :=
  match RustFmt.parseSigned 64 raw with
  | some i => integer i
  | none =>
    match decimals.read raw with
    | some _ => .float raw
    | none => .str raw

/-- `as_f64`. -/
def asF64? : Json → Option decimals.F
  | .posInt n => some (decimals.ofInt n)
  | .negInt n => some (decimals.ofInt (-n))
  | .float text => decimals.read text
  | _ => none

end Numbers

/-- The two parts of `splitn(2, '.')`, the first of them an index. -/
def splitIndex (text : List Char) : Option (Nat × List Char) :=
  match RustStr.splitn '.' 2 text with
  | [first, field] => (RustFmt.parseUnsigned 64 (String.ofList first)).map (·, field)
  | _ => none

/-- What the key of a parameter stands for: a field of a metric, a field of one of its dimensions, or a metric
and nothing in it. -/
inductive ParamTarget where
  | field (index : Nat) (name : String)
  | dimension (index dimIndex : Nat) (name : String)
  | bare (index : Nat)
  deriving DecidableEq, Repr

def paramTarget (key : String) : Option ParamTarget :=
  (RustStr.stripPrefix "MetricData.member.".toList key.toList).bind fun rest =>
    (splitIndex rest).map fun (index, field) =>
      match RustStr.stripPrefix "Dimensions.member.".toList field with
      | none => .field index (String.ofList field)
      | some dimRest =>
        match splitIndex dimRest with
        | none => .bare index
        | some (dimIndex, dimField) => .dimension index dimIndex (String.ofList dimField)

abbrev Members := Std.ExtTreeMap Nat (List (String × Json)) compare

def setField (name value : String) : Json → Json
  | .obj fields => .obj (insertField name (.str value) fields)
  | other => other

/-- The array with room for the index, and the field in the object there. -/
def setDimension (dims : List Json) (dimIndex : Nat) (name value : String) : List Json :=
  (dims ++ List.replicate (dimIndex - dims.length) (Json.obj [])).modify (dimIndex - 1) (setField name value)

/-- One round of the loop of `query_metric_data`. None is a panic: the subtraction from index zero, or a vector
that outgrows its capacity. -/
def addParam (decimals : Decimals) (capacity : Nat) (members : Members) (param : String × String) :
    Option Members :=
  match paramTarget param.1 with
  | none => some members
  | some (.field index name) =>
    some (members.insert index (insertField name (coerceValue decimals param.2) ((members[index]?).getD [])))
  | some (.bare index) => some (members.insert index ((members[index]?).getD []))
  | some (.dimension index dimIndex name) =>
    let entry := (members[index]?).getD []
    match (entry.lookup "Dimensions").getD (.arr []) with
    | .arr dims =>
      if dimIndex = 0 ∨ capacity < dimIndex then none
      else some (members.insert index
        (insertField "Dimensions" (.arr (setDimension dims dimIndex name param.2)) entry))
    | _ => some (members.insert index entry)

def queryMetricData (decimals : Decimals) (capacity : Nat) (formParams queryParams : List (String × String)) :
    Option (List Json) :=
  ((if formParams = [] then queryParams else formParams).foldlM (addParam decimals capacity) ∅).map
    fun members => members.toList.map fun member => Json.obj member.2

structure MetricDatum (F : Type) where
  metricNamespace : String
  metricName : String
  dimensions : List (String × String)
  timestamp : Int
  value : F
  unit : String

/-- The form parameters are those of the raw body, none if it is no form. -/
structure MetricRequest where
  body : Json
  contentType : Option String
  queryParams : List (String × String) := []
  rawBody : List Char := []
  formParams : List (String × String) := []
  now : Int := 0

def MetricRequest.isQueryProtocol (req : MetricRequest) : Bool :=
  (req.contentType.map fun value => RustStr.startsWith value "application/x-www-form-urlencoded").getD false ||
    req.queryParams.any (fun param => param.1 == "Action") || "Action=".toList.isPrefixOf req.rawBody

inductive MetricAnswer where
  | json (body : Json)
  | query (action : String) (inner : List Char)
  | error (code message : String) (status : Nat)

def readDimension (dim : Json) : Option (String × String) :=
  (strParam dim "Name").bind fun name => (strParam dim "Value").map fun value => (name, value)

section PutMetricData

variable (decimals : Decimals) (capacity : Nat)

def readDatum (metricNamespace : String) (now : Int) (datum : Json) : MetricDatum decimals.F where
  metricNamespace := metricNamespace
  metricName := (strParam datum "MetricName").getD ""
  dimensions := (((datum.get? "Dimensions").bind Json.asArray?).map (List.filterMap readDimension)).getD []
  timestamp := now
  value := ((datum.get? "Value").bind (asF64? decimals)).getD (decimals.ofInt 0)
  unit := (strParam datum "Unit").getD "None"

def MetricRequest.metricData (req : MetricRequest) : Option (List Json) :=
  match (req.body.get? "MetricData").bind Json.asArray? with
  | some data => some data
  | none =>
    if req.isQueryProtocol then queryMetricData decimals capacity req.formParams req.queryParams else some []

/-- The metrics that a request appends; none is a panic. -/
def MetricRequest.metricsPut (req : MetricRequest) : Option (List (MetricDatum decimals.F)) :=
  match strParam req.body "Namespace" with
  | none => some []
  | some metricNamespace =>
    (req.metricData decimals capacity).map (List.map (readDatum decimals metricNamespace req.now))

/-- The answer and the metrics after it; none is a panic, which leaves the metrics as they were. -/
def putMetricData (req : MetricRequest) (metrics : List (MetricDatum decimals.F)) :
    Option (MetricAnswer × List (MetricDatum decimals.F)) :=
  match strParam req.body "Namespace" with
  | none => some (.error "ValidationError" "Namespace is required" 400, metrics)
  | some _ =>
    (req.metricsPut decimals capacity).map fun put =>
      (if req.isQueryProtocol then .query "PutMetricData" [] else .json (.obj []), metrics ++ put)

def putStep (metrics : List (MetricDatum decimals.F)) (req : MetricRequest) : List (MetricDatum decimals.F) :=
  ((putMetricData decimals capacity req metrics).map Prod.snd).getD metrics

end PutMetricData

section ListMetrics

variable {F : Type}

def metricJson (metric : MetricDatum F) : Json :=
  .obj [("Dimensions", .arr (metric.dimensions.map fun dim => .obj [("Name", .str dim.1), ("Value", .str dim.2)])),
    ("MetricName", .str metric.metricName), ("Namespace", .str metric.metricNamespace)]

def MetricDatum.passes (metric : MetricDatum F) (body : Json) : Bool :=
  ((strParam body "Namespace").map (· == metric.metricNamespace)).getD true &&
    ((strParam body "MetricName").map (· == metric.metricName)).getD true

def MetricDatum.listKey (metric : MetricDatum F) : String := metric.metricNamespace ++ ":" ++ metric.metricName

/-- The metrics whose key is not among those seen, nor that of an earlier one. -/
@[grind] def unseen (seen : List String) : List (MetricDatum F) → List (MetricDatum F)
  | [] => []
  | metric :: rest =>
    if metric.listKey ∈ seen then unseen seen rest else metric :: unseen (metric.listKey :: seen) rest

/-- The text of a field, empty if there is none. -/
def fieldText (value : Json) (key : String) : List Char := S3.xmlEscape ((strParam value key).getD "")

def dimensionXml (dim : Json) : List Char :=
  element "member" (element "Name" (fieldText dim "Name") ++ element "Value" (fieldText dim "Value"))

def metricXml (metric : Json) : List Char :=
  element "member" (element "Namespace" (fieldText metric "Namespace") ++
    element "MetricName" (fieldText metric "MetricName") ++
    element "Dimensions" ((((metric.get? "Dimensions").bind Json.asArray?).map (List.flatMap dimensionXml)).getD []))

/-- An account without a store has no metrics. -/
def listMetrics (req : MetricRequest) (metrics : List (MetricDatum F)) : MetricAnswer :=
  let listed := (unseen [] (metrics.filter (·.passes req.body))).map metricJson
  if req.isQueryProtocol then
    .query "ListMetrics" (element "ListMetricsResult" (element "Metrics" (listed.flatMap metricXml)))
  else .json (.obj [("Metrics", .arr listed)])

end ListMetrics

end Openstack.CloudWatch

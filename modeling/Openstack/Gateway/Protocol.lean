import Openstack.Gateway.BodyRouting
import Openstack.Lib.Json

/-!
# How the gateway reads operation and parameters

`AwsProtocol::from_service` and the request parsers of `crates/aws-protocol/src`, with
`parse_operation_and_params` and `extract_rest_operation` of `crates/gateway/src/server.rs`, lines
2727-2877. The JSON and form parsers that they call are a parameter.
-/
namespace Openstack.Gateway

open S3 (HttpRequest Headers QueryParams Bytes headerStr)

inductive AwsProtocol where
  | query
  | json
  | restJson
  | restXml
  | ec2
  deriving DecidableEq, Repr

def AwsProtocol.fromService (service : String) : AwsProtocol :=
  if service ∈ ["s3", "route53"] then .restXml
  else if service ∈ ["sqs", "sns", "iam", "sts", "cloudformation", "redshift", "cloudwatch", "ses",
      "elasticache", "rds"] then .query
  else if service = "ec2" then .ec2
  else if service ∈ ["dynamodb", "kinesis", "firehose", "secretsmanager", "ssm", "kms", "acm", "ecr",
      "events", "states", "ecs", "cloudtrail", "cognito-idp"] then .json
  else .restJson

/-- `serde_json::from_slice` and `serde_urlencoded::from_bytes`, with the texts of their errors, and
`String::from_utf8_lossy`. -/
structure Parsers where
  json : Bytes → Except String Json
  form : Bytes → Except String (List (String × String))
  text : Bytes → String

/-- `ProtocolError::ParseError`. -/
structure ParseError where
  protocol : String
  message : String
  deriving DecidableEq, Repr

def ParseError.text (e : ParseError) : String :=
  "failed to parse " ++ e.protocol ++ " request: " ++ e.message

def parsed {α : Type} (protocol : String) (result : Except String α) : Except ParseError α :=
  result.mapError (ParseError.mk protocol)

def missingAction (protocol : String) : ParseError := ⟨protocol, "Missing 'Action' parameter"⟩

/-- The fields of a form without the two that name the operation. -/
def formObject (skipped : String → Bool) (fields : List (String × String)) : Json :=
  let kept := fields.filter fun field => !skipped field.1
  let map := kept.foldl (fun acc field => acc.insert field.1 field.2) (∅ : StrMap String)
  .obj (map.toList.map fun field => (field.1, .str field.2))

def parseQueryRequest (parsers : Parsers) (body : Bytes) : Except ParseError (String × Json) := do
  let fields ← parsed "query" (parsers.form body)
  match fields.lookup "Action" with
  | some action =>
    .ok (action, formObject (fun name => name = "Action" ∨ name = "Version") fields)
  | none => .error (missingAction "query")

def parseEc2Request (parsers : Parsers) (body : Bytes) : Except ParseError (String × Json) := do
  let fields ← parsed "ec2" (parsers.form body)
  match fields.find? fun field => RustStr.eqIgnoreAsciiCase field.1 "Action" with
  | some action =>
    .ok (action.2, formObject (fun name => RustStr.eqIgnoreAsciiCase name "Action" ∨
      RustStr.eqIgnoreAsciiCase name "Version") fields)
  | none => .error (missingAction "ec2")

/-- A JSON body; an empty one counts as an empty object. -/
def parseJsonBody (parsers : Parsers) (protocol : String) (body : Bytes) : Except ParseError Json :=
  if body = [] then .ok (.obj []) else parsed protocol (parsers.json body)

def parseJsonRequest (parsers : Parsers) (body : Bytes) (target : Option String) :
    Except ParseError (String × Json) := do
  let params ← parseJsonBody parsers "json" body
  let operation := (target.map (RustStr.rsplitFirst '.')).getD ""
  if operation = "" then .error ⟨"json", "Missing X-Amz-Target header or invalid format"⟩
  else .ok (operation, params)

/-- The query parameters as further fields, in key order. -/
def queryFields (queryParams : QueryParams) : List (String × Json) :=
  queryParams.toList.map fun param => (param.1, .str param.2)

def parseRestJsonRequest (parsers : Parsers) (body : Bytes) (queryParams : QueryParams) :
    Except ParseError Json := do
  match ← parseJsonBody parsers "rest-json" body with
  | .obj fields =>
    .ok (.obj (fields ++ (queryFields queryParams).filter fun param => !(fields.any (·.1 = param.1))))
  | params => .ok params

def parseRestXmlRequest (parsers : Parsers) (method path : String) (body : Bytes)
    (queryParams : QueryParams) : Json :=
  let fields := (queryFields queryParams).foldl (fun acc param => acc.insert param.1 param.2)
    (((∅ : StrMap Json).insert "Method" (.str method)).insert "Path" (.str path))
  let fields := if body = [] then fields else fields.insert "__xml_body" (.str (parsers.text body))
  .obj fields.toList

section Rest

variable (method path : String)

/-- The operation of an unknown route. -/
def restFallback : String := method ++ ":" ++ path

/-- The methods that a route knows. -/
def byMethod (routes : List (String × String)) : String :=
  (routes.lookup method).getD (restFallback method path)

def lambdaFunctions : String := "/2015-03-31/functions/"

def openSearchDomains : String := "/2021-01-01/opensearch/domain/"

def hostedZones : String := "/2013-04-01/hostedzone/"

def extractRestOperation : String :=
  if path = "/2015-03-31/functions/" ∨ path = "/2015-03-31/functions" then
    byMethod method path [("GET", "ListFunctions"), ("POST", "CreateFunction")]
  else if path = "/2021-01-01/opensearch/domain" then
    byMethod method path [("POST", "CreateDomain"), ("GET", "ListDomainNames")]
  else if path = "/2021-01-01/domain" then byMethod method path [("GET", "ListDomainNames")]
  else if RustStr.startsWith path openSearchDomains then
    if RustStr.endsWith path "/config" then
      byMethod method path [("GET", "DescribeDomainConfig"), ("POST", "UpdateDomainConfig")]
    else byMethod method path [("GET", "DescribeDomain"), ("DELETE", "DeleteDomain")]
  else if path = "/2013-04-01/hostedzone" then
    byMethod method path [("POST", "CreateHostedZone"), ("GET", "ListHostedZones")]
  else if RustStr.startsWith path hostedZones then
    if RustStr.endsWith path "/rrset" then
      byMethod method path [("GET", "ListResourceRecordSets"), ("POST", "ChangeResourceRecordSets")]
    else byMethod method path [("GET", "GetHostedZone"), ("DELETE", "DeleteHostedZone")]
  else if RustStr.startsWith path "/2013-04-01/change/" then
    byMethod method path [("GET", "GetChange")]
  else if RustStr.startsWith path lambdaFunctions then
    let suffix := String.ofList (RustStr.trimStartMatches lambdaFunctions.toList path.toList)
    if RustStr.endsWith suffix "/code" ∧ method = "PUT" then "UpdateFunctionCode"
    else if RustStr.endsWith suffix "/invocations" ∧ method = "POST" then "Invoke"
    else if method = "GET" then "GetFunction"
    else if method = "DELETE" then "DeleteFunction"
    else if method = "PUT" then "UpdateFunctionConfiguration"
    else restFallback method path
  else restFallback method path

end Rest

/-- The operation in a target header, for a query request without an action. -/
def queryModeOperation (headers : Headers) : Option String :=
  (headerStr headers "x-amz-target").bind fun target =>
    (((target.toList.splitOn '.')[1]?).map String.ofList).filter (· ≠ "")

def parseQueryOperation (parsers : Parsers) (headers : Headers) (body : Bytes) :
    Except String (String × Json) :=
  match parseQueryRequest parsers body with
  | .ok result => .ok result
  | .error e =>
    if RustStr.contains e.text.toList "Missing 'Action' parameter".toList ∧
        headerStr headers "x-amzn-query-mode" = some "true" then
      match queryModeOperation headers with
      | none => .error e.text
      | some operation =>
        if body = [] then .ok (operation, .obj [])
        else (parsers.json body).map fun params => (operation, params)
    else .error e.text

/-- What the parsers read of a request. -/
structure ParserInput where
  method : String
  path : String
  queryParams : QueryParams
  headers : Headers
  body : Bytes

def parseOperationAndParams (parsers : Parsers) (input : ParserInput) :
    AwsProtocol → Except String (String × Json)
  | .query => parseQueryOperation parsers input.headers input.body
  | .ec2 => (parseEc2Request parsers input.body).mapError ParseError.text
  | .json =>
    (parseJsonRequest parsers input.body (headerStr input.headers "x-amz-target")).mapError
      ParseError.text
  | .restJson =>
    ((parseRestJsonRequest parsers input.body input.queryParams).mapError ParseError.text).map
      fun params => (extractRestOperation input.method input.path, params)
  | .restXml =>
    .ok (extractRestOperation input.method input.path,
      parseRestXmlRequest parsers input.method input.path input.body input.queryParams)

end Openstack.Gateway

import Openstack.Gateway.SigV4
import Openstack.S3.OperationRouting

/-!
# Which service a request is for

`detect_service` of `crates/gateway/src/server.rs`, lines 2339-2725. It asks in turn the credential
scope, the host, the target header, the action of the query protocol and the path, and the first
answer counts.
-/
namespace Openstack.Gateway

open S3 (HttpRequest Headers QueryParams Bytes headerStr)

def knownServices : List String :=
  ["s3", "sqs", "sns", "dynamodb", "lambda", "iam", "sts", "kms", "cloudformation", "cloudwatch",
    "logs", "kinesis", "firehose", "events", "states", "apigateway", "ec2", "route53", "ses", "ssm",
    "secretsmanager", "acm", "ecr", "opensearch", "redshift", "ecs", "cloudtrail", "cognito",
    "cognito-idp", "elasticache", "rds"]

def isKnownService (name : String) : Bool := name ∈ knownServices

def knownServiceStatic (name : String) : Option String :=
  if name = "cognito" then some "cognito-idp"
  else if name ∈ knownServices then some name
  else none

def normalizeServiceName (service : String) : String :=
  if RustStr.eqIgnoreAsciiCase service "es" then "opensearch"
  else if RustStr.eqIgnoreAsciiCase service "cognito" ||
      RustStr.eqIgnoreAsciiCase service "cognito-idp" then "cognito-idp"
  else if service.toList.all fun c => !c.isUpper then (knownServiceStatic service).getD service
  else RustStr.toAsciiLowercase service

/-- `host.split(':').next()`. -/
def withoutPort (host : String) : String := String.ofList (host.toList.takeWhile (· ≠ ':'))

/-- The first of at least two labels of the host, if it names a service. -/
def serviceFromHost (headers : Headers) : Option String :=
  (headerStr headers "host").bind fun host =>
    let parts := (withoutPort host).toList.splitOn '.'
    let potentialService := normalizeServiceName (String.ofList (parts.headD []))
    if 2 ≤ parts.length ∧
        (potentialService.toList.all fun c => c.isLower || c.isDigit || c = '-') = true ∧
        isKnownService potentialService = true then some potentialService
    else none

/-- The tests of `service_from_target` in their order. -/
def targetServices : List (String × String) :=
  [("dynamodb", "dynamodb"), ("certificatemanager", "acm"), ("kinesis", "kinesis"),
    ("firehose", "firehose"), ("lambda", "lambda"), ("awsstepfunctions", "states"), ("logs", "logs"),
    ("amazonssm", "ssm"), ("kms", "kms"), ("trentservice", "kms"),
    ("secretsmanager", "secretsmanager"), ("ssm", "ssm"), ("cloudwatch", "cloudwatch"),
    ("awsevents", "events"), ("events", "events"),
    ("awscognitoidentityproviderservice", "cognito-idp"), ("amazonec2containerservice", "ecs"),
    ("cloudtrail", "cloudtrail"), ("amazonec2containerregistry", "ecr"), ("ecr", "ecr"),
    ("sns", "sns"), ("amazonsqs", "sqs"), ("sqs", "sqs"), ("awssecuritytokenservice", "sts"),
    ("sts", "sts")]

def cloudtrailPrefix : String := "com.amazonaws.cloudtrail"

/-- Header text is ASCII, so bytes are characters. -/
def hasCloudtrailTargetPrefix (target : String) : Bool :=
  let n := cloudtrailPrefix.toList.length
  if RustStr.eqIgnoreAsciiCase (String.ofList (target.toList.take n)) cloudtrailPrefix then
    (target.toList.drop n).head?.all fun c => c = '.' || c = '_'
  else RustStr.startsWith (RustStr.rsplitFirst '.' target) "CloudTrail_"

def isVersionMark (c : Char) : Bool := c = 'V' || c = 'v'

def stripVersionSuffix (front : List Char) : List Char :=
  let digits := front.rtakeWhile fun c => !isVersionMark c
  let name := (front.rdropWhile fun c => !isVersionMark c).dropLast
  if 1 < front.length ∧ front.any isVersionMark = true ∧ digits ≠ [] ∧
      digits.all Char.isDigit = true ∧ (name.getLast?.any Char.isAlpha) = true then name
  else front

def serviceFromTarget (target : String) : Option String :=
  if hasCloudtrailTargetPrefix target then some "cloudtrail"
  else
    let front := stripVersionSuffix ((target.toList.takeWhile (· ≠ '.')).takeWhile (· ≠ '_'))
    (targetServices.find? fun entry =>
      RustStr.eqIgnoreAsciiCase (String.ofList front) entry.1).map Prod.snd

example : serviceFromTarget "AWSSecurityTokenServiceV20110615.GetCallerIdentity" = some "sts" := by
  decide +kernel

def actionServices : List (String × List String) :=
  [("sqs", ["CreateQueue", "DeleteQueue", "GetQueueUrl", "GetQueueAttributes", "SetQueueAttributes",
      "SendMessage", "ReceiveMessage", "DeleteMessage", "PurgeQueue", "ListQueues",
      "SendMessageBatch", "DeleteMessageBatch", "ChangeMessageVisibility",
      "ChangeMessageVisibilityBatch"]),
    ("sts", ["GetCallerIdentity", "AssumeRole", "GetSessionToken", "GetAccessKeyInfo",
      "DecodeAuthorizationMessage"]),
    ("sns", ["CreateTopic", "DeleteTopic", "Publish", "Subscribe", "Unsubscribe", "ListTopics",
      "SetTopicAttributes", "GetTopicAttributes", "ListSubscriptions", "ListSubscriptionsByTopic",
      "GetSubscriptionAttributes"]),
    ("iam", ["CreateRole", "DeleteRole", "ListRoles", "GetRole", "CreateUser", "DeleteUser",
      "ListUsers", "GetUser"]),
    ("cloudformation", ["CreateStack", "DeleteStack", "DescribeStacks", "ListStacks", "GetTemplate",
      "ValidateTemplate", "UpdateStack"]),
    ("cloudwatch", ["PutMetricData", "ListMetrics", "GetMetricStatistics", "DescribeAlarms",
      "PutMetricAlarm", "DeleteAlarms", "SetAlarmState"]),
    ("ec2", ["DescribeVpcs", "CreateVpc", "DeleteVpc", "DescribeSubnets", "CreateSubnet",
      "DescribeSecurityGroups", "CreateSecurityGroup", "AuthorizeSecurityGroupIngress",
      "RunInstances", "DescribeInstances", "TerminateInstances"]),
    ("redshift", ["CreateCluster", "DeleteCluster", "DescribeClusters", "ModifyCluster",
      "RebootCluster"]),
    ("ses", ["VerifyEmailIdentity", "VerifyDomainIdentity", "ListIdentities", "SendEmail",
      "SendRawEmail", "GetIdentityVerificationAttributes", "DeleteIdentity"])]

/-- The body as text, if it is UTF-8. -/
def bodyText (body : Bytes) : Option String := String.fromUTF8? ⟨body.toArray⟩

def extractActionValue (body : Bytes) : Option String :=
  (bodyText body).bind fun text => ((text.toList.splitOn '&').findSome?
    (RustStr.stripPrefix "Action=".toList)).map String.ofList

def serviceOfAction (action : String) : Option String :=
  (actionServices.find? fun entry => action ∈ entry.2).map Prod.fst

def serviceFromQueryAction (queryParams : QueryParams) (body : Bytes) : Option String :=
  (queryParams["Action"]?.or (extractActionValue body)).bind serviceOfAction

def trimStartSlashes (path : String) : List Char := path.toList.dropWhile (· = '/')

def serviceFromPath (path : String) : Option String :=
  let path := trimStartSlashes path
  if "restapis".toList.isPrefixOf path then some "apigateway"
  else if "2021-01-01/opensearch/domain".toList.isPrefixOf path || path = "2021-01-01/domain".toList then
    some "opensearch"
  else if "2013-04-01/hostedzone".toList.isPrefixOf path then some "route53"
  else if "2015-03-31/functions".toList.isPrefixOf path ||
      "2015-03-31/event-source-mappings".toList.isPrefixOf path then some "lambda"
  else if "2012-12-01/".toList.isPrefixOf path ||
      RustStr.contains path "elasticloadbalancing".toList then
    some "elb"
  else none

/-- What the header scope, if any, names. -/
def serviceFromAuth (headers : Headers) : Option String :=
  ((headerStr headers "authorization").bind parseSigv4Auth).map SigV4Auth.service

/-- `detect_service` without a credential scope. -/
def detectUnsigned (path : String) (queryParams : QueryParams) (headers : Headers) (body : Bytes) :
    String :=
  match serviceFromHost headers with
  | some service => service
  | none =>
    if path = "/" ∧ queryParams.isEmpty = true ∧ body = [] ∧
        (headers.lookup "x-amz-target").isNone = true then "s3"
    else
      match (headerStr headers "x-amz-target").bind serviceFromTarget with
      | some service => service
      | none =>
        match serviceFromQueryAction queryParams body with
        | some service => service
        | none =>
          match serviceFromPath path with
          | some service => service
          | none => if trimStartSlashes path = [] then "unknown" else "s3"

def detectService (path : String) (queryParams : QueryParams) (headers : Headers) (body : Bytes)
    (serviceFromAuth : Option String) : String :=
  match serviceFromAuth with
  | some service => normalizeServiceName service
  | none => detectUnsigned path queryParams headers body

end Openstack.Gateway

import Openstack.Framework.Xml
import Openstack.Sqs.Wire

/-!
# Requests between services

`crates/service-framework/src/traits.rs`: the request that one service builds for another, and what
becomes of it in the SQS provider. Such a request has no headers and no query. The manager hands it to
the provider registered under the service's name.
-/
namespace Openstack

/-- What a publisher fills in of a `RequestContext`. -/
structure SyntheticContext where
  service : String
  operation : String
  region : String
  accountId : String
  method : String := ""
  path : String := ""
  rawBody : String := ""

/-- The form with which SNS, S3 and EventBridge all send to a queue; the account and the queue go
into the URL as they are. -/
def sendMessageForm (accountId queueName payload : String) : String :=
  "Action=SendMessage&QueueUrl=http%3A%2F%2Flocalhost%3A4566%2F" ++ accountId ++ "%2F" ++ queueName ++
    "&MessageBody=" ++ urlEncode payload

def sendMessageContext (region accountId queueName payload : String) : SyntheticContext where
  service := "sqs"
  operation := "SendMessage"
  region := region
  accountId := accountId
  method := "POST"
  path := "/" ++ accountId ++ "/" ++ queueName
  rawBody := sendMessageForm accountId queueName payload

/-- `arn.split(':')`. -/
def arnParts (arn : String) : List String := (arn.toList.splitOn ':').map String.ofList

namespace Sqs

/-- `dispatch` of the SQS provider, by its effect. -/
def serve (env : Env) (w : World) (req : WireRequest) : World :=
  match req.action env with
  | none => w
  | some action =>
    if req.queryModeJson then (dispatchJson env w (req.toRequest env action)).2
    else (dispatch env w (req.toRequest env action)).2

/-- A context as the SQS provider reads it. -/
def contextRequest (ctx : SyntheticContext) (now : Instant) : WireRequest where
  accountId := ctx.accountId
  region := ctx.region
  headers := ∅
  queryParams := ∅
  body := ctx.rawBody
  now := now

end Sqs

end Openstack

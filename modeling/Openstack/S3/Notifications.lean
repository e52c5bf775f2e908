import Openstack.Framework.Dispatch

/-!
# S3 bucket notifications

`crates/services/s3/src/provider.rs`, lines 2611-2763: which notification configurations an event
matches and the requests they lead to. The configurations are those of the bucket in the caller's
account and region at the time of the event; there are none when the bucket is gone. The time and the
text that `serde_json` prints are arguments.
-/
namespace Openstack.S3

structure NotificationConfig where
  id : String
  destinationArn : String
  destinationType : String
  events : List String
  prefixFilter : Option String
  suffixFilter : Option String

/-- An event of one object. -/
structure ObjectEvent where
  accountId : String
  region : String
  bucket : String
  key : String
  eventName : String
  eventTime : String

namespace NotificationConfig

/-- One event pattern: the name itself, `s3:*`, or a name that ends in a star. -/
def eventMatches (eventName pattern : String) : Bool :=
  pattern == eventName || pattern == "s3:*" ||
    (RustStr.endsWith pattern "*" &&
      pattern.toList.dropLast.isPrefixOf eventName.toList)

/-- The event passes the configuration's events and its key filters. -/
def accepts (nc : NotificationConfig) (e : ObjectEvent) : Bool :=
  nc.events.any (eventMatches e.eventName) &&
    (nc.prefixFilter.all fun p => RustStr.startsWith e.key p) &&
    (nc.suffixFilter.all fun s => RustStr.endsWith e.key s)

end NotificationConfig

/-- `event_name.strip_prefix("s3:").unwrap_or(event_name).replace(":*", ":Put")`. -/
def recordEventName (eventName : String) : String :=
  let name := if RustStr.startsWith eventName "s3:" then eventName.toList.drop 3 else eventName.toList
  String.ofList (RustStr.replace ":*".toList ":Put".toList name)

def eventPayload (print : Json → String) (e : ObjectEvent) : String :=
  print (.obj [("Records", .arr [.obj
    [("awsRegion", .str e.region), ("eventName", .str (recordEventName e.eventName)),
      ("eventSource", .str "aws:s3"), ("eventTime", .str e.eventTime), ("eventVersion", .str "2.1"),
      ("s3", .obj
        [("bucket", .obj [("arn", .str ("arn:aws:s3:::" ++ e.bucket)), ("name", .str e.bucket)]),
          ("object", .obj [("key", .str e.key)]), ("s3SchemaVersion", .str "1.0")])]])])

/-- `dest_arn.split(':').next_back().unwrap_or("unknown")`. -/
def lastArnPart (arn : String) : String := (arnParts arn).getLast?.getD "unknown"

/-- The caller's account and region, whatever the ARN says. -/
def buildNotificationDispatchCtxOwned (accountId region destType destArn payload : String) :
    SyntheticContext :=
  match destType with
  | "sqs" => sendMessageContext region accountId (lastArnPart destArn) payload
  | "sns" =>
    { service := "sns", operation := "Publish", region := region, accountId := accountId
      method := "POST", path := "/"
      rawBody := "Action=Publish&TopicArn=" ++ urlEncode destArn ++ "&Message=" ++ urlEncode payload }
  | "lambda" =>
    { service := "lambda", operation := "Invoke", region := region, accountId := accountId
      method := "POST", path := "/2015-03-31/functions/" ++ lastArnPart destArn ++ "/invocations"
      rawBody := payload }
  | _ =>
    { service := destType, operation := "Notify", region := region, accountId := accountId
      rawBody := payload }

/-- `emit_s3_notification`: one request for each configuration that accepts the event. -/
def emitS3Notification (print : Json → String) (configs : List NotificationConfig) (e : ObjectEvent) :
    List SyntheticContext :=
  (configs.filter (·.accepts e)).map fun nc =>
    buildNotificationDispatchCtxOwned e.accountId e.region nc.destinationType nc.destinationArn
      (eventPayload print e)

end Openstack.S3

import Openstack.S3.KeyAddressing
import Openstack.S3.Notifications

/-!
# The notification document

`crates/services/s3/src/provider.rs`, lines 2422-2609 and 2769-2786: the notification configurations of
a bucket as the XML that GetBucketNotificationConfiguration writes and
PutBucketNotificationConfiguration reads. The state is the list of configurations of every bucket.
-/
namespace Openstack.S3

open TagSearch (openTag closeTag element)

deriving instance DecidableEq for NotificationConfig

abbrev Notifications := StrMap (List NotificationConfig)

/-- `xml_escape`. -/
def xmlEscape (s : String) : List Char := s.toList.flatMap escapeXmlChar

/-- The tags of a configuration and of its ARN. -/
def configTags : (destinationType : String) → String × String
  | "sns" => ("TopicConfiguration", "Topic")
  | "lambda" => ("CloudFunctionConfiguration", "CloudFunction")
  | _ => ("QueueConfiguration", "Queue")

def filterRuleXml (name : String) (value : List Char) : List Char :=
  element "FilterRule" (element "Name" name.toList ++ element "Value" value)

/-- The rules of the filters that there are. -/
def filterRulesXml (text : String → List Char) (pfx sfx : Option String) : List Char :=
  (pfx.elim [] fun p => filterRuleXml "prefix" (text p)) ++
    (sfx.elim [] fun s => filterRuleXml "suffix" (text s))

namespace NotificationConfig

variable (nc : NotificationConfig)

def filterXml : List Char :=
  if nc.prefixFilter.isSome || nc.suffixFilter.isSome then
    element "Filter" (element "S3Key" (filterRulesXml xmlEscape nc.prefixFilter nc.suffixFilter))
  else []

def eventsXml : List Char := nc.events.flatMap fun ev => element "Event" (xmlEscape ev)

/-- What stands between the tags of the configuration. -/
def blockXml : List Char :=
  element "Id" (xmlEscape nc.id) ++
    (element (configTags nc.destinationType).2 (xmlEscape nc.destinationArn) ++
      (nc.eventsXml ++ nc.filterXml))

def toXml : List Char := element (configTags nc.destinationType).1 nc.blockXml

end NotificationConfig

def documentStart : List Char :=
  ("<?xml version=\"1.0\" encoding=\"UTF-8\"?>" ++
    "<NotificationConfiguration xmlns=\"http://s3.amazonaws.com/doc/2006-03-01/\">").toList

def documentEnd : List Char := closeTag "NotificationConfiguration"

def notificationXml (configs : List NotificationConfig) : List Char :=
  documentStart ++ (configs.flatMap (·.toXml) ++ documentEnd)

def handleGetBucketNotification (store : Notifications) (ctx : RequestContext) :
    Except S3Error (List Char) :=
  match bucketFromPath ctx.path with
  | none => .error bucketNameRequired
  | some bucket =>
    match store[bucket]? with
    | none => .error noSuchBucket
    | some configs => .ok (notificationXml configs)

/-- The texts of the events. Every round drops a tag, so the length is fuel enough. -/
def parseEvents : (fuel : Nat) → List Char → List String
  | 0, _ => []
  | fuel + 1, remaining =>
    match RustStr.after "<Event>".toList remaining with
    | none => []
    | some rest =>
      match RustStr.before "</Event>".toList rest with
      | some ev => String.ofList (RustStr.trim ev) :: parseEvents fuel (rest.drop ev.length)
      | none => parseEvents fuel rest

/-- `rule_name.trim().eq_ignore_ascii_case(name)`, for the name of a rule that has one. -/
def namesRule (rule : List Char) (name : String) : Bool :=
  (extractXmlText rule "Name").any fun text =>
    RustStr.eqIgnoreAsciiCase (String.ofList (RustStr.trim text)) name

/-- The value of the first rule with the name. -/
def findRuleFrom (name : String) : (fuel : Nat) → List Char → Option (List Char)
  | 0, _ => none
  | fuel + 1, remaining =>
    match RustStr.after "<FilterRule>".toList remaining with
    | none => none
    | some rest =>
      let rule := (RustStr.before "</FilterRule>".toList rest).getD rest
      if namesRule rule name then extractXmlText rule "Value"
      else findRuleFrom name fuel (rest.drop rule.length)

def findFilterRule (block : List Char) (name : String) : Option (List Char) :=
  findRuleFrom name block.length block

/-- The filter of a configuration. -/
def filterOf (block : List Char) (name : String) : Option String :=
  ((extractXmlText block "Filter").bind fun filterBlock => findFilterRule filterBlock name).map
    String.ofList

/-- The configuration in a block, with the id drawn for it. -/
def parseBlock (uuid arnTag destType : String) (block : List Char) : NotificationConfig where
  id := ((extractXmlText block "Id").map String.ofList).getD uuid
  destinationArn := ((extractXmlText block arnTag).map String.ofList).getD ""
  destinationType := destType
  events := parseEvents block.length block
  prefixFilter := filterOf block "prefix"
  suffixFilter := filterOf block "suffix"

/-- The configurations of one kind; `uuids n` is drawn for the block at place `n`. -/
def parseConfigsFrom (outerTag arnTag destType : String) :
    (uuids : Nat → String) → (fuel : Nat) → List Char → List NotificationConfig
  | _, 0, _ => []
  | uuids, fuel + 1, remaining =>
    match RustStr.after (openTag outerTag) remaining with
    | none => []
    | some rest =>
      let block := (RustStr.before (closeTag outerTag) rest).getD rest
      let config := parseBlock (uuids 0) arnTag destType block
      let others := parseConfigsFrom outerTag arnTag destType (fun n => uuids (n + 1)) fuel
        (rest.drop block.length)
      if config.destinationArn ≠ "" then config :: others else others

def parseNotificationConfigs (uuids : Nat → String) (body : List Char)
    (outerTag arnTag destType : String) : List NotificationConfig :=
  parseConfigsFrom outerTag arnTag destType uuids body.length body

/-- The configurations of a document; `uuids` draws for each kind. -/
def parseDocument (uuids : String → Nat → String) (body : List Char) : List NotificationConfig :=
  parseNotificationConfigs (uuids "sqs") body "QueueConfiguration" "Queue" "sqs" ++
    (parseNotificationConfigs (uuids "sns") body "TopicConfiguration" "Topic" "sns" ++
      parseNotificationConfigs (uuids "lambda") body "CloudFunctionConfiguration" "CloudFunction"
        "lambda")

def bodyHasConfigs (body : List Char) : Bool :=
  RustStr.contains body "QueueConfiguration".toList ||
    RustStr.contains body "TopicConfiguration".toList ||
    RustStr.contains body "CloudFunctionConfiguration".toList

def handlePutBucketNotification (uuids : String → Nat → String) (store : Notifications)
    (ctx : RequestContext) : Except S3Error Unit × Notifications :=
  match bucketFromPath ctx.path with
  | none => (.error bucketNameRequired, store)
  | some bucket =>
    if store.contains bucket then
      match String.fromUTF8? ⟨ctx.rawBodyBytes.toArray⟩ with
      | none => (.error ⟨"MalformedXML", "The XML you provided was not valid UTF-8", 400⟩, store)
      | some body =>
        let configs := parseDocument uuids body.toList
        if bodyHasConfigs body.toList && configs.isEmpty then
          (.error ⟨"MalformedXML", "The XML you provided was ill-formed or did not validate against " ++
            "our published schema", 400⟩, store)
        else (.ok (), store.insert bucket configs)
    else (.error noSuchBucket, store)

end Openstack.S3

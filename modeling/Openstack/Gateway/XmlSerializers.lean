import Openstack.CloudFormation.Stacks
import Openstack.Ec2.Provider

/-!
# Serialisers of XML

`serialize_ec2_response` of `crates/aws-protocol/src/ec2.rs`, lines 32-66, `serialize_error` of `error.rs`, lines
5-66, and `stack_to_xml` of `crates/services/cloudformation/src/provider.rs`, lines 217-252.
-/
namespace Openstack

open TagSearch (closeTag element)
open XmlReader (Text block indent leaf)

namespace Gateway

section Results

/-- `s.replace(c, by)`. -/
def replaceChar (c : Char) (text s : Text) : Text := s.flatMap fun d => if d = c then text else [d]

/-- `Vec::join`. -/
def join (parts : List Text) (separator : Text) : Text := (parts.intersperse separator).flatten

mutual

/-- `json_to_ec2_xml`. -/
def jsonToEc2Xml : Json → Text
  | .obj map => join (fieldsXml map) (indent 2)
  | .arr items => join (itemsXml items) (indent 2)
  | .str s => replaceChar '>' "&gt;".toList (replaceChar '<' "&lt;".toList s.toList)
  | .posInt n => (toString n).toList
  | .negInt n => '-' :: (toString n).toList
  | .float text => text.toList
  | .bool b => (toString b).toList
  | .null => []

def fieldsXml : List (String × Json) → List Text
  | [] => []
  | (k, v) :: map => element k (jsonToEc2Xml v) :: fieldsXml map

def itemsXml : List Json → List Text
  | [] => []
  | v :: items => element "item" (jsonToEc2Xml v) :: itemsXml items

end

def serializeEc2Response (operation : String) (result : Json) (requestId : String) : Text :=
  XmlReader.declaration ++ (indent 0 ++
    ('<' :: ((operation ++ "Response").toList ++ Ec2.ec2Ns.toList ++ ['>'])) ++
      (block 0 [leaf ("requestId", requestId), jsonToEc2Xml result] ++
        closeTag (operation ++ "Response")))

end Results

inductive ErrorBody where
  | xml (text : Text)
  | json (v : Json)

def errorFields (code message : String) : List (String × String) :=
  [("Type", "Sender"), ("Code", code), ("Message", message)]

def restErrorFields (code message requestId : String) : List (String × String) :=
  [("Code", code), ("Message", message), ("RequestId", requestId)]

/-- The status, the body and the content type. -/
def serializeError (protocol : AwsProtocol) (code message : String) (httpStatus : Nat) (requestId : String) :
    Nat × ErrorBody × String :=
  match protocol with
  | .query | .ec2 =>
    (httpStatus,
      .xml (XmlReader.declaration ++ (indent 0 ++
        element "ErrorResponse"
          (block 0 [element "Error" (block 2 ((errorFields code message).map leaf)), leaf ("RequestId", requestId)]))),
      "text/xml")
  | .json =>
    (httpStatus, .json (.obj [("__type", .str code), ("message", .str message)]), "application/x-amz-json-1.1")
  | .restJson => (httpStatus, .json (.obj [("code", .str code), ("message", .str message)]), "application/json")
  | .restXml =>
    (httpStatus,
      .xml (XmlReader.declaration ++ (indent 0 ++
        element "Error" (block 0 ((restErrorFields code message requestId).map leaf)))),
      "application/xml")

end Gateway

namespace CloudFormation

/-- The order in which `iter()` visits a map of texts. -/
structure Visit where
  entries : StrMap String → List (String × String)
  entries_perm : ∀ m, (entries m).Perm m.toList

def StackStatus.asStr : StackStatus → String
  | .createComplete => "CREATE_COMPLETE"
  | .updateComplete => "UPDATE_COMPLETE"

/-- The tags of a stack in front of its parameters and outputs, with their texts; `rfc3339` is `to_rfc3339`. -/
def CfnStack.fields (rfc3339 : Int → String) (stack : CfnStack) : List (String × String) :=
  [("StackId", stack.stackId), ("StackName", stack.stackName), ("Description", stack.description),
    ("StackStatus", stack.status.asStr), ("StackStatusReason", stack.statusReason),
    ("CreationTime", rfc3339 stack.created), ("LastUpdatedTime", rfc3339 stack.updated)]

def parameterFields (entry : String × String) : List (String × String) :=
  [("ParameterKey", entry.1), ("ParameterValue", entry.2)]

def outputFields (entry : String × String) : List (String × String) :=
  [("OutputKey", entry.1), ("OutputValue", entry.2)]

def stackToXml (rfc3339 : Int → String) (visit : Visit) (stack : CfnStack) : Text :=
  let paramsXml := (visit.entries stack.parameters).flatMap fun entry =>
    element "member" ((parameterFields entry).flatMap leaf)
  let outputsXml := (visit.entries stack.outputs).flatMap fun entry =>
    element "member" ((outputFields entry).flatMap leaf)
  element "member"
    (block 0 ((stack.fields rfc3339).map leaf ++ [element "Parameters" paramsXml, element "Outputs" outputsXml]))

end CloudFormation

end Openstack

import Openstack.Gateway.RequestContext
import Openstack.Lib.XmlReader

/-!
# Descriptions of EC2

`crates/services/ec2/src/store.rs` and `provider.rs`, lines 36-49, 128-150, 198-222, 232-284 and 390-420, for one
account and region. The store of an account that has none behaves like an empty one.
-/
namespace Openstack.Ec2

open Gateway (RequestContext)
open TagSearch (closeTag element)
open XmlReader (Text leaf)

structure Vpc where
  vpcId : String
  cidrBlock : String
  state : String
  isDefault : Bool
  deriving DecidableEq, Repr

structure Subnet where
  subnetId : String
  vpcId : String
  cidrBlock : String
  availabilityZone : String
  state : String
  deriving DecidableEq, Repr

structure SecurityGroup where
  groupId : String
  groupName : String
  description : String
  vpcId : String
  deriving DecidableEq, Repr

structure Instance where
  instanceId : String
  imageId : String
  instanceType : String
  state : String
  privateIp : String
  deriving DecidableEq, Repr

structure Ec2Store where
  vpcs : StrMap Vpc
  subnets : StrMap Subnet
  securityGroups : StrMap SecurityGroup
  instances : StrMap Instance

def Ec2Store.new : Ec2Store := ⟨∅, ∅, ∅, ∅⟩

/-- The order in which `values()` visits a map. -/
structure Env where
  values : (V : Type) → StrMap V → List V
  values_perm : ∀ V m, (values V m).Perm (StrMap.values m)

/-- The attribute of the root element. -/
def ec2Ns : String := " xmlns=\"http://ec2.amazonaws.com/doc/2016-11-15/\""

/-- `xml_ok`. -/
def xmlOk (action requestId : String) (inner : Text) : Text :=
  XmlReader.declaration ++ ('<' :: ((action ++ "Response").toList ++ ec2Ns.toList ++ ['>'])) ++
    (inner ++ (leaf ("requestId", requestId) ++ closeTag (action ++ "Response")))

def xmlError (code message requestId : String) : Text :=
  XmlReader.declaration ++
    element "Response"
      (element "Errors" (element "Error" (leaf ("Code", code) ++ leaf ("Message", message))) ++
        leaf ("RequestID", requestId))

section Operations

variable (env : Env) (ctx : RequestContext) (store : Ec2Store) (rid : String)

def createSecurityGroup (shortId : String) : Text × Ec2Store :=
  match ctx.strParam "GroupName" with
  | none => (xmlError "MissingParameter" "GroupName required" rid, store)
  | some groupName =>
    let groupId := "sg-" ++ shortId
    let sg : SecurityGroup :=
      { groupId
        groupName
        description := (ctx.strParam "Description").getD ""
        vpcId := (ctx.strParam "VpcId").getD "" }
    (xmlOk "CreateSecurityGroup" rid (leaf ("groupId", groupId) ++ leaf ("return", "true")),
      { store with securityGroups := store.securityGroups.insert groupId sg })

/-- The tags of a description with their texts. -/
def Vpc.fields (v : Vpc) : List (String × String) :=
  [("vpcId", v.vpcId), ("cidrBlock", v.cidrBlock), ("state", v.state), ("isDefault", toString v.isDefault)]

def Vpc.xml (v : Vpc) : Text := element "item" (v.fields.flatMap leaf)

def describeVpcs : Text := xmlOk "DescribeVpcs" rid (element "vpcSet" ((env.values _ store.vpcs).flatMap Vpc.xml))

def Subnet.fields (s : Subnet) : List (String × String) :=
  [("subnetId", s.subnetId), ("vpcId", s.vpcId), ("cidrBlock", s.cidrBlock),
    ("availabilityZone", s.availabilityZone), ("state", s.state)]

def Subnet.xml (s : Subnet) : Text := element "item" (s.fields.flatMap leaf)

def describeSubnets : Text :=
  xmlOk "DescribeSubnets" rid (element "subnetSet" ((env.values _ store.subnets).flatMap Subnet.xml))

def SecurityGroup.fields (sg : SecurityGroup) : List (String × String) :=
  [("groupId", sg.groupId), ("groupName", sg.groupName), ("groupDescription", sg.description),
    ("vpcId", sg.vpcId)]

def SecurityGroup.xml (sg : SecurityGroup) : Text := element "item" (sg.fields.flatMap leaf)

def describeSecurityGroups : Text :=
  xmlOk "DescribeSecurityGroups" rid
    (element "securityGroupInfo" ((env.values _ store.securityGroups).flatMap SecurityGroup.xml))

/-- The fields in front of the state, in it and behind it. -/
def Instance.fields (i : Instance) :
    List (String × String) × List (String × String) × List (String × String) :=
  ([("instanceId", i.instanceId), ("imageId", i.imageId), ("instanceType", i.instanceType)],
    [("code", "16"), ("name", i.state)],
    [("privateIpAddress", i.privateIp)])

def Instance.xml (i : Instance) : Text :=
  element "item"
    (i.fields.1.flatMap leaf ++
      (element "instanceState" (i.fields.2.1.flatMap leaf) ++ i.fields.2.2.flatMap leaf))

/-- The instances that are described. -/
def shownInstances : List Instance := (env.values _ store.instances).filter (·.state ≠ "terminated")

def describeInstances : Text :=
  xmlOk "DescribeInstances" rid
    (element "reservationSet"
      (element "item" (element "instancesSet" ((shownInstances env store).flatMap Instance.xml))))

end Operations

end Openstack.Ec2

import Openstack.Lib.StrMap

/-!
# Guided flows

The data of `crates/studio-ui/src/guided_manifest.rs`, lines 12-78.
-/
namespace Openstack.Studio

inductive ProtocolClass where
  | query
  | jsonTarget
  | restXml
  | restJson
  deriving DecidableEq, Repr

structure NormalizedOperation where
  method : String
  path : String
  headers : StrMap String
  query : StrMap String
  body : Option String

structure FlowAssertion where
  kind : String
  target : String
  expected : String
  deriving DecidableEq, Repr

structure CaptureBinding where
  name : String
  source : String
  deriving DecidableEq, Repr

structure GuidedStep where
  id : String
  title : String
  operation : NormalizedOperation
  assertions : List FlowAssertion
  captures : List CaptureBinding
  errorGuidance : Option String

structure GuidedFlow where
  id : String
  level : String
  steps : List GuidedStep
  cleanup : List GuidedStep

structure GuidedManifest where
  schemaVersion : String
  service : String
  protocol : ProtocolClass
  flows : List GuidedFlow

end Openstack.Studio

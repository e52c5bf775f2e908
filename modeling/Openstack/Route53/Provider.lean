import Openstack.Framework.Xml
import Openstack.Lib.RustFmt
import Openstack.Lib.StrMap

/-!
# Record sets

`crates/services/route53/src/store.rs` and `provider.rs`, lines 38-134, 330-371 and 376-439, for one account. The
store of an account that has none behaves like an empty one. A request is its path and its body once decoded.
-/
namespace Openstack.Route53

open TagSearch (openTag closeTag element)

attribute [local instance] lexOrd

abbrev Text := List Char

structure HostedZone where
  id : String
  name : String
  callerReference : String
  comment : String
  privateZone : Bool
  recordCount : Nat
  deriving DecidableEq, Repr

structure ResourceRecordSet where
  name : String
  recordType : String
  ttl : Nat
  values : List String
  deriving DecidableEq, Repr

/-- The zone, the name and the type. -/
abbrev RecordKey := String × String × String

abbrev RecordMap := Std.ExtTreeMap RecordKey ResourceRecordSet lexOrd.compare

namespace RecordMap

instance : Std.TransCmp (lexOrd (α := String) (β := String × String)).compare :=
  inferInstanceAs (Std.TransOrd RecordKey)

instance : Std.LawfulEqCmp (lexOrd (α := String) (β := String × String)).compare :=
  inferInstanceAs (Std.LawfulEqOrd RecordKey)

variable (m : RecordMap) (k a : RecordKey) (rrset : ResourceRecordSet)

theorem getElem?_insert : (m.insert k rrset)[a]? = if k = a then some rrset else m[a]? := by
  rw [Std.ExtTreeMap.getElem?_insert]
  simp only [Std.LawfulEqCmp.compare_eq_iff_eq]

theorem getElem?_erase : (m.erase k)[a]? = if k = a then none else m[a]? := by
  rw [Std.ExtTreeMap.getElem?_erase]
  simp only [Std.LawfulEqCmp.compare_eq_iff_eq]

end RecordMap

structure Route53Store where
  zones : StrMap HostedZone
  records : RecordMap

def Route53Store.new : Route53Store := ⟨∅, ∅⟩

section Parsing

/-- `xml_text`: both tags are looked for from the start, and nothing is unescaped. -/
def xmlText (xml : Text) (tag : String) : Option Text :=
  (RustStr.before (openTag tag) xml).bind fun front =>
    (RustStr.before (closeTag tag) xml).bind fun upTo =>
      let start := front.length + (openTag tag).length
      if start ≤ upTo.length then some (upTo.drop start) else none

/-- The action and the record set of a `<Change>`. -/
abbrev Change := String × ResourceRecordSet

/-- The loop over the `<Value>` tags, `none` once the steps are used up. -/
def valuesFrom : (steps : Nat) → (rest : Text) → Option (List Text)
  | 0, _ => none
  | steps + 1, rest =>
    match RustStr.after (openTag "Value") rest with
    | none => some []
    | some later =>
      (valuesFrom steps later).map fun values =>
        (RustStr.before (closeTag "Value") later).toList ++ values

def changeOf (change : Text) (values : List Text) : Change :=
  let text (tag : String) : String := String.ofList ((xmlText change tag).getD [])
  (text "Action",
    { name := text "Name"
      recordType := text "Type"
      ttl := ((xmlText change "TTL").bind fun s => RustFmt.parseUnsigned 64 (String.ofList s)).getD 300
      values := values.map String.ofList })

/-- The loop over the `<Change>` tags. -/
def changesFrom : (steps : Nat) → (remaining : Text) → Option (List Change)
  | 0, _ => none
  | steps + 1, remaining =>
    match RustStr.before (openTag "Change") remaining with
    | none => some []
    | some front =>
      let chunk := remaining.drop front.length
      let change := (RustStr.before (closeTag "Change") chunk).getD chunk
      (valuesFrom steps change).bind fun values =>
        (changesFrom steps (chunk.drop change.length)).map (changeOf change values :: ·)

def parseRrsets (xml : Text) : List Change := (changesFrom (xml.length + 1) xml).getD []

end Parsing

structure Response where
  statusCode : Nat
  contentType : String
  body : Text
  deriving DecidableEq, Repr

def route53Ns : String := "https://route53.amazonaws.com/doc/2013-04-01/"

def submittedAt : String := "2010-09-10T01:36:41.958000Z"

def nsAttribute : String := " xmlns=\"" ++ route53Ns ++ "\""

/-- `<?xml version="1.0" encoding="UTF-8"?>` and the opening tag of the root element, in the namespace. -/
def documentStart (root : String) : Text :=
  XmlReader.declaration ++ ('<' :: (root.toList ++ nsAttribute.toList ++ ['>']))

def documentXml (root : String) (content : Text) : Text := documentStart root ++ (content ++ closeTag root)

def xmlOk (body : Text) : Response := ⟨200, "application/xml", body⟩

def xmlError (code message : String) (status : Nat) : Response :=
  ⟨status, "text/xml",
    documentXml "ErrorResponse"
      (element "Error"
        (element "Code" (xmlEscape code).toList ++ element "Message" (xmlEscape message).toList))⟩

/-- The segment behind the first `hostedzone`, as ChangeResourceRecordSets and ListResourceRecordSets find it. -/
def zoneIdOf (path : String) : String :=
  String.ofList (((path.toList.splitOn '/').dropWhile (· ≠ "hostedzone".toList)).getD 1 [])

structure Request where
  path : String
  body : String

def applyChange (zoneId : String) (records : RecordMap) : Change → RecordMap
  | (action, rrset) =>
    let key := (zoneId, rrset.name, rrset.recordType)
    match action with
    | "DELETE" => records.erase key
    -- CREATE | UPSERT
    | _ => records.insert key rrset

def changeResourceRecordSets (rid : String) (store : Route53Store) (request : Request) :
    Response × Route53Store :=
  let zoneId := zoneIdOf request.path
  let changes := parseRrsets request.body.toList
  (xmlOk (documentXml "ChangeResourceRecordSetsResponse"
      (element "ChangeInfo"
        (element "Id" ("/change/" ++ rid).toList ++
          (element "Status" "INSYNC".toList ++ element "SubmittedAt" submittedAt.toList)))),
    { store with records := changes.foldl (applyChange zoneId) store.records })

def rrsetXml (name recordType : String) (rrset : ResourceRecordSet) : Text :=
  element "ResourceRecordSet"
    (element "Name" (xmlEscape name).toList ++
      (element "Type" (xmlEscape recordType).toList ++
        (element "TTL" (toString rrset.ttl).toList ++
          element "ResourceRecords" (rrset.values.flatMap fun v =>
            element "ResourceRecord" (element "Value" (xmlEscape v).toList)))))

/-- `entries` are the records in the order in which the hash map is visited. -/
def listXml (zoneId : String) (entries : List (RecordKey × ResourceRecordSet)) : Text :=
  documentXml "ListResourceRecordSetsResponse"
    (element "ResourceRecordSets"
        ((entries.filter fun entry => entry.1.1 = zoneId).flatMap fun entry =>
          rrsetXml entry.1.2.1 entry.1.2.2 entry.2) ++
      (element "IsTruncated" "false".toList ++ element "MaxItems" "100".toList))

/-- The order in which `iter()` visits the records. -/
structure Env where
  entries : RecordMap → List (RecordKey × ResourceRecordSet)
  entries_perm : ∀ m, (entries m).Perm m.toList

def noSuchHostedZone (zoneId : String) : Response :=
  xmlError "NoSuchHostedZone" ("No hosted zone found with ID: " ++ zoneId) 404

def listResourceRecordSets (env : Env) (store : Route53Store) (request : Request) : Response :=
  let zoneId := zoneIdOf request.path
  if store.zones.contains zoneId then xmlOk (listXml zoneId (env.entries store.records))
  else noSuchHostedZone zoneId

end Openstack.Route53

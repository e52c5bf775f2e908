import Openstack.Gateway.XmlSerializers

/-!
# Documents that cannot be injected into

What is meant by the documents that are written with few escapes or none: the elements that the code names, and
in them the texts that are stored or echoed. A document is read as that exactly when no text in it has markup.
-/
namespace Openstack.Gateway

open TagSearch (closeTag)
open XmlReader

/-! ## JSON results -/

section Results

/-- How a character of a JSON text is written. -/
@[grind] def writeMarkup (c : Char) : Text :=
  if c = '<' then "&lt;".toList else if c = '>' then "&gt;".toList else [c]

def joinItems (parts : List (List Item)) : List Item := (parts.intersperse [gap 2]).flatten

mutual

/-- What is meant by a result: the keys and `item` as elements, and the texts as they are. -/
def jsonItems : Json → List Item
  | .obj map => joinItems (fieldsItems map)
  | .arr items => joinItems (itemsItems items)
  | .str s => [.text (s.toList.flatMap writeMarkup) s.toList]
  | .posInt n => [.text (toString n).toList (toString n).toList]
  | .negInt n => [.text ('-' :: (toString n).toList) ('-' :: (toString n).toList)]
  | .float text => [.text text.toList text.toList]
  | .bool b => [.text (toString b).toList (toString b).toList]
  | .null => []

def fieldsItems : List (String × Json) → List (List Item)
  | [] => []
  | (k, v) :: map => XmlReader.element k.toList .none (jsonItems v) :: fieldsItems map

def itemsItems : List Json → List (List Item)
  | [] => []
  | v :: items => XmlReader.element "item".toList .none (jsonItems v) :: itemsItems items

end

mutual

/-- The keys are names, and no text has an ampersand. -/
def JsonUninjected : Json → Prop
  | .obj map => FieldsUninjected map
  | .arr items => ItemsUninjected items
  | .str s => '&' ∉ s.toList
  | .float text => Unmarked text
  | .posInt _ | .negInt _ | .bool _ | .null => True

def FieldsUninjected : List (String × Json) → Prop
  | [] => True
  | (k, v) :: map => (isName k.toList = true ∧ JsonUninjected v) ∧ FieldsUninjected map

def ItemsUninjected : List Json → Prop
  | [] => True
  | v :: items => JsonUninjected v ∧ ItemsUninjected items

end

theorem replace_markup (text : Text) :
    replaceChar '>' "&gt;".toList (replaceChar '<' "&lt;".toList text) = text.flatMap writeMarkup := by
  rw [replaceChar, replaceChar, List.flatMap_assoc]
  refine List.flatMap_congr fun c _ => ?_
  rw [writeMarkup]
  split
  · rfl
  · simp

theorem print_joinItems (parts : List (List Item)) :
    print (joinItems parts) = join (parts.map print) (indent 2) := by
  rw [joinItems, join]
  match parts with
  | [] => rfl
  | [p] => simp
  | p :: q :: parts =>
    have rest := print_joinItems (q :: parts)
    rw [joinItems, join] at rest
    rw [List.intersperse_cons_cons, List.flatten_cons, List.flatten_cons, print_append, print_append, rest]
    simp [gap, print]

mutual

theorem print_jsonItems : ∀ v : Json, print (jsonItems v) = jsonToEc2Xml v
  | .obj map => by rw [jsonItems, print_joinItems, print_fieldsItems map, jsonToEc2Xml]
  | .arr items => by rw [jsonItems, print_joinItems, print_itemsItems items, jsonToEc2Xml]
  | .str s => by rw [jsonItems, jsonToEc2Xml, replace_markup, print, print, List.append_nil]
  | .posInt n => by rw [jsonItems, jsonToEc2Xml, print, print, List.append_nil]
  | .negInt n => by rw [jsonItems, jsonToEc2Xml, print, print, List.append_nil]
  | .float text => by rw [jsonItems, jsonToEc2Xml, print, print, List.append_nil]
  | .bool b => by rw [jsonItems, jsonToEc2Xml, print, print, List.append_nil]
  | .null => rfl

theorem print_fieldsItems : ∀ map : List (String × Json), (fieldsItems map).map print = fieldsXml map
  | [] => rfl
  | (k, v) :: map => by
    rw [fieldsItems, List.map_cons, print_element, print_jsonItems v, print_fieldsItems map, fieldsXml]

theorem print_itemsItems : ∀ items : List Json, (itemsItems items).map print = itemsXml items
  | [] => rfl
  | v :: items => by
    rw [itemsItems, List.map_cons, print_element, print_jsonItems v, print_itemsItems items, itemsXml]

end

/-! ### Texts of a result -/

theorem lt_not_mem_markup (text : Text) : '<' ∉ text.flatMap writeMarkup := by
  rw [List.mem_flatMap]
  rintro ⟨c, -, inside⟩
  rw [writeMarkup] at inside
  split at inside
  · exact absurd inside (by decide)
  · split at inside
    · exact absurd inside (by decide)
    · next other _ => exact other (List.mem_singleton.mp inside).symm

/-- Every escape is three characters longer and brings one ampersand. -/
theorem length_markup (text : Text) : (text.flatMap writeMarkup).length + 3 * text.count '&' =
    text.length + 3 * (text.flatMap writeMarkup).count '&' := by
  have lt : "&lt;".toList.length = 4 ∧ "&lt;".toList.count '&' = 1 := by decide
  have gt : "&gt;".toList.length = 4 ∧ "&gt;".toList.count '&' = 1 := by decide
  induction text with
  | nil => rfl
  | cons c text ih =>
    rw [List.flatMap_cons, List.length_append, List.count_append, writeMarkup, List.length_cons, List.count_cons]
    split
    · next same =>
      subst same
      rw [lt.1, lt.2, if_neg (by decide)]
      omega
    · split
      · next same =>
        subst same
        rw [gt.1, gt.2, if_neg (by decide)]
        omega
      · rw [List.length_singleton, List.count_singleton]
        omega

/-- A text of a result is read back exactly when it has no ampersand. -/
theorem written_markup_iff (text : Text) : Written (text.flatMap writeMarkup) text ↔ '&' ∉ text := by
  constructor
  · rintro ⟨-, read⟩
    have shorter := length_decode read
    have sizes := length_markup text
    exact List.count_eq_zero.mp (by omega)
  · refine fun plain => ⟨lt_not_mem_markup text, decode_flatMap fun c member => ?_⟩
    rw [writeMarkup]
    split
    · next same => exact .inr ⟨("lt;".toList, '<'), by simp [entities], same.symm, by decide⟩
    · split
      · next same => exact .inr ⟨("gt;".toList, '>'), by simp [entities], same.symm, by decide⟩
      · exact .inl ⟨rfl, fun same => plain (same ▸ member)⟩

theorem unmarked_toString (n : Nat) : Unmarked (toString n) := by
  refine ⟨fun member => ?_, fun member => ?_⟩ <;> rw [RustFmt.toList_toString] at member
  · exact absurd (Nat.isDigit_of_mem_toDigits (by decide) (by decide) member) (by decide)
  · exact absurd (Nat.isDigit_of_mem_toDigits (by decide) (by decide) member) (by decide)

theorem written_number (n : Nat) : Written (toString n).toList (toString n).toList :=
  ⟨(unmarked_toString n).1, decode_self_iff.mpr (unmarked_toString n).2⟩

theorem written_negative (n : Nat) : Written ('-' :: (toString n).toList) ('-' :: (toString n).toList) := by
  obtain ⟨lt, ampersand⟩ := unmarked_toString n
  exact ⟨by simpa using lt, decode_self_iff.mpr (by simpa using ampersand)⟩

theorem written_bool (b : Bool) : Written (toString b).toList (toString b).toList := by
  cases b with
  | false => exact ⟨by decide, decode_self_iff.mpr (by decide)⟩
  | true => exact ⟨by decide, decode_self_iff.mpr (by decide)⟩

/-! ### Elements of a result -/

theorem joinItems_cons (p q : List Item) (parts : List (List Item)) :
    joinItems (p :: q :: parts) = p ++ gap 2 :: joinItems (q :: parts) := by
  rw [joinItems, List.intersperse_cons_cons, List.flatten_cons, List.flatten_cons, List.singleton_append]
  rfl

theorem sound_joinItems : ∀ {parts : List (List Item)}, (∀ p ∈ parts, Closed p) →
    (Sound (joinItems parts) ↔ ∀ p ∈ parts, Sound p)
  | [], _ => iff_of_true sound_nil fun _ member => absurd member List.not_mem_nil
  | [p], _ => by simp [joinItems]
  | p :: q :: parts, closed => by
    obtain ⟨here, others⟩ := List.forall_mem_cons.mp closed
    rw [joinItems_cons, sound_append here, sound_gap, sound_joinItems others]
    exact List.forall_mem_cons.symm

theorem bounded_joinItems : ∀ {parts : List (List Item)}, (∀ p ∈ parts, Closed p) →
    (Bounded (joinItems parts) ↔ ∀ p ∈ parts, Bounded p)
  | [], _ => iff_of_true bounded_nil fun _ member => absurd member List.not_mem_nil
  | [p], _ => by simp [joinItems]
  | p :: q :: parts, closed => by
    obtain ⟨here, others⟩ := List.forall_mem_cons.mp closed
    rw [joinItems_cons, bounded_append here, bounded_gap, bounded_joinItems others]
    exact List.forall_mem_cons.symm

theorem closed_fieldsItems (map : List (String × Json)) : ∀ p ∈ fieldsItems map, Closed p := by
  induction map with
  | nil => exact fun p member => absurd member List.not_mem_nil
  | cons field map ih => exact List.forall_mem_cons.mpr ⟨closed_element _ _ _, ih⟩

theorem closed_itemsItems (items : List Json) : ∀ p ∈ itemsItems items, Closed p := by
  induction items with
  | nil => exact fun p member => absurd member List.not_mem_nil
  | cons v items ih => exact List.forall_mem_cons.mpr ⟨closed_element _ _ _, ih⟩

theorem item_named : isName "item".toList = true := by decide

mutual

/-- A result is read back exactly when its keys are names and no text has an ampersand. -/
theorem sound_jsonItems : ∀ v : Json, Sound (jsonItems v) ↔ JsonUninjected v
  | .obj map => by
    rw [jsonItems, sound_joinItems (closed_fieldsItems map), sound_fieldsItems map, JsonUninjected]
  | .arr items => by
    rw [jsonItems, sound_joinItems (closed_itemsItems items), sound_itemsItems items, JsonUninjected]
  | .str s => by rw [jsonItems, sound_text, written_markup_iff, JsonUninjected]
  | .posInt n => by
    rw [jsonItems, sound_text, JsonUninjected]
    exact iff_true_intro (written_number n)
  | .negInt n => by
    rw [jsonItems, sound_text, JsonUninjected]
    exact iff_true_intro (written_negative n)
  | .float text => by rw [jsonItems, sound_text, Written, decode_self_iff, JsonUninjected, Unmarked]
  | .bool b => by
    rw [jsonItems, sound_text, JsonUninjected]
    exact iff_true_intro (written_bool b)
  | .null => by
    rw [jsonItems, JsonUninjected]
    exact iff_true_intro sound_nil

theorem sound_fieldsItems : ∀ map : List (String × Json),
    (∀ p ∈ fieldsItems map, Sound p) ↔ FieldsUninjected map
  | [] => iff_of_true (fun _ member => absurd member List.not_mem_nil) trivial
  | (k, v) :: map => by
    rw [fieldsItems, List.forall_mem_cons, sound_element, sound_jsonItems v, sound_fieldsItems map,
      FieldsUninjected]

theorem sound_itemsItems : ∀ items : List Json, (∀ p ∈ itemsItems items, Sound p) ↔ ItemsUninjected items
  | [] => iff_of_true (fun _ member => absurd member List.not_mem_nil) trivial
  | v :: items => by
    rw [itemsItems, List.forall_mem_cons, sound_element, sound_jsonItems v, sound_itemsItems items,
      ItemsUninjected]
    simp only [item_named, true_and]

end

mutual

theorem bounded_jsonItems : ∀ v : Json, Bounded (jsonItems v)
  | .obj map => by
    rw [jsonItems, bounded_joinItems (closed_fieldsItems map)]
    exact bounded_fieldsItems map
  | .arr items => by
    rw [jsonItems, bounded_joinItems (closed_itemsItems items)]
    exact bounded_itemsItems items
  | .str s => by
    rw [jsonItems]
    exact fun inside => absurd inside (lt_not_mem_markup s.toList)
  | .posInt n | .negInt n | .float text | .bool b => by
    rw [jsonItems]
    exact fun _ => Nat.le_refl _
  | .null => bounded_nil

theorem bounded_fieldsItems : ∀ map : List (String × Json), ∀ p ∈ fieldsItems map, Bounded p
  | [] => fun _ member => absurd member List.not_mem_nil
  | (k, v) :: map => by
    rw [fieldsItems, List.forall_mem_cons]
    exact ⟨bounded_element.mpr (bounded_jsonItems v), bounded_fieldsItems map⟩

theorem bounded_itemsItems : ∀ items : List Json, ∀ p ∈ itemsItems items, Bounded p
  | [] => fun _ member => absurd member List.not_mem_nil
  | v :: items => by
    rw [itemsItems, List.forall_mem_cons]
    exact ⟨bounded_element.mpr (bounded_jsonItems v), bounded_itemsItems items⟩

end

end Results

/-! ## Documents -/

section Documents

inductive Document where
  | describeVpcs (env : Ec2.Env) (store : Ec2.Ec2Store) (requestId : String)
  | describeSubnets (env : Ec2.Env) (store : Ec2.Ec2Store) (requestId : String)
  | describeSecurityGroups (env : Ec2.Env) (store : Ec2.Ec2Store) (requestId : String)
  | describeInstances (env : Ec2.Env) (store : Ec2.Ec2Store) (requestId : String)
  | stack (rfc3339 : Int → String) (visit : CloudFormation.Visit) (stack : CloudFormation.CfnStack)
  | ec2Response (operation : String) (result : Json) (requestId : String)
  | error (protocol : AwsProtocol) (xml : protocol ∈ [.query, .ec2, .restXml]) (code message : String)
      (httpStatus : Nat) (requestId : String)

namespace Document

/-- What is written. -/
def text : Document → Text
  | describeVpcs env store rid => Ec2.describeVpcs env store rid
  | describeSubnets env store rid => Ec2.describeSubnets env store rid
  | describeSecurityGroups env store rid => Ec2.describeSecurityGroups env store rid
  | describeInstances env store rid => Ec2.describeInstances env store rid
  | stack rfc3339 visit cfn => CloudFormation.stackToXml rfc3339 visit cfn
  | ec2Response operation result rid => serializeEc2Response operation result rid
  | error protocol _ code message status rid =>
    match (serializeError protocol code message status rid).2.1 with
    | .xml text => text
    | .json _ => []

def ec2Attributes : Attributes := ⟨Ec2.ec2Ns.toList, by decide +kernel⟩

def record (tag : String) (fields : List (String × String)) : List Item :=
  XmlReader.element tag.toList .none (fields.flatMap leafItems)

/-- The answer of an EC2 operation with its set of records. -/
def answer (action set rid : String) (records : List Item) : List Item :=
  XmlReader.element (action ++ "Response").toList ec2Attributes
    (XmlReader.element set.toList .none records ++ leafItems ("requestId", rid))

def instanceItems (i : Ec2.Instance) : List Item :=
  XmlReader.element "item".toList .none
    (i.fields.1.flatMap leafItems ++
      (XmlReader.element "instanceState".toList .none (i.fields.2.1.flatMap leafItems) ++
        i.fields.2.2.flatMap leafItems))

def errorItems (code message rid : String) : AwsProtocol → List Item
  | .restXml =>
    XmlReader.element "Error".toList .none (blockItems 0 ((restErrorFields code message rid).map leafItems))
  | _ =>
    XmlReader.element "ErrorResponse".toList .none
      (blockItems 0
        [XmlReader.element "Error".toList .none (blockItems 2 ((errorFields code message).map leafItems)),
          leafItems ("RequestId", rid)])

/-- What is meant by it. -/
def items : Document → List Item
  | describeVpcs env store rid =>
    answer "DescribeVpcs" "vpcSet" rid ((env.values _ store.vpcs).flatMap fun v => record "item" v.fields)
  | describeSubnets env store rid =>
    answer "DescribeSubnets" "subnetSet" rid ((env.values _ store.subnets).flatMap fun s => record "item" s.fields)
  | describeSecurityGroups env store rid =>
    answer "DescribeSecurityGroups" "securityGroupInfo" rid
      ((env.values _ store.securityGroups).flatMap fun sg => record "item" sg.fields)
  | describeInstances env store rid =>
    answer "DescribeInstances" "reservationSet" rid
      (XmlReader.element "item".toList .none
        (XmlReader.element "instancesSet".toList .none
          ((Ec2.shownInstances env store).flatMap instanceItems)))
  | stack rfc3339 visit cfn =>
    XmlReader.element "member".toList .none
      (blockItems 0 ((cfn.fields rfc3339).map leafItems ++
        [XmlReader.element "Parameters".toList .none ((visit.entries cfn.parameters).flatMap fun entry =>
            record "member" (CloudFormation.parameterFields entry)),
          XmlReader.element "Outputs".toList .none ((visit.entries cfn.outputs).flatMap fun entry =>
            record "member" (CloudFormation.outputFields entry))]))
  | ec2Response operation result rid =>
    gap 0 :: XmlReader.element (operation ++ "Response").toList ec2Attributes
      (blockItems 0 [leafItems ("requestId", rid), jsonItems result])
  | error protocol _ code message _ rid => gap 0 :: errorItems code message rid protocol

/-- No text in it has markup, no text of a JSON result an ampersand, and the keys of the result and the root
element are names. -/
def Uninjected : Document → Prop
  | describeVpcs env store rid =>
    (∀ v ∈ env.values _ store.vpcs, ∀ field ∈ v.fields, Unmarked field.2) ∧ Unmarked rid
  | describeSubnets env store rid =>
    (∀ s ∈ env.values _ store.subnets, ∀ field ∈ s.fields, Unmarked field.2) ∧ Unmarked rid
  | describeSecurityGroups env store rid =>
    (∀ sg ∈ env.values _ store.securityGroups, ∀ field ∈ sg.fields, Unmarked field.2) ∧ Unmarked rid
  | describeInstances env store rid =>
    (∀ i ∈ Ec2.shownInstances env store,
      ∀ field ∈ i.fields.1 ++ (i.fields.2.1 ++ i.fields.2.2), Unmarked field.2) ∧ Unmarked rid
  | stack rfc3339 visit cfn =>
    (∀ field ∈ cfn.fields rfc3339, Unmarked field.2) ∧
      ∀ entry ∈ visit.entries cfn.parameters ++ visit.entries cfn.outputs,
        Unmarked entry.1 ∧ Unmarked entry.2
  | ec2Response operation result rid =>
    isName (operation ++ "Response").toList = true ∧ Unmarked rid ∧ JsonUninjected result
  | error _ _ code message _ rid => Unmarked code ∧ Unmarked message ∧ Unmarked rid

theorem print_root (name : String) (content : List Item) :
    print (XmlReader.element name.toList ec2Attributes content) =
      '<' :: (name.toList ++ Ec2.ec2Ns.toList ++ ['>']) ++ (print content ++ closeTag name) := by
  rw [XmlReader.element, print, print_append, TagSearch.closeTag_eq]
  simp [print, Tag.print, Tag.body, ec2Attributes]

theorem print_leaves (fields : List (String × String)) : print (fields.flatMap leafItems) = fields.flatMap leaf := by
  rw [print_flatMap]
  exact List.flatMap_congr fun field _ => print_leafItems field

theorem print_records {A : Type} (tag : String) (fields : A → List (String × String)) (l : List A) :
    print (l.flatMap fun x => record tag (fields x)) =
      l.flatMap fun x => TagSearch.element tag ((fields x).flatMap leaf) := by
  rw [print_flatMap]
  refine List.flatMap_congr fun x _ => ?_
  rw [record, print_element, print_leaves]

theorem print_instanceItems (i : Ec2.Instance) : print (instanceItems i) = i.xml := by
  rw [instanceItems, print_element, print_append, print_append, print_element, print_leaves, print_leaves,
    print_leaves, Ec2.Instance.xml]

theorem print_answer (action set rid : String) (records : List Item) :
    XmlReader.declaration ++ print (answer action set rid records) =
      Ec2.xmlOk action rid (TagSearch.element set (print records)) := by
  rw [answer, print_root, print_append, print_element, print_leafItems, Ec2.xmlOk]
  simp only [List.append_assoc]

theorem map_print_leaves (fields : List (String × String)) :
    (fields.map leafItems).map print = fields.map leaf := by
  rw [List.map_map]
  exact List.map_congr_left fun field _ => print_leafItems field

theorem read_text (d : Document) : readDocument d.text = read (print d.items) := by
  cases d with
  | describeVpcs env store rid =>
    rw [items, ← readDocument_declaration, print_answer, print_records "item" Ec2.Vpc.fields]
    rfl
  | describeSubnets env store rid =>
    rw [items, ← readDocument_declaration, print_answer, print_records "item" Ec2.Subnet.fields]
    rfl
  | describeSecurityGroups env store rid =>
    rw [items, ← readDocument_declaration, print_answer, print_records "item" Ec2.SecurityGroup.fields]
    rfl
  | describeInstances env store rid =>
    have records := print_flatMap instanceItems (Ec2.shownInstances env store)
    simp only [print_instanceItems] at records
    rw [items, ← readDocument_declaration, print_answer, print_element, print_element, records]
    rfl
  | stack rfc3339 visit cfn =>
    have written : CloudFormation.stackToXml rfc3339 visit cfn = print (items (stack rfc3339 visit cfn)) := by
      rw [items, print_element, print_blockItems, List.map_append, map_print_leaves, List.map_cons,
        List.map_cons, List.map_nil, print_element, print_element,
        print_records "member" CloudFormation.parameterFields,
        print_records "member" CloudFormation.outputFields, CloudFormation.stackToXml]
    have undeclared : "<?xml ".toList.isPrefixOf (CloudFormation.stackToXml rfc3339 visit cfn) = false := by
      rw [CloudFormation.stackToXml, TagSearch.element, TagSearch.openTag_eq]
      rfl
    rw [text, readDocument, if_neg (by rw [undeclared]; exact Bool.false_ne_true), written]
  | ec2Response operation result rid =>
    rw [items, ← readDocument_declaration, gap, print, print_root, print_blockItems, List.map_cons, List.map_cons,
      List.map_nil, print_leafItems, print_jsonItems, text, serializeEc2Response]
    simp only [List.append_assoc]
  | error protocol xml code message status rid =>
    have query : print (errorItems code message rid .query) =
        TagSearch.element "ErrorResponse"
          (block 0 [TagSearch.element "Error" (block 2 ((errorFields code message).map leaf)),
            leaf ("RequestId", rid)]) := by
      rw [errorItems, print_element, print_blockItems, List.map_cons, List.map_cons, List.map_nil,
        print_element, print_blockItems, map_print_leaves, print_leafItems]
      intro same
      cases same
    have rest : print (errorItems code message rid .restXml) =
        TagSearch.element "Error" (block 0 ((restErrorFields code message rid).map leaf)) := by
      rw [errorItems, print_element, print_blockItems, map_print_leaves]
    rw [items, ← readDocument_declaration, gap, print]
    cases protocol with
    | query | ec2 => exact congrArg (fun body => readDocument (declaration ++ (indent 0 ++ body))) query.symm
    | restXml => exact congrArg (fun body => readDocument (declaration ++ (indent 0 ++ body))) rest.symm
    | json | restJson => simp at xml

theorem named_fields {names : List String} {fields : List (String × String)}
    (named : ∀ n ∈ names, isName n.toList = true) (same : fields.map Prod.fst = names) :
    ∀ field ∈ fields, isName field.1.toList = true :=
  fun _ member => named _ (same ▸ List.mem_map_of_mem member)

section Records

theorem names_named :
    (∀ n ∈ ["vpcId", "cidrBlock", "state", "isDefault"], isName n.toList = true) ∧
    (∀ n ∈ ["subnetId", "vpcId", "cidrBlock", "availabilityZone", "state"], isName n.toList = true) ∧
    (∀ n ∈ ["groupId", "groupName", "groupDescription", "vpcId"], isName n.toList = true) ∧
    (∀ n ∈ ["instanceId", "imageId", "instanceType", "code", "name", "privateIpAddress"],
      isName n.toList = true) ∧
    (∀ n ∈ ["StackId", "StackName", "Description", "StackStatus", "StackStatusReason", "CreationTime",
      "LastUpdatedTime"], isName n.toList = true) ∧
    (∀ n ∈ ["ParameterKey", "ParameterValue", "OutputKey", "OutputValue"], isName n.toList = true) ∧
    ∀ n ∈ ["Type", "Code", "Message", "Code", "Message", "RequestId"], isName n.toList = true := by
  decide

theorem elements_named : ∀ n ∈ ["instanceState", "reservationSet", "instancesSet", "member", "Parameters", "Outputs",
    "Error", "ErrorResponse", "requestId", "RequestId"], isName n.toList = true := by
  decide

theorem answers_named : ∀ pair ∈ [("DescribeVpcs", "vpcSet"), ("DescribeSubnets", "subnetSet"),
    ("DescribeSecurityGroups", "securityGroupInfo"), ("DescribeInstances", "reservationSet")],
    isName (pair.1 ++ "Response").toList = true ∧ isName pair.2.toList = true := by
  simp only [String.toList_append]
  decide

theorem vpc_named (v : Ec2.Vpc) : ∀ field ∈ v.fields, isName field.1.toList = true :=
  named_fields names_named.1 rfl

theorem subnet_named (s : Ec2.Subnet) : ∀ field ∈ s.fields, isName field.1.toList = true :=
  named_fields names_named.2.1 rfl

theorem securityGroup_named (sg : Ec2.SecurityGroup) : ∀ field ∈ sg.fields, isName field.1.toList = true :=
  named_fields names_named.2.2.1 rfl

theorem instance_named (i : Ec2.Instance) :
    ∀ field ∈ i.fields.1 ++ (i.fields.2.1 ++ i.fields.2.2), isName field.1.toList = true :=
  named_fields names_named.2.2.2.1 rfl

theorem stack_named (rfc3339 : Int → String) (cfn : CloudFormation.CfnStack) :
    ∀ field ∈ cfn.fields rfc3339, isName field.1.toList = true :=
  named_fields names_named.2.2.2.2.1 rfl

theorem entry_named (entry : String × String) :
    ∀ field ∈ CloudFormation.parameterFields entry ++ CloudFormation.outputFields entry,
      isName field.1.toList = true :=
  named_fields names_named.2.2.2.2.2.1 rfl

theorem error_named (code message rid : String) :
    ∀ field ∈ errorFields code message ++ restErrorFields code message rid, isName field.1.toList = true :=
  named_fields names_named.2.2.2.2.2.2 rfl

variable {fields : List (String × String)}

theorem closed_record (tag : String) (fields : List (String × String)) : Closed (record tag fields) :=
  closed_element _ _ _

theorem closed_instanceItems (i : Ec2.Instance) : Closed (instanceItems i) := closed_element _ _ _

theorem sound_records {A : Type} {tag : String} (isTag : isName tag.toList = true)
    (fields : A → List (String × String)) (named : ∀ x, ∀ field ∈ fields x, isName field.1.toList = true)
    (l : List A) : Sound (l.flatMap fun x => record tag (fields x)) ↔
      ∀ x ∈ l, ∀ field ∈ fields x, Unmarked field.2 := by
  rw [sound_flatMap fun x => closed_record tag (fields x)]
  refine forall₂_congr fun x _ => ?_
  rw [record, sound_element, sound_fields (named x)]
  simp only [isTag, true_and]

theorem sound_instanceItems (i : Ec2.Instance) : Sound (instanceItems i) ↔
    ∀ field ∈ i.fields.1 ++ (i.fields.2.1 ++ i.fields.2.2), Unmarked field.2 := by
  have named := instance_named i
  simp only [List.forall_mem_append] at named ⊢
  have leaves (fields : List (String × String)) : Closed (fields.flatMap leafItems) :=
    closed_flatMap fun field _ => closed_leafItems field
  rw [instanceItems, sound_element, sound_append (leaves _), sound_append (closed_element _ _ _), sound_element,
    sound_fields named.1, sound_fields named.2.1, sound_fields named.2.2]
  simp only [item_named, elements_named "instanceState" (by simp), true_and]

theorem sound_answer {action set : String} (rid : String) {records : List Item}
    (named : isName (action ++ "Response").toList = true ∧ isName set.toList = true) :
    Sound (answer action set rid records) ↔ Sound records ∧ Unmarked rid := by
  rw [answer, sound_element, sound_append (closed_element _ _ _), sound_element, sound_leafItems]
  simp only [named.1, named.2, elements_named "requestId" (by simp), true_and]

end Records

section Whole

theorem closed_leaves (fields : List (String × String)) : ∀ p ∈ fields.map leafItems, Closed p := by
  intro p member
  obtain ⟨field, -, rfl⟩ := List.mem_map.mp member
  exact closed_leafItems field

theorem sound_leaves {fields : List (String × String)} (named : ∀ field ∈ fields, isName field.1.toList = true)
    (n : Nat) : Sound (blockItems n (fields.map leafItems)) ↔ ∀ field ∈ fields, Unmarked field.2 := by
  rw [sound_blockItems n (closed_leaves fields), List.forall_mem_map]
  refine forall₂_congr fun field member => ?_
  rw [sound_leafItems]
  simp only [named field member, true_and]

theorem stack_parts (rfc3339 : Int → String) (visit : CloudFormation.Visit) (cfn : CloudFormation.CfnStack) :
    ∀ p ∈ (cfn.fields rfc3339).map leafItems ++
      [XmlReader.element "Parameters".toList .none ((visit.entries cfn.parameters).flatMap fun entry =>
          record "member" (CloudFormation.parameterFields entry)),
        XmlReader.element "Outputs".toList .none ((visit.entries cfn.outputs).flatMap fun entry =>
          record "member" (CloudFormation.outputFields entry))], Closed p := by
  refine List.forall_mem_append.mpr ⟨closed_leaves _, ?_⟩
  simp only [List.forall_mem_cons, List.not_mem_nil, false_implies, implies_true, and_true]
  exact ⟨closed_element _ _ _, closed_element _ _ _⟩

theorem error_parts (code message rid : String) :
    ∀ p ∈ [XmlReader.element "Error".toList .none (blockItems 2 ((errorFields code message).map leafItems)),
      leafItems ("RequestId", rid)], Closed p := by
  simp only [List.forall_mem_cons, List.not_mem_nil, false_implies, implies_true, and_true]
  exact ⟨closed_element _ _ _, closed_leafItems _⟩

theorem response_block (result : Json) (rid : String) :
    blockItems 0 [leafItems ("requestId", rid), jsonItems result] =
      gap 2 :: (leafItems ("requestId", rid) ++ (gap 2 :: (jsonItems result ++ [gap 0]))) := by
  simp [blockItems]

theorem sound_stack (rfc3339 : Int → String) (visit : CloudFormation.Visit) (cfn : CloudFormation.CfnStack) :
    Sound (stack rfc3339 visit cfn).items ↔ (stack rfc3339 visit cfn).Uninjected := by
  have named := fun entry => List.forall_mem_append.mp (entry_named entry)
  rw [items, sound_element, sound_blockItems 0 (stack_parts rfc3339 visit cfn), List.forall_mem_append,
    List.forall_mem_map]
  simp only [List.forall_mem_cons, List.not_mem_nil, false_implies, implies_true, and_true, sound_element,
    elements_named "member" (by simp), elements_named "Parameters" (by simp),
    elements_named "Outputs" (by simp), true_and,
    sound_records (elements_named "member" (by simp)) _ fun entry => (named entry).1,
    sound_records (elements_named "member" (by simp)) _ fun entry => (named entry).2, sound_leafItems,
    Uninjected]
  refine and_congr (forall₂_congr fun field member => ?_) ?_
  · simp only [stack_named rfc3339 cfn field member, true_and]
  · simp only [List.forall_mem_append, CloudFormation.parameterFields, CloudFormation.outputFields,
      List.forall_mem_cons, List.not_mem_nil, false_implies, implies_true, and_true]

theorem sound_items (d : Document) : Sound d.items ↔ d.Uninjected := by
  cases d with
  | describeVpcs env store rid =>
    rw [items, sound_answer rid (answers_named (_, _) (by simp)), sound_records item_named _ vpc_named, Uninjected]
  | describeSubnets env store rid =>
    rw [items, sound_answer rid (answers_named (_, _) (by simp)), sound_records item_named _ subnet_named, Uninjected]
  | describeSecurityGroups env store rid =>
    rw [items, sound_answer rid (answers_named (_, _) (by simp)), sound_records item_named _ securityGroup_named, Uninjected]
  | describeInstances env store rid =>
    rw [items, sound_answer rid (answers_named (_, _) (by simp)), sound_element, sound_element,
      sound_flatMap closed_instanceItems, Uninjected]
    simp only [item_named, elements_named "instancesSet" (by simp), true_and]
    exact and_congr_left' (forall₂_congr fun i _ => sound_instanceItems i)
  | stack rfc3339 visit cfn => exact sound_stack rfc3339 visit cfn
  | ec2Response operation result rid =>
    rw [items, sound_gap, sound_element, response_block, sound_gap, sound_append (closed_leafItems _), sound_gap,
      sound_append_gap, sound_leafItems, sound_jsonItems, Uninjected]
    simp only [elements_named "requestId" (by simp), true_and]
  | error protocol xml code message status rid =>
    have named := List.forall_mem_append.mp (error_named code message rid)
    have query : Sound (errorItems code message rid .query) ↔ Unmarked code ∧ Unmarked message ∧ Unmarked rid := by
      have sender : Unmarked "Sender" := by decide
      have inner : Sound (blockItems 2 ((errorFields code message).map leafItems)) ↔
          Unmarked code ∧ Unmarked message := by
        rw [sound_leaves named.1]
        simp only [errorFields, List.forall_mem_cons, List.not_mem_nil, false_implies, implies_true, and_true,
          sender, true_and]
      rw [errorItems, sound_element, sound_blockItems 0 (error_parts code message rid)]
      · simp only [List.forall_mem_cons, List.not_mem_nil, false_implies, implies_true, and_true, sound_element,
          inner, sound_leafItems, elements_named "Error" (by simp), elements_named "ErrorResponse" (by simp),
          elements_named "RequestId" (by simp), true_and, and_assoc]
      · intro same
        cases same
    have rest : Sound (errorItems code message rid .restXml) ↔
        Unmarked code ∧ Unmarked message ∧ Unmarked rid := by
      rw [errorItems, sound_element, sound_leaves named.2]
      simp only [elements_named "Error" (by simp), true_and, restErrorFields, List.forall_mem_cons,
        List.not_mem_nil, false_implies, implies_true, and_true]
    rw [items, sound_gap, Uninjected]
    cases protocol with
    | query | ec2 => exact query
    | restXml => exact rest
    | json | restJson => simp at xml

theorem bounded_block (n : Nat) (fields : List (String × String)) :
    Bounded (blockItems n (fields.map leafItems)) := by
  rw [bounded_blockItems n (closed_leaves fields), List.forall_mem_map]
  exact fun field _ => bounded_leafItems

theorem bounded_records {A : Type} (tag : String) (fields : A → List (String × String)) (l : List A) :
    Bounded (l.flatMap fun x => record tag (fields x)) := by
  rw [bounded_flatMap fun x => closed_record tag (fields x)]
  exact fun x _ => bounded_element.mpr (bounded_fields _)

theorem bounded_answer (action set rid : String) {records : List Item} (bounded : Bounded records) :
    Bounded (answer action set rid records) := by
  rw [answer, bounded_element, bounded_append (closed_element _ _ _)]
  exact ⟨bounded_element.mpr bounded, bounded_leafItems⟩

theorem bounded_items (d : Document) : Bounded d.items := by
  cases d with
  | describeVpcs env store rid => exact bounded_answer _ _ _ (bounded_records _ Ec2.Vpc.fields _)
  | describeSubnets env store rid => exact bounded_answer _ _ _ (bounded_records _ Ec2.Subnet.fields _)
  | describeSecurityGroups env store rid =>
    exact bounded_answer _ _ _ (bounded_records _ Ec2.SecurityGroup.fields _)
  | describeInstances env store rid =>
    refine bounded_answer _ _ _ (bounded_element.mpr (bounded_element.mpr ?_))
    refine (bounded_flatMap closed_instanceItems).mpr fun i _ => bounded_element.mpr ?_
    have leaves (fields : List (String × String)) : Closed (fields.flatMap leafItems) :=
      closed_flatMap fun field _ => closed_leafItems field
    rw [bounded_append (leaves _), bounded_append (closed_element _ _ _), bounded_element]
    exact ⟨bounded_fields _, bounded_fields _, bounded_fields _⟩
  | stack rfc3339 visit cfn =>
    rw [items, bounded_element, bounded_blockItems 0 (stack_parts rfc3339 visit cfn), List.forall_mem_append,
      List.forall_mem_map]
    simp only [List.forall_mem_cons, List.not_mem_nil, false_implies, implies_true, and_true, bounded_element]
    exact ⟨fun field _ => bounded_leafItems, bounded_records _ CloudFormation.parameterFields _,
      bounded_records _ CloudFormation.outputFields _⟩
  | ec2Response operation result rid =>
    rw [items, bounded_gap, bounded_element, response_block, bounded_gap, bounded_append (closed_leafItems _),
      bounded_gap, bounded_append_gap]
    exact ⟨bounded_leafItems, bounded_jsonItems result⟩
  | error protocol xml code message status rid =>
    rw [items, bounded_gap]
    cases protocol with
    | query | ec2 =>
      refine bounded_element.mpr ((bounded_blockItems 0 (error_parts code message rid)).mpr ?_)
      simp only [List.forall_mem_cons, List.not_mem_nil, false_implies, implies_true, and_true, bounded_element]
      exact ⟨bounded_block 2 _, bounded_leafItems⟩
    | restXml => exact bounded_element.mpr (bounded_block 0 _)
    | json | restJson => simp at xml

end Whole

theorem read_meant_iff (d : Document) : readDocument d.text = some (meant d.items) ↔ d.Uninjected := by
  rw [read_text, read_print_iff (bounded_items d), sound_items]

/-- The document is read with the tags that the code names, and every text in it is the one that is meant. -/
def ReadsAsMeant (d : Document) : Prop :=
  ∃ r, readDocument d.text = some r ∧ tagsRead r = tags d.items ∧ textsRead r = textsRead (meant d.items)

theorem readsAsMeant_iff (d : Document) : d.ReadsAsMeant ↔ readDocument d.text = some (meant d.items) := by
  constructor
  · rintro ⟨r, read, sameTags, sameTexts⟩
    have same : r = meant d.items :=
      reading_ext (sameTags.trans (tagsRead_meantFrom [] d.items).symm) sameTexts
    rw [read, same]
  · exact fun read => ⟨_, read, tagsRead_meantFrom [] d.items, rfl⟩

/-- A document is read as it is meant exactly when nothing in it can be taken for markup. -/
theorem xml_uninjected_iff (d : Document) : d.ReadsAsMeant ↔ d.Uninjected :=
  (readsAsMeant_iff d).trans (read_meant_iff d)

end Document

section Injection

def localEnv : Ec2.Env where
  values _ m := StrMap.values m
  values_perm _ _ := .refl _

/-- `CreateSecurityGroup` with the parameter `GroupName`. -/
def groupRequest (groupName : String) : RequestContext where
  service := "ec2"
  operation := "CreateSecurityGroup"
  region := "us-east-1"
  accountId := "000000000000"
  accessKey := ""
  protocol := .ec2
  params := .null
  rawBody := none
  headers := []
  path := "/"
  method := "POST"
  queryParams := (∅ : StrMap String).insert "GroupName" groupName
  bodyReader := none

/-- A group whose name is an element of its own. -/
def injected : Document :=
  .describeSecurityGroups localEnv (Ec2.createSecurityGroup (groupRequest "<x/>") .new "r" "0").2 "r"

theorem group_name_injects : ¬ injected.ReadsAsMeant := by
  intro read
  have plain := ((Document.read_meant_iff injected).mp ((Document.readsAsMeant_iff injected).mp read)).1
  have stored : (Ec2.createSecurityGroup (groupRequest "<x/>") .new "r" "0").2.securityGroups["sg-0"]? =
      some ⟨"sg-0", "<x/>", "", ""⟩ := by decide +kernel
  have named := plain _ (StrMap.mem_values.mpr ⟨_, stored⟩) ("groupName", "<x/>") (by simp [Ec2.SecurityGroup.fields])
  exact named.1 (by simp)

end Injection

end Documents

end Openstack.Gateway

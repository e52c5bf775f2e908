import Openstack.Route53.Provider

/-!
# Record sets sent and read back

`parse_rrsets` ends on every text. It keeps the texts of a batch escaped and ListResourceRecordSets escapes them once
more, so that what has one of the five characters comes back changed, as does a TTL that is not a numeral of `u64`.
-/
namespace Openstack.Route53

open KeywordSearch (Skips skips_nil)
open RustStr (before after)
open TagSearch
open XmlReader (Item Attributes Written Sound)

/-! ## The loops end -/

section Loops

variable {n m : Nat} {text : Text}

theorem valuesFrom_some (n : Nat) (text : Text) (enough : text.length < 7 * n) :
    ∃ values, valuesFrom n text = some values := by
  induction n generalizing text with
  | zero => omega
  | succ n ih =>
    rw [valuesFrom]
    cases found : after (openTag "Value") text with
    | none => exact ⟨[], rfl⟩
    | some later =>
      have shorter := length_after found
      have seven : (openTag "Value").length = 7 := by decide
      obtain ⟨values, rest⟩ := ih later (by omega)
      simp only [rest, Option.map_some]
      exact ⟨_, rfl⟩

theorem valuesFrom_unique {values values' : List Text} (found : valuesFrom n text = some values)
    (found' : valuesFrom m text = some values') : values = values' := by
  induction n generalizing m text values values' with
  | zero => cases found
  | succ n ih =>
    cases m with
    | zero => cases found'
    | succ m =>
      rw [valuesFrom] at found found'
      cases here : after (openTag "Value") text with
      | none =>
        rw [here] at found found'
        exact Option.some.inj (found.symm.trans found')
      | some later =>
        rw [here] at found found'
        obtain ⟨rest, one, rfl⟩ := Option.map_eq_some_iff.mp found
        obtain ⟨rest', two, rfl⟩ := Option.map_eq_some_iff.mp found'
        rw [ih one two]

/-- A block begins with its tag, so the loop goes on behind it. -/
theorem length_change {front : Text} (found : before (openTag "Change") text = some front) :
    8 ≤ ((before (closeTag "Change") (text.drop front.length)).getD (text.drop front.length)).length := by
  obtain ⟨rest, rfl, -⟩ := exists_after found
  have named : Named "Change" := by decide
  have eight : (openTag "Change").length = 8 := by decide
  rw [List.drop_left]
  cases inside : before (closeTag "Change") (openTag "Change" ++ rest) with
  | none => simp [eight]
  | some block =>
    have skips := skips_tag named.isTag_closeTag named.isTag_openTag named.openTag_ne_closeTag.symm
    rw [skips] at inside
    obtain ⟨later, -, rfl⟩ := Option.map_eq_some_iff.mp inside
    simp [eight]

theorem changesFrom_some (n : Nat) (text : Text) (enough : text.length < n) :
    ∃ changes, changesFrom n text = some changes := by
  induction n generalizing text with
  | zero => omega
  | succ n ih =>
    rw [changesFrom]
    cases found : before (openTag "Change") text with
    | none => exact ⟨[], rfl⟩
    | some front =>
      have long := length_change found
      generalize block : (before (closeTag "Change") (text.drop front.length)).getD
        (text.drop front.length) = change at long
      have inside : change.length ≤ text.length := by
        rw [← block]
        cases ends : before (closeTag "Change") (text.drop front.length) with
        | none => simp
        | some block =>
          have within := (RustStr.before_isPrefix ends).length_le
          simp only [List.length_append, List.length_drop] at within
          simp only [Option.getD_some]
          omega
      obtain ⟨values, read⟩ := valuesFrom_some n change (by omega)
      obtain ⟨changes, rest⟩ := ih ((text.drop front.length).drop change.length) (by
        simp only [List.length_drop]
        omega)
      simp only [block, read, rest, Option.bind_some, Option.map_some]
      exact ⟨_, rfl⟩

theorem changesFrom_unique {changes changes' : List Change} (found : changesFrom n text = some changes)
    (found' : changesFrom m text = some changes') : changes = changes' := by
  induction n generalizing m text changes changes' with
  | zero => cases found
  | succ n ih =>
    cases m with
    | zero => cases found'
    | succ m =>
      rw [changesFrom] at found found'
      cases here : before (openTag "Change") text with
      | none =>
        rw [here] at found found'
        exact Option.some.inj (found.symm.trans found')
      | some front =>
        rw [here] at found found'
        obtain ⟨values, read, more⟩ := Option.bind_eq_some_iff.mp found
        obtain ⟨values', read', more'⟩ := Option.bind_eq_some_iff.mp found'
        obtain ⟨rest, one, rfl⟩ := Option.map_eq_some_iff.mp more
        obtain ⟨rest', two, rfl⟩ := Option.map_eq_some_iff.mp more'
        rw [valuesFrom_unique read read', ih one two]

theorem valuesFrom_enough {values : List Text} (enough : text.length < 7 * m)
    (found : valuesFrom n text = some values) : valuesFrom m text = some values := by
  obtain ⟨values', read⟩ := valuesFrom_some m text enough
  rw [read, valuesFrom_unique read found]

theorem changesFrom_enough {changes : List Change} (enough : text.length < m)
    (found : changesFrom n text = some changes) : changesFrom m text = some changes := by
  obtain ⟨changes', read⟩ := changesFrom_some m text enough
  rw [read, changesFrom_unique read found]

/-- Any number of steps beyond the length of the text gives the same changes. -/
theorem changesFrom_eq (enough : text.length < n) : changesFrom n text = some (parseRrsets text) := by
  obtain ⟨changes, found⟩ := changesFrom_some n text enough
  obtain ⟨changes', found'⟩ := changesFrom_some (text.length + 1) text (Nat.lt_succ_self _)
  rw [parseRrsets, found', Option.getD_some, found, changesFrom_unique found found']

theorem parseRrsets_eq {changes : List Change} (found : changesFrom n text = some changes) :
    parseRrsets text = changes := by
  have whole := changesFrom_eq (Nat.lt_succ_self text.length)
  exact changesFrom_unique whole found

end Loops

/-! ## A batch as it is sent -/

/-- A change with the text of its TTL. -/
structure SentChange where
  action : String
  name : String
  recordType : String
  ttl : String
  values : List String
  deriving DecidableEq, Repr

def escaped (s : String) : Text := (xmlEscape s).toList

theorem lt_not_mem_escaped (s : String) : '<' ∉ escaped s := (written_xmlEscape s).1

def valueXml (v : String) : Text := element "ResourceRecord" (element "Value" (escaped v))

/-- What stands between the tags of a change. -/
def SentChange.inside (c : SentChange) : Text :=
  element "Action" (escaped c.action) ++
    (element "ResourceRecordSet"
      (element "Name" (escaped c.name) ++
        (element "Type" (escaped c.recordType) ++
          (element "TTL" (escaped c.ttl) ++ element "ResourceRecords" (c.values.flatMap valueXml)))))

def SentChange.xml (c : SentChange) : Text := element "Change" c.inside

def changeBatchXml (changes : List SentChange) : Text :=
  documentXml "ChangeResourceRecordSetsRequest"
    (element "ChangeBatch" (element "Changes" (changes.flatMap SentChange.xml)))

/-- The change that is read, whose texts are still escaped. -/
def SentChange.received (c : SentChange) : Change :=
  (xmlEscape c.action,
    { name := xmlEscape c.name
      recordType := xmlEscape c.recordType
      ttl := (RustFmt.parseUnsigned 64 (xmlEscape c.ttl)).getD 300
      values := c.values.map xmlEscape })

/-! ## Reading a change -/

section Reading

/-- The tags of a batch. -/
def batchTags : List String :=
  ["ChangeResourceRecordSetsRequest", "ChangeBatch", "Changes", "Change", "Action", "ResourceRecordSet",
    "Name", "Type", "TTL", "ResourceRecords", "ResourceRecord", "Value"]

theorem batchTags_named : ∀ tag ∈ batchTags, Named tag := by decide +kernel

variable {pat front content rest : Text}

/-- A search for a tag passes over the other tags of the batch. -/
theorem skips_other (tag tag' : String) (named : tag ∈ batchTags) (named' : tag' ∈ batchTags) (other : tag ≠ tag')
    (looked : pat ∈ tagsOf tag) : ∀ t ∈ tagsOf tag', Skips pat t := by
  have here := batchTags_named tag named
  have there := batchTags_named tag' named'
  intro t listed
  refine skips_tag (here.isTag looked) (there.isTag listed) ?_
  rintro rfl
  rcases List.mem_pair.mp looked with rfl | rfl
  · exact here.openTag_not_mem other listed
  · exact there.closeTag_not_mem other listed

theorem xmlText_element (tag : String) (named : tag ∈ batchTags) (skips : ∀ pat ∈ tagsOf tag, Skips pat front)
    (plain : '<' ∉ content) (rest : Text) : xmlText (front ++ (element tag content ++ rest)) tag = some content := by
  have isNamed := batchTags_named tag named
  have opening : before (openTag tag) (front ++ (element tag content ++ rest)) = some front := by
    rw [element, List.append_assoc]
    exact (skips _ (by simp [tagsOf])).before_keyword _ isNamed.isTag_openTag.ne_nil
  have closing : before (closeTag tag) (front ++ (element tag content ++ rest)) =
      some (front ++ openTag tag ++ content) := by
    have passes : Skips (closeTag tag) (front ++ openTag tag ++ content) :=
      ((skips _ (by simp [tagsOf])).append
        (skips_tag isNamed.isTag_closeTag isNamed.isTag_openTag isNamed.openTag_ne_closeTag.symm)).append
        (skips_text isNamed.isTag_closeTag plain)
    have found := passes.before_keyword rest isNamed.isTag_closeTag.ne_nil
    simpa [element] using found
  rw [xmlText, opening, closing]
  simp only [Option.bind_some, List.length_append]
  rw [if_pos (by omega), ← List.length_append, List.drop_left]

/-- A search for a tag passes over the other elements of the batch that hold a text. -/
theorem skips_leaf (tag tag' : String) (named : tag ∈ batchTags) (named' : tag' ∈ batchTags) (other : tag ≠ tag')
    (looked : pat ∈ tagsOf tag) (plain : '<' ∉ content) : Skips pat (element tag' content) := by
  have tags := skips_other tag tag' named named' other looked
  have isTag := (batchTags_named tag named).isTag looked
  exact (tags _ (by simp [tagsOf])).append ((skips_text isTag plain).append (tags _ (by simp [tagsOf])))

theorem valuesFrom_values (values : List String) {front tail : Text} (skips : Skips (openTag "Value") front)
    (absent : after (openTag "Value") tail = none) :
    ∃ n, valuesFrom n (front ++ (values.flatMap valueXml ++ tail)) = some (values.map escaped) := by
  have named : "Value" ∈ batchTags := by simp [batchTags]
  have named' : "ResourceRecord" ∈ batchTags := by simp [batchTags]
  have isNamed := batchTags_named "Value" named
  have record : ∀ t ∈ tagsOf "ResourceRecord", Skips (openTag "Value") t :=
    skips_other "Value" "ResourceRecord" named named' (by decide) (by simp [tagsOf])
  induction values generalizing front with
  | nil =>
    refine ⟨1, ?_⟩
    rw [List.flatMap_nil, List.nil_append, valuesFrom, after_skips skips, absent]
    rfl
  | cons v values ih =>
    have plain := lt_not_mem_escaped v
    -- behind the value come its closing tag, the one of the record and the other records
    have value : Skips (openTag "Value") (escaped v ++ (closeTag "Value" ++ closeTag "ResourceRecord")) :=
      (skips_text isNamed.isTag_openTag plain).append
        ((skips_tag isNamed.isTag_openTag isNamed.isTag_closeTag isNamed.openTag_ne_closeTag).append
          (record _ (by simp [tagsOf])))
    obtain ⟨n, others⟩ := ih value
    have first : after (openTag "Value") (front ++ ((v :: values).flatMap valueXml ++ tail)) =
        some (escaped v ++ (closeTag "Value" ++ closeTag "ResourceRecord") ++
          (values.flatMap valueXml ++ tail)) := by
      have reached := after_keyword isNamed.isTag_openTag.ne_nil
        (escaped v ++ (closeTag "Value" ++ closeTag "ResourceRecord") ++ (values.flatMap valueXml ++ tail))
      rw [← after_skips (record (openTag "ResourceRecord") (by simp [tagsOf])), ← after_skips skips]
        at reached
      simpa [valueXml, element] using reached
    have ends : before (closeTag "Value") (escaped v ++ (closeTag "Value" ++ closeTag "ResourceRecord") ++
        (values.flatMap valueXml ++ tail)) = some (escaped v) := by
      have found := (skips_text isNamed.isTag_closeTag plain).before_keyword
        (closeTag "ResourceRecord" ++ (values.flatMap valueXml ++ tail)) isNamed.isTag_closeTag.ne_nil
      simpa using found
    refine ⟨n + 1, ?_⟩
    simp only [valuesFrom, first, others, ends]
    rfl

/-- What stands in a block in front of its name. -/
def SentChange.head (c : SentChange) : Text :=
  openTag "Change" ++ (element "Action" (escaped c.action) ++ openTag "ResourceRecordSet")

theorem skips_head (tag : String) (listed : tag ∈ ["Name", "Type", "TTL", "Value"]) (c : SentChange) {pat : Text}
    (looked : pat ∈ tagsOf tag) : Skips pat c.head := by
  have others : tag ∈ batchTags ∧ tag ≠ "Change" ∧ tag ≠ "Action" ∧ tag ≠ "ResourceRecordSet" := by
    simp only [List.mem_cons, List.not_mem_nil, or_false] at listed
    rcases listed with rfl | rfl | rfl | rfl <;> simp [batchTags]
  obtain ⟨named, change, action, recordSet⟩ := others
  exact (skips_other tag "Change" named (by simp [batchTags]) change looked _ (by simp [tagsOf])).append
    ((skips_leaf tag "Action" named (by simp [batchTags]) action looked (lt_not_mem_escaped _)).append
      (skips_other tag "ResourceRecordSet" named (by simp [batchTags]) recordSet looked _ (by simp [tagsOf])))

theorem xmlText_action (c : SentChange) :
    xmlText (openTag "Change" ++ c.inside) "Action" = some (escaped c.action) := by
  refine xmlText_element "Action" (by simp [batchTags]) (fun pat looked => ?_) (lt_not_mem_escaped _) _
  exact skips_other "Action" "Change" (by simp [batchTags]) (by simp [batchTags]) (by simp) looked _
    (by simp [tagsOf])

theorem xmlText_name (c : SentChange) : xmlText (openTag "Change" ++ c.inside) "Name" = some (escaped c.name) := by
  have found := xmlText_element "Name" (by simp [batchTags])
    (fun _ looked => skips_head "Name" (by simp) c looked) (lt_not_mem_escaped c.name)
    (element "Type" (escaped c.recordType) ++
      (element "TTL" (escaped c.ttl) ++ element "ResourceRecords" (c.values.flatMap valueXml)) ++
        closeTag "ResourceRecordSet")
  simpa [SentChange.head, SentChange.inside, element] using found

theorem xmlText_type (c : SentChange) :
    xmlText (openTag "Change" ++ c.inside) "Type" = some (escaped c.recordType) := by
  have skips : ∀ pat ∈ tagsOf "Type", Skips pat (c.head ++ element "Name" (escaped c.name)) := fun pat looked =>
    (skips_head "Type" (by simp) c looked).append
      (skips_leaf "Type" "Name" (by simp [batchTags]) (by simp [batchTags]) (by simp) looked
        (lt_not_mem_escaped c.name))
  have found := xmlText_element "Type" (by simp [batchTags]) skips (lt_not_mem_escaped c.recordType)
    (element "TTL" (escaped c.ttl) ++ element "ResourceRecords" (c.values.flatMap valueXml) ++
      closeTag "ResourceRecordSet")
  simpa [SentChange.head, SentChange.inside, element] using found

/-- What stands in a block in front of its TTL. -/
theorem skips_toTtl (tag : String) (listed : tag ∈ ["TTL", "Value"]) (c : SentChange) {pat : Text}
    (looked : pat ∈ tagsOf tag) :
    Skips pat (c.head ++ (element "Name" (escaped c.name) ++ element "Type" (escaped c.recordType))) := by
  have others : tag ∈ batchTags ∧ tag ∈ ["Name", "Type", "TTL", "Value"] ∧ tag ≠ "Name" ∧ tag ≠ "Type" := by
    simp only [List.mem_cons, List.not_mem_nil, or_false] at listed
    rcases listed with rfl | rfl <;> simp [batchTags]
  obtain ⟨named, inBlock, name, type⟩ := others
  exact (skips_head tag inBlock c looked).append
    ((skips_leaf tag "Name" named (by simp [batchTags]) name looked (lt_not_mem_escaped _)).append
      (skips_leaf tag "Type" named (by simp [batchTags]) type looked (lt_not_mem_escaped _)))

theorem xmlText_ttl (c : SentChange) : xmlText (openTag "Change" ++ c.inside) "TTL" = some (escaped c.ttl) := by
  have found := xmlText_element "TTL" (by simp [batchTags])
    (fun _ looked => skips_toTtl "TTL" (by simp) c looked) (lt_not_mem_escaped c.ttl)
    (element "ResourceRecords" (c.values.flatMap valueXml) ++ closeTag "ResourceRecordSet")
  simpa [SentChange.head, SentChange.inside, element] using found

/-- A block of the batch is read as the change it stands for. -/
theorem changeOf_inside (c : SentChange) :
    changeOf (openTag "Change" ++ c.inside) (c.values.map escaped) = c.received := by
  have text : ∀ s, String.ofList (escaped s) = xmlEscape s := fun s => String.ofList_toList
  have values : (c.values.map escaped).map String.ofList = c.values.map xmlEscape := by
    rw [List.map_map]
    exact List.map_congr_left fun v _ => text v
  simp [changeOf, xmlText_action, xmlText_name, xmlText_type, xmlText_ttl, text, values,
    SentChange.received]

theorem valuesFrom_inside (c : SentChange) :
    ∃ n, valuesFrom n (openTag "Change" ++ c.inside) = some (c.values.map escaped) := by
  have other (tag' : String) (named' : tag' ∈ batchTags) (differs : "Value" ≠ tag') {t : Text}
      (listed : t ∈ tagsOf tag') : Skips (openTag "Value") t :=
    skips_other "Value" tag' (by simp [batchTags]) named' differs (by simp [tagsOf]) t listed
  have front : Skips (openTag "Value") (c.head ++ (element "Name" (escaped c.name) ++
      element "Type" (escaped c.recordType)) ++ (element "TTL" (escaped c.ttl) ++ openTag "ResourceRecords")) :=
    (skips_toTtl "Value" (by simp) c (by simp [tagsOf])).append
      ((skips_leaf "Value" "TTL" (by simp [batchTags]) (by simp [batchTags]) (by simp) (by simp [tagsOf])
        (lt_not_mem_escaped _)).append
        (other "ResourceRecords" (by simp [batchTags]) (by simp) (by simp [tagsOf])))
  have tail : Skips (openTag "Value") (closeTag "ResourceRecords" ++ closeTag "ResourceRecordSet") :=
    (other "ResourceRecords" (by simp [batchTags]) (by simp) (by simp [tagsOf])).append
      (other "ResourceRecordSet" (by simp [batchTags]) (by simp) (by simp [tagsOf]))
  obtain ⟨n, read⟩ := valuesFrom_values c.values front (after_of_skips (openTag_ne_nil _) tail)
  refine ⟨n, ?_⟩
  simpa [SentChange.head, SentChange.inside, element] using read

theorem skips_wrap (tag tag' : String) (named : tag ∈ batchTags) (named' : tag' ∈ batchTags)
    (other : tag ≠ tag') (looked : pat ∈ tagsOf tag) (inside : Skips pat content) :
    Skips pat (element tag' content) := by
  have tags := skips_other tag tag' named named' other looked
  exact (tags _ (by simp [tagsOf])).append (inside.append (tags _ (by simp [tagsOf])))

theorem skips_inside (c : SentChange) (looked : pat ∈ tagsOf "Change") : Skips pat c.inside := by
  have wrap (tag' : String) (named' : tag' ∈ batchTags) (other : "Change" ≠ tag') {content : Text}
      (inside : Skips pat content) : Skips pat (element tag' content) :=
    skips_wrap "Change" tag' (by simp [batchTags]) named' other looked inside
  have isTag := (batchTags_named "Change" (by simp [batchTags])).isTag looked
  have text (s : String) : Skips pat (escaped s) := skips_text isTag (lt_not_mem_escaped s)
  have value (v : String) : Skips pat (valueXml v) :=
    wrap "ResourceRecord" (by simp [batchTags]) (by simp)
      (wrap "Value" (by simp [batchTags]) (by simp) (text v))
  have values := skips_flatMap (fun v (_ : v ∈ c.values) => value v)
  refine (wrap "Action" (by simp [batchTags]) (by simp) (text _)).append
    (wrap "ResourceRecordSet" (by simp [batchTags]) (by simp) ?_)
  refine (wrap "Name" (by simp [batchTags]) (by simp) (text _)).append
    ((wrap "Type" (by simp [batchTags]) (by simp) (text _)).append ?_)
  exact (wrap "TTL" (by simp [batchTags]) (by simp) (text _)).append
    (wrap "ResourceRecords" (by simp [batchTags]) (by simp) values)

/-- One change of a batch, and the loop behind it. -/
theorem changesFrom_change (c : SentChange) {front rest : Text} (skips : Skips (openTag "Change") front)
    {n : Nat} {changes : List Change} (others : changesFrom n (closeTag "Change" ++ rest) = some changes) :
    ∃ m, changesFrom m (front ++ (c.xml ++ rest)) = some (c.received :: changes) := by
  have named := batchTags_named "Change" (by simp [batchTags])
  have block : c.xml ++ rest = openTag "Change" ++ c.inside ++ (closeTag "Change" ++ rest) := by
    simp [SentChange.xml, element]
  have start : before (openTag "Change") (front ++ (c.xml ++ rest)) = some front := by
    rw [block, List.append_assoc]
    exact skips.before_keyword _ named.isTag_openTag.ne_nil
  have ends : before (closeTag "Change") (c.xml ++ rest) = some (openTag "Change" ++ c.inside) := by
    rw [block]
    refine Skips.before_keyword ?_ rest named.isTag_closeTag.ne_nil
    exact (skips_tag named.isTag_closeTag named.isTag_openTag named.openTag_ne_closeTag.symm).append
      (skips_inside c (by simp [tagsOf]))
  obtain ⟨k, values⟩ := valuesFrom_inside c
  -- as many steps as the text has characters are enough for both loops
  have size := congrArg List.length block
  have eight : (openTag "Change").length = 8 := by decide
  simp only [List.length_append, eight] at size
  have readValues : valuesFrom (front ++ (c.xml ++ rest)).length (openTag "Change" ++ c.inside) =
      some (c.values.map escaped) :=
    valuesFrom_enough (by simp only [List.length_append]; omega) values
  have readOthers : changesFrom (front ++ (c.xml ++ rest)).length (closeTag "Change" ++ rest) = some changes :=
    changesFrom_enough (by simp only [List.length_append]; omega) others
  refine ⟨(front ++ (c.xml ++ rest)).length + 1, ?_⟩
  rw [changesFrom, start]
  simp only [List.drop_left, ends, Option.getD_some]
  rw [readValues, Option.bind_some, block, List.drop_left, ← block, readOthers, changeOf_inside]
  rfl

theorem changesFrom_changes (changes : List SentChange) {front tail : Text} (skips : Skips (openTag "Change") front)
    (absent : before (openTag "Change") tail = none) :
    ∃ n, changesFrom n (front ++ (changes.flatMap SentChange.xml ++ tail)) =
      some (changes.map SentChange.received) := by
  induction changes generalizing front with
  | nil =>
    refine ⟨1, ?_⟩
    rw [List.flatMap_nil, List.nil_append, changesFrom, skips, absent]
    rfl
  | cons c changes ih =>
    have named := batchTags_named "Change" (by simp [batchTags])
    obtain ⟨n, others⟩ :=
      ih (skips_tag named.isTag_openTag named.isTag_closeTag named.openTag_ne_closeTag)
    rw [List.flatMap_cons, List.append_assoc]
    exact changesFrom_change c skips others

/-- What stands in front of the changes of a batch. -/
def batchStart : Text :=
  documentStart "ChangeResourceRecordSetsRequest" ++ (openTag "ChangeBatch" ++ openTag "Changes")

def batchEnd : Text := closeTag "Changes" ++ (closeTag "ChangeBatch" ++ closeTag "ChangeResourceRecordSetsRequest")

theorem changeBatchXml_eq (changes : List SentChange) :
    changeBatchXml changes = batchStart ++ (changes.flatMap SentChange.xml ++ batchEnd) := by
  rw [changeBatchXml, documentXml, element, element, batchStart, batchEnd]
  simp only [List.append_assoc]

theorem skips_batchStart : Skips (openTag "Change") batchStart :=
  skips_of_gt (batchTags_named "Change" (by simp [batchTags])).isTag_openTag (by decide +kernel)
    (by decide +kernel)

theorem before_batchEnd : before (openTag "Change") batchEnd = none := by decide +kernel

/-- Every batch is read as the changes in it, their texts still escaped. -/
theorem parseRrsets_changeBatchXml (changes : List SentChange) :
    parseRrsets (changeBatchXml changes) = changes.map SentChange.received := by
  obtain ⟨n, read⟩ := changesFrom_changes changes skips_batchStart before_batchEnd
  rw [changeBatchXml_eq]
  exact parseRrsets_eq read

end Reading

/-! ## What comes back -/

section Exactness

/-- A change that has been read, with the numeral of its TTL. -/
def shown : Change → SentChange
  | (action, rrset) =>
    { action
      name := rrset.name
      recordType := rrset.recordType
      ttl := toString rrset.ttl
      values := rrset.values }

def PlainText (s : String) : Prop := ∀ c ∈ s.toList, c ∉ xmlSpecials

instance (s : String) : Decidable (PlainText s) := inferInstanceAs (Decidable (∀ _ ∈ _, _))

/-- No text needs escaping, and the TTL is the numeral of a `u64`. -/
structure SentChange.Fits (c : SentChange) : Prop where
  action : PlainText c.action
  name : PlainText c.name
  recordType : PlainText c.recordType
  values : ∀ v ∈ c.values, PlainText v
  ttl : ∃ n < 2 ^ 64, c.ttl = toString n

theorem plainText_toString (n : Nat) : PlainText (toString n) := by
  intro c member special
  rw [RustFmt.toList_toString] at member
  have digit : c.isDigit = true := Nat.isDigit_of_mem_toDigits (by decide) (by decide) member
  simp only [xmlSpecials, List.mem_cons, List.not_mem_nil, or_false] at special
  rcases special with rfl | rfl | rfl | rfl | rfl <;> exact absurd digit (by decide)

theorem ttl_iff (ttl : String) : toString ((RustFmt.parseUnsigned 64 (xmlEscape ttl)).getD 300) = ttl ↔
    ∃ n < 2 ^ 64, ttl = toString n := by
  constructor
  · intro same
    refine ⟨_, ?_, same.symm⟩
    cases parsed : RustFmt.parseUnsigned 64 (xmlEscape ttl) with
    | none => decide
    | some n => exact RustFmt.parseUnsigned_lt parsed
  · rintro ⟨n, fits, rfl⟩
    rw [(xmlEscape_eq_iff _).mpr (plainText_toString n), RustFmt.parseUnsigned_toString, if_pos fits,
      Option.getD_some]

theorem shown_received_iff (c : SentChange) : shown c.received = c ↔ c.Fits := by
  obtain ⟨action, name, recordType, ttl, values⟩ := c
  simp only [SentChange.received, shown, SentChange.mk.injEq, ttl_iff, xmlEscape_eq_iff]
  constructor
  · rintro ⟨plainAction, plainName, plainType, numeral, same⟩
    have each := List.map_inj_left.mp (same.trans (List.map_id values).symm)
    exact ⟨plainAction, plainName, plainType, fun v member => (xmlEscape_eq_iff v).mp (each v member), numeral⟩
  · rintro ⟨plainAction, plainName, plainType, plain, numeral⟩
    refine ⟨plainAction, plainName, plainType, numeral, ?_⟩
    exact (List.map_congr_left fun v member => (xmlEscape_eq_iff v).mpr (plain v member)).trans (List.map_id values)

/-- A batch is read as it was sent exactly when each of its changes fits. -/
theorem parse_sent_iff (changes : List SentChange) :
    (parseRrsets (changeBatchXml changes)).map shown = changes ↔ ∀ c ∈ changes, c.Fits := by
  rw [parseRrsets_changeBatchXml, List.map_map]
  constructor
  · intro same c member
    have each := List.map_inj_left.mp (same.trans (List.map_id changes).symm)
    exact (shown_received_iff c).mp (each c member)
  · intro fits
    refine (List.map_congr_left fun c member => ?_).trans (List.map_id changes)
    exact (shown_received_iff c).mpr (fits c member)

end Exactness

/-! ## What is listed -/

section Listing

/-- The attribute of the root element. -/
def nsAttributes : Attributes := ⟨nsAttribute.toList, by decide +kernel⟩

/-- An element that holds an escaped text. -/
def leaf (tag text : String) : List Item := XmlReader.element tag.toList .none [.text (escaped text) text.toList]

def setItems (c : SentChange) : List Item :=
  XmlReader.element "ResourceRecordSet".toList .none
    (leaf "Name" c.name ++
      (leaf "Type" c.recordType ++
        (leaf "TTL" c.ttl ++
          XmlReader.element "ResourceRecords".toList .none (c.values.flatMap fun v =>
            XmlReader.element "ResourceRecord".toList .none (leaf "Value" v)))))

/-- The document that lists the record sets. -/
def listItems (sets : List SentChange) : List Item :=
  XmlReader.element "ListResourceRecordSetsResponse".toList nsAttributes
    (XmlReader.element "ResourceRecordSets".toList .none (sets.flatMap setItems) ++
      (leaf "IsTruncated" "false" ++ leaf "MaxItems" "100"))

/-- A record as a change that makes it. -/
def upserted (entry : RecordKey × ResourceRecordSet) : SentChange :=
  { action := "UPSERT"
    name := entry.1.2.1
    recordType := entry.1.2.2
    ttl := toString entry.2.ttl
    values := entry.2.values }

theorem print_leaf (tag text : String) : XmlReader.print (leaf tag text) = element tag (escaped text) := by
  rw [leaf, XmlReader.print_element, XmlReader.print, XmlReader.print, List.append_nil]

theorem escaped_plain {s : String} (plain : PlainText s) : escaped s = s.toList :=
  congrArg String.toList ((xmlEscape_eq_iff s).mpr plain)

theorem print_setItems (entry : RecordKey × ResourceRecordSet) :
    XmlReader.print (setItems (upserted entry)) = rrsetXml entry.1.2.1 entry.1.2.2 entry.2 := by
  have numeral := escaped_plain (plainText_toString entry.2.ttl)
  simp only [setItems, rrsetXml, XmlReader.print_element, XmlReader.print_append, XmlReader.print_flatMap,
    print_leaf, upserted, numeral]
  rfl

theorem print_root (root : String) (content : List Item) :
    XmlReader.declaration ++ XmlReader.print (XmlReader.element root.toList nsAttributes content) =
      documentXml root (XmlReader.print content) := by
  rw [documentXml, documentStart, XmlReader.element, XmlReader.print, XmlReader.print_append, closeTag_eq,
    List.append_assoc]
  simp [XmlReader.print, XmlReader.Tag.print, XmlReader.Tag.body, nsAttributes]

theorem plainText_constants : PlainText "false" ∧ PlainText "100" ∧ PlainText "UPSERT" := by
  simp [PlainText, xmlSpecials]

theorem print_listItems (zoneId : String) (entries : List (RecordKey × ResourceRecordSet)) :
    XmlReader.declaration ++
        XmlReader.print (listItems ((entries.filter fun entry => entry.1.1 = zoneId).map upserted)) =
      listXml zoneId entries := by
  have sets : ((entries.filter fun entry => entry.1.1 = zoneId).map upserted).flatMap
      (fun c => XmlReader.print (setItems c)) =
        (entries.filter fun entry => entry.1.1 = zoneId).flatMap fun entry =>
          rrsetXml entry.1.2.1 entry.1.2.2 entry.2 := by
    rw [List.flatMap_map]
    exact List.flatMap_congr fun entry _ => print_setItems entry
  rw [listItems, print_root, listXml, XmlReader.print_append, XmlReader.print_element, XmlReader.print_flatMap, sets,
    XmlReader.print_append, print_leaf, print_leaf, escaped_plain plainText_constants.1, escaped_plain plainText_constants.2.1]

theorem tagNames : ∀ tag ∈ ["ListResourceRecordSetsResponse", "ResourceRecordSets", "IsTruncated", "MaxItems",
    "ResourceRecordSet", "Name", "Type", "TTL", "ResourceRecords", "ResourceRecord", "Value"],
    XmlReader.isName tag.toList = true := by decide +kernel

theorem sound_leaf {tag : String} (named : XmlReader.isName tag.toList = true) (text : String) :
    Sound (leaf tag text) :=
  XmlReader.sound_element.mpr ⟨named, written_xmlEscape text⟩

theorem sound_setItems (c : SentChange) : Sound (setItems c) := by
  have named (tag : String) (listed : tag ∈ ["ResourceRecordSet", "Name", "Type", "TTL", "ResourceRecords",
      "ResourceRecord", "Value"]) : XmlReader.isName tag.toList = true :=
    tagNames tag (by simp only [List.mem_cons] at listed ⊢; tauto)
  have closed (tag text : String) : XmlReader.Closed (leaf tag text) := XmlReader.closed_element _ _ _
  have values : Sound (c.values.flatMap fun v =>
      XmlReader.element "ResourceRecord".toList .none (leaf "Value" v)) := by
    refine (XmlReader.sound_flatMap fun v => XmlReader.closed_element _ _ _).mpr fun v _ => ?_
    exact XmlReader.sound_element.mpr ⟨named _ (by simp), sound_leaf (named _ (by simp)) v⟩
  refine XmlReader.sound_element.mpr ⟨named _ (by simp), ?_⟩
  refine (XmlReader.sound_append (closed _ _)).mpr ⟨sound_leaf (named _ (by simp)) _, ?_⟩
  refine (XmlReader.sound_append (closed _ _)).mpr ⟨sound_leaf (named _ (by simp)) _, ?_⟩
  refine (XmlReader.sound_append (closed _ _)).mpr ⟨sound_leaf (named _ (by simp)) _, ?_⟩
  exact XmlReader.sound_element.mpr ⟨named _ (by simp), values⟩

theorem sound_listItems (sets : List SentChange) : Sound (listItems sets) := by
  refine XmlReader.sound_element.mpr ⟨tagNames _ (by simp), ?_⟩
  refine (XmlReader.sound_append (XmlReader.closed_element _ _ _)).mpr ⟨?_, ?_⟩
  · refine XmlReader.sound_element.mpr ⟨tagNames _ (by simp), ?_⟩
    exact (XmlReader.sound_flatMap fun c => XmlReader.closed_element _ _ _).mpr fun c _ => sound_setItems c
  · exact (XmlReader.sound_append (XmlReader.closed_element _ _ _)).mpr
      ⟨sound_leaf (tagNames _ (by simp)) _, sound_leaf (tagNames _ (by simp)) _⟩

/-- The listing is read as the records of the zone, whatever their texts. -/
theorem read_listXml (zoneId : String) (entries : List (RecordKey × ResourceRecordSet)) :
    XmlReader.readDocument (listXml zoneId entries) =
      some (XmlReader.meant (listItems ((entries.filter fun entry => entry.1.1 = zoneId).map upserted))) := by
  have read := XmlReader.readText_of_sound
    (sound_listItems ((entries.filter fun entry => entry.1.1 = zoneId).map upserted))
  rw [List.nil_append] at read
  rw [← print_listItems, XmlReader.readDocument_declaration]
  exact read

end Listing

/-! ## Record sets that are sent and listed -/

section Upserts

variable (zoneId : String)

/-- Record sets that are sent to be made, no two of them with one name and type. -/
structure Upserts (changes : List SentChange) : Prop where
  action : ∀ c ∈ changes, c.action = "UPSERT"
  distinct : (changes.map fun c => (c.name, c.recordType)).Nodup

def keyOf (change : Change) : RecordKey := (zoneId, change.2.name, change.2.recordType)

theorem getElem?_upserts {changes : List Change} (action : ∀ c ∈ changes, c.1 = "UPSERT")
    (distinct : (changes.map (keyOf zoneId)).Nodup) (records : RecordMap) (key : RecordKey)
    (rrset : ResourceRecordSet) :
    (changes.foldl (applyChange zoneId) records)[key]? = some rrset ↔
      (∃ c ∈ changes, keyOf zoneId c = key ∧ c.2 = rrset) ∨
        (∀ c ∈ changes, keyOf zoneId c ≠ key) ∧ records[key]? = some rrset := by
  induction changes generalizing records with
  | nil => simp
  | cons c changes ih =>
    obtain ⟨here, others⟩ := List.forall_mem_cons.mp action
    rw [List.map_cons, List.nodup_cons] at distinct
    have insert : applyChange zoneId records c = records.insert (keyOf zoneId c) c.2 := by
      obtain ⟨name, rrset⟩ := c
      obtain rfl : name = "UPSERT" := here
      rfl
    rw [List.foldl_cons, insert, ih others distinct.2, RecordMap.getElem?_insert]
    by_cases same : keyOf zoneId c = key
    · have absent : ∀ d ∈ changes, keyOf zoneId d ≠ key := fun d member again =>
        distinct.1 (List.mem_map.mpr ⟨d, member, again.trans same.symm⟩)
      simp only [same, List.mem_cons, exists_eq_or_imp, forall_eq_or_imp, if_true, true_and,
        Option.some.injEq, ne_eq, not_true_eq_false, false_and, or_false]
      constructor
      · rintro (⟨d, member, again, -⟩ | ⟨-, found⟩)
        · exact absurd again (absent d member)
        · exact .inl found
      · rintro (found | ⟨d, member, again, -⟩)
        · exact .inr ⟨absent, found⟩
        · exact absurd again (absent d member)
    · simp [same]

theorem nodup_toList (m : RecordMap) : m.toList.Nodup := by
  refine (Std.ExtTreeMap.distinct_keys_toList (t := m)).imp fun apart same => apart ?_
  rw [same]
  exact Std.ReflCmp.compare_self

/-- The records of a zone that had none, once the changes are made. -/
theorem entries_upserts (env : Env) {changes : List Change} (action : ∀ c ∈ changes, c.1 = "UPSERT")
    (distinct : (changes.map (keyOf zoneId)).Nodup) {records : RecordMap}
    (none : ∀ (key : RecordKey) (rrset : ResourceRecordSet), records[key]? = some rrset → key.1 ≠ zoneId) :
    ((env.entries (changes.foldl (applyChange zoneId) records)).filter fun entry => entry.1.1 = zoneId).Perm
      (changes.map fun c => (keyOf zoneId c, c.2)) := by
  refine (List.perm_ext_iff_of_nodup ?_ ?_).mpr ?_
  · exact ((env.entries_perm _).nodup_iff.mpr (nodup_toList _)).filter _
  · refine List.Nodup.of_map Prod.fst ?_
    rwa [List.map_map]
  · rintro ⟨key, rrset⟩
    rw [List.mem_filter, (env.entries_perm _).mem_iff, Std.ExtTreeMap.mem_toList_iff_getElem?_eq_some,
      getElem?_upserts zoneId action distinct, decide_eq_true_iff, List.mem_map]
    constructor
    · rintro ⟨⟨c, member, same, found⟩ | ⟨-, stored⟩, inZone⟩
      · exact ⟨c, member, by rw [same, found]⟩
      · exact absurd inZone (none key rrset stored)
    · rintro ⟨c, member, same⟩
      obtain ⟨same, found⟩ := Prod.mk.inj same
      exact ⟨.inl ⟨c, member, same, found⟩, by rw [← same]; rfl⟩

end Upserts

/-! ## The round trip -/

section RoundTrip

variable {changes : List SentChange}

/-- The request that sends the changes. -/
def sending (path : String) (changes : List SentChange) : Request :=
  ⟨path, String.ofList (changeBatchXml changes)⟩

/-- A zone that exists and has no records. -/
structure EmptyZone (store : Route53Store) (zoneId : String) : Prop where
  exists_zone : store.zones.contains zoneId = true
  no_records : ∀ (key : RecordKey) (rrset : ResourceRecordSet), store.records[key]? = some rrset → key.1 ≠ zoneId

/-- After the changes the zone lists just what was sent, in some order. -/
def ListedAsSent (changes : List SentChange) : Prop :=
  ∀ (env : Env) (rid : String) (store : Route53Store) (path : String) (listing : Request),
    EmptyZone store (zoneIdOf path) → zoneIdOf listing.path = zoneIdOf path →
      ∃ order : List SentChange, order.Perm changes ∧
        XmlReader.readDocument (listResourceRecordSets env
          (changeResourceRecordSets rid store (sending path changes)).2 listing).body =
            some (XmlReader.meant (listItems order))

/-- What is sent is read, and what is made of it is listed. -/
structure RoundTrips (changes : List SentChange) : Prop where
  parsed : (parseRrsets (changeBatchXml changes)).map shown = changes
  listed : Upserts changes → ListedAsSent changes

theorem listed_of_fits (fits : ∀ c ∈ changes, c.Fits) (upserts : Upserts changes) : ListedAsSent changes := by
  intro env rid store path listing zone same
  have received : ∀ c ∈ changes, c.received.1 = "UPSERT" ∧
      keyOf (zoneIdOf path) c.received = (zoneIdOf path, c.name, c.recordType) ∧
        upserted (keyOf (zoneIdOf path) c.received, c.received.2) = c := by
    intro c member
    have fit := fits c member
    have isShown := (shown_received_iff c).mpr fit
    have name := (xmlEscape_eq_iff c.name).mpr fit.name
    have recordType := (xmlEscape_eq_iff c.recordType).mpr fit.recordType
    have action := upserts.action c member
    refine ⟨?_, ?_, ?_⟩
    · rw [SentChange.received, action]
      exact (xmlEscape_eq_iff "UPSERT").mpr plainText_constants.2.2
    · simp only [keyOf, SentChange.received, name, recordType]
    · have shape : upserted (keyOf (zoneIdOf path) c.received, c.received.2) =
          { shown c.received with action := "UPSERT" } := rfl
      rw [shape, isShown, ← action]
  have distinct : ((changes.map SentChange.received).map (keyOf (zoneIdOf path))).Nodup := by
    have keys : (changes.map SentChange.received).map (keyOf (zoneIdOf path)) =
        (changes.map fun c => (c.name, c.recordType)).map (Prod.mk (zoneIdOf path)) := by
      rw [List.map_map, List.map_map]
      exact List.map_congr_left fun c member => (received c member).2.1
    rw [keys]
    exact upserts.distinct.map (Prod.mk_right_injective _)
  have action : ∀ c ∈ changes.map SentChange.received, c.1 = "UPSERT" := by
    intro c member
    obtain ⟨sent, listed, rfl⟩ := List.mem_map.mp member
    exact (received sent listed).1
  have entries := entries_upserts (zoneIdOf path) env action distinct zone.no_records
  have read := read_listXml (zoneIdOf path)
    (env.entries ((changes.map SentChange.received).foldl (applyChange (zoneIdOf path)) store.records))
  have body : (listResourceRecordSets env (changeResourceRecordSets rid store (sending path changes)).2
      listing).body = listXml (zoneIdOf path) (env.entries
        ((changes.map SentChange.received).foldl (applyChange (zoneIdOf path)) store.records)) := by
    rw [listResourceRecordSets, same, changeResourceRecordSets, sending]
    simp [zone.exists_zone, String.toList_ofList, parseRrsets_changeBatchXml, xmlOk]
  have sent : (changes.map SentChange.received).map
      (upserted ∘ fun c => (keyOf (zoneIdOf path) c, c.2)) = changes := by
    rw [List.map_map]
    exact (List.map_congr_left fun c member => (received c member).2.2).trans (List.map_id changes)
  have order := entries.map upserted
  rw [List.map_map, sent] at order
  exact ⟨_, order, (congrArg XmlReader.readDocument body).trans read⟩

/-- `parse_rrsets` ends on every text, and a batch comes back as it was sent exactly when each of its changes fits. -/
theorem record_round_trip_iff (xml : Text) (changes : List SentChange) :
    (∃ read, ∀ steps, xml.length < steps → changesFrom steps xml = some read) ∧
      (RoundTrips changes ↔ ∀ c ∈ changes, c.Fits) := by
  refine ⟨⟨parseRrsets xml, fun steps enough => changesFrom_eq enough⟩, ?_, ?_⟩
  · exact fun trips => (parse_sent_iff changes).mp trips.parsed
  · exact fun fits => ⟨(parse_sent_iff changes).mpr fits, listed_of_fits fits⟩

/-- The value of a TXT record, in quotes. -/
def textRecord : SentChange where
  action := "UPSERT"
  name := "example.com."
  recordType := "TXT"
  ttl := "300"
  values := ["\"v=spf1\""]

theorem text_record_escaped : ¬ RoundTrips [textRecord] := by
  intro trips
  have fits := (parse_sent_iff [textRecord]).mp trips.parsed textRecord (List.mem_singleton_self _)
  have plain := fits.values "\"v=spf1\"" (List.mem_singleton_self _)
  exact plain '"' (by simp) (by simp [xmlSpecials])

end RoundTrip

end Openstack.Route53

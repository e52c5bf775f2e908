import Openstack.S3.NotificationXml

/-!
# Reading the notification document

The texts in the document are escaped, so a search for a tag stops at that tag and nowhere else. What a
configuration reads back as depends on itself alone.
-/
namespace Openstack.S3

open KeywordSearch (Skips skips_nil)
open TagSearch Replacement

theorem extractXmlText_escaped {tag : String} {front : List Char} (isTag : IsTag (closeTag tag))
    (before : Skips (openTag tag) front) (s : String) (rest : List Char) :
    extractXmlText (front ++ (element tag (xmlEscape s) ++ rest)) tag = some s.toList := by
  have plain : Skips (closeTag tag) (xmlEscape s) := skips_text isTag (escaped_plain _)
  rw [extractXmlText_element before plain, xmlEscape, unescapeXml_escapeXml]

/-- A destination type with the tags of its configurations and of their ARNs. -/
def notificationKinds : List (String × String × String) :=
  [("sqs", "QueueConfiguration", "Queue"), ("sns", "TopicConfiguration", "Topic"),
    ("lambda", "CloudFunctionConfiguration", "CloudFunction")]

/-- The tags in a block. -/
def blockTags (arnTag : String) : List (List Char) :=
  ["Id", arnTag, "Event", "Filter", "S3Key", "FilterRule", "Name", "Value"].flatMap tagsOf

theorem configTags_of_kind : ∀ k ∈ notificationKinds, configTags k.1 = k.2 := by decide

theorem isTag_of_mem_blockTags : ∀ k ∈ notificationKinds, ∀ t ∈ blockTags k.2.2, IsTag t := by
  decide +kernel

theorem blockTags_apart : ∀ k ∈ notificationKinds, ∀ t ∈ tagsOf k.2.1,
    IsTag t ∧ ∀ k' ∈ notificationKinds, t ∉ blockTags k'.2.2 := by
  decide +kernel

section Skipping

variable {k : String × String × String} (kind : k ∈ notificationKinds) {pat : List Char}
  (isTag : IsTag pat)

include kind isTag

/-- An element that may stand in a block. -/
theorem skips_blockElement {tag : String}
    (listed : tag ∈ ["Id", k.2.2, "Event", "Filter", "S3Key", "FilterRule", "Name", "Value"])
    (other : pat ∉ tagsOf tag) {content : List Char} (inside : Skips pat content) :
    Skips pat (element tag content) := by
  refine skips_element isTag (fun t member => ?_) other inside
  exact isTag_of_mem_blockTags k kind t (List.mem_flatMap.mpr ⟨tag, listed, member⟩)

theorem skips_escaped {tag : String}
    (listed : tag ∈ ["Id", k.2.2, "Event", "Filter", "S3Key", "FilterRule", "Name", "Value"])
    (other : pat ∉ tagsOf tag) (s : String) : Skips pat (element tag (xmlEscape s)) :=
  skips_blockElement kind isTag listed other (skips_text isTag (escaped_plain _))

theorem skips_filterRules (other : ∀ tag ∈ ["FilterRule", "Name", "Value"], pat ∉ tagsOf tag)
    (pfx sfx : Option String) : Skips pat (filterRulesXml xmlEscape pfx sfx) := by
  have rule : ∀ name value : String, '<' ∉ name.toList →
      Skips pat (filterRuleXml name (xmlEscape value)) := by
    intro name value plain
    apply skips_blockElement kind isTag (by simp) (other "FilterRule" (by simp))
    apply Skips.append
    · exact skips_blockElement kind isTag (by simp) (other "Name" (by simp)) (skips_text isTag plain)
    · exact skips_escaped kind isTag (by simp) (other "Value" (by simp)) value
  apply Skips.append
  · cases pfx with
    | none => exact skips_nil
    | some p => exact rule "prefix" p (by decide)
  · cases sfx with
    | none => exact skips_nil
    | some s => exact rule "suffix" s (by decide)

theorem skips_filterXml
    (other : ∀ tag ∈ ["Filter", "S3Key", "FilterRule", "Name", "Value"], pat ∉ tagsOf tag)
    (nc : NotificationConfig) : Skips pat nc.filterXml := by
  unfold NotificationConfig.filterXml
  split
  · apply skips_blockElement kind isTag (by simp) (other "Filter" (by simp))
    apply skips_blockElement kind isTag (by simp) (other "S3Key" (by simp))
    refine skips_filterRules kind isTag (fun tag listed => other tag ?_) _ _
    exact List.mem_cons_of_mem _ (List.mem_cons_of_mem _ listed)
  · exact skips_nil

theorem skips_eventsXml (other : pat ∉ tagsOf "Event") (nc : NotificationConfig) :
    Skips pat nc.eventsXml :=
  skips_flatMap fun ev _ => skips_escaped kind isTag (by simp) other ev

/-- The tags of a configuration around them and those of other kinds are not in a block. -/
theorem skips_blockXml (other : pat ∉ blockTags k.2.2) {nc : NotificationConfig}
    (type : nc.destinationType = k.1) : Skips pat nc.blockXml := by
  have apart : ∀ tag ∈ ["Id", k.2.2, "Event", "Filter", "S3Key", "FilterRule", "Name", "Value"],
      pat ∉ tagsOf tag := fun tag listed member =>
    other (List.mem_flatMap.mpr ⟨tag, listed, member⟩)
  have arn : (configTags nc.destinationType).2 = k.2.2 := by rw [type, configTags_of_kind k kind]
  unfold NotificationConfig.blockXml
  rw [arn]
  apply Skips.append
  · exact skips_escaped kind isTag (by simp) (apart "Id" (by simp)) nc.id
  · apply Skips.append
    · exact skips_escaped kind isTag (by simp) (apart k.2.2 (by simp)) nc.destinationArn
    · apply Skips.append (skips_eventsXml kind isTag (apart "Event" (by simp)) nc)
      refine skips_filterXml kind isTag (fun tag listed => apart tag ?_) nc
      simp only [List.mem_cons, List.not_mem_nil, or_false] at listed ⊢
      rcases listed with rfl | rfl | rfl | rfl | rfl <;> simp

end Skipping

/-- Which searches in a block pass which elements. -/
theorem blockTags_distinct : ∀ k ∈ notificationKinds,
    openTag k.2.2 ∉ tagsOf "Id" ∧ (∀ tag ∈ ["Id", k.2.2], openTag "Event" ∉ tagsOf tag) ∧
      ∀ tag ∈ ["Id", k.2.2, "Event"], openTag "Filter" ∉ tagsOf tag := by
  decide +kernel

section Block

variable {k : String × String × String} (kind : k ∈ notificationKinds) {nc : NotificationConfig}
  (type : nc.destinationType = k.1)

include kind type

theorem blockXml_eq : nc.blockXml = element "Id" (xmlEscape nc.id) ++
    (element k.2.2 (xmlEscape nc.destinationArn) ++ (nc.eventsXml ++ nc.filterXml)) := by
  rw [NotificationConfig.blockXml, type, configTags_of_kind k kind]

theorem extractXmlText_id : extractXmlText nc.blockXml "Id" = some nc.id.toList := by
  have isTag : IsTag (closeTag "Id") := by decide
  have found := extractXmlText_escaped isTag skips_nil nc.id
    (element k.2.2 (xmlEscape nc.destinationArn) ++ (nc.eventsXml ++ nc.filterXml))
  rw [blockXml_eq kind type]
  exact found

theorem extractXmlText_arn :
    extractXmlText nc.blockXml k.2.2 = some nc.destinationArn.toList := by
  have tags : ∀ t ∈ tagsOf k.2.2, IsTag t := fun t member =>
    isTag_of_mem_blockTags k kind t (List.mem_flatMap.mpr ⟨k.2.2, by simp, member⟩)
  have front : Skips (openTag k.2.2) (element "Id" (xmlEscape nc.id)) :=
    skips_escaped kind (tags _ (by simp [tagsOf])) (by simp) (blockTags_distinct k kind).1 nc.id
  rw [blockXml_eq kind type]
  exact extractXmlText_escaped (tags _ (by simp [tagsOf])) front nc.destinationArn _

/-- The text of the filter, once the reader has unescaped it. -/
theorem extractXmlText_filter : extractXmlText nc.blockXml "Filter" =
    if nc.prefixFilter.isSome || nc.suffixFilter.isSome then
      some (unescapeXml
        (element "S3Key" (filterRulesXml xmlEscape nc.prefixFilter nc.suffixFilter)))
    else none := by
  have isTag : IsTag (openTag "Filter") := by decide
  have isTag' : IsTag (closeTag "Filter") := by decide
  obtain ⟨_, _, apart⟩ := blockTags_distinct k kind
  have front : Skips (openTag "Filter") (element "Id" (xmlEscape nc.id) ++
      (element k.2.2 (xmlEscape nc.destinationArn) ++ nc.eventsXml)) := by
    apply Skips.append (skips_escaped kind isTag (by simp) (apart "Id" (by simp)) nc.id)
    apply Skips.append (skips_escaped kind isTag (by simp) (apart k.2.2 (by simp)) nc.destinationArn)
    exact skips_eventsXml kind isTag (apart "Event" (by simp)) nc
  have inside : Skips (closeTag "Filter")
      (element "S3Key" (filterRulesXml xmlEscape nc.prefixFilter nc.suffixFilter)) := by
    apply skips_blockElement kind isTag' (by simp) (by decide)
    exact skips_filterRules kind isTag' (by decide) _ _
  have regroup : nc.blockXml = (element "Id" (xmlEscape nc.id) ++
      (element k.2.2 (xmlEscape nc.destinationArn) ++ nc.eventsXml)) ++ nc.filterXml := by
    rw [blockXml_eq kind type, List.append_assoc, List.append_assoc]
  rw [regroup, NotificationConfig.filterXml]
  split
  · have found := extractXmlText_element front inside []
    rw [List.append_nil] at found
    exact found
  · rw [List.append_nil]
    exact extractXmlText_eq_none front

end Block

/-- The texts of the events as they are read back, trimmed and not unescaped. -/
theorem parseEvents_eventsXml {front tail : List Char} (before : Skips (openTag "Event") front)
    (after : Skips (openTag "Event") tail) {events : List String} {fuel : Nat}
    (enough : events.length < fuel) :
    parseEvents fuel
        (front ++ ((events.flatMap fun ev => element "Event" (xmlEscape ev)) ++ tail)) =
      events.map fun ev => String.ofList (RustStr.trim (xmlEscape ev)) := by
  have opening : "<Event>".toList = openTag "Event" := by decide
  have closing : "</Event>".toList = closeTag "Event" := by decide
  induction events generalizing front fuel with
  | nil =>
    obtain ⟨fuel, rfl⟩ : ∃ n, fuel = n + 1 := ⟨fuel - 1, by simp at enough; omega⟩
    rw [List.flatMap_nil, List.nil_append, parseEvents, opening,
      after_of_skips (openTag_ne_nil _) (before.append after)]
    rfl
  | cons ev events ih =>
    rw [List.length_cons] at enough
    obtain ⟨fuel, rfl⟩ : ∃ n, fuel = n + 1 := ⟨fuel - 1, by omega⟩
    obtain ⟨others, more⟩ : ∃ others,
        (events.flatMap fun ev => element "Event" (xmlEscape ev)) ++ tail = others := ⟨_, rfl⟩
    have text : front ++ (((ev :: events).flatMap fun ev => element "Event" (xmlEscape ev)) ++ tail) =
        front ++ (openTag "Event" ++ (xmlEscape ev ++ (closeTag "Event" ++ others))) := by
      rw [List.flatMap_cons, List.append_assoc, more, element, List.append_assoc, List.append_assoc]
    have plain : Skips (closeTag "Event") (xmlEscape ev) :=
      skips_text (by decide) (escaped_plain _)
    have next : Skips (openTag "Event") (closeTag "Event") :=
      skips_tag (by decide) (by decide) (by decide)
    have rest := ih next (Nat.lt_of_succ_lt_succ enough)
    rw [more] at rest
    rw [text, parseEvents, opening, closing, after_skips before, after_keyword (openTag_ne_nil _)]
    simp [plain.before_keyword others (closeTag_ne_nil _), rest]

theorem unescapeXml_append_lt (a b : List Char) :
    unescapeXml (a ++ '<' :: b) = unescapeXml a ++ '<' :: unescapeXml b := by
  have step : ∀ (pat : List Char) (repl a b : List Char), pat ≠ [] → '<' ∉ pat →
      RustStr.replace pat repl (a ++ '<' :: b) =
        RustStr.replace pat repl a ++ '<' :: RustStr.replace pat repl b := by
    intro pat repl a b nonempty absent
    exact replaceFrom_append_cons nonempty absent repl (Nat.zero_le _)
  unfold unescapeXml
  simp only [List.foldl_cons, List.foldl_nil]
  rw [step _ _ a b (by decide) (by decide), step _ _ _ _ (by decide) (by decide),
    step _ _ _ _ (by decide) (by decide), step _ _ _ _ (by decide) (by decide),
    step _ _ _ _ (by decide) (by decide)]

theorem unescapeXml_append_plain {front : List Char} (plain : '&' ∉ front) (rest : List Char) :
    unescapeXml (front ++ rest) = front ++ unescapeXml rest := by
  have step : ∀ pat repl rest : List Char, pat.head? = some '&' →
      RustStr.replace pat repl (front ++ rest) = front ++ RustStr.replace pat repl rest := by
    intro pat repl rest first
    cases pat with
    | nil => cases first
    | cons p ps =>
      obtain rfl : p = '&' := by simpa using first
      exact replace_plain plain ps repl rest
  unfold unescapeXml
  simp only [List.foldl_cons, List.foldl_nil]
  rw [step _ _ rest (by decide), step _ _ _ (by decide), step _ _ _ (by decide),
    step _ _ _ (by decide), step _ _ _ (by decide)]

/-- What stands before the value of a rule. -/
def ruleStart (name : String) : List Char :=
  openTag "FilterRule" ++ (element "Name" name.toList ++ openTag "Value")

/-- What stands after it. -/
def ruleEnd : List Char := closeTag "Value" ++ closeTag "FilterRule"

theorem filterRuleXml_eq (name : String) (value : List Char) :
    filterRuleXml name value = ruleStart name ++ (value ++ ruleEnd) := by
  simp [filterRuleXml, ruleStart, ruleEnd, element]

theorem unescapeXml_rule {name : String} (plain : '&' ∉ name.toList) (value : String)
    (rest : List Char) : unescapeXml (filterRuleXml name (xmlEscape value) ++ rest) =
      filterRuleXml name value.toList ++ unescapeXml rest := by
  have start : '&' ∉ ruleStart name := by
    simp only [ruleStart, element, List.mem_append, not_or]
    exact ⟨by decide, ⟨by decide, plain, by decide⟩, by decide⟩
  obtain ⟨after, finish⟩ : ∃ after, ruleEnd = '<' :: after := ⟨ruleEnd.tail, by decide⟩
  have last : '&' ∉ after := by
    have none : '&' ∉ ruleEnd := by decide
    rw [finish] at none
    exact fun member => none (List.mem_cons_of_mem _ member)
  rw [filterRuleXml_eq, filterRuleXml_eq, finish, List.append_assoc, List.append_assoc,
    unescapeXml_append_plain start, List.cons_append, unescapeXml_append_lt, xmlEscape,
    unescapeXml_escapeXml, unescapeXml_append_plain last]
  simp

/-- What the reader searches for the filters. -/
def filterBlock (pfx sfx : Option String) : List Char :=
  element "S3Key" (filterRulesXml String.toList pfx sfx)

theorem unescapeXml_filter (pfx sfx : Option String) :
    unescapeXml (element "S3Key" (filterRulesXml xmlEscape pfx sfx)) = filterBlock pfx sfx := by
  have start : '&' ∉ openTag "S3Key" := by decide
  have finish : unescapeXml (closeTag "S3Key") = closeTag "S3Key" := by decide
  have rules : ∀ rest, unescapeXml (filterRulesXml xmlEscape pfx sfx ++ rest) =
      filterRulesXml String.toList pfx sfx ++ unescapeXml rest := by
    intro rest
    cases pfx with
    | none =>
      cases sfx with
      | none => rfl
      | some s =>
        simp only [filterRulesXml, Option.elim_none, Option.elim_some, List.nil_append]
        exact unescapeXml_rule (by decide) s rest
    | some p =>
      cases sfx with
      | none =>
        simp only [filterRulesXml, Option.elim_none, Option.elim_some, List.append_nil]
        exact unescapeXml_rule (by decide) p rest
      | some s =>
        simp only [filterRulesXml, Option.elim_some, List.append_assoc]
        rw [unescapeXml_rule (by decide), unescapeXml_rule (by decide)]
  rw [filterBlock, element, element, unescapeXml_append_plain start, rules, finish]

/-- A filter after it has been written and read. -/
def rereadFilter (pfx sfx : Option String) (name : String) : Option String :=
  if pfx.isSome || sfx.isSome then (findFilterRule (filterBlock pfx sfx) name).map String.ofList
  else none

/-- A configuration after it has been written and read. -/
def NotificationConfig.reread (nc : NotificationConfig) : NotificationConfig :=
  { nc with
    events := nc.events.map fun ev => String.ofList (RustStr.trim (xmlEscape ev))
    prefixFilter := rereadFilter nc.prefixFilter nc.suffixFilter "prefix"
    suffixFilter := rereadFilter nc.prefixFilter nc.suffixFilter "suffix" }

section Document

variable {k : String × String × String} (kind : k ∈ notificationKinds)

include kind

theorem parseBlock_blockXml (uuid : String) {nc : NotificationConfig} (type : nc.destinationType = k.1) :
    parseBlock uuid k.2.2 k.1 nc.blockXml = nc.reread := by
  obtain ⟨_, event, _⟩ := blockTags_distinct k kind
  have isTag : IsTag (openTag "Event") := by decide
  have front : Skips (openTag "Event") (element "Id" (xmlEscape nc.id) ++
      element k.2.2 (xmlEscape nc.destinationArn)) := by
    apply Skips.append
    · exact skips_escaped kind isTag (by simp) (event "Id" (by simp)) nc.id
    · exact skips_escaped kind isTag (by simp) (event k.2.2 (by simp)) nc.destinationArn
  have regroup : nc.blockXml = (element "Id" (xmlEscape nc.id) ++
      element k.2.2 (xmlEscape nc.destinationArn)) ++ (nc.eventsXml ++ nc.filterXml) := by
    rw [blockXml_eq kind type, List.append_assoc]
  have long : nc.events.length < nc.blockXml.length := by
    have events := length_le_flatMap (fun ev => element_ne_nil "Event" (xmlEscape ev)) nc.events
    have id := List.length_pos_iff.mpr (element_ne_nil "Id" (xmlEscape nc.id))
    rw [regroup, NotificationConfig.eventsXml]
    simp only [List.length_append] at events ⊢
    omega
  have events : parseEvents nc.blockXml.length nc.blockXml =
      nc.events.map fun ev => String.ofList (RustStr.trim (xmlEscape ev)) := by
    have read := parseEvents_eventsXml front (skips_filterXml kind isTag (by decide) nc) long
    rw [← NotificationConfig.eventsXml, ← regroup] at read
    exact read
  have filters : ∀ name, filterOf nc.blockXml name =
      rereadFilter nc.prefixFilter nc.suffixFilter name := by
    intro name
    rw [filterOf, extractXmlText_filter kind type, unescapeXml_filter, rereadFilter]
    split <;> rfl
  unfold parseBlock NotificationConfig.reread
  rw [extractXmlText_id kind type, extractXmlText_arn kind type, events, filters, filters, type]
  simp

end Document

/-- What the configurations have in common that are read from a document. -/
structure NotificationConfig.WellFormed (nc : NotificationConfig) : Prop where
  kind : ∃ k ∈ notificationKinds, nc.destinationType = k.1
  arn : nc.destinationArn ≠ ""
  events : ∀ ev ∈ nc.events, RustStr.trim ev.toList = ev.toList

/-- The tags of one kind of configuration stand nowhere else. -/
theorem configTags_apart : ∀ k ∈ notificationKinds,
    IsTag (openTag k.2.1) ∧ openTag k.2.1 ≠ closeTag k.2.1 ∧
    RustStr.before (openTag k.2.1) documentStart = none ∧
    RustStr.before (openTag k.2.1) documentEnd = none ∧
    ∀ k' ∈ notificationKinds, k' = k ∨ k'.1 ≠ k.1 ∧ openTag k.2.1 ∉ tagsOf k'.2.1 := by
  decide +kernel

theorem documentEnds : documentStart.getLast? = some '>' ∧ documentEnd.getLast? = some '>' := by
  decide +kernel

/-- The blocks of one kind, in the order of the document. -/
theorem parseConfigsFrom_document {k : String × String × String} (kind : k ∈ notificationKinds)
    {configs : List NotificationConfig} (valid : ∀ nc ∈ configs, nc.WellFormed)
    {front : List Char} (before : Skips (openTag k.2.1) front) (uuids : Nat → String) {fuel : Nat}
    (enough : configs.length < fuel) :
    parseConfigsFrom k.2.1 k.2.2 k.1 uuids fuel
        (front ++ (configs.flatMap (·.toXml) ++ documentEnd)) =
      (configs.filter (·.destinationType = k.1)).map (·.reread) := by
  obtain ⟨isTag, apart, _, noEnd, others⟩ := configTags_apart k kind
  obtain ⟨closing, inBlock⟩ := blockTags_apart k kind (closeTag k.2.1) (by simp [tagsOf])
  obtain ⟨_, notInBlock⟩ := blockTags_apart k kind (openTag k.2.1) (by simp [tagsOf])
  induction configs generalizing front uuids fuel with
  | nil =>
    obtain ⟨fuel, rfl⟩ : ∃ n, fuel = n + 1 := ⟨fuel - 1, by simp at enough; omega⟩
    have last := skips_of_gt isTag documentEnds.2 noEnd
    rw [List.flatMap_nil, List.nil_append, parseConfigsFrom,
      after_of_skips (openTag_ne_nil _) (before.append last)]
    rfl
  | cons nc configs ih =>
    obtain ⟨here, rest⟩ := List.forall_mem_cons.mp valid
    rw [List.length_cons] at enough
    obtain ⟨later, more⟩ : ∃ later, configs.flatMap (·.toXml) ++ documentEnd = later := ⟨_, rfl⟩
    obtain ⟨k', kind', type⟩ := here.kind
    rcases others k' kind' with rfl | ⟨otherType, otherTag⟩
    · -- a block of this kind
      obtain ⟨fuel, rfl⟩ : ∃ n, fuel = n + 1 := ⟨fuel - 1, by omega⟩
      have outer : (configTags nc.destinationType).1 = k'.2.1 := by
        rw [type, configTags_of_kind k' kind']
      have text : front ++ ((nc :: configs).flatMap (·.toXml) ++ documentEnd) =
          front ++ (openTag k'.2.1 ++ (nc.blockXml ++ (closeTag k'.2.1 ++ later))) := by
        rw [List.flatMap_cons, List.append_assoc, more, NotificationConfig.toXml, outer, element,
          List.append_assoc, List.append_assoc]
      have block := (skips_blockXml kind' closing (inBlock k' kind') type).before_keyword later
        (closeTag_ne_nil _)
      have tail := ih rest (skips_tag isTag closing apart) (fun n => uuids (n + 1))
        (Nat.lt_of_succ_lt_succ enough)
      rw [more] at tail
      have arn : nc.reread.destinationArn ≠ "" := here.arn
      rw [text, parseConfigsFrom, after_skips before, after_keyword (openTag_ne_nil _)]
      simp [block, tail, parseBlock_blockXml kind' _ type, if_pos arn, type]
    · -- a block of another kind is passed over
      have outer : (configTags nc.destinationType).1 = k'.2.1 := by
        rw [type, configTags_of_kind k' kind']
      have tags : ∀ t ∈ tagsOf k'.2.1, IsTag t := fun t member => (blockTags_apart k' kind' t member).1
      have skipped : Skips (openTag k.2.1) nc.toXml := by
        rw [NotificationConfig.toXml, outer]
        exact skips_element isTag tags otherTag (skips_blockXml kind' isTag (notInBlock k' kind') type)
      have text : front ++ ((nc :: configs).flatMap (·.toXml) ++ documentEnd) =
          (front ++ nc.toXml) ++ (configs.flatMap (·.toXml) ++ documentEnd) := by
        rw [List.flatMap_cons, List.append_assoc, List.append_assoc]
      have dropped : decide (nc.destinationType = k.1) = false := by
        rw [type]
        exact decide_eq_false otherType
      rw [text, ih rest (before.append skipped) uuids (by omega), List.filter_cons, dropped]
      rfl

/-- The configurations of a document, each reread, the kinds one after the other. -/
theorem parseDocument_notificationXml (uuids : String → Nat → String)
    {configs : List NotificationConfig} (valid : ∀ nc ∈ configs, nc.WellFormed) :
    parseDocument uuids (notificationXml configs) =
      (configs.filter (·.destinationType = "sqs")).map (·.reread) ++
        ((configs.filter (·.destinationType = "sns")).map (·.reread) ++
          (configs.filter (·.destinationType = "lambda")).map (·.reread)) := by
  have long : configs.length < (notificationXml configs).length := by
    have some : ∀ nc : NotificationConfig, nc.toXml ≠ [] := by
      intro nc
      rw [NotificationConfig.toXml]
      exact element_ne_nil _ _
    have blocks : configs.length ≤ (configs.flatMap (·.toXml)).length :=
      length_le_flatMap some configs
    have start : 0 < documentStart.length := by decide +kernel
    simp only [notificationXml, List.length_append]
    omega
  have read : ∀ k ∈ notificationKinds, ∀ draws : Nat → String,
      parseNotificationConfigs draws (notificationXml configs) k.2.1 k.2.2 k.1 =
        (configs.filter (·.destinationType = k.1)).map (·.reread) := by
    intro k kind draws
    obtain ⟨isTag, _, noStart, _⟩ := configTags_apart k kind
    exact parseConfigsFrom_document kind valid (skips_of_gt isTag documentEnds.1 noStart) draws long
  rw [parseDocument, read ("sqs", "QueueConfiguration", "Queue") (by simp [notificationKinds]),
    read ("sns", "TopicConfiguration", "Topic") (by simp [notificationKinds]),
    read ("lambda", "CloudFunctionConfiguration", "CloudFunction") (by simp [notificationKinds])]

end Openstack.S3

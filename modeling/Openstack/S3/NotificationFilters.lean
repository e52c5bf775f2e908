import Openstack.S3.NotificationReading

/-!
# Filters in the notification document

The reader unescapes the whole filter before it looks for the rules in it, and then the value once more.
So the tags in a value count as tags, and a value comes back if it has none of those that end a value or
a rule and no entity. Otherwise the filters that are read are shorter than those that were written.
-/
namespace Openstack.S3

open KeywordSearch (Skips skips_nil)
open TagSearch Replacement

/-- The entities that `unescape_xml` knows, with what it writes for them. -/
def xmlEntities : List (String × String) :=
  [("&lt;", "<"), ("&gt;", ">"), ("&apos;", "'"), ("&quot;", "\""), ("&amp;", "&")]

/-- A text without entities stays as it is, another one gets shorter. -/
theorem unescapeXml_eq_or_shorter (s : List Char) :
    (∀ e ∈ xmlEntities, RustStr.contains s e.1.toList = false) ∧ unescapeXml s = s ∨
      (¬ ∀ e ∈ xmlEntities, RustStr.contains s e.1.toList = false) ∧
        (unescapeXml s).length < s.length :=
  foldl_replace_eq_or_shorter (by decide) s

theorem length_unescapeXml_le (s : List Char) : (unescapeXml s).length ≤ s.length := by
  rcases unescapeXml_eq_or_shorter s with ⟨_, same⟩ | ⟨_, less⟩
  · rw [same]
  · exact Nat.le_of_lt less

theorem filterTags : "<FilterRule>".toList = openTag "FilterRule" ∧
    "</FilterRule>".toList = closeTag "FilterRule" := by decide

theorem findRuleFrom_enough (name : String) {fuel : Nat} {text : List Char}
    (enough : text.length ≤ fuel) : findRuleFrom name fuel text = findFilterRule text name := by
  induction fuel using Nat.strong_induction_on generalizing text with
  | _ fuel ih =>
    cases text with
    | nil =>
      cases fuel with
      | zero => rfl
      | succ fuel => rfl
    | cons c more =>
      obtain ⟨fuel, rfl⟩ : ∃ n, fuel = n + 1 := ⟨fuel - 1, by simp at enough; omega⟩
      rw [List.length_cons] at enough
      rw [findFilterRule, List.length_cons, findRuleFrom, findRuleFrom]
      cases start : RustStr.after "<FilterRule>".toList (c :: more) with
      | none => rfl
      | some rest =>
        have shorter := length_after start
        have tag : "<FilterRule>".toList.length = 12 := by decide
        rw [tag, List.length_cons] at shorter
        simp only
        split
        · rfl
        · have bound : (rest.drop ((RustStr.before "</FilterRule>".toList rest).getD rest).length).length ≤
              more.length := by
            rw [List.length_drop]
            omega
          rw [ih fuel (Nat.lt_succ_self _) (bound.trans (Nat.le_of_succ_le_succ enough)),
            ih more.length (by omega) bound]

/-- One round of the search. -/
theorem findFilterRule_eq (text : List Char) (name : String) : findFilterRule text name =
    match RustStr.after (openTag "FilterRule") text with
    | none => none
    | some rest =>
      let rule := (RustStr.before (closeTag "FilterRule") rest).getD rest
      if namesRule rule name then extractXmlText rule "Value"
      else findFilterRule (rest.drop rule.length) name := by
  rw [← findRuleFrom_enough name (Nat.le_succ text.length), findRuleFrom, filterTags.1, filterTags.2]
  cases start : RustStr.after (openTag "FilterRule") text with
  | none => rfl
  | some rest =>
    have shorter := length_after start
    simp only
    rw [findRuleFrom_enough]
    rw [List.length_drop]
    omega

/-- One round on a text with a rule. -/
theorem findFilterRule_step {text start rule : List Char}
    (found : RustStr.after (openTag "FilterRule") text = some start)
    (ends : (RustStr.before (closeTag "FilterRule") start).getD start = rule) (name : String) :
    findFilterRule text name =
      if namesRule rule name then extractXmlText rule "Value"
      else findFilterRule (start.drop rule.length) name := by
  subst ends
  rw [findFilterRule_eq, found]

theorem findFilterRule_of_skips {front : List Char} (skips : Skips (openTag "FilterRule") front)
    (text : List Char) (name : String) :
    findFilterRule (front ++ text) name = findFilterRule text name := by
  rw [findFilterRule_eq, findFilterRule_eq text, after_skips skips]

/-- The characters of a filter, and one for the filter itself. -/
def weight (value : Option (List Char)) : Nat := value.elim 0 fun v => v.length + 1

theorem weight_extractXmlText_le (text : List Char) (tag : String) :
    weight (extractXmlText text tag) ≤ text.length := by
  unfold extractXmlText
  cases start : RustStr.after ("<" ++ tag ++ ">").toList text with
  | none => exact Nat.zero_le _
  | some rest =>
    rw [Option.bind_some]
    cases finish : RustStr.before ("</" ++ tag ++ ">").toList rest with
    | none => exact Nat.zero_le _
    | some value =>
      have first := length_after start
      have short := (RustStr.before_isPrefix finish).length_le
      have tags : 0 < ("<" ++ tag ++ ">").toList.length := by simp
      have less := length_unescapeXml_le value
      simp only [Option.map_some, weight, Option.elim_some, List.length_append] at *
      omega

theorem closeRule_lt : closeTag "FilterRule" = '<' :: "/FilterRule>".toList := by decide

/-- What is found up to a closing tag is found in the text before it; otherwise the search goes on
after the tag. -/
theorem findFilterRule_split (name : String) (text rest : List Char) :
    findFilterRule (text ++ (closeTag "FilterRule" ++ rest)) name = findFilterRule rest name ∨
      weight (findFilterRule (text ++ (closeTag "FilterRule" ++ rest)) name) ≤ text.length := by
  have opening : IsTag (openTag "FilterRule") := by decide
  have closing : IsTag (closeTag "FilterRule") := by decide
  have pass : Skips (openTag "FilterRule") (closeTag "FilterRule") :=
    skips_tag opening closing (by decide)
  induction n : text.length using Nat.strong_induction_on generalizing text with
  | _ _ ih =>
    subst n
    cases found : RustStr.after (openTag "FilterRule") text with
    | none =>
      have absent : RustStr.before (openTag "FilterRule") text = none := by
        simpa [RustStr.after] using found
      have skips : Skips (openTag "FilterRule") (text ++ closeTag "FilterRule") := by
        apply skips_of_gt opening
        · rw [List.getLast?_append_of_ne_nil _ closing.ne_nil]
          decide
        · have none : RustStr.before (openTag "FilterRule") (closeTag "FilterRule") = none := by decide
          rw [closeRule_lt] at none ⊢
          rw [before_append_lt opening, absent, none]
          rfl
      left
      rw [← List.append_assoc, findFilterRule_of_skips skips]
    | some more =>
      have shorter := length_after found
      have start := after_append found (closeTag "FilterRule" ++ rest)
      have ends := before_append_tag closing more rest
      cases inner : RustStr.before (closeTag "FilterRule") more with
      | none =>
        rw [inner, Option.none_or] at ends
        rw [findFilterRule_step start (congrArg (Option.getD · _) ends), Option.getD_some,
          List.drop_left, findFilterRule_of_skips pass]
        by_cases named : namesRule more name = true
        · right
          have bound := weight_extractXmlText_le more "Value"
          rw [if_pos named]
          omega
        · left
          rw [if_neg named]
      | some q =>
        obtain ⟨r, whole, _⟩ := exists_after inner
        have lengths := congrArg List.length whole
        simp only [List.length_append] at lengths
        have next : (more ++ (closeTag "FilterRule" ++ rest)).drop q.length =
            closeTag "FilterRule" ++ (r ++ (closeTag "FilterRule" ++ rest)) := by
          rw [whole, List.append_assoc, List.drop_left, List.append_assoc]
        rw [inner, Option.some_or] at ends
        rw [findFilterRule_step start (congrArg (Option.getD · _) ends), Option.getD_some, next,
          findFilterRule_of_skips pass]
        by_cases named : namesRule q name = true
        · right
          have bound := weight_extractXmlText_le q "Value"
          rw [if_pos named]
          omega
        · have positive : 0 < (closeTag "FilterRule").length := by decide
          rw [if_neg named]
          rcases ih r.length (by omega) r rfl with same | small
          · exact .inl same
          · exact .inr (by omega)

/-- A filter that the reader does not mistake for something else. -/
structure PlainFilter (p : String) : Prop where
  entities : ∀ e ∈ xmlEntities, RustStr.contains p.toList e.1.toList = false
  valueTag : RustStr.contains p.toList (closeTag "Value") = false
  ruleTag : RustStr.contains p.toList (closeTag "FilterRule") = false

def filterNames : List String := ["prefix", "suffix"]

theorem namesRule_of_name : ∀ n ∈ filterNames, ∀ m ∈ filterNames,
    RustStr.eqIgnoreAsciiCase (String.ofList (RustStr.trim n.toList)) m = decide (n = m) ∧
      unescapeXml n.toList = n.toList ∧ '<' ∉ n.toList := by
  decide +kernel

section Rule

variable {n m : String} (named : n ∈ filterNames)

include named

theorem namesRule_rule (other : m ∈ filterNames) (content : List Char) :
    namesRule (element "Name" n.toList ++ content) m = decide (n = m) := by
  obtain ⟨same, plain, noTag⟩ := namesRule_of_name n named m other
  have inside : Skips (closeTag "Name") n.toList := skips_text (by decide) noTag
  have found := extractXmlText_element skips_nil inside content
  rw [List.nil_append] at found
  rw [namesRule, found, plain, Option.any_some, same]

/-- The value of a rule ends at the first tag that closes it. -/
theorem extractXmlText_value (content : List Char) :
    extractXmlText (element "Name" n.toList ++ (openTag "Value" ++ content)) "Value" =
      (RustStr.before (closeTag "Value") content).map unescapeXml := by
  obtain ⟨_, _, noTag⟩ := namesRule_of_name n named n named
  have isTag : IsTag (openTag "Value") := by decide
  have front : Skips (openTag "Value") (element "Name" n.toList) :=
    skips_element isTag (by decide) (by decide) (skips_text isTag noTag)
  have start : RustStr.after (openTag "Value")
      (element "Name" n.toList ++ (openTag "Value" ++ content)) = some content := by
    rw [after_skips front, after_keyword isTag.ne_nil]
  unfold openTag at start
  rw [extractXmlText, openTag, start, Option.bind_some, closeTag]

theorem extractXmlText_value_end (p : List Char) :
    extractXmlText (element "Name" n.toList ++ (openTag "Value" ++ (p ++ closeTag "Value"))) "Value" =
      ((RustStr.before (closeTag "Value") p).or (some p)).map unescapeXml := by
  have isTag : IsTag (closeTag "Value") := by decide
  have ends := before_append_tag isTag p []
  rw [List.append_nil] at ends
  rw [extractXmlText_value named, ends]

theorem weight_value_le (content : List Char) : weight (extractXmlText
    (element "Name" n.toList ++ (openTag "Value" ++ content)) "Value") ≤ content.length + 1 := by
  rw [extractXmlText_value named]
  cases found : RustStr.before (closeTag "Value") content with
  | none => exact Nat.zero_le _
  | some q =>
    have short := (RustStr.before_isPrefix found).length_le
    have less := length_unescapeXml_le q
    simp only [Option.map_some, weight, Option.elim_some, List.length_append] at *
    omega

/-- The text of the first rule reaches up to the tag that closes a rule, be it in the filter. -/
theorem findFilterRule_first (p : String) (rest : List Char) (name : String) {content : List Char}
    (ends : (RustStr.before (closeTag "FilterRule") p.toList).getD
      (p.toList ++ closeTag "Value") = content) :
    findFilterRule (filterRuleXml n p.toList ++ rest) name =
      if namesRule (element "Name" n.toList ++ (openTag "Value" ++ content)) name then
        extractXmlText (element "Name" n.toList ++ (openTag "Value" ++ content)) "Value"
      else findFilterRule (((p.toList ++ closeTag "Value") ++
        (closeTag "FilterRule" ++ rest)).drop content.length) name := by
  obtain ⟨_, _, noTag⟩ := namesRule_of_name n named n named
  have closing : IsTag (closeTag "FilterRule") := by decide
  obtain ⟨head, front⟩ : ∃ head, element "Name" n.toList ++ openTag "Value" = head := ⟨_, rfl⟩
  have text : filterRuleXml n p.toList ++ rest = openTag "FilterRule" ++
      (head ++ ((p.toList ++ closeTag "Value") ++ (closeTag "FilterRule" ++ rest))) := by
    simp [filterRuleXml, element, ← front]
  have skips : Skips (closeTag "FilterRule") head := by
    rw [← front]
    exact (skips_element closing (by decide) (by decide) (skips_text closing noTag)).append
      (skips_tag closing (by decide) (by decide))
  have start := after_keyword (openTag_ne_nil "FilterRule")
    (head ++ ((p.toList ++ closeTag "Value") ++ (closeTag "FilterRule" ++ rest)))
  have region : (RustStr.before (closeTag "FilterRule")
      (head ++ ((p.toList ++ closeTag "Value") ++ (closeTag "FilterRule" ++ rest)))).getD
        (head ++ ((p.toList ++ closeTag "Value") ++ (closeTag "FilterRule" ++ rest))) =
      head ++ content := by
    rw [skips, before_append_tag closing, before_append_other closing (by decide) (by decide), ← ends]
    cases RustStr.before (closeTag "FilterRule") p.toList <;> rfl
  have whole : element "Name" n.toList ++ (openTag "Value" ++ content) = head ++ content := by
    rw [← List.append_assoc, front]
  have dropped : ∀ later, (head ++ later).drop (head ++ content).length =
      later.drop content.length := by
    intro later
    rw [List.length_append, ← List.drop_drop, List.drop_left]
  rw [text, findFilterRule_step start region, whole, dropped]

/-- The rule of a filter in front of other text: what comes back for the filter and what the search
for the other filter goes on with, or that less comes back than was written. -/
theorem findFilterRule_rule (other : m ∈ filterNames) (differ : n ≠ m) (p : String) (rest : List Char) :
    PlainFilter p ∧ findFilterRule (filterRuleXml n p.toList ++ rest) n = some p.toList ∧
      findFilterRule (filterRuleXml n p.toList ++ rest) m = findFilterRule rest m ∨
    ¬ PlainFilter p ∧
      weight (findFilterRule (filterRuleXml n p.toList ++ rest) n) < p.toList.length + 1 ∧
      weight (findFilterRule (filterRuleXml n p.toList ++ rest) n) +
          weight (findFilterRule (filterRuleXml n p.toList ++ rest) m) <
        p.toList.length + 1 + weight (findFilterRule rest m) := by
  have pass : Skips (openTag "FilterRule") (closeTag "FilterRule") :=
    skips_tag (by decide) (by decide) (by decide)
  cases ruleTag : RustStr.before (closeTag "FilterRule") p.toList with
  | none =>
    have ends : (RustStr.before (closeTag "FilterRule") p.toList).getD
        (p.toList ++ closeTag "Value") = p.toList ++ closeTag "Value" := by rw [ruleTag]; rfl
    have mine := findFilterRule_first named p rest n ends
    have next := findFilterRule_first named p rest m ends
    rw [namesRule_rule named named, decide_eq_true rfl, if_pos rfl,
      extractXmlText_value_end named] at mine
    rw [namesRule_rule named other, decide_eq_false differ, if_neg Bool.false_ne_true,
      List.drop_left, findFilterRule_of_skips pass] at next
    have noRule : RustStr.contains p.toList (closeTag "FilterRule") = false := by
      rw [RustStr.contains, ruleTag]
      rfl
    rw [mine, next]
    cases valueTag : RustStr.before (closeTag "Value") p.toList with
    | none =>
      have noValue : RustStr.contains p.toList (closeTag "Value") = false := by
        rw [RustStr.contains, valueTag]
        rfl
      rcases unescapeXml_eq_or_shorter p.toList with ⟨none, same⟩ | ⟨some, less⟩
      · left
        refine ⟨⟨none, noValue, noRule⟩, ?_, rfl⟩
        simp [same]
      · right
        refine ⟨fun plain => ?_, ?_, ?_⟩
        · exact some plain.entities
        · simpa [weight] using less
        · simpa [weight] using less
    | some q =>
      -- the value ends in the filter
      have short := (RustStr.before_isPrefix valueTag).length_le
      have less := length_unescapeXml_le q
      have tag : 0 < (closeTag "Value").length := by decide
      rw [List.length_append] at short
      right
      refine ⟨fun plain => ?_, ?_, ?_⟩
      · have inside := plain.valueTag
        rw [RustStr.contains, valueTag] at inside
        cases inside
      · simp only [Option.some_or, Option.map_some, weight, Option.elim_some]
        omega
      · simp only [Option.some_or, Option.map_some, weight, Option.elim_some]
        omega
  | some q =>
    -- the rule ends in the filter, and what follows may have rules of its own
    obtain ⟨r, whole, _⟩ := exists_after ruleTag
    have lengths := congrArg List.length whole
    have tag : (closeTag "FilterRule").length = 13 := by decide
    have valueTag : (closeTag "Value").length = 8 := by decide
    simp only [List.length_append, tag] at lengths
    have ends : (RustStr.before (closeTag "FilterRule") p.toList).getD
        (p.toList ++ closeTag "Value") = q := by rw [ruleTag]; rfl
    have mine := findFilterRule_first named p rest n ends
    have next := findFilterRule_first named p rest m ends
    have later : ((p.toList ++ closeTag "Value") ++ (closeTag "FilterRule" ++ rest)).drop q.length =
        closeTag "FilterRule" ++ ((r ++ closeTag "Value") ++ (closeTag "FilterRule" ++ rest)) := by
      rw [whole]
      simp
    rw [namesRule_rule named named, decide_eq_true rfl, if_pos rfl] at mine
    rw [namesRule_rule named other, decide_eq_false differ, if_neg Bool.false_ne_true, later,
      findFilterRule_of_skips pass] at next
    have bound := weight_value_le named q
    right
    rw [mine, next]
    refine ⟨fun plain => ?_, by omega, ?_⟩
    · have inside := plain.ruleTag
      rw [RustStr.contains, ruleTag] at inside
      cases inside
    · rcases findFilterRule_split m (r ++ closeTag "Value") rest with same | small
      · rw [same]
        omega
      · rw [List.length_append] at small
        omega

end Rule

theorem findFilterRule_end (name : String) : findFilterRule (closeTag "S3Key") name = none := by
  have skips : Skips (openTag "FilterRule") (closeTag "S3Key") :=
    skips_tag (by decide) (by decide) (by decide)
  have found := findFilterRule_of_skips skips [] name
  rw [List.append_nil] at found
  exact found

/-- The search in the block of the filters starts with the rules. -/
theorem rereadFilter_eq {pfx sfx : Option String} (some : (pfx.isSome || sfx.isSome) = true)
    (name : String) : (rereadFilter pfx sfx name).map String.toList =
      findFilterRule (filterRulesXml String.toList pfx sfx ++ closeTag "S3Key") name := by
  have skips : Skips (openTag "FilterRule") (openTag "S3Key") :=
    skips_tag (by decide) (by decide) (by decide)
  rw [rereadFilter, if_pos some, filterBlock, element, findFilterRule_of_skips skips, Option.map_map]
  simp [Function.comp_def]

theorem eq_of_map_toList {a : Option String} {b : Option String}
    (same : a.map String.toList = b.map String.toList) : a = b :=
  Option.map_injective (fun _ _ => String.toList_inj.mp) same

/-- What two filters come back as: themselves, or less than was written. -/
theorem rereadFilter_cases (pfx sfx : Option String) :
    (∀ p, pfx = some p ∨ sfx = some p → PlainFilter p) ∧
      rereadFilter pfx sfx "prefix" = pfx ∧ rereadFilter pfx sfx "suffix" = sfx ∨
    (¬ ∀ p, pfx = some p ∨ sfx = some p → PlainFilter p) ∧
      weight ((rereadFilter pfx sfx "prefix").map String.toList) +
          weight ((rereadFilter pfx sfx "suffix").map String.toList) <
        weight (pfx.map String.toList) + weight (sfx.map String.toList) := by
  have first : "prefix" ∈ filterNames := by decide
  have second : "suffix" ∈ filterNames := by decide
  cases pfx with
  | none =>
    cases sfx with
    | none => exact .inl ⟨by simp, rfl, rfl⟩
    | some s =>
      have found := @rereadFilter_eq none (some s) rfl
      simp only [filterRulesXml, Option.elim_none, Option.elim_some, List.nil_append] at found
      rcases findFilterRule_rule second first (by decide) s (closeTag "S3Key") with
        ⟨plain, mine, other⟩ | ⟨broken, _, less⟩
      · rw [findFilterRule_end] at other
        refine .inl ⟨by simpa using plain, eq_of_map_toList ?_, eq_of_map_toList ?_⟩
        · rw [found, other, Option.map_none]
        · rw [found, mine, Option.map_some]
      · rw [findFilterRule_end] at less
        refine .inr ⟨by simpa using broken, ?_⟩
        rw [found, found]
        simp only [Option.map_none, Option.map_some, weight, Option.elim_none, Option.elim_some] at *
        omega
  | some p =>
    cases sfx with
    | none =>
      have found := @rereadFilter_eq (some p) none rfl
      simp only [filterRulesXml, Option.elim_none, Option.elim_some, List.append_nil] at found
      rcases findFilterRule_rule first second (by decide) p (closeTag "S3Key") with
        ⟨plain, mine, other⟩ | ⟨broken, _, less⟩
      · rw [findFilterRule_end] at other
        refine .inl ⟨by simpa using plain, eq_of_map_toList ?_, eq_of_map_toList ?_⟩
        · rw [found, mine, Option.map_some]
        · rw [found, other, Option.map_none]
      · rw [findFilterRule_end] at less
        refine .inr ⟨by simpa using broken, ?_⟩
        rw [found, found]
        simp only [Option.map_none, Option.map_some, weight, Option.elim_none, Option.elim_some] at *
        omega
    | some s =>
      have found := @rereadFilter_eq (some p) (some s) rfl
      simp only [filterRulesXml, Option.elim_some, List.append_assoc] at found
      have both : (∀ x, some p = some x ∨ some s = some x → PlainFilter x) ↔
          PlainFilter p ∧ PlainFilter s := by
        simp [or_imp, forall_and]
      rw [both]
      have sfxRule := findFilterRule_rule second first (by decide) s (closeTag "S3Key")
      rcases findFilterRule_rule first second (by decide) p
        (filterRuleXml "suffix" s.toList ++ closeTag "S3Key") with
        ⟨plain, mine, other⟩ | ⟨broken, _, less⟩
      · rcases sfxRule with ⟨plain', mine', _⟩ | ⟨broken', less', _⟩
        · refine .inl ⟨⟨plain, plain'⟩, eq_of_map_toList ?_, eq_of_map_toList ?_⟩
          · rw [found, mine, Option.map_some]
          · rw [found, other, mine', Option.map_some]
        · refine .inr ⟨fun all => broken' all.2, ?_⟩
          rw [found, found, mine, other]
          simp only [Option.map_some, weight, Option.elim_some] at *
          omega
      · refine .inr ⟨fun all => broken all.1, ?_⟩
        rw [found, found]
        rcases sfxRule with ⟨_, mine', _⟩ | ⟨_, less', _⟩
        · rw [mine'] at less
          simp only [Option.map_some, weight, Option.elim_some] at *
          omega
        · simp only [Option.map_some, weight, Option.elim_some] at *
          omega

end Openstack.S3

import Mathlib.Algebra.Order.BigOperators.Group.List
import Openstack.S3.NotificationFilters

/-!
# Notification configurations through their document

A configuration that is stored, written and stored again: events grow by what is escaped in them,
filters shrink by what is unescaped or taken for a tag. So the same configurations come back, in some
order, exactly if neither happens.
-/
namespace Openstack.S3

open TagSearch (closeTag element)

variable {configs : List NotificationConfig} {text : List Char} {store : Notifications}
  {bucket : String}

theorem trim_ends (s : List Char) :
    (∀ c ∈ (RustStr.trim s).head?, RustStr.isWhitespace c = false) ∧
      ∀ c ∈ (RustStr.trim s).getLast?, RustStr.isWhitespace c = false := by
  constructor
  · intro c first
    cases trimmed : RustStr.trim s with
    | nil => simp [trimmed] at first
    | cons d rest =>
      obtain rfl : d = c := by simpa [trimmed] using first
      have front : d :: rest <+: s.dropWhile RustStr.isWhitespace := by
        rw [← trimmed, RustStr.trim]
        exact List.rdropWhile_prefix _ _
      obtain ⟨more, whole⟩ := front
      have kept := List.head?_dropWhile_not RustStr.isWhitespace s
      rw [← whole] at kept
      exact kept
  · intro c last
    have nonempty : RustStr.trim s ≠ [] := by
      intro none
      simp [none] at last
    have kept := List.rdropWhile_last_not RustStr.isWhitespace _ nonempty
    rw [List.getLast?_eq_some_getLast nonempty, Option.mem_some_iff] at last
    rw [← last]
    unfold RustStr.trim
    simpa using kept

theorem trim_trim (s : List Char) : RustStr.trim (RustStr.trim s) = RustStr.trim s :=
  RustStr.trim_eq_self (trim_ends s).1 (trim_ends s).2

theorem trim_of_mem_parseEvents {fuel : Nat} {ev : String}
    (member : ev ∈ parseEvents fuel text) : RustStr.trim ev.toList = ev.toList := by
  induction fuel generalizing text with
  | zero => cases member
  | succ fuel ih =>
    rw [parseEvents] at member
    split at member
    · cases member
    · next rest _ =>
      split at member
      · next found _ =>
        rcases List.mem_cons.mp member with rfl | later
        · rw [String.toList_ofList, trim_trim]
        · exact ih later
      · exact ih member

theorem wellFormed_of_mem_parseConfigsFrom {k : String × String × String}
    (kind : k ∈ notificationKinds) {uuids : Nat → String} {fuel : Nat}
    {nc : NotificationConfig} (member : nc ∈ parseConfigsFrom k.2.1 k.2.2 k.1 uuids fuel text) :
    nc.WellFormed := by
  induction fuel generalizing text uuids with
  | zero => cases member
  | succ fuel ih =>
    rw [parseConfigsFrom] at member
    split at member
    · cases member
    · next rest _ =>
      simp only at member
      split at member
      · next arn =>
        rcases List.mem_cons.mp member with rfl | later
        · exact ⟨⟨k, kind, rfl⟩, arn, fun ev here => trim_of_mem_parseEvents here⟩
        · exact ih later
      · exact ih member

/-- The configurations that some request stores. -/
def StoredConfigs (configs : List NotificationConfig) : Prop :=
  ∃ (uuids : String → Nat → String) (store : Notifications) (ctx : RequestContext) (bucket : String),
    bucketFromPath ctx.path = some bucket ∧
    (handlePutBucketNotification uuids store ctx).1 = .ok () ∧
    (handlePutBucketNotification uuids store ctx).2[bucket]? = some configs

theorem handlePutBucketNotification_ok {uuids : String → Nat → String}
    {ctx : RequestContext} (named : bucketFromPath ctx.path = some bucket)
    (ok : (handlePutBucketNotification uuids store ctx).1 = .ok ()) :
    ∃ body : String, String.fromUTF8? ⟨ctx.rawBodyBytes.toArray⟩ = some body ∧
      (handlePutBucketNotification uuids store ctx).2 =
        store.insert bucket (parseDocument uuids body.toList) := by
  unfold handlePutBucketNotification at ok ⊢
  simp only [named] at ok ⊢
  split at ok
  · next present =>
    rw [if_pos present]
    split at ok
    · cases ok
    · next body text =>
      rw [text]
      split at ok
      · cases ok
      · next accepted =>
        refine ⟨body, rfl, ?_⟩
        rw [if_neg accepted]
  · cases ok

theorem StoredConfigs.wellFormed (stored : StoredConfigs configs) :
    ∀ nc ∈ configs, nc.WellFormed := by
  obtain ⟨uuids, store, ctx, bucket, named, ok, found⟩ := stored
  obtain ⟨body, _, after⟩ := handlePutBucketNotification_ok named ok
  rw [after, StrMap.getElem?_insert, if_pos rfl, Option.some.injEq] at found
  rw [← found]
  intro nc member
  simp only [parseDocument, parseNotificationConfigs, List.mem_append] at member
  have kinds : ∀ k ∈ notificationKinds, ∀ draws fuel text,
      nc ∈ parseConfigsFrom k.2.1 k.2.2 k.1 draws fuel text → nc.WellFormed :=
    fun k kind _ _ _ inside => wellFormed_of_mem_parseConfigsFrom kind inside
  rcases member with sqs | sns | lambda
  · exact kinds ("sqs", "QueueConfiguration", "Queue") (by simp [notificationKinds]) _ _ _ sqs
  · exact kinds ("sns", "TopicConfiguration", "Topic") (by simp [notificationKinds]) _ _ _ sns
  · exact kinds ("lambda", "CloudFunctionConfiguration", "CloudFunction")
      (by simp [notificationKinds]) _ _ _ lambda

/-- The characters that `xml_escape` writes as entities. -/
def escapedChars : List Char := ['&', '<', '>', '"', '\'']

theorem escape_eq_or_longer (s : List Char) :
    (∀ c ∈ s, c ∉ escapedChars) ∧ s.flatMap escapeXmlChar = s ∨
      (¬ ∀ c ∈ s, c ∉ escapedChars) ∧ s.length < (s.flatMap escapeXmlChar).length := by
  have char : ∀ c, c ∉ escapedChars ∧ escapeXmlChar c = [c] ∨
      c ∈ escapedChars ∧ 1 < (escapeXmlChar c).length := by
    intro c
    by_cases special : c ∈ escapedChars
    · refine .inr ⟨special, ?_⟩
      simp only [escapedChars, List.mem_cons, List.not_mem_nil, or_false] at special
      rcases special with rfl | rfl | rfl | rfl | rfl <;> simp [escapeXmlChar]
    · refine .inl ⟨special, ?_⟩
      simp only [escapedChars, List.mem_cons, List.not_mem_nil, or_false, not_or] at special
      simp [escapeXmlChar, special]
  induction s with
  | nil => exact .inl ⟨by simp, rfl⟩
  | cons c s ih =>
    rw [List.forall_mem_cons, List.flatMap_cons]
    rcases char c with ⟨plain, one⟩ | ⟨special, longer⟩
    · rw [one, List.singleton_append]
      rcases ih with ⟨all, same⟩ | ⟨broken, less⟩
      · exact .inl ⟨⟨plain, all⟩, by rw [same]⟩
      · exact .inr ⟨fun both => broken both.2, by simpa using less⟩
    · refine .inr ⟨fun both => both.1 special, ?_⟩
      rw [List.length_append, List.length_cons]
      rcases ih with ⟨_, same⟩ | ⟨_, less⟩
      · rw [same]
        omega
      · omega

theorem length_le_xmlEscape (ev : String) : ev.toList.length ≤ (xmlEscape ev).length := by
  rw [xmlEscape]
  rcases escape_eq_or_longer ev.toList with ⟨_, same⟩ | ⟨_, less⟩
  · rw [same]
  · exact Nat.le_of_lt less

/-- Entities neither begin nor end with white space. -/
theorem trim_xmlEscape {ev : String} (trimmed : RustStr.trim ev.toList = ev.toList) :
    RustStr.trim (xmlEscape ev) = xmlEscape ev := by
  obtain ⟨first, last⟩ := trim_ends ev.toList
  rw [trimmed] at first last
  rw [xmlEscape]
  apply RustStr.trim_eq_self
  · intro c begins
    cases chars : ev.toList with
    | nil => simp [chars] at begins
    | cons d rest =>
      rw [chars] at begins first
      rcases escapeXmlChar_cases d with ⟨_, plain⟩ | ⟨e, _, _, entity⟩
      · obtain rfl : d = c := by simpa [plain] using begins
        exact first d rfl
      · obtain rfl : '&' = c := by simpa [entity] using begins
        decide
  · intro c ends
    rcases List.eq_nil_or_concat ev.toList with none | ⟨front, d, chars⟩
    · simp [none] at ends
    · rw [chars, List.concat_eq_append] at ends last
      rcases escapeXmlChar_cases d with ⟨_, plain⟩ | ⟨e, listed, _, entity⟩
      · obtain rfl : d = c := by simpa [plain] using ends
        exact last d (by simp)
      · have semicolon : ∀ e ∈ entities, ('&' :: e.2.toList).getLast? = some ';' := by decide
        rw [List.flatMap_append, List.flatMap_singleton, entity,
          List.getLast?_append_of_ne_nil _ (by simp), semicolon e listed] at ends
        obtain rfl : ';' = c := by simpa using ends
        decide

/-- Nothing in the events is escaped, and the filters are as they stand. -/
structure NotificationConfig.ReadsBack (nc : NotificationConfig) : Prop where
  events : ∀ ev ∈ nc.events, ∀ c ∈ ev.toList, c ∉ escapedChars
  filters : ∀ p, nc.prefixFilter = some p ∨ nc.suffixFilter = some p → PlainFilter p

def NotificationConfig.eventsLength (nc : NotificationConfig) : Nat :=
  (nc.events.map (·.toList.length)).sum

def NotificationConfig.filtersWeight (nc : NotificationConfig) : Nat :=
  weight (nc.prefixFilter.map String.toList) + weight (nc.suffixFilter.map String.toList)

section Reread

variable {nc : NotificationConfig} (valid : nc.WellFormed)

include valid

theorem reread_events : nc.reread.events = nc.events.map fun ev => String.ofList (xmlEscape ev) := by
  apply List.map_congr_left
  intro ev member
  rw [trim_xmlEscape (valid.events ev member)]

theorem reread_eq (reads : nc.ReadsBack) : nc.reread = nc := by
  have events : nc.reread.events = nc.events := by
    rw [reread_events valid]
    conv_rhs => rw [← List.map_id nc.events]
    apply List.map_congr_left
    intro ev member
    rcases escape_eq_or_longer ev.toList with ⟨_, same⟩ | ⟨broken, _⟩
    · rw [xmlEscape, same, String.ofList_toList, id_eq]
    · exact absurd (reads.events ev member) broken
  rcases rereadFilter_cases nc.prefixFilter nc.suffixFilter with ⟨_, pfx, sfx⟩ | ⟨broken, _⟩
  · unfold NotificationConfig.reread at events ⊢
    simp only at events
    rw [events, pfx, sfx]
  · exact absurd reads.filters broken

theorem eventsLength_reread :
    nc.reread.eventsLength = (nc.events.map fun ev => (xmlEscape ev).length).sum := by
  rw [NotificationConfig.eventsLength, reread_events valid, List.map_map]
  simp only [Function.comp_def, String.toList_ofList]

theorem eventsLength_le_reread : nc.eventsLength ≤ nc.reread.eventsLength := by
  rw [eventsLength_reread valid]
  exact List.sum_le_sum fun ev _ => length_le_xmlEscape ev

theorem eventsLength_lt_reread (broken : ¬ ∀ ev ∈ nc.events, ∀ c ∈ ev.toList, c ∉ escapedChars) :
    nc.eventsLength < nc.reread.eventsLength := by
  rw [eventsLength_reread valid]
  apply List.sum_lt_sum
  · exact fun ev _ => length_le_xmlEscape ev
  · simp only [not_forall, exists_prop] at broken
    obtain ⟨ev, member, c, inside, escaped⟩ := broken
    refine ⟨ev, member, ?_⟩
    rcases escape_eq_or_longer ev.toList with ⟨plain, _⟩ | ⟨_, less⟩
    · exact absurd (plain c inside) escaped
    · exact less

end Reread

theorem filtersWeight_reread_le (nc : NotificationConfig) :
    nc.reread.filtersWeight ≤ nc.filtersWeight := by
  rcases rereadFilter_cases nc.prefixFilter nc.suffixFilter with ⟨_, pfx, sfx⟩ | ⟨_, less⟩
  · unfold NotificationConfig.filtersWeight NotificationConfig.reread
    rw [pfx, sfx]
  · exact Nat.le_of_lt less

theorem filtersWeight_reread_lt {nc : NotificationConfig}
    (broken : ¬ ∀ p, nc.prefixFilter = some p ∨ nc.suffixFilter = some p → PlainFilter p) :
    nc.reread.filtersWeight < nc.filtersWeight := by
  rcases rereadFilter_cases nc.prefixFilter nc.suffixFilter with ⟨plain, _⟩ | ⟨_, less⟩
  · exact absurd plain broken
  · exact less

/-- Events only grow and filters only shrink, so in a permutation none does. -/
theorem reread_perm_iff (valid : ∀ nc ∈ configs, nc.WellFormed) :
    (configs.map (·.reread)).Perm configs ↔ ∀ nc ∈ configs, nc.ReadsBack := by
  constructor
  · intro perm nc member
    have events := (perm.map NotificationConfig.eventsLength).sum_eq
    have filters := (perm.map NotificationConfig.filtersWeight).sum_eq
    rw [List.map_map] at events filters
    constructor
    · by_contra broken
      have less : (configs.map (·.eventsLength)).sum < (configs.map (·.reread.eventsLength)).sum := by
        apply List.sum_lt_sum
        · exact fun nc here => eventsLength_le_reread (valid nc here)
        · exact ⟨nc, member, eventsLength_lt_reread (valid nc member) broken⟩
      exact absurd events (Nat.ne_of_gt less)
    · by_contra broken
      have less : (configs.map (·.reread.filtersWeight)).sum < (configs.map (·.filtersWeight)).sum := by
        apply List.sum_lt_sum
        · exact fun nc _ => filtersWeight_reread_le nc
        · exact ⟨nc, member, filtersWeight_reread_lt broken⟩
      exact absurd filters (Nat.ne_of_lt less)
  · intro reads
    have same : configs.map (·.reread) = configs := by
      conv_rhs => rw [← List.map_id configs]
      exact List.map_congr_left fun nc member => reread_eq (valid nc member) (reads nc member)
    rw [same]

/-- The kinds one after the other are all configurations. -/
theorem filter_kinds_perm (valid : ∀ nc ∈ configs, nc.WellFormed) :
    (configs.filter (·.destinationType = "sqs") ++
      (configs.filter (·.destinationType = "sns") ++
        configs.filter (·.destinationType = "lambda"))).Perm configs := by
  induction configs with
  | nil => exact .nil
  | cons nc configs ih =>
    obtain ⟨here, rest⟩ := List.forall_mem_cons.mp valid
    obtain ⟨k, kind, type⟩ := here.kind
    have tail := ih rest
    simp only [notificationKinds, List.mem_cons, List.not_mem_nil, or_false] at kind
    rcases kind with rfl | rfl | rfl
    · simpa [List.filter_cons, type] using tail.cons nc
    · simpa [List.filter_cons, type] using List.perm_middle.trans (tail.cons nc)
    · rw [← List.append_assoc] at tail ⊢
      simpa [List.filter_cons, type] using List.perm_middle.trans (tail.cons nc)

/-- A request for the bucket `b` with the text as its body. -/
def bucketRequest (text : List Char) : RequestContext :=
  { emptyRequest with
    path := "/b"
    rawBody := some (String.ofList text).toUTF8.data.toList }

theorem bucketNamed (text : List Char) : bucketFromPath (bucketRequest text).path = some "b" := by
  have named : bucketFromPath "/b" = some "b" := by decide
  exact named

theorem bucketRequest_path (a b : List Char) : (bucketRequest a).path = (bucketRequest b).path := rfl

theorem bucketRequest_body (text : List Char) :
    (bucketRequest text).rawBodyBytes = (String.ofList text).toUTF8.data.toList := rfl

/-- Putting the document that is got for the bucket stores the same configurations, in some order. -/
def RoundTrips (configs : List NotificationConfig) : Prop :=
  ∀ (uuids : String → Nat → String) (store : Notifications) (get put : RequestContext)
    (bucket : String) (document : List Char),
    bucketFromPath get.path = some bucket → put.path = get.path → store[bucket]? = some configs →
    handleGetBucketNotification store get = .ok document →
    put.rawBodyBytes = (String.ofList document).toUTF8.data.toList →
    ∃ again, handlePutBucketNotification uuids store put = (.ok (), store.insert bucket again) ∧
      again.Perm configs

theorem parseDocument_perm (uuids : String → Nat → String) (valid : ∀ nc ∈ configs, nc.WellFormed) :
    (parseDocument uuids (notificationXml configs)).Perm (configs.map (·.reread)) := by
  rw [parseDocument_notificationXml uuids valid, ← List.map_append, ← List.map_append]
  exact (filter_kinds_perm valid).map _

/-- The document is accepted: it has configurations, or does not name any. -/
theorem document_accepted (uuids : String → Nat → String)
    (valid : ∀ nc ∈ configs, nc.WellFormed) : (bodyHasConfigs (notificationXml configs) &&
      (parseDocument uuids (notificationXml configs)).isEmpty) = false := by
  cases configs with
  | nil =>
    have none : bodyHasConfigs (notificationXml []) = false := by decide +kernel
    rw [none, Bool.false_and]
  | cons nc configs =>
    have some := (parseDocument_perm uuids valid).length_eq
    cases read : parseDocument uuids (notificationXml (nc :: configs)) with
    | nil => simp [read] at some
    | cons first others => rw [List.isEmpty_cons, Bool.and_false]

theorem handlePutBucketNotification_text (uuids : String → Nat → String) {put : RequestContext}
    (named : bucketFromPath put.path = some bucket) (present : store[bucket]?.isSome = true)
    (accepted : (bodyHasConfigs text && (parseDocument uuids text).isEmpty) = false)
    (body : put.rawBodyBytes = (String.ofList text).toUTF8.data.toList) :
    handlePutBucketNotification uuids store put =
      (.ok (), store.insert bucket (parseDocument uuids text)) := by
  unfold handlePutBucketNotification
  rw [← Std.ExtTreeMap.contains_eq_isSome_getElem?] at present
  simp only [named, body, Utf8.fromUTF8?_toUTF8, String.toList_ofList, accepted]
  rw [if_pos present, if_neg Bool.false_ne_true]

theorem handleGetBucketNotification_eq {get : RequestContext}
    (named : bucketFromPath get.path = some bucket) (found : store[bucket]? = some configs) :
    handleGetBucketNotification store get = .ok (notificationXml configs) := by
  simp only [handleGetBucketNotification, named, found]

theorem roundTrips_iff_of_wellFormed (valid : ∀ nc ∈ configs, nc.WellFormed) :
    RoundTrips configs ↔ ∀ nc ∈ configs, nc.ReadsBack := by
  rw [← reread_perm_iff valid]
  constructor
  · intro trips
    have parsed := parseDocument_perm (fun _ _ => "") valid
    have found : ((∅ : Notifications).insert "b" configs)["b"]? = some configs := by
      rw [StrMap.getElem?_insert, if_pos rfl]
    have got := handleGetBucketNotification_eq (bucketNamed []) found
    obtain ⟨again, stored, perm⟩ := trips (fun _ _ => "") _ _ (bucketRequest (notificationXml configs))
      "b" _ (bucketNamed []) (bucketRequest_path _ _) found got (bucketRequest_body _)
    have written := handlePutBucketNotification_text (fun _ _ => "")
      (bucketNamed (notificationXml configs)) (by rw [found]; rfl) (document_accepted _ valid)
      (bucketRequest_body _)
    rw [written, Prod.mk.injEq] at stored
    have same := congrArg (·["b"]?) stored.2
    simp only [StrMap.getElem?_insert, if_true, Option.some.injEq] at same
    rw [← same] at perm
    exact parsed.symm.trans perm
  · intro perm uuids store get put bucket document named path found got body
    rw [handleGetBucketNotification_eq named found, Except.ok.injEq] at got
    rw [← path] at named
    rw [← got] at body
    exact ⟨_, handlePutBucketNotification_text uuids named (by rw [found]; rfl)
      (document_accepted uuids valid) body, (parseDocument_perm uuids valid).trans perm⟩

/-- What a document is read as is stored by the request with it. -/
theorem stored_parseDocument (uuids : String → Nat → String)
    (accepted : (bodyHasConfigs text && (parseDocument uuids text).isEmpty) = false) :
    StoredConfigs (parseDocument uuids text) := by
  let store : Notifications := (∅ : Notifications).insert "b" []
  have present : store["b"]?.isSome = true := by
    rw [StrMap.getElem?_insert, if_pos rfl]
    rfl
  have written := handlePutBucketNotification_text uuids (bucketNamed text) present accepted
    (bucketRequest_body text)
  refine ⟨uuids, store, bucketRequest text, "b", bucketNamed text, ?_, ?_⟩
  · rw [written]
  · rw [written, StrMap.getElem?_insert, if_pos rfl]

/-- The configurations of a bucket survive being written and stored again exactly if nothing in the events
is escaped and the filters have no entities and no tags that end them. -/
theorem notification_round_trip (configs : List NotificationConfig) (stored : StoredConfigs configs) :
    RoundTrips configs ↔ ∀ nc ∈ configs, nc.ReadsBack :=
  roundTrips_iff_of_wellFormed stored.wellFormed

/-- A queue for one kind of event and the keys with a prefix. -/
def queueConfig (event pfx : String) : NotificationConfig where
  id := "uploads"
  destinationArn := "arn:aws:sqs:us-east-1:000000000000:uploads"
  destinationType := "sqs"
  events := [event]
  prefixFilter := some pfx
  suffixFilter := none

/-- The configuration as a client writes it. -/
def queueDocument (event pfx : String) : List Char :=
  element "QueueConfiguration" (element "Id" "uploads".toList ++
    (element "Queue" "arn:aws:sqs:us-east-1:000000000000:uploads".toList ++
      (element "Event" event.toList ++
        element "Filter" (element "S3Key" (filterRuleXml "prefix" pfx.toList)))))

theorem objectCreated_round_trips : RoundTrips [queueConfig "s3:ObjectCreated:*" "in/"] := by
  have read : parseDocument (fun _ _ => "") (queueDocument "s3:ObjectCreated:*" "in/") =
      [queueConfig "s3:ObjectCreated:*" "in/"] := by decide +kernel
  have accepted : (bodyHasConfigs (queueDocument "s3:ObjectCreated:*" "in/") &&
      (parseDocument (fun _ _ => "") (queueDocument "s3:ObjectCreated:*" "in/")).isEmpty) = false := by
    rw [read]
    simp
  have stored := stored_parseDocument (fun _ _ => "") accepted
  rw [read] at stored
  refine (notification_round_trip _ stored).mpr ?_
  simp only [List.mem_singleton, forall_eq]
  constructor
  · simp [queueConfig, escapedChars]
  · intro p filter
    obtain rfl : "in/" = p := by simpa [queueConfig] using filter
    constructor <;> decide +kernel

/-- `<Event>s3:&#42;</Event>` -/
theorem event_entity_changes : StoredConfigs [queueConfig "s3:&#42;" "in/"] ∧
    parseDocument (fun _ _ => "") (notificationXml [queueConfig "s3:&#42;" "in/"]) =
      [queueConfig "s3:&amp;#42;" "in/"] ∧
    ¬ RoundTrips [queueConfig "s3:&#42;" "in/"] := by
  have read : parseDocument (fun _ _ => "") (queueDocument "s3:&#42;" "in/") =
      [queueConfig "s3:&#42;" "in/"] := by decide +kernel
  have accepted : (bodyHasConfigs (queueDocument "s3:&#42;" "in/") &&
      (parseDocument (fun _ _ => "") (queueDocument "s3:&#42;" "in/")).isEmpty) = false := by
    rw [read]
    simp
  have stored := stored_parseDocument (fun _ _ => "") accepted
  rw [read] at stored
  refine ⟨stored, by decide +kernel, fun trips => ?_⟩
  have reads := (roundTrips_iff_of_wellFormed stored.wellFormed).mp trips _ (List.mem_singleton.mpr rfl)
  exact reads.events "s3:&#42;" (by decide) '&' (by decide) (by decide)

end Openstack.S3

import Mathlib.Data.List.Nodup
import Openstack.CloudWatch.Metrics

/-!
# The metrics that are listed

`ListMetrics` (`crates/services/cloudwatch/src/provider.rs`, lines 248-339) after any requests to put metrics. What
has been listed is known by one text, the namespace and the name with a colon between them.
-/
namespace Openstack.CloudWatch

open TagSearch (element)

/-- Namespace, name and dimensions. -/
abbrev MetricIdentity := String × String × List (String × String)

def MetricDatum.identity {F : Type} (metric : MetricDatum F) : MetricIdentity :=
  (metric.metricNamespace, metric.metricName, metric.dimensions)

def identityJson (id : MetricIdentity) : Json :=
  .obj [("Dimensions", .arr (id.2.2.map fun dim => .obj [("Name", .str dim.1), ("Value", .str dim.2)])),
    ("MetricName", .str id.2.1), ("Namespace", .str id.1)]

def identityXml (id : MetricIdentity) : List Char :=
  element "member" (element "Namespace" (S3.xmlEscape id.1) ++ element "MetricName" (S3.xmlEscape id.2.1) ++
    element "Dimensions" (id.2.2.flatMap fun dim =>
      element "member" (element "Name" (S3.xmlEscape dim.1) ++ element "Value" (S3.xmlEscape dim.2))))

/-- The answer that lists these metrics, in the protocol of the request. -/
def listAnswer (req : MetricRequest) (ids : List MetricIdentity) : MetricAnswer :=
  if req.isQueryProtocol then
    .query "ListMetrics" (element "ListMetricsResult" (element "Metrics" (ids.flatMap identityXml)))
  else .json (.obj [("Metrics", .arr (ids.map identityJson))])

section Statement

variable (decimals : Decimals) (capacity : Nat)

/-- What the requests put, in their order. -/
def putAlong (reqs : List MetricRequest) : List (MetricDatum decimals.F) :=
  reqs.flatMap fun req => (req.metricsPut decimals capacity).getD []

/-- Each metric that was put and passes is listed once, and nothing else is. -/
def ListsEach (reqs : List MetricRequest) (body : Json) : Prop :=
  ∃ ids : List MetricIdentity, ids.Nodup ∧
    (∀ id, id ∈ ids ↔ ∃ metric ∈ putAlong decimals capacity reqs, metric.passes body = true ∧ metric.identity = id) ∧
    ∀ req : MetricRequest, req.body = body →
      listMetrics req (reqs.foldl (putStep decimals capacity) []) = listAnswer req ids

/-- Metrics that were put and pass are known by different texts, unless they are the same. -/
def KeysApart (reqs : List MetricRequest) (body : Json) : Prop :=
  ∀ a ∈ putAlong decimals capacity reqs, ∀ b ∈ putAlong decimals capacity reqs,
    a.passes body = true → b.passes body = true → a.listKey = b.listKey → a.identity = b.identity

end Statement

section Store

variable {decimals : Decimals} {capacity : Nat}

theorem putStep_eq (metrics : List (MetricDatum decimals.F)) (req : MetricRequest) :
    putStep decimals capacity metrics req = metrics ++ (req.metricsPut decimals capacity).getD [] := by
  rw [putStep, putMetricData]
  cases named : JsonService.strParam req.body "Namespace" with
  | none => simp [MetricRequest.metricsPut, named]
  | some _ => cases req.metricsPut decimals capacity <;> simp

theorem foldl_putStep (reqs : List MetricRequest) (metrics : List (MetricDatum decimals.F)) :
    reqs.foldl (putStep decimals capacity) metrics = metrics ++ putAlong decimals capacity reqs := by
  induction reqs generalizing metrics with
  | nil => simp [putAlong]
  | cons req rest ih => rw [List.foldl_cons, ih, putStep_eq, List.append_assoc, putAlong, putAlong, List.flatMap_cons]

end Store

section Unseen

variable {F : Type}

theorem mem_of_unseen {seen : List String} {metrics : List (MetricDatum F)} {metric : MetricDatum F}
    (listed : metric ∈ unseen seen metrics) : metric ∈ metrics ∧ metric.listKey ∉ seen := by
  induction metrics generalizing seen with
  | nil => simp [unseen] at listed
  | cons first rest ih =>
    rw [unseen] at listed
    split at listed
    · obtain ⟨member, fresh⟩ := ih listed
      exact ⟨List.mem_cons_of_mem first member, fresh⟩
    · next fresh =>
      rcases List.mem_cons.mp listed with rfl | later
      · exact ⟨List.mem_cons_self, fresh⟩
      · obtain ⟨member, apart⟩ := ih later
        exact ⟨List.mem_cons_of_mem first member, fun old => apart (List.mem_cons_of_mem _ old)⟩

theorem nodup_unseen (seen : List String) (metrics : List (MetricDatum F)) :
    ((unseen seen metrics).map (·.listKey)).Nodup := by
  induction metrics generalizing seen with
  | nil => exact List.nodup_nil
  | cons first rest ih =>
    rw [unseen]
    split
    · exact ih seen
    · rw [List.map_cons, List.nodup_cons]
      refine ⟨fun again => ?_, ih _⟩
      obtain ⟨metric, listed, same⟩ := List.mem_map.mp again
      exact (mem_of_unseen listed).2 (same ▸ List.mem_cons_self)

theorem unseen_covers {seen : List String} {metrics : List (MetricDatum F)} {metric : MetricDatum F}
    (member : metric ∈ metrics) (fresh : metric.listKey ∉ seen) :
    ∃ listed ∈ unseen seen metrics, listed.listKey = metric.listKey := by
  induction metrics generalizing seen with
  | nil => cases member
  | cons first rest ih =>
    rw [unseen]
    split
    · next old =>
      rcases List.mem_cons.mp member with rfl | later
      · exact absurd old fresh
      · exact ih later fresh
    · by_cases same : first.listKey = metric.listKey
      · exact ⟨first, List.mem_cons_self, same⟩
      · have later : metric ∈ rest := by
          rcases List.mem_cons.mp member with rfl | later
          · exact absurd rfl same
          · exact later
        have fresh' : metric.listKey ∉ first.listKey :: seen := by
          rw [List.mem_cons, not_or]
          exact ⟨Ne.symm same, fresh⟩
        obtain ⟨listed, there, key⟩ := ih later fresh'
        exact ⟨listed, List.mem_cons_of_mem first there, key⟩

/-- The key is a function of namespace, name and dimensions. -/
theorem listKey_of_identity {a b : MetricDatum F} (same : a.identity = b.identity) : a.listKey = b.listKey := by
  obtain ⟨namespaces, names, -⟩ := by simpa [MetricDatum.identity] using same
  rw [MetricDatum.listKey, namespaces, names, MetricDatum.listKey]

end Unseen

theorem metricJson_eq {F : Type} (metric : MetricDatum F) : metricJson metric = identityJson metric.identity := rfl

theorem metricXml_identityJson (id : MetricIdentity) : metricXml (identityJson id) = identityXml id := by
  obtain ⟨metricNamespace, name, dimensions⟩ := id
  have dims : (((identityJson (metricNamespace, name, dimensions)).get? "Dimensions").bind Json.asArray?) =
      some (dimensions.map fun dim => .obj [("Name", .str dim.1), ("Value", .str dim.2)]) := rfl
  rw [metricXml, dims, Option.map_some, Option.getD_some, List.flatMap_map]
  rfl

theorem identityJson_injective : Function.Injective identityJson := by
  rintro ⟨ns, name, dims⟩ ⟨ns', name', dims'⟩ same
  simp only [identityJson, Json.obj.injEq, List.cons.injEq, Prod.mk.injEq, Json.arr.injEq, Json.str.injEq, true_and,
    and_true] at same
  obtain ⟨dimensions, rfl, rfl⟩ := same
  have injective : Function.Injective fun dim : String × String =>
      Json.obj [("Name", .str dim.1), ("Value", .str dim.2)] := by
    rintro ⟨n, v⟩ ⟨n', v'⟩ pair
    simpa using pair
  rw [List.map_injective_iff.mpr injective dimensions]

theorem listMetrics_eq {F : Type} (req : MetricRequest) (metrics : List (MetricDatum F)) :
    listMetrics req metrics =
      listAnswer req ((unseen [] (metrics.filter (·.passes req.body))).map (·.identity)) := by
  have xml : ∀ ms : List (MetricDatum F), (ms.map metricJson).flatMap metricXml =
      (ms.map (·.identity)).flatMap identityXml := by
    intro ms
    rw [List.flatMap_map, List.flatMap_map]
    exact congrArg (ms.flatMap ·) (funext fun m => (congrArg metricXml (metricJson_eq m)).trans
      (metricXml_identityJson m.identity))
  rw [listMetrics, listAnswer, List.map_map]
  simp only [xml]
  rfl

section Runs

variable {decimals : Decimals} {capacity : Nat} {reqs : List MetricRequest} {body : Json}

theorem stored_eq : reqs.foldl (putStep decimals capacity) [] = putAlong decimals capacity reqs := by
  rw [foldl_putStep, List.nil_append]

theorem keysApart_of_listsEach (each : ListsEach decimals capacity reqs body) :
    KeysApart decimals capacity reqs body := by
  intro a memberA b memberB passesA passesB keys
  obtain ⟨ids, -, members, answered⟩ := each
  rw [stored_eq] at answered
  -- the JSON answer gives the list away
  have answer := answered ⟨body, none, [], [], [], 0⟩ rfl
  rw [listMetrics_eq] at answer
  have same : (unseen [] ((putAlong decimals capacity reqs).filter (·.passes body))).map (·.identity) = ids := by
    refine List.map_injective_iff.mpr identityJson_injective ?_
    simpa [listAnswer, MetricRequest.isQueryProtocol] using answer
  subst same
  obtain ⟨x, listedX, sameX⟩ := List.mem_map.mp ((members a.identity).mpr ⟨a, memberA, passesA, rfl⟩)
  obtain ⟨y, listedY, sameY⟩ := List.mem_map.mp ((members b.identity).mpr ⟨b, memberB, passesB, rfl⟩)
  have one : x = y := by
    refine List.inj_on_of_nodup_map (nodup_unseen [] _) listedX listedY ?_
    rw [listKey_of_identity sameX, listKey_of_identity sameY, keys]
  rw [← sameX, ← sameY, one]

theorem listsEach_of_keysApart (apart : KeysApart decimals capacity reqs body) :
    ListsEach decimals capacity reqs body := by
  have passed : ∀ metric ∈ unseen [] ((putAlong decimals capacity reqs).filter (·.passes body)),
      metric ∈ putAlong decimals capacity reqs ∧ metric.passes body = true :=
    fun metric listed => List.mem_filter.mp (mem_of_unseen listed).1
  refine ⟨(unseen [] ((putAlong decimals capacity reqs).filter (·.passes body))).map (·.identity), ?_,
    fun id => ?_, fun req same => ?_⟩
  · refine List.Nodup.of_map (fun id : MetricIdentity => id.1 ++ ":" ++ id.2.1) ?_
    rw [List.map_map]
    exact nodup_unseen [] _
  · rw [List.mem_map]
    constructor
    · rintro ⟨metric, listed, rfl⟩
      exact ⟨metric, (passed metric listed).1, (passed metric listed).2, rfl⟩
    · rintro ⟨metric, member, passes, rfl⟩
      have kept : metric ∈ (putAlong decimals capacity reqs).filter (·.passes body) :=
        List.mem_filter.mpr ⟨member, passes⟩
      obtain ⟨listed, there, key⟩ := unseen_covers kept List.not_mem_nil
      obtain ⟨member', passes'⟩ := passed listed there
      exact ⟨listed, there, apart listed member' metric member passes' passes key⟩
  · rw [stored_eq, listMetrics_eq, same]

end Runs

/-- For every run of requests and both filters. -/
theorem list_metrics_iff (decimals : Decimals) (capacity : Nat) (reqs : List MetricRequest) (body : Json) :
    ListsEach decimals capacity reqs body ↔ KeysApart decimals capacity reqs body :=
  ⟨keysApart_of_listsEach, listsEach_of_keysApart⟩

section Example

def latencyOf (host : String) : MetricRequest where
  body := .obj [("MetricData", .arr [.obj [("Dimensions", .arr [.obj [("Name", .str "host"), ("Value", .str host)]]),
    ("MetricName", .str "latency"), ("Value", .posInt 1)]]), ("Namespace", .str "app")]
  contentType := some "application/x-amz-json-1.0"

def latencyDatum (host : String) : MetricDatum wholeNumbers.F :=
  ⟨"app", "latency", [("host", host)], 0, wholeNumbers.ofInt 1, "None"⟩

/-- Of the same metric of two hosts one is listed. -/
theorem second_host_unlisted : ¬ ListsEach wholeNumbers 1000 [latencyOf "a", latencyOf "b"] (.obj []) := by
  intro each
  have put : putAlong wholeNumbers 1000 [latencyOf "a", latencyOf "b"] = [latencyDatum "a", latencyDatum "b"] := rfl
  have apart := keysApart_of_listsEach each
  rw [KeysApart, put] at apart
  have same := apart (latencyDatum "a") List.mem_cons_self (latencyDatum "b")
    (List.mem_cons_of_mem _ List.mem_cons_self) rfl rfl rfl
  simp [MetricDatum.identity, latencyDatum] at same

end Example

end Openstack.CloudWatch

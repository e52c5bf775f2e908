import Openstack.CloudWatch.Metrics

/-!
# Metrics as JSON and as form parameters

`PutMetricData` (`crates/services/cloudwatch/src/provider.rs`, lines 88-153 and 184-243) with one list of metrics
sent in both ways. A form has texts only: the type of a field is what its text looks like, and the parameters are
visited in any order.
-/
namespace Openstack.CloudWatch

open JsonService (strParam)
open StepFunctions (insertField lookup_insertField)
open AssocList (lookup_cons_ite lookup_of_mem)

/-! ## Statement -/

section Statement

variable (decimals : Decimals) (capacity : Nat)

/-- A number as JSON has it; `negative m` is below zero by `m + 1`. -/
inductive Numeral where
  | natural (n : Nat) (fits : n < 2 ^ 64)
  | negative (m : Nat) (fits : m < 2 ^ 63)
  | decimal (text : String) (finite : (decimals.read text).isSome = true)

structure MetricInput where
  metricName : String
  dimensions : List (String × String)
  unit : String
  value : Numeral decimals

/-- As many metrics, and dimensions of each, as a vector holds. -/
structure MetricBatch where
  metricNamespace : String
  data : List (MetricInput decimals)
  fits : data.length ≤ capacity
  dimensionsFit : ∀ metric ∈ data, metric.dimensions.length ≤ capacity

variable {decimals capacity}

def Numeral.json : Numeral decimals → Json
  | .natural n _ => .posInt n
  | .negative m _ => .negInt (m + 1)
  | .decimal text _ => .float text

def Numeral.text : Numeral decimals → String
  | .natural n _ => toString n
  | .negative m _ => "-" ++ toString (m + 1)
  | .decimal text _ => text

def dimensionJson (dim : String × String) : Json := .obj [("Name", .str dim.1), ("Value", .str dim.2)]

def MetricInput.json (metric : MetricInput decimals) : Json :=
  .obj [("MetricName", .str metric.metricName), ("Dimensions", .arr (metric.dimensions.map dimensionJson)),
    ("Unit", .str metric.unit), ("Value", metric.value.json)]

def MetricBatch.json (batch : MetricBatch decimals capacity) : Json :=
  .obj [("Namespace", .str batch.metricNamespace), ("MetricData", .arr (batch.data.map MetricInput.json))]

def memberKey (index : Nat) (field : String) : String := "MetricData.member." ++ toString index ++ "." ++ field

def dimensionKey (index dimIndex : Nat) (field : String) : String :=
  memberKey index ("Dimensions.member." ++ toString dimIndex ++ "." ++ field)

def dimensionParams (index : Nat) (dim : (String × String) × Nat) : List (String × String) :=
  [(dimensionKey index dim.2 "Name", dim.1.1), (dimensionKey index dim.2 "Value", dim.1.2)]

/-- The parameters of a metric and its index; metrics and dimensions are counted from one. -/
def metricParams (member : MetricInput decimals × Nat) : List (String × String) :=
  [(memberKey member.2 "MetricName", member.1.metricName), (memberKey member.2 "Unit", member.1.unit),
    (memberKey member.2 "Value", member.1.value.text)] ++
      (member.1.dimensions.zipIdx 1).flatMap (dimensionParams member.2)

def MetricBatch.params (batch : MetricBatch decimals capacity) : List (String × String) :=
  [("Action", "PutMetricData"), ("Namespace", batch.metricNamespace), ("Version", "2010-08-01")] ++
    (batch.data.zipIdx 1).flatMap metricParams

/-- `parse_query_request` of `crates/aws-protocol/src/query.rs`, on the parameters in their order in the text. -/
def queryBody (params : List (String × String)) : Json :=
  .obj ((params.filter fun param => param.1 ≠ "Action" ∧ param.1 ≠ "Version").map fun param => (param.1, .str param.2))

structure SentAsForm (req : MetricRequest) (batch : MetricBatch decimals capacity) : Prop where
  protocol : req.isQueryProtocol = true
  visited : req.formParams.Perm batch.params
  sent : ∃ sent, sent.Perm batch.params ∧ req.body = queryBody sent

/-- The same metrics are appended, sent in one way or the other. -/
def TransportsAgree (batch : MetricBatch decimals capacity) : Prop :=
  ∀ form json : MetricRequest, SentAsForm form batch → json.body = batch.json → form.now = json.now →
    ∀ metrics, (putMetricData decimals capacity form metrics).map Prod.snd =
      (putMetricData decimals capacity json metrics).map Prod.snd

variable (decimals capacity)

/-- No panic, in whatever order the parameters are visited, in the body or in the query. -/
def NeverPanics (params : List (String × String)) : Prop :=
  ∀ visited : List (String × String), visited.Perm params →
    queryMetricData decimals capacity visited [] ≠ none ∧ queryMetricData decimals capacity [] visited ≠ none

variable {decimals}

/-- No name and no unit is the text of a number. -/
def PlainTexts (data : List (MetricInput decimals)) : Prop :=
  ∀ metric ∈ data, decimals.read metric.metricName = none ∧ decimals.read metric.unit = none

/-- A dimension has an index that a vector counting from one has room for. -/
def IndicesFit (params : List (String × String)) : Prop :=
  ∀ param ∈ params, ∀ index dimIndex name, paramTarget param.1 = some (.dimension index dimIndex name) →
    0 < dimIndex ∧ dimIndex ≤ capacity

end Statement

/-! ## Numbers in a form -/

theorem parseUnsigned_mono {bits bits' : Nat} {text : String} {n : Nat} (more : bits ≤ bits')
    (parsed : RustFmt.parseUnsigned bits text = some n) : RustFmt.parseUnsigned bits' text = some n := by
  have wider : ∀ digits : List Char,
      (if digits = [] ∨ ¬ digits.all Char.isDigit then none
        else if RustFmt.digitsValue digits < 2 ^ bits then some (RustFmt.digitsValue digits) else none) = some n →
      (if digits = [] ∨ ¬ digits.all Char.isDigit then none
        else if RustFmt.digitsValue digits < 2 ^ bits' then some (RustFmt.digitsValue digits) else none) = some n := by
    intro digits narrow
    split at narrow
    · cases narrow
    · next plain =>
      rw [if_neg plain]
      split at narrow
      · next fits => rw [if_pos (fits.trans_le (Nat.pow_le_pow_right (by decide) more)), narrow]
      · cases narrow
  exact wider _ parsed

theorem parseSigned_mono {bits bits' : Nat} {text : String} {i : Int} (more : bits ≤ bits')
    (parsed : RustFmt.parseSigned bits text = some i) : RustFmt.parseSigned bits' text = some i := by
  rw [RustFmt.parseSigned] at parsed ⊢
  split at parsed
  · split at parsed
    · cases parsed
    · next plain =>
      rw [if_neg plain]
      split at parsed
      · next fits => rw [if_pos (fits.trans (Nat.pow_le_pow_right (by decide) (by omega))), parsed]
      · cases parsed
  · obtain ⟨n, unsigned, rfl⟩ := Option.map_eq_some_iff.mp parsed
    rw [parseUnsigned_mono (by omega) unsigned, Option.map_some]

theorem parseSigned_natural {n : Nat} (fits : n < 2 ^ 64) : RustFmt.parseSigned 65 (toString n) = some (n : Int) := by
  have signless : ∀ digits, (toString n).toList ≠ '-' :: digits := by
    intro digits minus
    rw [RustFmt.toList_toString] at minus
    have digit : ('-').isDigit = true :=
      Nat.isDigit_of_mem_toDigits (b := 10) (n := n) (by decide) (by decide) (by rw [minus]; exact List.mem_cons_self)
    exact absurd digit (by decide)
  rw [RustFmt.parseSigned]
  split
  · next digits minus => exact absurd minus (signless digits)
  · rw [RustFmt.parseUnsigned_toString, if_pos fits]
    rfl

theorem parseSigned_negative {m : Nat} (fits : m < 2 ^ 63) :
    RustFmt.parseSigned 65 ("-" ++ toString (m + 1)) = some (-((m + 1 : Nat) : Int)) := by
  have text : ("-" ++ toString (m + 1)).toList = '-' :: Nat.toDigits 10 (m + 1) := by
    rw [String.toList_append, RustFmt.toList_toString]
    rfl
  have all : (Nat.toDigits 10 (m + 1)).all Char.isDigit = true :=
    List.all_eq_true.mpr fun c member => Nat.isDigit_of_mem_toDigits (by decide) (by decide) member
  rw [RustFmt.parseSigned]
  simp only [text]
  rw [if_neg (by simp [all]), RustFmt.digitsValue_toDigits, if_pos (by omega)]

section Numbers

variable {decimals : Decimals}

/-- What a text is taken for has the value that is read from it. -/
theorem asF64?_coerceValue (raw : String) : asF64? decimals (coerceValue decimals raw) = decimals.read raw := by
  rw [coerceValue]
  cases parsed : RustFmt.parseSigned 64 raw with
  | some i =>
    rw [decimals.whole raw i (parseSigned_mono (by decide) parsed)]
    change asF64? decimals (integer i) = _
    rw [integer]
    split
    · next positive => rw [asF64?, Int.toNat_of_nonneg positive]
    · next negative => rw [asF64?, Int.toNat_of_nonneg (by omega), Int.neg_neg]
  | none =>
    cases value : decimals.read raw with
    | some _ => exact value
    | none => rfl

theorem read_text (value : Numeral decimals) : decimals.read value.text = asF64? decimals value.json := by
  cases value with
  | natural n fits => exact decimals.whole _ _ (parseSigned_natural fits)
  | negative m fits => exact decimals.whole _ _ (parseSigned_negative fits)
  | decimal text _ => rfl

/-- Text stays text where no number is read from it, and is lost otherwise. -/
theorem asStr?_coerceValue (raw : String) :
    (coerceValue decimals raw).asStr? = if decimals.read raw = none then some raw else none := by
  rw [coerceValue]
  cases parsed : RustFmt.parseSigned 64 raw with
  | some i =>
    rw [if_neg (by rw [decimals.whole raw i (parseSigned_mono (by decide) parsed)]; simp)]
    change (integer i).asStr? = none
    rw [integer]
    split
    · rfl
    · rfl
  | none => cases decimals.read raw <;> rfl

end Numbers

/-! ## Keys -/

theorem stripPrefix_append (pat rest : List Char) : RustStr.stripPrefix pat (pat ++ rest) = some rest := by
  rw [RustStr.stripPrefix, if_pos (List.isPrefixOf_iff_prefix.mpr (List.prefix_append pat rest)), List.drop_left]

theorem splitIndex_toString {index : Nat} (fits : index < 2 ^ 64) (rest : List Char) :
    splitIndex ((toString index).toList ++ '.' :: rest) = some (index, rest) := by
  have digits : '.' ∉ (toString index).toList := by
    intro member
    rw [RustFmt.toList_toString] at member
    exact absurd (Nat.isDigit_of_mem_toDigits (by decide) (by decide) member) (by decide)
  rw [splitIndex, RustStr.splitn_append digits 0 rest]
  change (RustFmt.parseUnsigned 64 (String.ofList (toString index).toList)).map (·, rest) = _
  rw [String.ofList_toList, RustFmt.parseUnsigned_toString, if_pos fits, Option.map_some]

theorem toList_indexed (front : String) (index : Nat) (field : String) :
    (front ++ toString index ++ "." ++ field).toList =
      front.toList ++ ((toString index).toList ++ '.' :: field.toList) := by
  rw [String.toList_append, String.toList_append, String.toList_append, List.append_assoc, List.append_assoc]
  rfl

theorem stripPrefix_memberKey (index : Nat) (field : String) :
    RustStr.stripPrefix "MetricData.member.".toList (memberKey index field).toList =
      some ((toString index).toList ++ '.' :: field.toList) := by
  unfold memberKey
  rewrite [toList_indexed]
  exact stripPrefix_append _ _

theorem paramTarget_memberKey {index : Nat} (fits : index < 2 ^ 64) {field : String}
    (plain : RustStr.stripPrefix "Dimensions.member.".toList field.toList = none) :
    paramTarget (memberKey index field) = some (.field index field) := by
  unfold paramTarget
  rewrite [stripPrefix_memberKey, Option.bind_some, splitIndex_toString fits, Option.map_some]
  dsimp only
  rewrite [plain]
  dsimp only
  rewrite [String.ofList_toList]
  rfl

theorem paramTarget_dimensionKey {index dimIndex : Nat} (fits : index < 2 ^ 64) (dimFits : dimIndex < 2 ^ 64)
    (field : String) : paramTarget (dimensionKey index dimIndex field) = some (.dimension index dimIndex field) := by
  unfold paramTarget dimensionKey
  rewrite [stripPrefix_memberKey, Option.bind_some, splitIndex_toString fits, Option.map_some]
  dsimp only
  rewrite [toList_indexed, stripPrefix_append]
  dsimp only
  rewrite [splitIndex_toString dimFits]
  dsimp only
  rewrite [String.ofList_toList]
  rfl

/-! ## What has been read -/

/-- Parameters with what their keys stand for. -/
abbrev Updates := List (ParamTarget × String)

def readParam (param : String × String) : Option (ParamTarget × String) := (paramTarget param.1).map (·, param.2)

/-- The fields of a metric so far. -/
def memberFields (members : Members) (index : Nat) : List (String × Json) := (members[index]?).getD []

def ParamTarget.index : ParamTarget → Nat
  | .field index _ => index
  | .dimension index _ _ => index
  | .bare index => index

/-- The dimensions of a metric are objects; the fields are what was last given, and there are no more objects than
indices reach. -/
structure DimensionsRead (index : Nat) (dims : List (List (String × Json))) (updates : Updates) : Prop where
  fields : ∀ j name, ((dims[j]?).getD []).lookup name =
    (updates.lookup (ParamTarget.dimension index (j + 1) name)).map Json.str
  reached : ∀ j < dims.length, ∃ dimIndex name value, j < dimIndex ∧
    (ParamTarget.dimension index dimIndex name, value) ∈ updates

/-- The members after these updates, the last of them first. -/
structure MembersRead (decimals : Decimals) (members : Members) (updates : Updates) : Prop where
  known : ∀ index, members[index]?.isSome = true ↔ ∃ update ∈ updates, update.1.index = index
  fields : ∀ index name, name ≠ "Dimensions" → (memberFields members index).lookup name =
    (updates.lookup (ParamTarget.field index name)).map (coerceValue decimals)
  dimensions : ∀ index, ∃ dims : List (List (String × Json)),
    ((memberFields members index).lookup "Dimensions").getD (.arr []) = .arr (dims.map Json.obj) ∧
      DimensionsRead index dims updates

/-- The targets that a batch of metrics uses: no field takes the place of the dimensions. -/
def ParamTarget.Clean (capacity : Nat) : ParamTarget → Prop
  | .field _ name => name ≠ "Dimensions"
  | .dimension _ dimIndex _ => 0 < dimIndex ∧ dimIndex ≤ capacity
  | .bare _ => False

theorem membersRead_empty (decimals : Decimals) : MembersRead decimals ∅ [] where
  known := by simp
  fields := by simp [memberFields]
  dimensions := fun index => ⟨[], by simp [memberFields], ⟨by simp, by simp⟩⟩

theorem memberFields_insert (members : Members) (index : Nat) (fields : List (String × Json)) (other : Nat) :
    memberFields (members.insert index fields) other = if index = other then fields else memberFields members other := by
  rw [memberFields, Std.ExtTreeMap.getElem?_insert]
  simp only [Std.LawfulEqCmp.compare_eq_iff_eq]
  split
  · rfl
  · rfl

theorem known_insert {members : Members} {updates : Updates}
    (known : ∀ index, members[index]?.isSome = true ↔ ∃ update ∈ updates, update.1.index = index)
    (update : ParamTarget × String) (fields : List (String × Json)) (index : Nat) :
    (members.insert update.1.index fields)[index]?.isSome = true ↔
      ∃ earlier ∈ update :: updates, earlier.1.index = index := by
  rw [Std.ExtTreeMap.getElem?_insert, List.exists_mem_cons_iff]
  simp only [Std.LawfulEqCmp.compare_eq_iff_eq]
  split
  · next same => exact iff_of_true rfl (.inl same)
  · next other => rw [known, or_iff_right other]

theorem DimensionsRead.other {index : Nat} {dims : List (List (String × Json))} {updates : Updates}
    (read : DimensionsRead index dims updates) {update : ParamTarget × String}
    (other : ∀ dimIndex name, update.1 ≠ .dimension index dimIndex name) :
    DimensionsRead index dims (update :: updates) where
  fields := by
    intro j name
    obtain ⟨target, value⟩ := update
    rw [lookup_cons_ite, if_neg (Ne.symm (other (j + 1) name)), read.fields]
  reached := by
    intro j inside
    obtain ⟨dimIndex, name, value, below, member⟩ := read.reached j inside
    exact ⟨dimIndex, name, value, below, List.mem_cons_of_mem update member⟩

theorem setDimension_read {index : Nat} {dims : List (List (String × Json))} {updates : Updates}
    (read : DimensionsRead index dims updates) {dimIndex : Nat} (positive : 0 < dimIndex) (name value : String) :
    ∃ dims' : List (List (String × Json)), setDimension (dims.map Json.obj) dimIndex name value = dims'.map Json.obj ∧
      DimensionsRead index dims' ((ParamTarget.dimension index dimIndex name, value) :: updates) := by
  let room := dims ++ List.replicate (dimIndex - dims.length) []
  have room_getD : ∀ j : Nat, (room[j]?).getD [] = (dims[j]?).getD [] := by
    intro j
    rcases lt_or_ge j dims.length with inside | beyond
    · rw [List.getElem?_append_left inside]
    · rw [List.getElem?_append_right beyond, List.getElem?_eq_none beyond, List.getElem?_replicate]
      split <;> rfl
  have length : room.length = dims.length + (dimIndex - dims.length) := by
    rw [List.length_append, List.length_replicate]
  refine ⟨room.modify (dimIndex - 1) (insertField name (.str value)), ?_, ?_, ?_⟩
  · refine List.ext_getElem? fun j => ?_
    have same : dims.map Json.obj ++ List.replicate (dimIndex - (dims.map Json.obj).length) (Json.obj []) =
        room.map Json.obj := by
      rw [List.map_append, List.map_replicate, List.length_map]
    rw [setDimension, same, List.getElem?_modify, List.getElem?_map, List.getElem?_map, List.getElem?_modify]
    split
    · cases room[j]? <;> rfl
    · cases room[j]? <;> rfl
  · intro j name'
    rw [List.getElem?_modify, lookup_cons_ite]
    by_cases here : dimIndex - 1 = j
    · obtain rfl : dimIndex = j + 1 := by omega
      have inside : j < room.length := by omega
      have present := List.getElem?_eq_getElem inside
      have before := room_getD j
      rw [present, Option.getD_some] at before
      simp only [here, ↓reduceIte, present, Option.map_eq_map, Option.map_some, Option.getD_some, lookup_insertField,
        before, read.fields, ParamTarget.dimension.injEq, true_and]
      split <;> rfl
    · simp only [here, ↓reduceIte, Option.map_eq_map, Option.map_id', room_getD, read.fields]
      rw [if_neg]
      rintro ⟨⟩
      exact here rfl
  · intro j inside
    rw [List.length_modify, length] at inside
    rcases lt_or_ge j dimIndex with below | above
    · exact ⟨dimIndex, name, value, below, List.mem_cons_self⟩
    · obtain ⟨other, name', value', below, member⟩ := read.reached j (by omega)
      exact ⟨other, name', value', below, List.mem_cons_of_mem _ member⟩

section Reading

variable {decimals : Decimals} {capacity : Nat}

/-- One parameter with a clean target. -/
theorem addParam_read {members : Members} {updates : Updates} (read : MembersRead decimals members updates)
    {param : String × String} {target : ParamTarget} (named : paramTarget param.1 = some target)
    (clean : target.Clean capacity) :
    ∃ members', addParam decimals capacity members param = some members' ∧
      MembersRead decimals members' ((target, param.2) :: updates) := by
  cases target with
  | field index name =>
    refine ⟨members.insert index (insertField name (coerceValue decimals param.2) (memberFields members index)), ?_,
      known_insert read.known (.field index name, param.2) _, ?_, ?_⟩
    · rw [addParam, named]
      rfl
    · intro other name' plain
      rw [memberFields_insert, lookup_cons_ite]
      by_cases same : index = other
      · subst same
        rw [if_pos rfl, lookup_insertField, read.fields index name' plain]
        simp only [ParamTarget.field.injEq, true_and]
        split <;> rfl
      · rw [if_neg same, read.fields other name' plain, if_neg]
        rintro ⟨⟩
        exact same rfl
    · intro other
      obtain ⟨dims, found, dimsRead⟩ := read.dimensions other
      refine ⟨dims, ?_, dimsRead.other fun _ _ => nofun⟩
      rw [memberFields_insert]
      split
      · next same =>
        subst same
        rw [lookup_insertField, if_neg (Ne.symm clean), found]
      · exact found
  | dimension index dimIndex name =>
    obtain ⟨dims, found, dimsRead⟩ := read.dimensions index
    obtain ⟨dims', set, dimsRead'⟩ := setDimension_read dimsRead clean.1 name param.2
    refine ⟨members.insert index (insertField "Dimensions" (.arr (dims'.map Json.obj)) (memberFields members index)),
      ?_, known_insert read.known (.dimension index dimIndex name, param.2) _, ?_, ?_⟩
    · have inside : ¬ (dimIndex = 0 ∨ capacity < dimIndex) := by
        have := clean
        rw [ParamTarget.Clean] at this
        omega
      rw [memberFields] at found ⊢
      simp only [addParam, named, found, if_neg inside, set]
    · intro other name' plain
      have apart : ParamTarget.field other name' ≠ .dimension index dimIndex name := nofun
      rw [lookup_cons_ite, if_neg apart, ← read.fields other name' plain, memberFields_insert]
      split
      · next same => rw [lookup_insertField, if_neg plain, same]
      · rfl
    · intro other
      rw [memberFields_insert]
      split
      · next same =>
        subst same
        refine ⟨dims', ?_, dimsRead'⟩
        rw [lookup_insertField, if_pos rfl, Option.getD_some]
      · next apart =>
        obtain ⟨dims, found, dimsRead⟩ := read.dimensions other
        refine ⟨dims, found, dimsRead.other ?_⟩
        rintro _ _ ⟨⟩
        exact apart rfl
  | bare index => exact clean.elim

/-- All parameters, those without a target among them. -/
theorem foldlM_addParam_read {params : List (String × String)} {members : Members} {updates : Updates}
    (read : MembersRead decimals members updates)
    (clean : ∀ update ∈ params.filterMap readParam, update.1.Clean capacity) :
    ∃ members', params.foldlM (addParam decimals capacity) members = some members' ∧
      MembersRead decimals members' ((params.filterMap readParam).reverse ++ updates) := by
  induction params generalizing members updates with
  | nil => exact ⟨members, rfl, read⟩
  | cons param rest ih =>
    rw [List.foldlM_cons]
    cases named : paramTarget param.1 with
    | none =>
      have skipped : readParam param = none := by rw [readParam, named, Option.map_none]
      have kept : addParam decimals capacity members param = some members := by rw [addParam, named]
      rw [List.filterMap_cons_none skipped] at clean ⊢
      rw [kept, Option.bind_eq_bind, Option.bind_some]
      exact ih read clean
    | some target =>
      have taken : readParam param = some (target, param.2) := by rw [readParam, named, Option.map_some]
      rw [List.filterMap_cons_some taken] at clean ⊢
      obtain ⟨members', added, read'⟩ := addParam_read read named (clean _ List.mem_cons_self)
      obtain ⟨last, folded, readLast⟩ := ih read' fun update member => clean update (List.mem_cons_of_mem _ member)
      refine ⟨last, ?_, ?_⟩
      · rw [added, Option.bind_eq_bind, Option.bind_some, folded]
      · rwa [List.reverse_cons, List.append_assoc, List.singleton_append]

end Reading

/-! ## What a batch gives -/

section Batch

variable {decimals : Decimals} {capacity : Nat} {batch : MetricBatch decimals capacity}

/-- The batch has one text for the target, under indices from one. -/
inductive MetricBatch.Gives (batch : MetricBatch decimals capacity) : ParamTarget → String → Prop where
  | metricName {i metric} (found : batch.data[i]? = some metric) :
    batch.Gives (.field (i + 1) "MetricName") metric.metricName
  | unit {i metric} (found : batch.data[i]? = some metric) : batch.Gives (.field (i + 1) "Unit") metric.unit
  | value {i metric} (found : batch.data[i]? = some metric) : batch.Gives (.field (i + 1) "Value") metric.value.text
  | dimensionName {i metric j dim} (found : batch.data[i]? = some metric)
    (dimFound : metric.dimensions[j]? = some dim) : batch.Gives (.dimension (i + 1) (j + 1) "Name") dim.1
  | dimensionValue {i metric j dim} (found : batch.data[i]? = some metric)
    (dimFound : metric.dimensions[j]? = some dim) : batch.Gives (.dimension (i + 1) (j + 1) "Value") dim.2

theorem MetricBatch.Gives.unique {target target' : ParamTarget} {value value' : String}
    (given : batch.Gives target value) (again : batch.Gives target' value') (same : target = target') :
    value = value' := by
  cases given <;> cases again <;> grind

theorem mem_zipIdx_one {α : Type} {l : List α} {x : α} {index : Nat} :
    (x, index) ∈ l.zipIdx 1 ↔ ∃ i, index = i + 1 ∧ l[i]? = some x := by
  rw [List.mk_mem_zipIdx_iff_le_and_getElem?_sub]
  constructor
  · rintro ⟨positive, found⟩
    exact ⟨index - 1, by omega, found⟩
  · rintro ⟨i, rfl, found⟩
    exact ⟨by omega, found⟩

theorem MetricBatch.index_fits (batch : MetricBatch decimals capacity) (addressable : capacity < 2 ^ 64) {i : Nat}
    {metric : MetricInput decimals} (found : batch.data[i]? = some metric) : i + 1 < 2 ^ 64 := by
  obtain ⟨inside, -⟩ := List.getElem?_eq_some_iff.mp found
  have := batch.fits
  omega

theorem MetricBatch.dimension_fits (batch : MetricBatch decimals capacity) {i j : Nat}
    {metric : MetricInput decimals} {dim : String × String} (found : batch.data[i]? = some metric)
    (dimFound : metric.dimensions[j]? = some dim) : j + 1 ≤ capacity := by
  obtain ⟨inside, -⟩ := List.getElem?_eq_some_iff.mp dimFound
  have := batch.dimensionsFit metric (List.mem_of_getElem? found)
  omega

theorem MetricBatch.Gives.clean {target : ParamTarget} {value : String} (given : batch.Gives target value) :
    target.Clean capacity := by
  cases given with
  | metricName found => exact (by decide : "MetricName" ≠ "Dimensions")
  | unit found => exact (by decide : "Unit" ≠ "Dimensions")
  | value found => exact (by decide : "Value" ≠ "Dimensions")
  | dimensionName found dimFound => exact ⟨Nat.succ_pos _, batch.dimension_fits found dimFound⟩
  | dimensionValue found dimFound => exact ⟨Nat.succ_pos _, batch.dimension_fits found dimFound⟩

theorem readParam_eq_some {param : String × String} {target : ParamTarget} {value : String} :
    readParam param = some (target, value) ↔ paramTarget param.1 = some target ∧ param.2 = value := by
  simp [readParam]

/-- What the parameters of a batch are read as. -/
theorem MetricBatch.mem_updates (batch : MetricBatch decimals capacity) (addressable : capacity < 2 ^ 64)
    (target : ParamTarget) (value : String) :
    (target, value) ∈ batch.params.filterMap readParam ↔ batch.Gives target value := by
  have header : ∀ param ∈ [("Action", "PutMetricData"), ("Namespace", batch.metricNamespace),
      ("Version", "2010-08-01")], readParam param = none := by
    have untargeted : ∀ key ∈ ["Action", "Namespace", "Version"], paramTarget key = none := by decide
    intro param member
    rw [readParam, untargeted param.1 ?_, Option.map_none]
    simp only [List.mem_cons, List.not_mem_nil, or_false] at member ⊢
    rcases member with rfl | rfl | rfl <;> simp
  have name := fun i (fits : i < 2 ^ 64) =>
    paramTarget_memberKey fits (show RustStr.stripPrefix "Dimensions.member.".toList "MetricName".toList = none from rfl)
  have unit := fun i (fits : i < 2 ^ 64) =>
    paramTarget_memberKey fits (show RustStr.stripPrefix "Dimensions.member.".toList "Unit".toList = none from rfl)
  have number := fun i (fits : i < 2 ^ 64) =>
    paramTarget_memberKey fits (show RustStr.stripPrefix "Dimensions.member.".toList "Value".toList = none from rfl)
  rw [List.mem_filterMap]
  constructor
  · rintro ⟨param, member, read⟩
    rcases List.mem_append.mp member with top | inner
    · rw [header param top] at read
      cases read
    · obtain ⟨⟨metric, index⟩, listed, member'⟩ := List.mem_flatMap.mp inner
      obtain ⟨i, rfl, found⟩ := mem_zipIdx_one.mp listed
      have fits := batch.index_fits addressable found
      rw [readParam_eq_some] at read
      obtain ⟨read, rfl⟩ := read
      rcases List.mem_append.mp member' with field | dimension
      · simp only [List.mem_cons, List.not_mem_nil, or_false] at field
        rcases field with rfl | rfl | rfl
        · cases (name _ fits).symm.trans read
          exact .metricName found
        · cases (unit _ fits).symm.trans read
          exact .unit found
        · cases (number _ fits).symm.trans read
          exact .value found
      · obtain ⟨⟨dim, dimIndex⟩, dimListed, dimMember⟩ := List.mem_flatMap.mp dimension
        obtain ⟨j, rfl, dimFound⟩ := mem_zipIdx_one.mp dimListed
        have dimFits := (batch.dimension_fits found dimFound).trans_lt addressable
        simp only [dimensionParams, List.mem_cons, List.not_mem_nil, or_false] at dimMember
        rcases dimMember with rfl | rfl
        · cases (paramTarget_dimensionKey fits dimFits "Name").symm.trans read
          exact MetricBatch.Gives.dimensionName found dimFound
        · cases (paramTarget_dimensionKey fits dimFits "Value").symm.trans read
          have given : batch.Gives (.dimension (i + 1) (j + 1) "Value") dim.2 := .dimensionValue found dimFound
          exact given
  · have inside : ∀ {i metric param}, batch.data[i]? = some metric → param ∈ metricParams (metric, i + 1) →
        param ∈ batch.params := by
      intro i metric param found member
      exact List.mem_append_right _ (List.mem_flatMap.mpr ⟨_, mem_zipIdx_one.mpr ⟨i, rfl, found⟩, member⟩)
    have insideDimension : ∀ {i metric j dim param}, batch.data[i]? = some metric →
        metric.dimensions[j]? = some dim → param ∈ dimensionParams (i + 1) (dim, j + 1) → param ∈ batch.params := by
      intro i metric j dim param found dimFound member
      exact inside found
        (List.mem_append_right _ (List.mem_flatMap.mpr ⟨_, mem_zipIdx_one.mpr ⟨j, rfl, dimFound⟩, member⟩))
    intro given
    cases given with
    | metricName found =>
      refine ⟨_, inside found (List.mem_append_left _ List.mem_cons_self), readParam_eq_some.mpr ⟨?_, rfl⟩⟩
      exact name _ (batch.index_fits addressable found)
    | unit found =>
      refine ⟨_, inside found (List.mem_append_left _ (List.mem_cons_of_mem _ List.mem_cons_self)),
        readParam_eq_some.mpr ⟨?_, rfl⟩⟩
      exact unit _ (batch.index_fits addressable found)
    | value found =>
      refine ⟨_, inside found (List.mem_append_left _ (List.mem_cons_of_mem _ (List.mem_cons_of_mem _
        List.mem_cons_self))), readParam_eq_some.mpr ⟨?_, rfl⟩⟩
      exact number _ (batch.index_fits addressable found)
    | dimensionName found dimFound =>
      refine ⟨_, insideDimension found dimFound List.mem_cons_self, readParam_eq_some.mpr ⟨?_, rfl⟩⟩
      exact paramTarget_dimensionKey (batch.index_fits addressable found)
        ((batch.dimension_fits found dimFound).trans_lt addressable) _
    | dimensionValue found dimFound =>
      refine ⟨_, insideDimension found dimFound (List.mem_cons_of_mem _ List.mem_cons_self),
        readParam_eq_some.mpr ⟨?_, rfl⟩⟩
      exact paramTarget_dimensionKey (batch.index_fits addressable found)
        ((batch.dimension_fits found dimFound).trans_lt addressable) _

end Batch

/-! ## The metrics of a form -/

theorem keys_eq_range' {members : Members} {n : Nat}
    (known : ∀ index, members[index]?.isSome = true ↔ 1 ≤ index ∧ index ≤ n) : members.keys = List.range' 1 n := by
  refine List.Pairwise.eq_of_mem_iff (r := (· < ·)) ?_ List.pairwise_lt_range' fun index => ?_
  · exact Std.ExtTreeMap.ordered_keys.imp fun below => compare_lt_iff_lt.mp below
  · rw [Std.ExtTreeMap.mem_keys, Std.ExtTreeMap.mem_iff_isSome_getElem?, known, List.mem_range'_1]
    omega

theorem toList_map_eq {members : Members} {n : Nat} {β : Type} (f : List (String × Json) → β)
    (known : ∀ index, members[index]?.isSome = true ↔ 1 ≤ index ∧ index ≤ n) :
    members.toList.map (fun member => f member.2) = (List.range' 1 n).map fun index => f (memberFields members index) := by
  rw [← keys_eq_range' known, ← Std.ExtTreeMap.map_fst_toList_eq_keys, List.map_map]
  refine List.map_congr_left fun member listed => ?_
  rw [Function.comp_apply, memberFields, Std.ExtTreeMap.mem_toList_iff_getElem?_eq_some.mp listed, Option.getD_some]

section Transport

variable {decimals : Decimals} {capacity : Nat} {batch : MetricBatch decimals capacity}

/-- The metric as JSON gives it. -/
def MetricInput.datum (metric : MetricInput decimals) (metricNamespace : String) (now : Int) :
    MetricDatum decimals.F where
  metricNamespace := metricNamespace
  metricName := metric.metricName
  dimensions := metric.dimensions
  timestamp := now
  value := (asF64? decimals metric.value.json).getD (decimals.ofInt 0)
  unit := metric.unit

/-- The metric as a form gives it: a text that is read as a number is no text. -/
def MetricInput.formDatum (metric : MetricInput decimals) (metricNamespace : String) (now : Int) :
    MetricDatum decimals.F :=
  { metric.datum metricNamespace now with
    metricName := if decimals.read metric.metricName = none then metric.metricName else ""
    unit := if decimals.read metric.unit = none then metric.unit else "None" }

theorem readDimension_json (dim : String × String) : readDimension (dimensionJson dim) = some dim := rfl

/-- The dimensions of a member are those of the metric. -/
theorem DimensionsRead.filterMap {updates : Updates} {dims : List (List (String × Json))} {i : Nat}
    {metric : MetricInput decimals} (found : batch.data[i]? = some metric)
    (given : ∀ target value, (target, value) ∈ updates ↔ batch.Gives target value)
    (read : DimensionsRead (i + 1) dims updates) :
    (dims.map Json.obj).filterMap readDimension = metric.dimensions := by
  have lookup : ∀ target value, batch.Gives target value → updates.lookup target = some value :=
    fun target value gives => lookup_of_mem ((given target value).mpr gives)
      fun other member => ((given target other).mp member).unique gives rfl
  have field : ∀ (j : Nat) (dim : String × String), metric.dimensions[j]? = some dim →
      ((dims[j]?).getD []).lookup "Name" = some (.str dim.1) ∧
        ((dims[j]?).getD []).lookup "Value" = some (.str dim.2) := by
    intro j dim dimFound
    rw [read.fields, read.fields, lookup _ _ (.dimensionName found dimFound),
      lookup _ _ (.dimensionValue found dimFound)]
    exact ⟨rfl, rfl⟩
  have length : dims.length = metric.dimensions.length := by
    refine le_antisymm (not_lt.mp fun more => ?_) (not_lt.mp fun fewer => ?_)
    · obtain ⟨dimIndex, name, value, below, member⟩ := read.reached _ more
      cases (given _ _).mp member with
      | dimensionName found' dimFound =>
        cases Option.some.inj (found.symm.trans found')
        obtain ⟨inside, -⟩ := List.getElem?_eq_some_iff.mp dimFound
        omega
      | dimensionValue found' dimFound =>
        cases Option.some.inj (found.symm.trans found')
        obtain ⟨inside, -⟩ := List.getElem?_eq_some_iff.mp dimFound
        omega
    · have named := (field dims.length _ (List.getElem?_eq_getElem fewer)).1
      simp at named
  have each : (dims.map Json.obj).map readDimension = metric.dimensions.map some := by
    refine List.ext_getElem? fun j => ?_
    simp only [List.getElem?_map]
    cases dimFound : metric.dimensions[j]? with
    | none => rw [List.getElem?_eq_none (length ▸ List.getElem?_eq_none_iff.mp dimFound)]; rfl
    | some dim =>
      obtain ⟨inside, -⟩ := List.getElem?_eq_some_iff.mp dimFound
      obtain ⟨name, value⟩ := field j dim dimFound
      rw [List.getElem?_eq_getElem (length ▸ inside), Option.getD_some] at name value
      rw [List.getElem?_eq_getElem (length ▸ inside)]
      simp [readDimension, strParam, Json.get?, name, value, Json.asStr?]
  have flattened : ∀ l : List Json, l.filterMap readDimension = (l.map readDimension).filterMap id := by
    intro l
    rw [List.filterMap_map, Function.id_comp]
  rw [flattened, each, List.filterMap_map, Function.id_comp, List.filterMap_some]

theorem readDatum_member {members : Members} {updates : Updates} (read : MembersRead decimals members updates)
    (given : ∀ target value, (target, value) ∈ updates ↔ batch.Gives target value) {i : Nat}
    {metric : MetricInput decimals} (found : batch.data[i]? = some metric) (metricNamespace : String) (now : Int) :
    readDatum decimals metricNamespace now (.obj (memberFields members (i + 1))) =
      metric.formDatum metricNamespace now := by
  have field : ∀ name text, name ≠ "Dimensions" → batch.Gives (.field (i + 1) name) text →
      (memberFields members (i + 1)).lookup name = some (coerceValue decimals text) := by
    intro name text plain gives
    rw [read.fields _ _ plain, lookup_of_mem ((given _ _).mpr gives)
      fun other member => ((given _ other).mp member).unique gives rfl]
    rfl
  have name := field "MetricName" _ (by decide) (.metricName found)
  have unit := field "Unit" _ (by decide) (.unit found)
  have value := field "Value" _ (by decide) (.value found)
  obtain ⟨dims, dimsFound, dimsRead⟩ := read.dimensions (i + 1)
  have dimensions : ((((memberFields members (i + 1)).lookup "Dimensions").bind Json.asArray?).map
      (List.filterMap readDimension)).getD [] = metric.dimensions := by
    rw [← dimsRead.filterMap found given]
    cases present : (memberFields members (i + 1)).lookup "Dimensions" with
    | none =>
      rw [present, Option.getD_none, Json.arr.injEq] at dimsFound
      rw [← dimsFound]
      rfl
    | some other =>
      rw [present, Option.getD_some] at dimsFound
      subst dimsFound
      rfl
  rw [readDatum, MetricInput.formDatum, MetricInput.datum]
  simp only [strParam, Json.get?, name, unit, value, dimensions, Option.bind_some, asStr?_coerceValue,
    asF64?_coerceValue, read_text]
  congr 1
  · split <;> rfl
  · split <;> rfl

/-- The metrics of a form, in whatever order its parameters are visited. -/
theorem queryMetricData_form (addressable : capacity < 2 ^ 64) {visited : List (String × String)}
    (order : visited.Perm batch.params) (queryParams : List (String × String)) (metricNamespace : String) (now : Int) :
    (queryMetricData decimals capacity visited queryParams).map (List.map (readDatum decimals metricNamespace now)) =
      some (batch.data.map (·.formDatum metricNamespace now)) := by
  have nonempty : visited ≠ [] := fun nothing => by
    rw [nothing] at order
    simpa [MetricBatch.params] using order.length_eq
  have updates : ∀ target value, (target, value) ∈ visited.filterMap readParam ↔ batch.Gives target value :=
    fun target value => (order.filterMap readParam).mem_iff.trans (batch.mem_updates addressable target value)
  obtain ⟨members, folded, read⟩ := foldlM_addParam_read (membersRead_empty decimals)
    fun update member => ((updates update.1 update.2).mp member).clean
  rw [List.append_nil] at read
  have given : ∀ target value, (target, value) ∈ (visited.filterMap readParam).reverse ↔ batch.Gives target value :=
    fun target value => List.mem_reverse.trans (updates target value)
  have known : ∀ index, members[index]?.isSome = true ↔ 1 ≤ index ∧ index ≤ batch.data.length := by
    intro index
    rw [read.known]
    constructor
    · rintro ⟨⟨target, value⟩, member, rfl⟩
      have below : ∀ {i : Nat} {metric : MetricInput decimals}, batch.data[i]? = some metric →
          1 ≤ i + 1 ∧ i + 1 ≤ batch.data.length := by
        intro i metric found
        obtain ⟨inside, -⟩ := List.getElem?_eq_some_iff.mp found
        omega
      cases (given target value).mp member with
      | metricName found => exact below found
      | unit found => exact below found
      | value found => exact below found
      | dimensionName found _ => exact below found
      | dimensionValue found _ => exact below found
    · rintro ⟨positive, below⟩
      obtain ⟨i, rfl⟩ : ∃ i, index = i + 1 := ⟨index - 1, by omega⟩
      have found := List.getElem?_eq_getElem (show i < batch.data.length from below)
      exact ⟨_, (given _ _).mpr (.metricName found), rfl⟩
  rw [queryMetricData, if_neg nonempty, folded, Option.map_some, Option.map_some, List.map_map]
  congr 1
  refine (toList_map_eq (fun fields => readDatum decimals metricNamespace now (.obj fields)) known).trans ?_
  refine List.ext_getElem (by simp) fun i inside inside' => ?_
  rw [List.getElem_map, List.getElem_map, List.getElem_range']
  rw [List.length_map] at inside'
  rw [Nat.one_mul, Nat.add_comm]
  exact readDatum_member read given (List.getElem?_eq_getElem inside') metricNamespace now

theorem MetricBatch.mem_params {param : String × String} (member : param ∈ batch.params) :
    param.1 = "Action" ∨ param.1 = "Version" ∨ param = ("Namespace", batch.metricNamespace) ∨
      ∃ index field, param.1 = memberKey index field := by
  rcases List.mem_append.mp member with top | inner
  · simp only [List.mem_cons, List.not_mem_nil, or_false] at top
    rcases top with rfl | rfl | rfl
    · exact .inl rfl
    · exact .inr (.inr (.inl rfl))
    · exact .inr (.inl rfl)
  · refine .inr (.inr (.inr ?_))
    obtain ⟨⟨metric, index⟩, -, member'⟩ := List.mem_flatMap.mp inner
    rcases List.mem_append.mp member' with field | dimension
    · simp only [List.mem_cons, List.not_mem_nil, or_false] at field
      rcases field with rfl | rfl | rfl <;> exact ⟨index, _, rfl⟩
    · obtain ⟨⟨dim, dimIndex⟩, -, dimMember⟩ := List.mem_flatMap.mp dimension
      simp only [dimensionParams, List.mem_cons, List.not_mem_nil, or_false] at dimMember
      rcases dimMember with rfl | rfl <;> exact ⟨index, _, rfl⟩

theorem memberKey_ne {key : String} (plain : RustStr.stripPrefix "MetricData.member.".toList key.toList = none)
    (index : Nat) (field : String) : memberKey index field ≠ key := by
  rintro rfl
  rw [stripPrefix_memberKey] at plain
  cases plain

/-- Of the fields of the body only the namespace is one that `PutMetricData` asks for. -/
theorem SentAsForm.body_fields {form : MetricRequest} (sent : SentAsForm form batch) :
    strParam form.body "Namespace" = some batch.metricNamespace ∧ form.body.get? "MetricData" = none := by
  obtain ⟨params, order, body⟩ := sent.sent
  have fields : ∀ key value, (key, value) ∈ ((params.filter fun param => param.1 ≠ "Action" ∧ param.1 ≠ "Version").map
      fun param => (param.1, Json.str param.2)) →
        key = "Namespace" ∧ value = .str batch.metricNamespace ∨ ∃ index field, key = memberKey index field := by
    intro key value member
    obtain ⟨param, kept, same⟩ := List.mem_map.mp member
    obtain ⟨listed, other⟩ := List.mem_filter.mp kept
    have other := of_decide_eq_true other
    obtain ⟨rfl, rfl⟩ := Prod.mk.inj same
    rcases MetricBatch.mem_params (order.mem_iff.mp listed) with action | version | rfl | named
    · exact absurd action other.1
    · exact absurd version other.2
    · exact .inl ⟨rfl, rfl⟩
    · exact .inr named
  have namespaceListed : ("Namespace", batch.metricNamespace) ∈ batch.params :=
    List.mem_append_left _ (List.mem_cons_of_mem _ List.mem_cons_self)
  rw [body]
  constructor
  · have found : (queryBody params).get? "Namespace" = some (.str batch.metricNamespace) := by
      refine lookup_of_mem (List.mem_map.mpr ⟨_, List.mem_filter.mpr ⟨order.mem_iff.mpr namespaceListed, ?_⟩, rfl⟩) ?_
      · exact decide_eq_true ⟨(by decide : "Namespace" ≠ "Action"), (by decide : "Namespace" ≠ "Version")⟩
      · intro other member
        rcases fields _ _ member with ⟨-, same⟩ | ⟨index, field, same⟩
        · exact same
        · exact absurd same.symm (memberKey_ne (by decide) index field)
    rw [strParam, found]
    rfl
  · refine List.lookup_eq_none_iff.mpr fun param member => ?_
    rw [bne_iff_ne]
    rcases fields param.1 param.2 member with ⟨same, -⟩ | ⟨index, field, same⟩
    · rw [same]
      decide
    · rw [same]
      exact (memberKey_ne (by decide) index field).symm

theorem metricsPut_form (addressable : capacity < 2 ^ 64) {form : MetricRequest} (sent : SentAsForm form batch) :
    form.metricsPut decimals capacity = some (batch.data.map (·.formDatum batch.metricNamespace form.now)) := by
  obtain ⟨named, noData⟩ := sent.body_fields
  rw [MetricRequest.metricsPut, named]
  simp only
  rw [MetricRequest.metricData, noData, Option.bind_none]
  simp only [sent.protocol, ↓reduceIte]
  exact queryMetricData_form addressable sent.visited form.queryParams batch.metricNamespace form.now

theorem metricsPut_json {json : MetricRequest} (sent : json.body = batch.json) :
    json.metricsPut decimals capacity = some (batch.data.map (·.datum batch.metricNamespace json.now)) := by
  have named : strParam json.body "Namespace" = some batch.metricNamespace := by
    rw [sent]
    rfl
  have data : (json.body.get? "MetricData").bind Json.asArray? = some (batch.data.map MetricInput.json) := by
    rw [sent]
    rfl
  rw [MetricRequest.metricsPut, named]
  simp only
  rw [MetricRequest.metricData, data, Option.map_some, List.map_map]
  congr 1
  refine List.map_congr_left fun metric _ => ?_
  have dimensions : (metric.dimensions.map dimensionJson).filterMap readDimension = metric.dimensions := by
    rw [List.filterMap_map, show readDimension ∘ dimensionJson = some from funext readDimension_json,
      List.filterMap_some]
  rw [MetricInput.datum, ← dimensions]
  rfl

theorem putMetricData_snd {req : MetricRequest} {metricNamespace : String}
    (named : strParam req.body "Namespace" = some metricNamespace) (metrics : List (MetricDatum decimals.F)) :
    (putMetricData decimals capacity req metrics).map Prod.snd =
      (req.metricsPut decimals capacity).map (metrics ++ ·) := by
  rw [putMetricData, named]
  exact Option.map_map _ _ _

/-! ## When they agree -/

theorem formDatum_eq_datum_iff (metric : MetricInput decimals) (metricNamespace : String) (now : Int) :
    metric.formDatum metricNamespace now = metric.datum metricNamespace now ↔
      decimals.read metric.metricName = none ∧ decimals.read metric.unit = none := by
  have kept : ∀ default text : String, (∀ c ∈ default.toList, c.isDigit = false) →
      ((if decimals.read text = none then text else default) = text ↔ decimals.read text = none) := by
    intro default text noDigit
    cases value : decimals.read text with
    | none => simp
    | some f =>
      simp only [reduceCtorEq, ↓reduceIte, iff_false]
      rintro rfl
      obtain ⟨c, member, digit⟩ := decimals.digits _ f value
      rw [noDigit c member] at digit
      cases digit
  rw [← kept "" metric.metricName (by simp), ← kept "None" metric.unit (by simp)]
  simp [MetricInput.formDatum, MetricInput.datum]

theorem transportsAgree_iff (addressable : capacity < 2 ^ 64) :
    TransportsAgree batch ↔ PlainTexts batch.data := by
  have put : ∀ form json : MetricRequest, SentAsForm form batch → json.body = batch.json → form.now = json.now →
      ∀ metrics, (putMetricData decimals capacity form metrics).map Prod.snd =
        (putMetricData decimals capacity json metrics).map Prod.snd ↔ PlainTexts batch.data := by
    intro form json sent body now metrics
    have named : strParam json.body "Namespace" = some batch.metricNamespace := by
      rw [body]
      rfl
    rw [putMetricData_snd sent.body_fields.1, putMetricData_snd named, metricsPut_form addressable sent,
      metricsPut_json body, Option.map_some, Option.map_some, Option.some.injEq, List.append_right_inj, now,
      List.map_inj_left]
    exact forall₂_congr fun metric _ => formDatum_eq_datum_iff metric _ _
  constructor
  · intro agree
    let form : MetricRequest :=
      { body := queryBody batch.params
        contentType := some "application/x-www-form-urlencoded"
        formParams := batch.params }
    have sent : SentAsForm form batch := ⟨rfl, .refl _, _, .refl _, rfl⟩
    let json : MetricRequest := { body := batch.json, contentType := none }
    exact (put form json sent rfl rfl []).mp (agree form json sent rfl rfl [])
  · intro plain form json sent body now metrics
    exact (put form json sent body now metrics).mpr plain

end Transport

/-! ## Panics -/

section Panics

variable (decimals : Decimals) (capacity : Nat)

theorem addParam_ne_none {param : String × String} (fits : ∀ index dimIndex name,
    paramTarget param.1 = some (.dimension index dimIndex name) → 0 < dimIndex ∧ dimIndex ≤ capacity)
    (members : Members) : addParam decimals capacity members param ≠ none := by
  rw [addParam]
  split
  · simp
  · simp
  · simp
  · next index dimIndex name target =>
    have inside : ¬ (dimIndex = 0 ∨ capacity < dimIndex) := by
      have := fits index dimIndex name target
      omega
    simp only [if_neg inside]
    split
    · simp
    · simp

theorem foldlM_addParam_ne_none {params : List (String × String)} (fits : IndicesFit capacity params)
    (members : Members) : params.foldlM (addParam decimals capacity) members ≠ none := by
  induction params generalizing members with
  | nil => simp
  | cons param rest ih =>
    rw [List.foldlM_cons]
    cases added : addParam decimals capacity members param with
    | none => exact absurd added (addParam_ne_none decimals capacity (fits param List.mem_cons_self) members)
    | some members' => exact ih (fun other member => fits other (List.mem_cons_of_mem param member)) members'

theorem neverPanics_iff (params : List (String × String)) :
    NeverPanics decimals capacity params ↔ IndicesFit capacity params := by
  constructor
  · intro never param member index dimIndex name target
    by_contra unfit
    obtain ⟨front, back, rfl⟩ := List.append_of_mem member
    have outside : dimIndex = 0 ∨ capacity < dimIndex := by omega
    have panics : addParam decimals capacity ∅ param = none := by
      rw [addParam, target]
      simp [outside]
    refine (never (param :: (front ++ back)) List.perm_middle.symm).1 ?_
    rw [queryMetricData, if_neg (List.cons_ne_nil _ _), List.foldlM_cons, panics]
    rfl
  · intro fits visited order
    have each : ∀ params, IndicesFit capacity params → (params.foldlM (addParam decimals capacity) ∅).map
        (fun members => members.toList.map fun member => Json.obj member.2) ≠ none := by
      intro params fits panics
      exact foldlM_addParam_ne_none decimals capacity fits ∅ (Option.map_eq_none_iff.mp panics)
    have fits' : IndicesFit capacity visited := fun param member => fits param (order.mem_iff.mp member)
    constructor
    · rw [queryMetricData]
      split
      · exact each [] nofun
      · exact each visited fits'
    · rw [queryMetricData, if_pos rfl]
      exact each visited fits'

end Panics

/-- For every list of metrics and any parameters. -/
theorem metric_forms_iff (decimals : Decimals) (capacity : Fin (2 ^ 64)) (batch : MetricBatch decimals capacity)
    (params : List (String × String)) :
    TransportsAgree batch ∧ NeverPanics decimals capacity params ↔
      PlainTexts batch.data ∧ IndicesFit capacity params :=
  and_congr (transportsAgree_iff capacity.isLt) (neverPanics_iff decimals capacity params)

section Example

def fiveNamed : MetricBatch wholeNumbers 1000 where
  metricNamespace := "app"
  data := [⟨"5", [], "Count", .natural 1 (by decide)⟩]
  fits := by decide
  dimensionsFit := by simp

/-- A metric by the name of `5` has none in a form; a dimension with index zero is subtracted from. -/
theorem number_names_and_index_zero : ¬ TransportsAgree fiveNamed ∧
    ¬ NeverPanics wholeNumbers 1000 [("MetricData.member.1.Dimensions.member.0.Name", "host")] := by
  constructor
  · rw [transportsAgree_iff (by decide)]
    intro plain
    have none : wholeNumbers.read "5" = none := (plain _ List.mem_cons_self).1
    have five : wholeNumbers.read "5" = some (5 : Int) := rfl
    rw [none] at five
    cases five
  · rw [neverPanics_iff]
    intro fits
    have target : paramTarget "MetricData.member.1.Dimensions.member.0.Name" = some (.dimension 1 0 "Name") := by
      decide
    exact absurd (fits _ List.mem_cons_self _ _ _ target).1 (by decide)

end Example

end Openstack.CloudWatch

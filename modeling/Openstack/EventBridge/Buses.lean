import Openstack.EventBridge.Routing
import Openstack.Lib.Run

/-!
# Event buses

The operations on rules and targets (`provider.rs`, lines 341-393 and 432-514), for one account and
region, and when the buses stay apart: the rules are kept in one map by their names, whatever bus they
are on. Every request names a bus with `EventBusName`, and none means `default`. Schedules,
descriptions and input paths play no part in the routing of events.
-/
namespace Openstack.EventBridge

variable {rule : EventRule} {found : Option EventRule}

inductive Operation where
  | putRule
  | deleteRule
  | putTargets
  | removeTargets
  deriving DecidableEq, Repr

structure Act where
  operation : Operation
  body : Json

inductive Answer where
  | rule (arn : String)
  | done
  | noFailures
  | error (code message : String) (status : Nat)
  deriving DecidableEq, Repr

/-- `str_param`. -/
def strParam (body : Json) (key : String) : Option String := (body.get? key).bind Json.asStr?

structure RuleEnv where
  accountId : String
  region : String
  codec : Codec

def nameRequired (field : String) : Answer := .error "ValidationError" (field ++ " is required") 400

section Operations

variable (env : RuleEnv) (store : EventBridgeStore) (body : Json)

/-- The rule that `PutRule` makes of the one it finds, whose targets stay. -/
def ruleFrom (name : String) (found : Option EventRule) : EventRule where
  name := (found.map (·.name)).getD name
  eventBusName := busName body
  eventPattern := (strParam body "EventPattern").bind env.codec.parse
  state := (strParam body "State").getD "ENABLED"
  targets := (found.map (·.targets)).getD ∅

def putRule : Answer × EventBridgeStore :=
  match strParam body "Name" with
  | none => (nameRequired "Name", store)
  | some name =>
    (.rule ("arn:aws:events:" ++ env.region ++ ":" ++ env.accountId ++ ":rule/" ++ name),
      { store with rules := store.rules.insert name (ruleFrom env body name store.rules[name]?) })

/-- The bus is not read. -/
def deleteRule : Answer × EventBridgeStore :=
  match strParam body "Name" with
  | none => (nameRequired "Name", store)
  | some name => (.done, { store with rules := store.rules.erase name })

def RuleTarget.ofJson (target : Json) : RuleTarget where
  id := (strParam target "Id").getD ""
  arn := (strParam target "Arn").getD ""
  input := strParam target "Input"

def givenTargets : List RuleTarget :=
  (((body.get? "Targets").bind Json.asArray?).getD []).map RuleTarget.ofJson

def givenIds : List String :=
  (((body.get? "Ids").bind Json.asArray?).getD []).filterMap Json.asStr?

def insertTargets (given : List RuleTarget) (targets : StrMap RuleTarget) : StrMap RuleTarget :=
  given.foldl (fun targets target => targets.insert target.id target) targets

def eraseTargets (ids : List String) (targets : StrMap RuleTarget) : StrMap RuleTarget :=
  ids.foldl (fun targets id => targets.erase id) targets

def putTargets : Answer × EventBridgeStore :=
  match strParam body "Rule" with
  | none => (nameRequired "Rule", store)
  | some name =>
    match store.rules[name]? with
    | none => (.error "ResourceNotFoundException" ("Rule " ++ name ++ " not found") 404, store)
    | some rule =>
      (.noFailures, { store with
        rules := store.rules.insert name
          { rule with targets := insertTargets (givenTargets body) rule.targets } })

def removeTargets : Answer × EventBridgeStore :=
  match strParam body "Rule" with
  | none => (nameRequired "Rule", store)
  | some name =>
    match store.rules[name]? with
    | none => (.noFailures, store)
    | some rule =>
      (.noFailures, { store with
        rules := store.rules.insert name
          { rule with targets := eraseTargets (givenIds body) rule.targets } })

end Operations

def Act.ruleName (act : Act) : Option String :=
  match act.operation with
  | .putRule | .deleteRule => strParam act.body "Name"
  | .putTargets | .removeTargets => strParam act.body "Rule"

def Act.bus (act : Act) : String := busName act.body

def dispatch (env : RuleEnv) (store : EventBridgeStore) (act : Act) : Answer × EventBridgeStore :=
  match act.operation with
  | .putRule => putRule env store act.body
  | .deleteRule => deleteRule store act.body
  | .putTargets => putTargets store act.body
  | .removeTargets => removeTargets store act.body

def step (env : RuleEnv) (store : EventBridgeStore) (act : Act) : EventBridgeStore :=
  (dispatch env store act).2

section Statement

variable (env : RuleEnv)

/-- The rules on a bus. -/
def EventBridgeStore.on (store : EventBridgeStore) (bus : String) : EventBridgeStore :=
  { rules := store.rules.filter fun _ rule => rule.eventBusName == bus }

/-- The rules of a bus as the acts on that bus alone make them. -/
def busStore (acts : List Act) (bus : String) : EventBridgeStore :=
  (acts.filter (·.bus = bus)).foldl (step env) {}

/-- The targets of the enabled rules whose pattern matches. -/
def busTargets (codec : Codec) (rules : EventBridgeStore) (envelope : Json) : List (String × Json) :=
  ((StrMap.values rules.rules).filter fun rule =>
      rule.state == "ENABLED" && eventMatchesPattern envelope rule.eventPattern).flatMap fun rule =>
    (StrMap.values rule.targets).map fun target => (target.arn, target.inputFor codec envelope)

/-- Every event goes to the targets of its bus, after any part of the run. -/
structure RoutesByBus (acts : List Act) : Prop where
  rules : ∀ before rest, acts = before ++ rest → ∀ bus,
    (before.foldl (step env) {}).on bus = busStore env before bus
  delivered : ∀ before rest, acts = before ++ rest → ∀ req eventIds,
    putEvents env.codec (before.foldl (step env) {}) req eventIds =
      ((eventIds.zip req.entries).flatMap fun e =>
        busTargets env.codec (busStore env before (busName e.2))
          (eventEnvelope env.codec req e.1 e.2)).filterMap fun target =>
        dispatchToTarget env.codec target.1 req.accountId req.region target.2

/-- The target given last under an id. -/
def lastGiven (given : List RuleTarget) (id : String) : Option RuleTarget :=
  given.reverse.find? (·.id = id)

/-- A rule of the name that the act gives is on the act's bus, or the act puts targets that the rule has
or removes targets that it has not. -/
def KeepsToBus (store : EventBridgeStore) (act : Act) : Prop :=
  ∀ name rule, act.ruleName = some name → store.rules[name]? = some rule →
    rule.eventBusName = act.bus ∨
    (act.operation = .putTargets ∧ ∀ id, ∀ target ∈ lastGiven (givenTargets act.body) id,
      rule.targets[id]? = some target) ∨
    (act.operation = .removeTargets ∧ ∀ id ∈ givenIds act.body, rule.targets[id]? = none)

end Statement

def effect (env : RuleEnv) (act : Act) (name : String) (found : Option EventRule) : Option EventRule :=
  match act.operation with
  | .putRule => some (ruleFrom env act.body name found)
  | .deleteRule => none
  | .putTargets => found.map fun rule =>
    { rule with targets := insertTargets (givenTargets act.body) rule.targets }
  | .removeTargets => found.map fun rule =>
    { rule with targets := eraseTargets (givenIds act.body) rule.targets }

section Effects

variable {env : RuleEnv} {store : EventBridgeStore} {act : Act} {name : String}

theorem step_of_unnamed (unnamed : act.ruleName = none) : step env store act = store := by
  obtain ⟨operation, body⟩ := act
  cases operation with
  | putRule | deleteRule =>
    have absent : strParam body "Name" = none := unnamed
    simp [step, dispatch, putRule, deleteRule, absent]
  | putTargets | removeTargets =>
    have absent : strParam body "Rule" = none := unnamed
    simp [step, dispatch, putTargets, removeTargets, absent]

theorem rules_step (named : act.ruleName = some name) (other : String) :
    (step env store act).rules[other]? =
      if name = other then effect env act name store.rules[name]? else store.rules[other]? := by
  obtain ⟨operation, body⟩ := act
  cases operation with
  | putRule =>
    have given : strParam body "Name" = some name := named
    simp only [step, dispatch, putRule, given, effect, StrMap.getElem?_insert]
  | deleteRule =>
    have given : strParam body "Name" = some name := named
    simp only [step, dispatch, deleteRule, given, effect, StrMap.getElem?_erase]
  | putTargets =>
    have given : strParam body "Rule" = some name := named
    cases found : store.rules[name]? with
    | none =>
      simp only [step, dispatch, putTargets, given, found, effect, Option.map_none]
      split
      · next same => rw [← same, found]
      · rfl
    | some rule =>
      simp [step, dispatch, putTargets, given, found, effect, StrMap.getElem?_insert]
  | removeTargets =>
    have given : strParam body "Rule" = some name := named
    cases found : store.rules[name]? with
    | none =>
      simp only [step, dispatch, removeTargets, given, found, effect, Option.map_none]
      split
      · next same => rw [← same, found]
      · rfl
    | some rule =>
      simp [step, dispatch, removeTargets, given, found, effect, StrMap.getElem?_insert]

theorem getElem?_insertTargets (given : List RuleTarget) (targets : StrMap RuleTarget) (id : String) :
    (insertTargets given targets)[id]? = (lastGiven given id).or targets[id]? := by
  induction given generalizing targets with
  | nil => rfl
  | cons target rest ih =>
    rw [insertTargets, List.foldl_cons, ← insertTargets, ih, StrMap.getElem?_insert, lastGiven,
      lastGiven, List.reverse_cons, List.find?_append, Option.or_assoc]
    by_cases same : target.id = id <;> simp [same]

theorem getElem?_eraseTargets (ids : List String) (targets : StrMap RuleTarget) (id : String) :
    (eraseTargets ids targets)[id]? = if id ∈ ids then none else targets[id]? := by
  induction ids generalizing targets with
  | nil => simp [eraseTargets]
  | cons first rest ih =>
    rw [eraseTargets, List.foldl_cons, ← eraseTargets, ih, StrMap.getElem?_erase]
    by_cases later : id ∈ rest
    · simp [later]
    · by_cases same : first = id
      · simp [same]
      · simp [later, same, Ne.symm same]

theorem insertTargets_eq_self_iff {given : List RuleTarget} {targets : StrMap RuleTarget} :
    insertTargets given targets = targets ↔
      ∀ id, ∀ target ∈ lastGiven given id, targets[id]? = some target := by
  constructor
  · intro same id target last
    have there := getElem?_insertTargets given targets id
    rw [same, Option.mem_def.mp last] at there
    exact there
  · intro there
    refine Std.ExtTreeMap.ext_getElem? fun id => ?_
    rw [getElem?_insertTargets]
    cases last : lastGiven given id with
    | none => rfl
    | some target => exact (there id target last).symm

theorem eraseTargets_eq_self_iff {ids : List String} {targets : StrMap RuleTarget} :
    eraseTargets ids targets = targets ↔ ∀ id ∈ ids, targets[id]? = none := by
  constructor
  · intro same id listed
    have there := getElem?_eraseTargets ids targets id
    rwa [same, if_pos listed] at there
  · intro absent
    refine Std.ExtTreeMap.ext_getElem? fun id => ?_
    rw [getElem?_eraseTargets]
    split
    · next listed => exact (absent id listed).symm
    · rfl

/-- When an act leaves a rule of another bus as it is. -/
theorem effect_elsewhere_iff (elsewhere : rule.eventBusName ≠ act.bus) :
    effect env act name (some rule) = some rule ↔
      (act.operation = .putTargets ∧ ∀ id, ∀ target ∈ lastGiven (givenTargets act.body) id,
        rule.targets[id]? = some target) ∨
      (act.operation = .removeTargets ∧ ∀ id ∈ givenIds act.body, rule.targets[id]? = none) := by
  obtain ⟨operation, body⟩ := act
  obtain ⟨ruleName, bus, pattern, state, targets⟩ := rule
  cases operation with
  | putRule =>
    have moved : busName body ≠ bus := fun same => elsewhere same.symm
    simp [effect, ruleFrom, moved]
  | deleteRule => simp [effect]
  | putTargets => simp [effect, insertTargets_eq_self_iff]
  | removeTargets => simp [effect, eraseTargets_eq_self_iff]

end Effects

section Steps

variable {env : RuleEnv} {store : EventBridgeStore} {act : Act} {name : String}

/-- The rule, when it is on the bus. -/
def onBus (found : Option EventRule) (bus : String) : Option EventRule :=
  found.filter (·.eventBusName == bus)

theorem rules_on (store : EventBridgeStore) (bus name : String) :
    (store.on bus).rules[name]? = onBus store.rules[name]? bus :=
  Std.ExtTreeMap.getElem?_filter'

theorem store_ext {a b : EventBridgeStore} (same : ∀ name : String, a.rules[name]? = b.rules[name]?) :
    a = b := by
  obtain ⟨rulesA⟩ := a
  obtain ⟨rulesB⟩ := b
  exact congrArg EventBridgeStore.mk (Std.ExtTreeMap.ext_getElem? fun {name} => same name)

theorem onBus_here : onBus (some rule) rule.eventBusName = some rule := by
  simp [onBus]

theorem onBus_elsewhere {bus : String} (elsewhere : rule.eventBusName ≠ bus) :
    onBus (some rule) bus = none := by
  simp [onBus, elsewhere]

/-- What an act leaves under the name of a rule is on the act's bus or on the bus where the rule was. -/
theorem bus_of_effect (made : effect env act name found = some rule) :
    rule.eventBusName = act.bus ∨ ∃ old, found = some old ∧ rule.eventBusName = old.eventBusName := by
  obtain ⟨operation, body⟩ := act
  cases operation with
  | putRule =>
    cases made
    exact Or.inl rfl
  | deleteRule => cases made
  | putTargets | removeTargets =>
    obtain ⟨old, rfl, rfl⟩ := Option.map_eq_some_iff.mp made
    exact Or.inr ⟨old, rfl, rfl⟩

/-- On the buses, an act on one name does what it does in the store of its bus. -/
def EffectApart (env : RuleEnv) (act : Act) (name : String) (found : Option EventRule) : Prop :=
  ∀ bus, onBus (effect env act name found) bus =
    if act.bus = bus then effect env act name (onBus found bus) else onBus found bus

/-- Rules of the act's own bus, or none under the name. -/
theorem effectApart_of_own (own : ∀ rule ∈ found, rule.eventBusName = act.bus) : EffectApart env act name found := by
  have made : ∀ rule ∈ effect env act name found, rule.eventBusName = act.bus := by
    intro rule member
    rcases bus_of_effect member with here | ⟨old, was, same⟩
    · exact here
    · exact same.trans (own old was)
  intro bus
  by_cases here : act.bus = bus
  · have kept : ∀ option : Option EventRule, (∀ rule ∈ option, rule.eventBusName = act.bus) →
        onBus option bus = option := by
      intro option all
      cases option with
      | none => rfl
      | some rule => rw [← here, ← all rule rfl, onBus_here]
    rw [if_pos here, kept _ made, kept _ own]
  · have gone : ∀ option : Option EventRule, (∀ rule ∈ option, rule.eventBusName = act.bus) →
        onBus option bus = none := by
      intro option all
      cases option with
      | none => rfl
      | some rule => exact onBus_elsewhere (by rw [all rule rfl]; exact here)
    rw [if_neg here, gone _ made, gone _ own]

theorem effectApart_iff_same (elsewhere : rule.eventBusName ≠ act.bus) :
    EffectApart env act name (some rule) ↔ effect env act name (some rule) = some rule := by
  constructor
  · intro apart
    have there := apart rule.eventBusName
    rw [if_neg (Ne.symm elsewhere), onBus_here] at there
    exact (Option.filter_eq_some_iff.mp there).1
  · intro same bus
    rw [same]
    by_cases here : act.bus = bus
    · rw [if_pos here, ← here, onBus_elsewhere elsewhere]
      rcases (effect_elsewhere_iff elsewhere).mp same with ⟨puts, -⟩ | ⟨removes, -⟩
      · simp [effect, puts]
      · simp [effect, removes]
    · rw [if_neg here]

theorem effectApart_iff : EffectApart env act name found ↔
    ∀ rule ∈ found, rule.eventBusName = act.bus ∨ effect env act name (some rule) = some rule := by
  cases found with
  | none => exact iff_of_true (effectApart_of_own (by simp)) (by simp)
  | some rule =>
    by_cases here : rule.eventBusName = act.bus
    · exact iff_of_true (effectApart_of_own (by simpa)) (by simp [here])
    · rw [effectApart_iff_same here]
      simp [here]

theorem stepsApart_of_unnamed (unnamed : act.ruleName = none) :
    Run.StepsApart (step env) Act.bus EventBridgeStore.on (step env) store act := by
  intro bus
  rw [step_of_unnamed unnamed, step_of_unnamed unnamed, ite_self]

theorem stepsApart_iff_effect (named : act.ruleName = some name) :
    Run.StepsApart (step env) Act.bus EventBridgeStore.on (step env) store act ↔
      EffectApart env act name store.rules[name]? := by
  constructor
  · intro apart bus
    have there := congrArg (fun s : EventBridgeStore => s.rules[name]?) (apart bus)
    rw [rules_on, rules_step named, if_pos rfl] at there
    rw [there]
    split
    · rw [rules_step named, if_pos rfl, rules_on]
    · rw [rules_on]
  · intro apart bus
    refine store_ext fun other => ?_
    rw [rules_on, rules_step named]
    by_cases same : name = other
    · subst same
      rw [if_pos rfl, apart bus]
      split
      · rw [rules_step named, if_pos rfl, rules_on]
      · rw [rules_on]
    · rw [if_neg same]
      split
      · rw [rules_step named, if_neg same, rules_on]
      · rw [rules_on]

/-- The buses stay apart in a step exactly when the act keeps to its bus. -/
theorem stepsApart_iff : Run.StepsApart (step env) Act.bus EventBridgeStore.on (step env) store act ↔
    KeepsToBus store act := by
  cases named : act.ruleName with
  | none =>
    refine ⟨fun _ name rule given => ?_, fun _ => stepsApart_of_unnamed named⟩
    rw [named] at given
    cases given
  | some name =>
    rw [stepsApart_iff_effect named, effectApart_iff]
    constructor
    · intro each other rule given stored
      obtain rfl : name = other := Option.some.inj (named.symm.trans given)
      by_cases here : rule.eventBusName = act.bus
      · exact Or.inl here
      · exact Or.inr ((effect_elsewhere_iff here).mp ((each rule stored).resolve_left here))
    · intro keeps rule stored
      by_cases here : rule.eventBusName = act.bus
      · exact Or.inl here
      · have same := (keeps name rule named stored).resolve_left here
        exact Or.inr ((effect_elsewhere_iff here).mpr same)

end Steps

theorem values_on (store : EventBridgeStore) (bus : String) : StrMap.values (store.on bus).rules =
    (StrMap.values store.rules).filter (·.eventBusName == bus) := by
  rw [StrMap.values, StrMap.values, EventBridgeStore.on, Std.ExtTreeMap.toList_filter, List.filter_map]
  rfl

/-- The targets of an entry are those of its bus. -/
theorem entryTargets_eq (codec : Codec) (store : EventBridgeStore) (req : PutEventsRequest)
    (eventId : String) (entry : Json) : entryTargets codec store req eventId entry =
      busTargets codec (store.on (busName entry)) (eventEnvelope codec req eventId entry) := by
  rw [entryTargets, busTargets, values_on, List.filter_filter]
  congr 2
  funext rule
  rw [EventRule.fires]
  cases rule.state == "ENABLED" <;> cases rule.eventBusName == busName entry <;> simp

theorem putEvents_of_rules {env : RuleEnv} {store : EventBridgeStore} {own : String → EventBridgeStore}
    (rules : ∀ bus, store.on bus = own bus) (req : PutEventsRequest) (eventIds : List String) :
    putEvents env.codec store req eventIds = ((eventIds.zip req.entries).flatMap fun e =>
      busTargets env.codec (own (busName e.2)) (eventEnvelope env.codec req e.1 e.2)).filterMap
        fun target => dispatchToTarget env.codec target.1 req.accountId req.region target.2 := by
  simp only [putEvents, dispatchTargets, entryTargets_eq, rules]

theorem on_empty (bus : String) : ({} : EventBridgeStore).on bus = {} := by
  refine store_ext fun name => ?_
  simp [rules_on, onBus]

/-- Events are routed bus by bus in the runs whose acts all keep to their bus, and in no others. -/
theorem routes_by_bus_iff (env : RuleEnv) (acts : List Act) :
    RoutesByBus env acts ↔ Run.AllSteps (step env) KeepsToBus {} acts := by
  have apart : Run.Apart (step env) Act.bus EventBridgeStore.on (step env) {} acts ↔
      Run.AllSteps (step env) KeepsToBus {} acts := by
    rw [Run.apart_iff_steps, Run.allSteps_iff, Run.allSteps_iff]
    simp only [stepsApart_iff]
  rw [← apart]
  constructor
  · intro routes before rest split bus
    rw [routes.rules before rest split bus, on_empty, busStore]
  · intro each
    have rules : ∀ before rest, acts = before ++ rest → ∀ bus,
        (before.foldl (step env) {}).on bus = busStore env before bus := by
      intro before rest split bus
      rw [each before rest split bus, on_empty, busStore]
    exact ⟨rules, fun before rest split => putEvents_of_rules (rules before rest split)⟩

section Example

/-- `{"source":["shop"]}`. -/
def shopPattern : String := "\x7b\"source\":[\"shop\"]\x7d"

/-- The parser and the printer on the texts of this run. -/
def shopCodec : Codec where
  parse text :=
    if text = shopPattern then some (.obj [("source", .arr [.str "shop"])])
    else if text = "\x7b\x7d" then some (.obj [])
    else none
  print
    | .str text => "\"" ++ text ++ "\""
    | _ => ""

def shopEnv : RuleEnv := ⟨"000000000000", "us-east-1", shopCodec⟩

def putOrders : Act := ⟨.putRule, .obj [("EventPattern", .str shopPattern), ("Name", .str "orders")]⟩

def putQueue : Act := ⟨.putTargets, .obj [("Rule", .str "orders"), ("Targets", .arr [.obj
  [("Arn", .str "arn:aws:sqs:us-east-1:000000000000:orders"), ("Id", .str "1"), ("Input", .str "paid")]])]⟩

/-- A rule with the same name on another bus. -/
def putAuditOrders : Act := ⟨.putRule, .obj [("EventBusName", .str "audit"),
  ("EventPattern", .str shopPattern), ("Name", .str "orders")]⟩

def shopEvents : PutEventsRequest where
  accountId := "000000000000"
  region := "us-east-1"
  entries := [.obj [("Detail", .str "\x7b\x7d"), ("DetailType", .str "order"), ("Source", .str "shop")]]
  time := "2024-01-01T00:00:00+00:00"

/-- The rule has gone over to the other bus, and the event finds no target. -/
theorem rule_moves_to_other_bus : ¬ RoutesByBus shopEnv [putOrders, putQueue, putAuditOrders] := by
  intro routes
  have sent := congrArg List.length
    (routes.delivered [putOrders, putQueue, putAuditOrders] [] rfl shopEvents ["1"])
  revert sent
  decide +kernel

end Example

end Openstack.EventBridge

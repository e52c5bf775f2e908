import Mathlib
import Openstack.CloudFormation.Template
import Openstack.Lib.AssocList
import Openstack.Lib.Substitution

/-!
# What templates mean

The intrinsic functions of a template, each applied to what its argument means, beside `resolve_value`
(`crates/services/cloudformation/src/provider.rs`, lines 78-200), which hands most functions the argument as it is
written and replaces the placeholders of `Fn::Sub` one name after the other.
-/
namespace Openstack.CloudFormation

open Substitution (Piece OwnOnly shown)

variable {items : List Json} {fields : List (String × Json)} {f : Fn} {u : Json}

/-! ## Meaning -/

inductive Fn where
  | ref | getAtt | join | sub | select | split
  deriving DecidableEq, Repr

def Fn.key : Fn → String
  | .ref => "Ref"
  | .getAtt => "Fn::GetAtt"
  | .join => "Fn::Join"
  | .sub => "Fn::Sub"
  | .select => "Fn::Select"
  | .split => "Fn::Split"

def Fn.all : List Fn := [.ref, .getAtt, .join, .sub, .select, .split]

/-- The function that an object calls. -/
def call? : List (String × Json) → Option (Fn × Json)
  | [(key, arg)] => (Fn.all.find? fun f => f.key = key).map (·, arg)
  | _ => none

def textOf (v : Json) : String := (v.asStr?).getD ""

/-- An argument and a list, as `Fn::Join` and `Fn::Select` take them. -/
def withList : Json → Option (Json × List Json)
  | .arr [first, .arr items] => some (first, items)
  | _ => none

/-- The parts of `Fn::Split`. -/
def splitParts : Json → Option (List String)
  | .arr [sep, s] =>
    some ((RustStr.split ((sep.asStr?).getD ",").toList (textOf s).toList).map String.ofList)
  | _ => none

section Meaning

variable (env : Env) (scope : Scope)

/-- The attribute that `Fn::GetAtt` names. -/
def attributeOf : Json → Option String
  | .arr [logical, attr] => scope.resources[textOf logical]?.map fun res => attributeText env res (textOf attr)
  | _ => none

/-- What `${name}` stands for in `Fn::Sub`. -/
def subValue (name : String) : Option String :=
  match scope.params[name]? with
  | some p => some p
  | none =>
    match scope.resources[name]? with
    | some res => some res.physicalId
    | none =>
      if name = "AWS::Region" then some env.region
      else if name = "AWS::AccountId" then some env.accountId
      else none

/-- The name at the start of a text that has a value. -/
def holeAt (text : List Char) : Option String :=
  (((RustStr.stripPrefix "$\x7b".toList text).bind (RustStr.before "\x7d".toList)).map String.ofList).filter
    fun name => (subValue env scope name).isSome

def subPieces (text : String) : List Piece := Substitution.pieces placeholder (holeAt env scope) 0 text.toList

def pieceMeaning : Piece → List Char
  | .char c => [c]
  | .hole name => ((subValue env scope name).getD "").toList

/-- All placeholders at once. -/
def subMeaning (text : String) : String := String.ofList ((subPieces env scope text).flatMap (pieceMeaning env scope))

/-- A function of what its argument means; none if it does not apply to it. -/
def Fn.apply (arg : Json) : Fn → Option Json
  | .ref => (arg.asStr?).map fun r => .str (refText env scope r)
  | .getAtt => (attributeOf env scope arg).map .str
  | .join => (withList arg).map fun (sep, items) => .str ((textOf sep).intercalate (items.map textOf))
  | .sub => (arg.asStr?).map fun s => .str (subMeaning env scope s)
  | .select => (withList arg).bind fun (index, items) => items[(index.asU64?).getD 0]?
  | .split => (splitParts arg).map fun ps => .arr (ps.map .str)

/-- What does not apply stays as it is, with its argument resolved. -/
def meaningBody (meaning : Json → Json) (v : Json) : Json :=
  match v with
  | .obj fields =>
    match call? fields with
    | some (f, arg) => (f.apply env scope (meaning arg)).getD (.obj [(f.key, meaning arg)])
    | none => .obj (fields.map fun (k, x) => (k, meaning x))
  | .arr items => .arr (items.map meaning)
  | other => other

def meaning : Json → Json := Json.recursion (meaningBody env scope) id

end Meaning

/-! ## Statement -/

/-- Constants, objects, arrays and calls of functions. -/
inductive IsTemplate : Json → Prop where
  | null : IsTemplate .null
  | bool b : IsTemplate (.bool b)
  | posInt n : IsTemplate (.posInt n)
  | negInt n : IsTemplate (.negInt n)
  | float text : IsTemplate (.float text)
  | str s : IsTemplate (.str s)
  | arr items (parts : ∀ x ∈ items, IsTemplate x) : IsTemplate (.arr items)
  | obj fields (plain : ∀ field ∈ fields, field.1 ∉ "Fn::If" :: Fn.all.map Fn.key)
    (parts : ∀ field ∈ fields, IsTemplate field.2) : IsTemplate (.obj fields)
  | call (f : Fn) arg (part : IsTemplate arg) : IsTemplate (.obj [(f.key, arg)])

structure Template where
  json : Json
  isTemplate : IsTemplate json

/-- A value and everything in it. -/
inductive Part (u : Json) : Json → Prop where
  | self : Part u u
  | item {x items} (member : x ∈ items) (part : Part u x) : Part u (.arr items)
  | field {field : String × Json} {fields} (member : field ∈ fields) (part : Part u field.2) : Part u (.obj fields)

section Statement

variable (env : Env) (scope : Scope)

def Env.ordered (paramOrder : List (String × String)) (resourceOrder : List (String × StackResource)) : Env :=
  { env with paramOrder := fun _ => paramOrder, resourceOrder := fun _ => resourceOrder }

/-- The value and all its parts resolve to what they mean, in whatever order the maps are visited. -/
def MeansRight (v : Json) : Prop :=
  ∀ paramOrder resourceOrder, paramOrder.Perm scope.params.toList → resourceOrder.Perm scope.resources.toList →
    ∀ u, Part u v → resolveValue (env.ordered paramOrder resourceOrder) scope u = meaning env scope u

/-- The names in the order in which `Fn::Sub` replaces them. -/
def rounds (paramOrder : List (String × String)) (resourceOrder : List (String × StackResource)) :
    List (String × String) :=
  paramOrder ++ resourceOrder.map (fun (k, res) => (k, res.physicalId)) ++
    [("AWS::Region", env.region), ("AWS::AccountId", env.accountId)]

/-- In no order does a round find its placeholder anywhere but where the text has it. -/
def SubClean (text : String) : Prop :=
  ∀ paramOrder resourceOrder, paramOrder.Perm scope.params.toList → resourceOrder.Perm scope.resources.toList →
    ∀ done name value rest, rounds env paramOrder resourceOrder = done ++ (name, value) :: rest →
      OwnOnly placeholder (subPieces env scope text) done name

/-- Every text that `Fn::Sub` is given. -/
def SubsClean (v : Json) : Prop := ∀ text, Part (.obj [(Fn.sub.key, .str text)]) v → SubClean env scope text

/-- What a function takes from its argument as it is written is what it takes from its meaning, as far as the
result depends on it. -/
def Fn.ReadsMeant (written meant : Json) : Fn → Prop
  | .ref | .sub => meant.asStr?.isSome → written.asStr?.isSome
  | .getAtt => attributeOf env scope written = attributeOf env scope meant
  | .join => ∀ sep items, withList meant = some (sep, items) →
    ∃ sep' items', withList written = some (sep', items') ∧ (items.length ≤ 1 ∨ textOf sep' = textOf sep)
  | .select => ∀ index items, withList meant = some (index, items) →
    match withList written with
    | some (index', _) => items[(index'.asU64?).getD 0]? = items[(index.asU64?).getD 0]?
    | none => items[(index.asU64?).getD 0]? = none
  | .split => splitParts written = splitParts meant

/-- In every call that is part of the value. -/
def ArgumentsRead (v : Json) : Prop :=
  ∀ f : Fn, ∀ arg, Part (.obj [(f.key, arg)]) v → f.ReadsMeant env scope arg (meaning env scope arg)

end Statement

/-! ## The recursion -/

section Recursion

variable (env : Env) (scope : Scope)

theorem call?_eq_some {arg : Json} (called : call? fields = some (f, arg)) :
    fields = [(f.key, arg)] := by
  unfold call? at called
  split at called
  · next key _ =>
    obtain ⟨g, found, same⟩ := Option.map_eq_some_iff.mp called
    obtain ⟨rfl, rfl⟩ := Prod.mk.inj same
    have named := List.find?_some found
    rw [of_decide_eq_true named]
  · cases called

theorem call?_key (f : Fn) (arg : Json) : call? [(f.key, arg)] = some (f, arg) := by
  cases f <;> rfl

theorem meaningBody_below : Json.LooksBelow (meaningBody env scope) := by
  intro f g v same
  cases v with
  | obj fields =>
    have each : (fields.map fun (k, x) => (k, f x)) = fields.map fun (k, x) => (k, g x) :=
      List.map_congr_left fun field member =>
        congrArg (Prod.mk field.1) (same field.2 (Json.depth_lt_of_mem_fields member))
    rw [meaningBody, meaningBody, each]
    cases called : call? fields with
    | none => rfl
    | some call =>
      obtain ⟨function, arg⟩ := call
      have below := same arg (by
        rw [call?_eq_some called]
        exact @Json.depth_lt_of_mem_fields (function.key, arg) _ List.mem_cons_self)
      simp only [below]
  | arr items =>
    have each : items.map f = items.map g :=
      List.map_congr_left fun x member => same x (Json.depth_lt_of_mem member)
    rw [meaningBody, meaningBody, each]
  | null | bool _ | posInt _ | negInt _ | float _ | str _ => rfl

theorem meaning_eq (v : Json) : meaning env scope v = meaningBody env scope (meaning env scope) v :=
  Json.recursion_eq (meaningBody_below env scope) id v

theorem meaning_arr (items : List Json) : meaning env scope (.arr items) = .arr (items.map (meaning env scope)) :=
  meaning_eq env scope (.arr items)

theorem meaning_str (s : String) : meaning env scope (.str s) = .str s := meaning_eq env scope (.str s)

theorem meaning_call (f : Fn) (arg : Json) : meaning env scope (.obj [(f.key, arg)]) =
    (f.apply env scope (meaning env scope arg)).getD (.obj [(f.key, meaning env scope arg)]) := by
  rw [meaning_eq, meaningBody, call?_key]

/-- A function as `resolve_value` applies it, to its argument as it is written. -/
@[grind] def Fn.applyWritten (resolve : Json → Json) (arg : Json) : Fn → Option Json
  | .ref => (arg.asStr?).map fun r => .str (refText env scope r)
  | .getAtt => (attributeOf env scope arg).map .str
  | .join => (withList arg).map fun (sep, items) =>
    .str ((textOf sep).intercalate (items.map fun i => textOf (resolve i)))
  | .sub => (arg.asStr?).map fun s => .str (subText env scope s)
  | .select => (withList arg).bind fun (index, items) => items[(index.asU64?).getD 0]?.map resolve
  | .split => (splitParts arg).map fun ps => .arr (ps.map .str)

section AtKey

variable (resolve : Json → Json) (v : Json)

theorem ref_eq : ref env scope v = (v.get? "Ref").bind fun arg => Fn.ref.applyWritten env scope resolve arg := by
  rw [ref]
  cases v.get? "Ref" <;> rfl

theorem getAtt_eq : getAtt env scope v =
    (v.get? "Fn::GetAtt").bind fun arg => Fn.getAtt.applyWritten env scope resolve arg := by
  rw [getAtt]
  split
  · next logical attr found =>
    rw [found, Option.bind_some, Fn.applyWritten, attributeOf, Option.map_map]
    rfl
  · next other =>
    cases found : v.get? "Fn::GetAtt" with
    | none => rfl
    | some arg =>
      rw [Option.bind_some, Fn.applyWritten, attributeOf]
      · rfl
      · rintro logical attr rfl
        exact other logical attr found

theorem join_eq : join resolve v = (v.get? "Fn::Join").bind fun arg => Fn.join.applyWritten env scope resolve arg := by
  rw [join]
  split
  · next sep items found =>
    rw [found]
    rfl
  · next other =>
    cases found : v.get? "Fn::Join" with
    | none => rfl
    | some arg =>
      rw [Option.bind_some, Fn.applyWritten, withList]
      · rfl
      · rintro sep items rfl
        exact other sep items found

theorem sub_eq : sub env scope v = (v.get? "Fn::Sub").bind fun arg => Fn.sub.applyWritten env scope resolve arg := by
  rw [sub]
  cases v.get? "Fn::Sub" <;> rfl

theorem select_eq : select resolve v =
    (v.get? "Fn::Select").bind fun arg => Fn.select.applyWritten env scope resolve arg := by
  rw [select]
  split
  · next index items found =>
    rw [found]
    rfl
  · next other =>
    cases found : v.get? "Fn::Select" with
    | none => rfl
    | some arg =>
      rw [Option.bind_some, Fn.applyWritten, withList]
      · rfl
      · rintro index items rfl
        exact other index items found

theorem split_eq : split v = (v.get? "Fn::Split").bind fun arg => Fn.split.applyWritten env scope resolve arg := by
  rw [split]
  split
  · next sep text found =>
    rw [found, Option.bind_some, Fn.applyWritten, splitParts, Option.map_some, List.map_map]
    rfl
  · next other =>
    cases found : v.get? "Fn::Split" with
    | none => rfl
    | some arg =>
      rw [Option.bind_some, Fn.applyWritten, splitParts]
      · rfl
      · rintro sep text rfl
        exact other sep text found

theorem firstBranch_none (absent : v.get? "Fn::If" = none) : firstBranch resolve v = none := by
  rw [firstBranch, absent]

end AtKey

theorem intrinsic_call (resolve : Json → Json) (f : Fn) (arg : Json) :
    intrinsic env scope resolve (.obj [(f.key, arg)]) = f.applyWritten env scope resolve arg := by
  have alone : ∀ key, Json.get? key (.obj [(f.key, arg)]) = if key = f.key then some arg else none := by
    intro key
    rw [Json.get?, AssocList.lookup_cons_ite]
    rfl
  have noBranch : firstBranch resolve (.obj [(f.key, arg)]) = none := by
    refine firstBranch_none resolve _ ((alone _).trans (if_neg ?_))
    cases f <;> decide
  rw [intrinsic, ref_eq env scope resolve, getAtt_eq env scope resolve, join_eq env scope, sub_eq env scope resolve,
    select_eq env scope, noBranch, split_eq env scope resolve]
  simp only [alone]
  cases f <;> simp [Fn.key]

/-- An object whose keys are no functions. -/
theorem intrinsic_plain (resolve : Json → Json) (plain : ∀ field ∈ fields, field.1 ∉ "Fn::If" :: Fn.all.map Fn.key) :
    intrinsic env scope resolve (.obj fields) = none ∧ call? fields = none := by
  have absent : ∀ key ∈ "Fn::If" :: Fn.all.map Fn.key, Json.get? key (.obj fields) = none := by
    intro key member
    refine List.lookup_eq_none_iff.mpr fun field there => ?_
    rw [bne_iff_ne]
    rintro rfl
    exact plain field there member
  constructor
  · rw [intrinsic, ref_eq env scope resolve, getAtt_eq env scope resolve, join_eq env scope,
      sub_eq env scope resolve, select_eq env scope, firstBranch_none resolve _ (absent _ (by simp)),
      split_eq env scope resolve, absent "Ref" (by decide), absent "Fn::GetAtt" (by decide),
      absent "Fn::Join" (by decide), absent "Fn::Sub" (by decide), absent "Fn::Select" (by decide),
      absent "Fn::Split" (by decide)]
    rfl
  · cases called : call? fields with
    | none => rfl
    | some call =>
      obtain ⟨f, arg⟩ := call
      obtain rfl := call?_eq_some called
      refine absurd (List.mem_cons_of_mem _ ?_) (plain (f.key, arg) List.mem_cons_self)
      exact List.mem_map_of_mem (by cases f <;> decide)

end Recursion

/-! ## `Fn::Sub` -/

section Sub

variable {env : Env} {scope : Scope} {paramOrder : List (String × String)}
  {resourceOrder : List (String × StackResource)}

theorem placeholder_eq (name : String) : placeholder name = '$' :: '\x7b' :: (name.toList ++ ['\x7d']) := by
  rw [placeholder, String.toList_append, String.toList_append]
  rfl

theorem placeholder_ne_nil (name : String) : placeholder name ≠ [] := by
  rw [placeholder_eq]
  exact List.cons_ne_nil _ _

/-- Placeholders end with their names. -/
theorem placeholder_apart {hole name : String} {rest : List Char} (closed : '\x7d' ∉ hole.toList)
    (closed' : '\x7d' ∉ name.toList) (begins : placeholder name <+: placeholder hole ++ rest) : hole = name := by
  obtain ⟨later, same⟩ := begins
  simp only [placeholder_eq, List.cons_append, List.append_assoc, List.nil_append, List.cons.injEq, true_and] at same
  have names : name.toList = hole.toList := (RustStr.first_inj closed' closed same).1
  exact (String.toList_inj.mp names).symm

theorem holeAt_begins {text : List Char} {name : String} (found : holeAt env scope text = some name) :
    placeholder name <+: text ∧ (subValue env scope name).isSome = true := by
  rw [holeAt, Option.filter_eq_some_iff] at found
  obtain ⟨named, known⟩ := found
  obtain ⟨chars, bound, rfl⟩ := Option.map_eq_some_iff.mp named
  obtain ⟨rest, stripped, first⟩ := Option.bind_eq_some_iff.mp bound
  rw [RustStr.stripPrefix] at stripped
  split at stripped
  · next starts =>
    obtain ⟨later, rfl⟩ := List.isPrefixOf_iff_prefix.mp starts
    obtain rfl := Option.some.inj stripped
    rw [List.drop_left] at first
    have inside := RustStr.before_isPrefix first
    refine ⟨?_, known⟩
    rw [placeholder, String.toList_append, String.toList_append, List.append_assoc, List.prefix_append_right_inj,
      String.toList_ofList]
    exact inside
  · cases stripped

/-- Whatever the orders, a name has the value of the first map that has it. -/
theorem lookup_rounds (params : paramOrder.Perm scope.params.toList)
    (resources : resourceOrder.Perm scope.resources.toList) (name : String) :
    (rounds env paramOrder resourceOrder).lookup name = subValue env scope name := by
  rw [rounds, List.lookup_append, List.lookup_append, AssocList.lookup_of_perm params,
    AssocList.lookup_map_value (fun res : StackResource => res.physicalId), AssocList.lookup_of_perm resources,
    AssocList.lookup_cons_ite, AssocList.lookup_cons_ite, subValue]
  cases scope.params[name]? with
  | some p => rfl
  | none =>
    cases scope.resources[name]? with
    | some res => rfl
    | none => rfl

theorem subText_eq_foldl (text : String) : subText (env.ordered paramOrder resourceOrder) scope text =
    String.ofList ((rounds env paramOrder resourceOrder).foldl
      (fun shown round => RustStr.replace (placeholder round.1) round.2.toList shown) text.toList) := by
  rw [rounds, List.foldl_append, List.foldl_append, List.foldl_map]
  rfl

/-- A text whose rounds find its own placeholders only becomes what it means. -/
theorem subText_clean {text : String} (clean : SubClean env scope text)
    (params : paramOrder.Perm scope.params.toList) (resources : resourceOrder.Perm scope.resources.toList) :
    subText (env.ordered paramOrder resourceOrder) scope text = subMeaning env scope text := by
  have whole : (subPieces env scope text).flatMap (shown placeholder []) = text.toList :=
    Substitution.flatMap_pieces placeholder_ne_nil (fun _ _ found => (holeAt_begins found).1) text.toList
  rw [subText_eq_foldl, ← whole,
    Substitution.foldl_rounds placeholder_ne_nil (clean paramOrder resourceOrder params resources), subMeaning]
  congr 1
  refine List.flatMap_congr fun piece member => ?_
  cases piece with
  | char c => rfl
  | hole name =>
    obtain ⟨rest, found⟩ := Substitution.holeAt_of_mem member
    obtain ⟨value, known⟩ := Option.isSome_iff_exists.mp (holeAt_begins found).2
    rw [shown, lookup_rounds params resources, pieceMeaning, known]
    rfl

/-- Without signs of placeholders in names, values and the rest of the text, `Fn::Sub` is right. -/
theorem subClean_of_plain {text : String}
    (plain : ∀ round ∈ rounds env scope.params.toList scope.resources.toList,
      '$' ∉ round.1.toList ∧ '\x7d' ∉ round.1.toList ∧ '$' ∉ round.2.toList)
    (signs : .char '$' ∉ subPieces env scope text) : SubClean env scope text := by
  intro paramOrder resourceOrder params resources done name value rest split
  have order : (rounds env paramOrder resourceOrder).Perm (rounds env scope.params.toList scope.resources.toList) :=
    (params.append (resources.map _)).append_right _
  have each : ∀ round ∈ done ++ (name, value) :: rest,
      '$' ∉ round.1.toList ∧ '\x7d' ∉ round.1.toList ∧ '$' ∉ round.2.toList := by
    intro round member
    rw [← split, order.mem_iff] at member
    exact plain round member
  have known : ∀ hole, .hole hole ∈ subPieces env scope text → '$' ∉ hole.toList ∧ '\x7d' ∉ hole.toList := by
    intro hole member
    obtain ⟨_, found⟩ := Substitution.holeAt_of_mem member
    obtain ⟨value, named⟩ := Option.isSome_iff_exists.mp (holeAt_begins found).2
    rw [← lookup_rounds (.refl _) (.refl _)] at named
    obtain ⟨front, back, whole, -⟩ := List.lookup_eq_some_iff.mp named
    have there := plain (hole, value) (by rw [whole]; simp)
    exact ⟨there.1, there.2.1⟩
  have current := each (name, value) (by simp)
  refine Substitution.ownOnly_of_sign ⟨_, placeholder_eq name⟩ signs
    (fun round member => (each round (List.mem_append_left _ member)).2.2) (fun hole member => ?_)
    fun hole rest member => placeholder_apart (known hole member).2 current.2.1
  refine ⟨_, placeholder_eq hole, ?_⟩
  simp [(known hole member).1]

end Sub

/-! ## Joined texts -/

theorem length_intercalate (sep first : String) (rest : List String) :
    (sep.intercalate (first :: rest)).length =
      first.length + (rest.map String.length).sum + rest.length * sep.length := by
  induction rest generalizing first with
  | nil => simp
  | cons next rest ih =>
    rw [String.intercalate_cons_cons, String.length_append, String.length_append, ih, List.map_cons, List.sum_cons,
      List.length_cons, Nat.succ_mul]
    omega

/-- The separator shows in the text, unless there is nothing to separate. -/
theorem intercalate_eq_iff (sep sep' : String) (parts : List String) :
    sep.intercalate parts = sep'.intercalate parts ↔ parts.length ≤ 1 ∨ sep = sep' := by
  match parts with
  | [] => simp
  | [part] => simp
  | first :: second :: rest =>
    constructor
    · intro same
      right
      have lengths := congrArg String.length same
      rw [length_intercalate, length_intercalate, List.length_cons] at lengths
      have equal : sep.length = sep'.length :=
        Nat.eq_of_mul_eq_mul_left (Nat.succ_pos rest.length) (Nat.add_left_cancel lengths)
      have chars := congrArg String.toList same
      rw [String.intercalate_cons_cons, String.intercalate_cons_cons] at chars
      simp only [String.toList_append, List.append_assoc, List.append_right_inj] at chars
      exact String.toList_inj.mp (List.append_inj chars equal).1
    · rintro (short | rfl)
      · simp at short
      · rfl

/-! ## One call -/

theorem withList_eq_some {v first : Json} (found : withList v = some (first, items)) :
    v = .arr [first, .arr items] := by
  unfold withList at found
  split at found
  · cases found
    rfl
  · cases found

section Call

variable {env : Env} {scope : Scope} {paramOrder : List (String × String)}
  {resourceOrder : List (String × StackResource)} {resolve : Json → Json} {arg : Json}

theorem withList_meaning {first : Json} (found : withList arg = some (first, items)) :
    withList (meaning env scope arg) = some (meaning env scope first, items.map (meaning env scope)) := by
  rw [withList_eq_some found, meaning_arr, List.map_cons, List.map_cons, List.map_nil, meaning_arr]
  rfl

theorem part_of_withList {first : Json} (found : withList arg = some (first, items)) {x : Json}
    (member : x ∈ items) : Part x arg := by
  rw [withList_eq_some found]
  exact .item (List.mem_cons_of_mem _ List.mem_cons_self) (.item member .self)

/-- A function of a text, as written and as meant. -/
theorem textual_iff {g g' : String → Json} (same : ∀ s, arg = .str s → g s = g' s) :
    (arg.asStr?).map g = ((meaning env scope arg).asStr?).map g' ↔
      ((meaning env scope arg).asStr?.isSome = true → arg.asStr?.isSome = true) := by
  cases written : arg.asStr? with
  | some s =>
    have text : arg = .str s := by
      cases arg <;> simp_all [Json.asStr?]
    subst text
    rw [meaning_str]
    exact iff_of_true (congrArg some (same s rfl)) fun _ => rfl
  | none => cases (meaning env scope arg).asStr? <;> simp

/-- What a call gets of its argument as written is what it gets of its meaning, exactly when the function reads the
argument as it is meant. -/
theorem applyWritten_eq_iff (f : Fn) (below : ∀ x, Part x arg → resolve x = meaning env scope x)
    (sub : f = .sub → ∀ text, arg = .str text →
      subText (env.ordered paramOrder resourceOrder) scope text = subMeaning env scope text) :
    f.applyWritten (env.ordered paramOrder resourceOrder) scope resolve arg =
        f.apply env scope (meaning env scope arg) ↔
      f.ReadsMeant env scope arg (meaning env scope arg) := by
  cases f with
  | ref => exact textual_iff fun _ _ => rfl
  | sub => exact textual_iff fun text written => congrArg Json.str (sub rfl text written)
  | getAtt => exact (Option.map_injective fun _ _ => Json.str.inj).eq_iff
  | split =>
    refine (Option.map_injective fun a b same => ?_).eq_iff
    exact List.map_injective_iff.mpr (fun _ _ => Json.str.inj) (Json.arr.inj same)
  | join =>
    rw [Fn.applyWritten, Fn.apply, Fn.ReadsMeant]
    cases written : withList arg with
    | none =>
      cases withList (meaning env scope arg) with
      | none => simp
      | some found =>
        obtain ⟨sep, items⟩ := found
        simp
    | some found =>
      obtain ⟨sep, items⟩ := found
      have texts : items.map (fun i => textOf (resolve i)) = (items.map (meaning env scope)).map textOf := by
        rw [List.map_map]
        exact List.map_congr_left fun x member => congrArg textOf (below x (part_of_withList written member))
      rw [withList_meaning written, Option.map_some, Option.map_some, Option.some.injEq, Json.str.injEq]
      simp only [texts, intercalate_eq_iff]
      simp
  | select =>
    rw [Fn.applyWritten, Fn.apply, Fn.ReadsMeant]
    cases written : withList arg with
    | none =>
      cases withList (meaning env scope arg) with
      | none => simp
      | some found =>
        obtain ⟨index, items⟩ := found
        simp [eq_comm]
    | some found =>
      obtain ⟨index, items⟩ := found
      have resolved : ∀ i : Nat, items[i]?.map resolve = (items.map (meaning env scope))[i]? := by
        intro i
        rw [List.getElem?_map]
        cases element : items[i]? with
        | none => rfl
        | some x => exact congrArg some (below x (part_of_withList written (List.mem_of_getElem? element)))
      rw [withList_meaning written]
      simp only [Option.bind_some, resolved]
      constructor
      · rintro same index' items' ⟨⟩
        exact same
      · exact fun reads => reads _ _ rfl

/-- An element of a list that a call has as its argument is not the call. -/
theorem element_ne_call {v first element : Json} (found : withList v = some (first, items))
    (member : element ∈ items) (key : String) : element ≠ .obj [(key, v)] := by
  rintro rfl
  have inside := Json.depth_lt_of_mem member
  have within : Json.depth (.arr items) < Json.depth v := by
    rw [withList_eq_some found]
    exact Json.depth_lt_of_mem (List.mem_cons_of_mem _ List.mem_cons_self)
  have around : Json.depth v < Json.depth (.obj [(key, v)]) :=
    @Json.depth_lt_of_mem_fields (key, v) _ List.mem_cons_self
  omega

theorem apply_ne_call (f : Fn) (meant : Json) : f.apply env scope meant ≠ some (.obj [(f.key, meant)]) := by
  intro same
  cases f with
  | ref | sub | getAtt | split | join =>
    obtain ⟨_, -, made⟩ := Option.map_eq_some_iff.mp same
    cases made
  | select =>
    obtain ⟨⟨index, items⟩, found, element⟩ := Option.bind_eq_some_iff.mp same
    exact element_ne_call found (List.mem_of_getElem? element) _ rfl

theorem applyWritten_ne_call (f : Fn) (below : ∀ x, Part x arg → resolve x = meaning env scope x) :
    f.applyWritten (env.ordered paramOrder resourceOrder) scope resolve arg ≠
      some (.obj [(f.key, meaning env scope arg)]) := by
  intro same
  cases f with
  | ref | sub | getAtt | split | join =>
    obtain ⟨_, -, made⟩ := Option.map_eq_some_iff.mp same
    cases made
  | select =>
    obtain ⟨⟨index, items⟩, found, element⟩ := Option.bind_eq_some_iff.mp same
    obtain ⟨x, there, made⟩ := Option.map_eq_some_iff.mp element
    have member := List.mem_of_getElem? there
    rw [below x (part_of_withList found member)] at made
    exact element_ne_call (withList_meaning found) (List.mem_map_of_mem member) _ made

theorem getD_eq_getD_iff {α : Type} {o o' : Option α} {default : α} (other : o ≠ some default)
    (other' : o' ≠ some default) : o.getD default = o'.getD default ↔ o = o' := by
  cases o <;> cases o' <;> simp_all [eq_comm]

/-- A call whose argument resolves to its meaning, part by part, does so exactly when its function reads the
argument as it is meant. -/
theorem resolveValue_call_iff (f : Fn) {arg : Json}
    (below : ∀ x, Part x arg → resolveValue (env.ordered paramOrder resourceOrder) scope x = meaning env scope x)
    (sub : f = .sub → ∀ text, arg = .str text →
      subText (env.ordered paramOrder resourceOrder) scope text = subMeaning env scope text) :
    resolveValue (env.ordered paramOrder resourceOrder) scope (.obj [(f.key, arg)]) =
        meaning env scope (.obj [(f.key, arg)]) ↔
      f.ReadsMeant env scope arg (meaning env scope arg) := by
  rw [← applyWritten_eq_iff f below sub, resolveValue_eq, resolveBody, intrinsic_call, meaning_call]
  simp only [List.map_cons, List.map_nil, below arg .self]
  exact getD_eq_getD_iff (applyWritten_ne_call f below) (apply_ne_call f _)

end Call

/-! ## Whole templates -/

theorem Part.trans {u v w : Json} (inner : Part u v) (outer : Part v w) : Part u w := by
  induction outer with
  | self => exact inner
  | item member _ ih => exact .item member ih
  | field member _ ih => exact .field member ih

theorem Part.arg (f : Fn) (arg : Json) : Part arg (.obj [(f.key, arg)]) :=
  @Part.field arg (f.key, arg) _ List.mem_cons_self .self

theorem part_str_iff {s : String} : Part u (.str s) ↔ u = .str s := by
  constructor
  · rintro ⟨⟩
    rfl
  · rintro rfl
    exact .self

theorem part_arr_iff :
    Part u (.arr items) ↔ u = .arr items ∨ ∃ x ∈ items, Part u x := by
  constructor
  · intro part
    cases part with
    | self => exact .inl rfl
    | item member part => exact .inr ⟨_, member, part⟩
  · rintro (rfl | ⟨x, member, part⟩)
    · exact .self
    · exact .item member part

theorem part_obj_iff :
    Part u (.obj fields) ↔ u = .obj fields ∨ ∃ field ∈ fields, Part u field.2 := by
  constructor
  · intro part
    cases part with
    | self => exact .inl rfl
    | field member part => exact .inr ⟨_, member, part⟩
  · rintro (rfl | ⟨field, member, part⟩)
    · exact .self
    · exact .field member part

theorem Part.depth_le {u v : Json} (part : Part u v) : Json.depth u ≤ Json.depth v := by
  induction part with
  | self => exact le_rfl
  | item member _ ih => exact ih.trans (Json.depth_lt_of_mem member).le
  | field member _ ih => exact ih.trans (Json.depth_lt_of_mem_fields member).le

theorem IsTemplate.part {u v : Json} (part : Part u v) (template : IsTemplate v) : IsTemplate u := by
  induction part with
  | self => exact template
  | item member _ ih =>
    cases template with
    | arr items parts => exact ih (parts _ member)
  | @field field fields member _ ih =>
    have inner : IsTemplate field.2 := by
      cases template with
      | obj fields plain parts => exact parts field member
      | call f arg part =>
        rw [List.mem_singleton.mp member]
        exact part
    exact ih inner

section Whole

variable {env : Env} {scope : Scope} {paramOrder : List (String × String)}
  {resourceOrder : List (String × StackResource)}

/-- What is no call resolves as its parts do. -/
theorem resolveValue_of_parts {v : Json} (template : IsTemplate v)
    (parts : ∀ x, Part x v → Json.depth x < Json.depth v →
      resolveValue (env.ordered paramOrder resourceOrder) scope x = meaning env scope x)
    (calls : ∀ f : Fn, ∀ arg, v = .obj [(f.key, arg)] →
      resolveValue (env.ordered paramOrder resourceOrder) scope v = meaning env scope v) :
    resolveValue (env.ordered paramOrder resourceOrder) scope v = meaning env scope v := by
  cases template with
  | null | bool _ | posInt _ | negInt _ | float _ | str _ =>
    rw [resolveValue_eq, meaning_eq]
    rfl
  | arr items _ =>
    rw [resolveValue_eq, meaning_eq, resolveBody, meaningBody, Json.arr.injEq]
    exact List.map_congr_left fun x member => parts x (.item member .self) (Json.depth_lt_of_mem member)
  | obj fields plain _ =>
    obtain ⟨noFunction, noCall⟩ := intrinsic_plain (env.ordered paramOrder resourceOrder) scope
      (resolveValue (env.ordered paramOrder resourceOrder) scope) plain
    rw [resolveValue_eq, meaning_eq, resolveBody, meaningBody, noFunction, noCall, Option.getD_none, Json.obj.injEq]
    exact List.map_congr_left fun field member =>
      congrArg (Prod.mk field.1) (parts field.2 (.field member .self) (Json.depth_lt_of_mem_fields member))
  | call f arg _ => exact calls f arg rfl

theorem subText_of_part {v : Json} (clean : SubsClean env scope v)
    (params : paramOrder.Perm scope.params.toList) (resources : resourceOrder.Perm scope.resources.toList)
    {arg : Json} (part : Part (.obj [(f.key, arg)]) v) (sub : f = .sub) (text : String) (written : arg = .str text) :
    subText (env.ordered paramOrder resourceOrder) scope text = subMeaning env scope text := by
  subst sub written
  exact subText_clean (clean text part) params resources

theorem argumentsRead_of_meansRight {v : Json} (clean : SubsClean env scope v) (right : MeansRight env scope v) :
    ArgumentsRead env scope v := by
  intro f arg part
  have resolved := right _ _ (.refl _) (.refl _)
  refine (resolveValue_call_iff f (fun x inside => resolved x ((inside.trans (.arg f arg)).trans part))
    (subText_of_part clean (.refl _) (.refl _) part)).mp (resolved _ part)

theorem meansRight_of_argumentsRead {v : Json} (template : IsTemplate v) (clean : SubsClean env scope v)
    (read : ArgumentsRead env scope v) : MeansRight env scope v := by
  intro paramOrder resourceOrder params resources u
  induction bound : Json.depth u using Nat.strong_induction_on generalizing u with
  | _ n ih =>
    intro part
    have parts : ∀ x, Part x u → Json.depth x < Json.depth u →
        resolveValue (env.ordered paramOrder resourceOrder) scope x = meaning env scope x :=
      fun x inside shallow => ih _ (bound ▸ shallow) x rfl (inside.trans part)
    refine resolveValue_of_parts (template.part part) parts ?_
    rintro f arg rfl
    have below : ∀ x, Part x arg →
        resolveValue (env.ordered paramOrder resourceOrder) scope x = meaning env scope x := by
      intro x inside
      refine parts x (inside.trans (.arg f arg)) (inside.depth_le.trans_lt ?_)
      exact @Json.depth_lt_of_mem_fields (f.key, arg) _ List.mem_cons_self
    exact (resolveValue_call_iff f below (subText_of_part clean params resources part)).mpr (read f arg part)

end Whole

section Example

def namedEnv : Env where
  region := "us-east-1"
  accountId := "000000000000"
  fromStr _ := none
  toLowercase := RustStr.toAsciiLowercase
  paramOrder := Std.ExtTreeMap.toList
  resourceOrder := Std.ExtTreeMap.toList

def namedScope (params : List (String × String)) : Scope where
  resources := ∅
  params := Std.ExtTreeMap.ofList params

def logNames : List Json := [.obj [(Fn.ref.key, .str "Name")], .obj [(Fn.sub.key, .str "$\x7bName\x7d.log")]]

/-- `{"Fn::Join": ["-", [{"Ref": "Name"}, {"Fn::Sub": "${Name}.log"}]]}` -/
def logTemplate : Template where
  json := .obj [(Fn.join.key, .arr [.str "-", .arr logNames])]
  isTemplate := by
    have names : ∀ x ∈ logNames, IsTemplate x := by
      simp only [logNames, List.forall_mem_cons]
      exact ⟨.call .ref _ (.str _), .call .sub _ (.str _), List.forall_mem_nil _⟩
    refine .call .join _ (.arr _ ?_)
    simp only [List.forall_mem_cons]
    exact ⟨.str _, .arr _ names, List.forall_mem_nil _⟩

theorem log_calls {arg : Json} (part : Part (.obj [(f.key, arg)]) logTemplate.json) :
    (f = .join ∧ withList arg = some (.str "-", logNames)) ∨ (f = .ref ∧ arg = .str "Name") ∨
      (f = .sub ∧ arg = .str "$\x7bName\x7d.log") := by
  have listed : (f.key, arg) ∈ [(Fn.join.key, .arr [.str "-", .arr logNames]), (Fn.ref.key, .str "Name"),
      (Fn.sub.key, .str "$\x7bName\x7d.log")] := by
    simpa [logTemplate, logNames, part_obj_iff, part_arr_iff, part_str_iff] using part
  cases f <;> simp_all [Fn.key, withList]

theorem log_subs_clean : SubsClean namedEnv (namedScope [("Name", "app")]) logTemplate.json := by
  intro text part
  rcases log_calls part with ⟨other, -⟩ | ⟨other, -⟩ | ⟨-, same⟩
  · cases other
  · cases other
  · obtain rfl := Json.str.inj same
    exact subClean_of_plain (by decide) (by decide)

end Example

end Openstack.CloudFormation

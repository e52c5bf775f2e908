import Openstack.Framework.JsonService
import Openstack.Lib.RustStr
import Openstack.Lib.StrMap

/-!
# Parameters by path

`crates/services/ssm/src/store.rs` and `provider.rs`, lines 106-265, for one account and region. The store of an
account that has none behaves like an empty one. Times are in seconds.
-/
namespace Openstack.Ssm

open JsonService (Answer strParam required int)

inductive ParameterType where
  | string
  | stringList
  | secureString
  deriving DecidableEq, Repr

def ParameterType.text : ParameterType → String
  | .string => "String"
  | .stringList => "StringList"
  | .secureString => "SecureString"

/-- `FromStr`, which never fails. -/
def ParameterType.parse : String → ParameterType
  | "StringList" => .stringList
  | "SecureString" => .secureString
  | _ => .string

structure Parameter where
  name : String
  type : ParameterType
  value : String
  description : String
  version : Int
  lastModified : Int
  arn : String
  overwrite : Bool
  deriving DecidableEq, Repr

/-- Parameters by name. -/
structure SsmStore where
  parameters : StrMap Parameter
  named : ∀ (name : String) (p : Parameter), parameters[name]? = some p → p.name = name

def SsmStore.new : SsmStore := ⟨∅, fun name p stored => by simp at stored⟩

def SsmStore.insert (store : SsmStore) (p : Parameter) : SsmStore where
  parameters := store.parameters.insert p.name p
  named name q stored := by
    rw [StrMap.getElem?_insert] at stored
    split at stored
    · next same => rw [← Option.some.inj stored, same]
    · exact store.named name q stored

def SsmStore.remove (store : SsmStore) (name : String) : SsmStore where
  parameters := store.parameters.erase name
  named other q stored := by
    rw [StrMap.getElem?_erase] at stored
    split at stored
    · cases stored
    · exact store.named other q stored

/-- Where the requests are served, and the order in which `values()` visits a map. -/
structure Env where
  accountId : String
  region : String
  values : StrMap Parameter → List Parameter
  values_perm : ∀ m, (values m).Perm (StrMap.values m)

section Operations

variable (env : Env) (store : SsmStore) (body : Json)

def alreadyExists (name : String) : Answer :=
  .error "ParameterAlreadyExists" ("Parameter " ++ name ++ " already exists") 400

def putParameter (now : Int) : Answer × SsmStore :=
  match strParam body "Name" with
  | none => (required "Name", store)
  | some name =>
    match strParam body "Value" with
    | none => (required "Value", store)
    | some value =>
      let type := .parse ((strParam body "Type").getD "String")
      let description := (strParam body "Description").getD ""
      let overwrite := ((body.get? "Overwrite").bind Json.asBool?).getD false
      if store.parameters.contains name && !overwrite then (alreadyExists name, store)
      else
        let version := (store.parameters[name]?.map fun (p : Parameter) => p.version + 1).getD 1
        let arn := "arn:aws:ssm:" ++ env.region ++ ":" ++ env.accountId ++ ":parameter" ++ name
        (.ok (.obj [("Tier", .str "Standard"), ("Version", int version)]),
          store.insert
            { name, type, value, description, version, lastModified := now, arn, overwrite })

/-- `param_to_json`. -/
def Parameter.toJson (p : Parameter) : Json :=
  .obj [("ARN", .str p.arn), ("DataType", .str "text"), ("LastModifiedDate", int p.lastModified),
    ("Name", .str p.name), ("Type", .str p.type.text), ("Value", .str p.value), ("Version", int p.version)]

def listed (parameters : List Parameter) : Answer :=
  .ok (.obj [("Parameters", .arr (parameters.map Parameter.toJson))])

/-- The filter of `GetParametersByPath`. -/
def selected (path : String) (recursive : Bool) (p : Parameter) : Bool :=
  if recursive then RustStr.startsWith p.name path
  else RustStr.startsWith p.name path &&
    !((p.name.toList.drop path.toList.length).dropWhile (· = '/')).contains '/'

def recursiveParam : Bool := ((body.get? "Recursive").bind Json.asBool?).getD false

def getParametersByPath : Answer :=
  match strParam body "Path" with
  | none => required "Path"
  | some path => listed ((env.values store.parameters).filter (selected path (recursiveParam body)))

def deleteParameter : Answer × SsmStore :=
  match strParam body "Name" with
  | none => (required "Name", store)
  | some name =>
    if store.parameters.contains name then (.ok (.obj []), store.remove name)
    else (.error "ParameterNotFound" ("Parameter " ++ name ++ " not found") 400, store)

end Operations

/-- The path without a slash at its end. -/
def stem (path : List Char) : List Char := if ['/'].isSuffixOf path then path.dropLast else path

/-- The name stands below the path, and directly below it unless the request is recursive. -/
def Below (path : List Char) (recursive : Bool) (name : List Char) : Prop :=
  ∃ rest, name = stem path ++ '/' :: rest ∧ rest ≠ [] ∧ (recursive = false → '/' ∉ rest)

/-- The parameters are those below the path, in the order of the map. -/
def ListsBelow (env : Env) (store : SsmStore) (body : Json) : Prop :=
  ∀ path, strParam body "Path" = some path → ∃ parameters : List Parameter,
    getParametersByPath env store body = listed parameters ∧ parameters.Nodup ∧
      ∀ p, p ∈ parameters ↔ store.parameters[p.name]? = some p ∧
        Below path.toList (recursiveParam body) p.name.toList

/-- The name is the path itself, with or without its slash; or it continues the last segment of the path; or, not
recursively, more than one slash follows and at most one segment. -/
inductive Mistaken (path : List Char) (recursive : Bool) (name : List Char) : Prop where
  | itself (same : name = path)
  | slash (same : name = stem path ++ ['/'])
  | sibling (c : Char) (rest : List Char) (open_ : stem path = path) (split : name = path ++ c :: rest)
      (other : c ≠ '/') (flat : recursive = false → '/' ∉ rest)
  | doubled (rest : List Char) (split : name = stem path ++ '/' :: '/' :: rest) (flat : recursive = false)
      (single : '/' ∉ rest.dropWhile (· = '/'))

section Filter

variable {path name : List Char} {recursive : Bool}

/-- The name begins with the path, and in the rest, after its slashes, there is none unless recursively. -/
def Passes (path : List Char) (recursive : Bool) (name : List Char) : Prop :=
  path <+: name ∧ (recursive = false → '/' ∉ (name.drop path.length).dropWhile (· = '/'))

theorem selected_iff (path : String) (recursive : Bool) (p : Parameter) :
    selected path recursive p = true ↔ Passes path.toList recursive p.name.toList := by
  rw [selected, Passes, RustStr.startsWith]
  cases recursive <;> simp [List.isPrefixOf_iff_prefix]

theorem stem_cases (path : List Char) : stem path = path ∨ path = stem path ++ ['/'] := by
  rw [stem]
  split
  · next closed =>
    obtain ⟨front, rfl⟩ := List.isSuffixOf_iff_suffix.mp closed
    right
    simp
  · exact .inl rfl

theorem dropWhile_slash (rest : List Char) :
    ('/' :: rest).dropWhile (· = '/') = rest.dropWhile (· = '/') := by
  rw [List.dropWhile_cons, if_pos (by decide)]

/-- Below the slash. -/
theorem passes_below_iff (rest : List Char) : Passes path recursive (stem path ++ '/' :: rest) ↔
    (recursive = false → '/' ∉ rest.dropWhile (· = '/')) := by
  rw [Passes]
  rcases stem_cases path with opened | closed
  · rw [opened, List.drop_left, dropWhile_slash, and_iff_right (List.prefix_append _ _)]
  · have whole : stem path ++ '/' :: rest = path ++ rest := by
      rw [List.append_cons, ← closed]
    rw [whole, List.drop_left, and_iff_right (List.prefix_append _ _)]

theorem below_append_iff (rest : List Char) : Below path recursive (stem path ++ '/' :: rest) ↔
    rest ≠ [] ∧ (recursive = false → '/' ∉ rest) := by
  constructor
  · rintro ⟨rest', same, below⟩
    obtain ⟨-, rfl⟩ := List.cons.inj (List.append_cancel_left same)
    exact below
  · rintro ⟨some, flat⟩
    exact ⟨rest, rfl, some, flat⟩

theorem not_mem_dropWhile {rest : List Char} (flat : '/' ∉ rest) : '/' ∉ rest.dropWhile (· = '/') :=
  fun member => flat ((List.dropWhile_sublist _).subset member)

theorem passes_of_below (below : Below path recursive name) : Passes path recursive name := by
  obtain ⟨rest, rfl, -, flat⟩ := below
  exact (passes_below_iff rest).mpr fun direct => not_mem_dropWhile (flat direct)

/-- What passes below the slash without being below the path. -/
theorem mistaken_of_rest {rest : List Char} (passes : Passes path recursive (stem path ++ '/' :: rest))
    (above : ¬ Below path recursive (stem path ++ '/' :: rest)) :
    Mistaken path recursive (stem path ++ '/' :: rest) := by
  rw [passes_below_iff] at passes
  rw [below_append_iff] at above
  cases rest with
  | nil => exact .slash rfl
  | cons c rest =>
    have nested : recursive = false ∧ '/' ∈ c :: rest := by
      by_contra other
      exact above ⟨List.cons_ne_nil _ _, fun direct member => other ⟨direct, member⟩⟩
    have flat := passes nested.1
    by_cases slash : c = '/'
    · subst slash
      rw [dropWhile_slash] at flat
      exact .doubled rest rfl nested.1 flat
    · rw [List.dropWhile_cons, if_neg (by simpa using slash)] at flat
      exact absurd nested.2 flat

theorem mistaken_of_passes (passes : Passes path recursive name) (above : ¬ Below path recursive name) :
    Mistaken path recursive name := by
  obtain ⟨rest, rfl⟩ := passes.1
  rcases stem_cases path with opened | closed
  · cases rest with
    | nil => exact .itself (List.append_nil path)
    | cons c rest =>
      by_cases slash : c = '/'
      · subst slash
        have whole : path ++ '/' :: rest = stem path ++ '/' :: rest := by rw [opened]
        rw [whole] at passes above ⊢
        exact mistaken_of_rest passes above
      · refine .sibling c rest opened rfl slash fun direct member => ?_
        have flat := passes.2 direct
        rw [List.drop_left, List.dropWhile_cons, if_neg (by simpa using slash)] at flat
        exact flat (List.mem_cons_of_mem _ member)
  · have whole : path ++ rest = stem path ++ '/' :: rest := by
      rw [List.append_cons, ← closed]
    rw [whole] at passes above ⊢
    exact mistaken_of_rest passes above

theorem not_below_of_mistaken (mistaken : Mistaken path recursive name) : ¬ Below path recursive name := by
  rintro ⟨rest, split, some, flat⟩
  cases mistaken with
  | itself same =>
    rcases stem_cases path with opened | closed
    · rw [same, opened] at split
      exact absurd (List.self_eq_append_right.mp split) (List.cons_ne_nil _ _)
    · have whole := closed.symm.trans (same.symm.trans split)
      exact some (List.cons.inj (List.append_cancel_left whole)).2.symm
  | slash same =>
    rw [same] at split
    exact some (List.cons.inj (List.append_cancel_left split)).2.symm
  | sibling c more opened split' other _ =>
    rw [split', opened] at split
    exact other (List.cons.inj (List.append_cancel_left split)).1
  | doubled more split' direct _ =>
    rw [split'] at split
    rw [← (List.cons.inj (List.append_cancel_left split)).2] at flat
    exact flat direct List.mem_cons_self

theorem passes_of_mistaken (mistaken : Mistaken path recursive name) : Passes path recursive name := by
  cases mistaken with
  | itself same =>
    rw [same]
    exact ⟨List.prefix_rfl, fun _ => by simp⟩
  | slash same =>
    rw [same]
    exact (passes_below_iff []).mpr fun _ => List.not_mem_nil
  | sibling c rest opened split other flat =>
    rw [split]
    refine ⟨List.prefix_append _ _, fun direct => ?_⟩
    rw [List.drop_left, List.dropWhile_cons, if_neg (by simpa using other)]
    exact fun member => (List.mem_cons.mp member).elim (fun same => other same.symm) (flat direct)
  | doubled rest split direct single =>
    rw [split]
    refine (passes_below_iff _).mpr fun _ => ?_
    rw [dropWhile_slash]
    exact single

/-- The filter takes a name as the hierarchy has it, unless it is mistaken. -/
theorem passes_iff_below_iff : (Passes path recursive name ↔ Below path recursive name) ↔
    ¬ Mistaken path recursive name := by
  constructor
  · intro same mistaken
    exact not_below_of_mistaken mistaken (same.mp (passes_of_mistaken mistaken))
  · intro apart
    refine ⟨fun passes => ?_, passes_of_below⟩
    by_contra above
    exact apart (mistaken_of_passes passes above)

end Filter

theorem mem_values_iff (env : Env) (store : SsmStore) (p : Parameter) :
    p ∈ env.values store.parameters ↔ store.parameters[p.name]? = some p := by
  rw [(env.values_perm _).mem_iff, StrMap.mem_values]
  constructor
  · rintro ⟨name, stored⟩
    rw [store.named name p stored]
    exact stored
  · exact fun stored => ⟨p.name, stored⟩

theorem nodup_values (env : Env) (store : SsmStore) : (env.values store.parameters).Nodup := by
  rw [(env.values_perm _).nodup_iff, StrMap.values, List.Nodup, List.pairwise_map]
  refine Std.ExtTreeMap.distinct_keys_toList.imp_of_mem fun {a b} inA inB apart same => ?_
  have nameA := store.named a.1 a.2 (Std.ExtTreeMap.mem_toList_iff_getElem?_eq_some.mp inA)
  have nameB := store.named b.1 b.2 (Std.ExtTreeMap.mem_toList_iff_getElem?_eq_some.mp inB)
  rw [← nameA, ← nameB, same] at apart
  exact apart Std.ReflCmp.compare_self

/-- An answer shows the names of its parameters. -/
theorem names_of_listed {parameters parameters' : List Parameter} (same : listed parameters = listed parameters') :
    parameters.map Parameter.name = parameters'.map Parameter.name := by
  have texts : parameters.map Parameter.toJson = parameters'.map Parameter.toJson := by
    simpa [listed] using same
  have names := congrArg (List.map fun v => JsonService.strParam v "Name") texts
  rw [List.map_map, List.map_map] at names
  have shown : (fun v => JsonService.strParam v "Name") ∘ Parameter.toJson = some ∘ Parameter.name := rfl
  rw [shown, ← List.map_map, ← List.map_map] at names
  exact List.map_injective_iff.mpr (fun _ _ => Option.some.inj) names

section Answer

variable {env : Env} {store : SsmStore} {body : Json} {path : String}

theorem mem_selected_iff (env : Env) (p : Parameter) :
    p ∈ (env.values store.parameters).filter (selected path (recursiveParam body)) ↔
      store.parameters[p.name]? = some p ∧ Passes path.toList (recursiveParam body) p.name.toList := by
  rw [List.mem_filter, mem_values_iff, selected_iff]

theorem getParametersByPath_eq (given : strParam body "Path" = some path) : getParametersByPath env store body =
    listed ((env.values store.parameters).filter (selected path (recursiveParam body))) := by
  rw [getParametersByPath, given]

theorem not_mistaken_of_listsBelow (right : ListsBelow env store body) (given : strParam body "Path" = some path)
    {name : String} {p : Parameter} (stored : store.parameters[name]? = some p) :
    ¬ Mistaken path.toList (recursiveParam body) name.toList := by
  obtain ⟨parameters, same, -, members⟩ := right path given
  obtain rfl := store.named name p stored
  rw [getParametersByPath_eq given] at same
  have names := names_of_listed same
  refine passes_iff_below_iff.mp ⟨fun passes => ?_, passes_of_below⟩
  have shown := List.mem_map_of_mem (f := Parameter.name) ((mem_selected_iff env p).mpr ⟨stored, passes⟩)
  rw [names] at shown
  obtain ⟨p', member, name'⟩ := List.mem_map.mp shown
  have below := ((members p').mp member).2
  rw [name'] at below
  exact below

theorem listsBelow_of_not_mistaken (apart : ∀ path, strParam body "Path" = some path → ∀ (name : String) p,
    store.parameters[name]? = some p → ¬ Mistaken path.toList (recursiveParam body) name.toList) :
    ListsBelow env store body := by
  intro path given
  refine ⟨_, getParametersByPath_eq given, (nodup_values env store).filter _, fun p => ?_⟩
  rw [mem_selected_iff]
  exact and_congr_right fun stored => passes_iff_below_iff.mpr (apart path given p.name p stored)

end Answer

/-- For every set of parameters and every request. -/
theorem parameters_by_path_iff (env : Env) (store : SsmStore) (body : Json) :
    ListsBelow env store body ↔ ∀ path, strParam body "Path" = some path → ∀ (name : String) p,
      store.parameters[name]? = some p → ¬ Mistaken path.toList (recursiveParam body) name.toList :=
  ⟨fun right _ given _ _ stored => not_mistaken_of_listsBelow right given stored, listsBelow_of_not_mistaken⟩

section Sibling

def localEnv : Env where
  accountId := "000000000000"
  region := "us-east-1"
  values := StrMap.values
  values_perm _ := .refl _

/-- `/application` stands beside `/app`, not below it. -/
theorem sibling_listed : ¬ ListsBelow localEnv
    (putParameter localEnv .new (.obj [("Name", .str "/application"), ("Value", .str "x")]) 0).2
    (.obj [("Path", .str "/app"), ("Recursive", .bool true)]) := by
  intro right
  have stored : ((putParameter localEnv .new (.obj [("Name", .str "/application"), ("Value", .str "x")])
      0).2.parameters["/application"]?).isSome = true := by decide +kernel
  obtain ⟨p, found⟩ := Option.isSome_iff_exists.mp stored
  have given : strParam (.obj [("Path", .str "/app"), ("Recursive", .bool true)]) "Path" = some "/app" := rfl
  refine not_mistaken_of_listsBelow right given found ?_
  exact .sibling 'l' "ication".toList (by decide +kernel) (by decide +kernel) (by decide) nofun

end Sibling

end Openstack.Ssm

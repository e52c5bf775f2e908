import Openstack.Gateway.Protocol

/-!
# Lambda routes

The routes under `/2015-03-31/functions/{name}` through `extract_rest_operation`, and the operations
that take something away: `DeleteFunction`, `DeleteAlias` and `RemovePermission` of
`crates/services/lambda/src/provider.rs`, lines 172-185, 390-414, 1127-1155 and 1322-1378.
-/
namespace Openstack.Lambda

open Gateway

structure PolicyStatement where
  sid : String
  action : String
  principal : String
  sourceArn : Option String
  deriving DecidableEq, Repr

structure LambdaFunction where
  functionName : String
  functionArn : String
  policyStatements : List PolicyStatement := []
  deriving DecidableEq, Repr

structure LambdaAlias where
  name : String
  functionVersion : String
  deriving DecidableEq, Repr

structure LambdaVersion where
  version : String
  codeSha256 : String
  deriving DecidableEq, Repr

/-- Functions, aliases and versions by the name of the function. -/
structure LambdaStore where
  functions : StrMap LambdaFunction := ∅
  aliases : StrMap (List LambdaAlias) := ∅
  versions : StrMap (List LambdaVersion) := ∅

inductive Answer where
  | noContent
  | jsonError (code message : String) (status : Nat)
  | notImplemented (text : String)
  deriving DecidableEq, Repr

/-- `path.trim_matches('/').split('/')`. -/
def pathParts (path : String) : List String :=
  (((path.toList.dropWhile (· = '/')).rdropWhile (· = '/')).splitOn '/').map String.ofList

/-- The part after the first one that is `label`. -/
def partAfter (label path : String) : Option String := ((pathParts path).dropWhile (· ≠ label))[1]?

def functionNameFromPath (path : String) : Option String := partAfter "functions" path

def aliasFromPath (path : String) : Option String := partAfter "aliases" path

def strField (body : Json) (key : String) : Option String := (body.get? key).bind Json.asStr?

structure Call where
  accountId : String
  region : String
  path : String
  body : Json

section Handlers

variable (call : Call) (store : LambdaStore)

def makeArn (functionName : String) : String :=
  "arn:aws:lambda:" ++ call.region ++ ":" ++ call.accountId ++ ":function:" ++ functionName

def deleteFunction : Answer × LambdaStore :=
  match (functionNameFromPath call.path).or (strField call.body "FunctionName") with
  | none => (.notImplemented "FunctionName required", store)
  | some name =>
    if store.functions.contains name then
      (.noContent,
        { functions := store.functions.erase name
          aliases := store.aliases.erase name
          versions := store.versions.erase name })
    else (.jsonError "ResourceNotFoundException" ("Function not found: " ++ name) 404, store)

def deleteAlias : Answer × LambdaStore :=
  match functionNameFromPath call.path with
  | none => (.notImplemented "FunctionName not found in path", store)
  | some name =>
    match (aliasFromPath call.path).or (strField call.body "Name") with
    | none => (.notImplemented "Alias name required", store)
    | some aliasName =>
      match store.aliases[name]? with
      | none => (.noContent, store)
      | some aliases =>
        let kept := aliases.filter fun a => a.name ≠ aliasName
        if kept.length = aliases.length then
          (.jsonError "ResourceNotFoundException" ("Alias not found: " ++ aliasName) 404, store)
        else (.noContent, { store with aliases := store.aliases.insert name kept })

/-- The last part of the path, unless it is the word `policy`. -/
def statementId : String :=
  (((pathParts call.path).getLast?.filter fun part => part ≠ "" ∧ part ≠ "policy").or
    (strField call.body "StatementId")).getD ""

def removePermission : Answer × LambdaStore :=
  match (functionNameFromPath call.path).or (strField call.body "FunctionName") with
  | none => (.jsonError "ValidationException" "FunctionName is required" 400, store)
  | some name =>
    match store.functions[name]? with
    | none =>
      (.jsonError "ResourceNotFoundException" ("Function not found: " ++ makeArn call name) 404, store)
    | some func =>
      let kept := func.policyStatements.filter fun statement => statement.sid ≠ statementId call
      if kept.length = func.policyStatements.length then
        (.jsonError "ResourceNotFoundException"
          ("Statement " ++ statementId call ++ " not found in function " ++ makeArn call name) 404, store)
      else
        (.noContent,
          { store with functions := store.functions.insert name { func with policyStatements := kept } })

/-- `dispatch`, for the operations that take something away. -/
def dispatchDeletion (operation : String) : Answer × LambdaStore :=
  if operation = "DeleteFunction" then deleteFunction call store
  else if operation = "DeleteAlias" then deleteAlias call store
  else if operation = "RemovePermission" then removePermission call store
  else (.notImplemented operation, store)

end Handlers

/-- A name that stands as one segment of a path. -/
structure PathSegment where
  text : String
  nonempty : text ≠ ""
  plain : '/' ∉ text.toList

/-- The routes of the operations that the provider implements. -/
inductive FunctionRoute where
  | getFunction
  | deleteFunction
  | updateFunctionCode
  | getFunctionConfiguration
  | updateFunctionConfiguration
  | publishVersion
  | invoke
  | createAlias
  | listAliases
  | getAlias (aliasName : PathSegment)
  | updateAlias (aliasName : PathSegment)
  | deleteAlias (aliasName : PathSegment)
  | addPermission
  | getPolicy
  | removePermission (sid : PathSegment)

namespace FunctionRoute

def method : FunctionRoute → String
  | getFunction | getFunctionConfiguration | listAliases | getAlias _ | getPolicy => "GET"
  | deleteFunction | deleteAlias _ | removePermission _ => "DELETE"
  | updateFunctionCode | updateFunctionConfiguration | updateAlias _ => "PUT"
  | publishVersion | invoke | createAlias | addPermission => "POST"

/-- What follows the name of the function. -/
def resource : FunctionRoute → String
  | getFunction | deleteFunction => ""
  | updateFunctionCode => "/code"
  | getFunctionConfiguration | updateFunctionConfiguration => "/configuration"
  | publishVersion => "/versions"
  | invoke => "/invocations"
  | createAlias | listAliases => "/aliases"
  | getAlias aliasName | updateAlias aliasName | deleteAlias aliasName => "/aliases/" ++ aliasName.text
  | addPermission | getPolicy => "/policy"
  | removePermission sid => "/policy/" ++ sid.text

def path (name : PathSegment) (route : FunctionRoute) : String :=
  lambdaFunctions ++ name.text ++ route.resource

def operation : FunctionRoute → String
  | getFunction => "GetFunction"
  | deleteFunction => "DeleteFunction"
  | updateFunctionCode => "UpdateFunctionCode"
  | getFunctionConfiguration => "GetFunctionConfiguration"
  | updateFunctionConfiguration => "UpdateFunctionConfiguration"
  | publishVersion => "PublishVersion"
  | invoke => "Invoke"
  | createAlias => "CreateAlias"
  | listAliases => "ListAliases"
  | getAlias _ => "GetAlias"
  | updateAlias _ => "UpdateAlias"
  | deleteAlias _ => "DeleteAlias"
  | addPermission => "AddPermission"
  | getPolicy => "GetPolicy"
  | removePermission _ => "RemovePermission"

/-- An alias or a policy statement of the function goes, not the function. -/
def deletesPart : FunctionRoute → Bool
  | deleteAlias _ | removePermission _ => true
  | _ => false

/-- The routes that the cascade of `extract_rest_operation` has. -/
def isRouted : FunctionRoute → Bool
  | getFunction | deleteFunction | updateFunctionCode | updateFunctionConfiguration | invoke => true
  | _ => false

end FunctionRoute

theorem FunctionRoute.not_routed_of_deletesPart (route : FunctionRoute) (part : route.deletesPart = true) :
    route.isRouted = false := by
  cases route <;> first | rfl | cases part

/-- The operation that the gateway finds for a route of the function `name`. -/
def routedOperation (name : PathSegment) (route : FunctionRoute) : String :=
  extractRestOperation route.method (route.path name)

structure RoutedToOperation (name : PathSegment) (route : FunctionRoute) : Prop where
  operation : routedOperation name route = route.operation
  keepsFunction : route.deletesPart = true → ∀ accountId region body store,
    store.functions.contains name.text = true →
    (dispatchDeletion ⟨accountId, region, route.path name, body⟩ store
      (routedOperation name route)).2.functions.contains name.text = true

/-- The cascade for what follows the prefix of Lambda. -/
@[grind] def lambdaOperation (method : String) (rest : List Char) (path : String) : String :=
  if "/code".toList.isSuffixOf rest = true ∧ method = "PUT" then "UpdateFunctionCode"
  else if "/invocations".toList.isSuffixOf rest = true ∧ method = "POST" then "Invoke"
  else if method = "GET" then "GetFunction"
  else if method = "DELETE" then "DeleteFunction"
  else if method = "PUT" then "UpdateFunctionConfiguration"
  else restFallback method path

/-- A path of Lambda is no route of another service. -/
theorem ne_of_year {path : String} (year : path.toList.take 5 = "/2015".toList) (route : String)
    (apart : route.toList.take 5 ≠ "/2015".toList) : path ≠ route := by
  rintro rfl
  exact apart year

theorem not_startsWith_of_year {path : String} (year : path.toList.take 5 = "/2015".toList) (route : String)
    (long : 5 ≤ route.toList.length) (apart : route.toList.take 5 ≠ "/2015".toList) :
    RustStr.startsWith path route = false := by
  rw [RustStr.startsWith, Bool.eq_false_iff]
  intro front
  obtain ⟨rest, split⟩ := List.isPrefixOf_iff_prefix.mp front
  rw [← split, List.take_append_of_le_length long] at year
  exact apart year

theorem trimStartMatches_once {pat rest : List Char} (long : 0 < pat.length)
    (other : pat.isPrefixOf rest = false) : RustStr.trimStartMatches pat (pat ++ rest) = rest := by
  obtain ⟨c, more, rfl⟩ := List.exists_cons_of_length_pos long
  have here : (c :: more).isPrefixOf (c :: more ++ rest) = true :=
    List.isPrefixOf_iff_prefix.mpr (List.prefix_append _ _)
  rw [RustStr.trimStartMatches, List.cons_append, List.length_cons, RustStr.trimStartMatchesUpTo,
    ← List.cons_append, if_pos here, List.drop_left]
  cases (more ++ rest).length with
  | zero => rfl
  | succ n => rw [RustStr.trimStartMatchesUpTo, other, if_neg (by decide)]

section Cascade

variable {method path : String} {rest : List Char}

theorem extract_lambda (text : path.toList = lambdaFunctions.toList ++ rest) (nonempty : rest ≠ [])
    (other : lambdaFunctions.toList.isPrefixOf rest = false) :
    extractRestOperation method path = lambdaOperation method rest path := by
  have long : 0 < lambdaFunctions.toList.length := by decide
  have year : path.toList.take 5 = "/2015".toList := by
    rw [text, List.take_append_of_le_length (by decide)]
    decide
  have starts : RustStr.startsWith path lambdaFunctions = true := by
    rw [RustStr.startsWith, text, List.isPrefixOf_iff_prefix]
    exact List.prefix_append _ _
  have longer : ∀ route : String, route.toList.length ≤ lambdaFunctions.toList.length → path ≠ route := by
    rintro route short rfl
    rw [text, List.length_append] at short
    exact nonempty (List.eq_nil_of_length_eq_zero (by omega))
  rw [extractRestOperation,
    if_neg (not_or.mpr ⟨longer _ (by decide), longer _ (by decide)⟩),
    if_neg (ne_of_year year _ (by decide)), if_neg (ne_of_year year _ (by decide)),
    not_startsWith_of_year year openSearchDomains (by decide) (by decide),
    if_neg (by decide), if_neg (ne_of_year year _ (by decide)),
    not_startsWith_of_year year hostedZones (by decide) (by decide), if_neg (by decide),
    not_startsWith_of_year year "/2013-04-01/change/" (by decide) (by decide), if_neg (by decide),
    starts, if_pos rfl, text, trimStartMatches_once long other]
  simp only [RustStr.endsWith, String.toList_ofList, lambdaOperation]

end Cascade

section Methods

variable {path : String} {rest : List Char}

theorem lambdaOperation_get : lambdaOperation "GET" rest path = "GetFunction" := by
  simp [lambdaOperation]

theorem lambdaOperation_delete : lambdaOperation "DELETE" rest path = "DeleteFunction" := by
  simp [lambdaOperation]

theorem lambdaOperation_put : lambdaOperation "PUT" rest path =
    if "/code".toList.isSuffixOf rest then "UpdateFunctionCode" else "UpdateFunctionConfiguration" := by
  by_cases code : "/code".toList.isSuffixOf rest = true
  · rw [lambdaOperation, if_pos ⟨code, rfl⟩, if_pos code]
  · rw [lambdaOperation, if_neg (fun both => code both.1), if_neg (fun both => absurd both.2 (by decide)),
      if_neg (by decide), if_neg (by decide), if_pos rfl, if_neg code]

theorem lambdaOperation_post : lambdaOperation "POST" rest path =
    if "/invocations".toList.isSuffixOf rest then "Invoke" else restFallback "POST" path := by
  by_cases invocations : "/invocations".toList.isSuffixOf rest = true
  · rw [lambdaOperation, if_neg (fun both => absurd both.2 (by decide)), if_pos ⟨invocations, rfl⟩,
      if_pos invocations]
  · rw [lambdaOperation, if_neg (fun both => absurd both.2 (by decide)),
      if_neg (fun both => invocations both.1), if_neg (by decide), if_neg (by decide),
      if_neg (by decide), if_neg invocations]

end Methods

theorem not_isSuffixOf {pat tail : List Char} (apart : ¬ pat <:+ tail) (apart' : ¬ tail <:+ pat)
    (front : List Char) : pat.isSuffixOf (front ++ tail) = false := by
  rw [Bool.eq_false_iff]
  intro back
  rcases List.suffix_or_suffix_of_suffix (List.isSuffixOf_iff_suffix.mp back)
    (List.suffix_append front tail) with within | within
  · exact apart within
  · exact apart' within

theorem isSuffixOf_append (front back : List Char) : back.isSuffixOf (front ++ back) = true :=
  List.isSuffixOf_iff_suffix.mpr (List.suffix_append front back)

/-- The operation of an unknown route is none of the provider's. -/
theorem restFallback_ne (method path operation : String) (named : ':' ∉ operation.toList) :
    restFallback method path ≠ operation := by
  rintro rfl
  exact named (by simp [restFallback])

section Routes

variable (name : PathSegment) (route : FunctionRoute)

theorem routedOperation_eq : routedOperation name route =
    lambdaOperation route.method (name.text.toList ++ route.resource.toList) (route.path name) := by
  have text : (route.path name).toList =
      lambdaFunctions.toList ++ (name.text.toList ++ route.resource.toList) := by
    rw [FunctionRoute.path, String.toList_append, String.toList_append, List.append_assoc]
  cases chars : name.text.toList with
  | nil => exact absurd (String.toList_eq_nil_iff.mp chars) name.nonempty
  | cons c more =>
    have plain : '/' ≠ c := fun same => name.plain (by rw [chars, ← same]; exact List.mem_cons_self)
    rw [routedOperation, extract_lambda text (by simp [chars]), chars]
    have slash : lambdaFunctions.toList = '/' :: "2015-03-31/functions/".toList := by decide
    rw [slash, chars, List.cons_append, List.isPrefixOf_cons_cons, beq_false_of_ne plain,
      Bool.false_and]

theorem routedOperation_of_isRouted (routed : route.isRouted = true) :
    routedOperation name route = route.operation := by
  rw [routedOperation_eq]
  cases route with
  | getFunction => exact lambdaOperation_get
  | deleteFunction => exact lambdaOperation_delete
  | updateFunctionCode =>
    rw [FunctionRoute.method, FunctionRoute.resource, lambdaOperation_put, isSuffixOf_append, if_pos rfl]
    rfl
  | updateFunctionConfiguration =>
    rw [FunctionRoute.method, FunctionRoute.resource, lambdaOperation_put,
      not_isSuffixOf (by decide) (by decide), if_neg (by decide)]
    rfl
  | invoke =>
    rw [FunctionRoute.method, FunctionRoute.resource, lambdaOperation_post, isSuffixOf_append, if_pos rfl]
    rfl
  | _ => cases routed

theorem routedOperation_ne (unrouted : route.isRouted = false) :
    routedOperation name route ≠ route.operation := by
  rw [routedOperation_eq]
  cases route with
  | getFunctionConfiguration | listAliases | getAlias _ | getPolicy =>
    rw [FunctionRoute.method, lambdaOperation_get, FunctionRoute.operation]
    decide
  | deleteAlias _ | removePermission _ =>
    rw [FunctionRoute.method, lambdaOperation_delete, FunctionRoute.operation]
    decide
  | updateAlias _ =>
    rw [FunctionRoute.method, lambdaOperation_put, FunctionRoute.operation]
    split <;> decide
  | publishVersion | createAlias | addPermission =>
    rw [FunctionRoute.method, FunctionRoute.resource, lambdaOperation_post,
      not_isSuffixOf (by decide) (by decide), if_neg (by decide)]
    exact restFallback_ne _ _ _ (by decide)
  | _ => cases unrouted

end Routes

/-- For every function name, and every alias name and statement id in the route. -/
theorem routed_to_operation_iff (name : PathSegment) (route : FunctionRoute) :
    RoutedToOperation name route ↔ route.isRouted = true := by
  constructor
  · intro right
    by_contra unrouted
    exact routedOperation_ne name route (Bool.eq_false_iff.mpr unrouted) right.operation
  · intro routed
    refine ⟨routedOperation_of_isRouted name route routed, fun part => ?_⟩
    exact absurd (routed.symm.trans (route.not_routed_of_deletesPart part)) (by decide)

theorem pathParts_eq {path : String} {c : Char} {y f n l s : List Char} (start : c ≠ '/')
    (text : path.toList = '/' :: (c :: y ++ '/' :: (f ++ '/' :: (n ++ '/' :: (l ++ '/' :: s)))))
    (nonempty : s ≠ []) (year : '/' ∉ c :: y) (functions : '/' ∉ f) (name : '/' ∉ n) (label : '/' ∉ l)
    (last : '/' ∉ s) : pathParts path = [c :: y, f, n, l, s].map String.ofList := by
  have front : path.toList.dropWhile (· = '/') =
      c :: y ++ '/' :: (f ++ '/' :: (n ++ '/' :: (l ++ '/' :: s))) := by
    rw [text, List.dropWhile_cons_of_pos (by simp), List.cons_append,
      List.dropWhile_cons_of_neg (by simpa using start)]
  have back : (c :: y ++ '/' :: (f ++ '/' :: (n ++ '/' :: (l ++ '/' :: s)))).rdropWhile (· = '/') =
      c :: y ++ '/' :: (f ++ '/' :: (n ++ '/' :: (l ++ '/' :: s))) := by
    rw [List.rdropWhile_eq_self_iff]
    intro some_char
    have tail : (c :: y ++ '/' :: (f ++ '/' :: (n ++ '/' :: (l ++ '/' :: s)))).getLast some_char =
        s.getLast nonempty := by
      simp [List.getLast_append_of_ne_nil, List.getLast_cons, nonempty]
    rw [tail, decide_eq_true_eq]
    intro slash
    exact last (slash ▸ List.getLast_mem nonempty)
  rw [pathParts, front, back, List.splitOn_append_cons_self_of_not_mem year,
    List.splitOn_append_cons_self_of_not_mem functions, List.splitOn_append_cons_self_of_not_mem name,
    List.splitOn_append_cons_self_of_not_mem label, List.splitOn_eq_singleton last]

def orders : PathSegment := ⟨"orders", by decide, by decide⟩

def live : PathSegment := ⟨"live", by decide, by decide⟩

def ordersStore : LambdaStore where
  functions := (∅ : StrMap LambdaFunction).insert "orders"
    ⟨"orders", "arn:aws:lambda:us-east-1:000000000000:function:orders", []⟩
  aliases := (∅ : StrMap (List LambdaAlias)).insert "orders" [⟨"live", "1"⟩]
  versions := (∅ : StrMap (List LambdaVersion)).insert "orders" [⟨"1", "00"⟩]

/-- Deleting the alias `live` deletes the function. -/
theorem delete_alias_deletes_function :
    routedOperation orders (.deleteAlias live) = "DeleteFunction" ∧
    ¬ RoutedToOperation orders (.deleteAlias live) ∧
    (dispatchDeletion ⟨"000000000000", "us-east-1", (FunctionRoute.deleteAlias live).path orders, .null⟩
      ordersStore (routedOperation orders (.deleteAlias live))).2.functions.contains "orders" = false := by
  refine ⟨by decide +kernel, fun right => ?_, by decide +kernel⟩
  exact absurd right.operation (by decide +kernel)

end Openstack.Lambda

import Openstack.Framework.JsonService
import Openstack.Lib.RustStr
import Openstack.Lib.StrMap

/-!
# API Gateway

`crates/services/apigateway/src/store.rs` and `provider.rs`, lines 72-460, for one account and region:
APIs, their resources, methods and integrations. Deployments and stages hold no resources and are left
out. `CreateResource` looks up its parent under one guard and stores the resource under another, so it
is two functions here. The random ids are arguments, and so is `to_uppercase`.
-/
namespace Openstack.ApiGateway

open JsonService (Answer Uuid strParam int)

structure RestApi where
  id : String
  name : String
  description : String
  created : Int
  deriving DecidableEq, Repr

structure ApiIntegration where
  integrationType : String
  uri : String
  httpMethod : String
  deriving DecidableEq, Repr

structure ApiMethod where
  httpMethod : String
  authorizationType : String
  integration : Option ApiIntegration
  deriving DecidableEq, Repr

structure ApiResource where
  id : String
  apiId : String
  parentId : Option String
  pathPart : String
  path : String
  methods : StrMap ApiMethod

structure ApiGatewayStore where
  apis : StrMap RestApi := ∅
  resources : StrMap ApiResource := ∅

/-- A request, with the two uuids that it may draw and the time. -/
structure Act where
  method : String
  path : String
  operation : String
  body : Json
  firstUuid : Uuid
  secondUuid : Uuid
  now : Int

def badRequest (message : String) : Answer := .error "BadRequestException" message 400

def notFound (message : String) : Answer := .error "NotFoundException" message 404

/-- `short_id`: the first eight characters of a uuid. -/
def shortId (uuid : Uuid) : String := String.ofList (uuid.text.toList.take 8)

/-- `path_segment`. -/
def Act.pathSegment (act : Act) (index : Nat) : Option String :=
  (((act.path.toList.splitOn '/').filter (· ≠ []))[index]?).map String.ofList

/-- The path is that of one API. -/
def namesApi (path : String) : Bool :=
  RustStr.startsWith path "/restapis/" &&
    decide (10 < path.toList.length) && !(path.toList.drop 10).contains '/'

/-- `canonical_operation`. -/
def Act.canonicalOperation (act : Act) : String :=
  let contains (pat : String) : Bool := RustStr.contains act.path.toList pat.toList
  match act.method with
  | "GET" =>
    if namesApi act.path then "GetRestApi"
    else if act.path = "/restapis" ∨ act.path = "/restapis/" then "GetRestApis"
    else if RustStr.endsWith act.path "/resources" then "GetResources"
    else if RustStr.endsWith act.path "/stages" then "GetStages"
    else act.operation
  | "POST" =>
    if act.path = "/restapis" then "CreateRestApi"
    else if contains "/resources/" then "CreateResource"
    else if RustStr.endsWith act.path "/deployments" then "CreateDeployment"
    else act.operation
  | "DELETE" => if namesApi act.path then "DeleteRestApi" else act.operation
  | "PUT" =>
    if RustStr.endsWith act.path "/integration" then "PutIntegration"
    else if contains "/methods/" then "PutMethod"
    else act.operation
  | _ => act.operation

section Operations

variable (toUppercase : String → String) (act : Act) (store : ApiGatewayStore)

def Act.apiId : String := shortId act.firstUuid

def Act.rootId : String := shortId act.secondUuid

def Act.resourceId : String := shortId act.firstUuid

def Act.description : String := (strParam act.body "description").getD ""

def newApi (name : String) : RestApi where
  id := act.apiId
  name := name
  description := act.description
  created := act.now

def rootResource : ApiResource where
  id := act.rootId
  apiId := act.apiId
  parentId := none
  pathPart := "/"
  path := "/"
  methods := ∅

/-- The store with the new API, before its root resource is in it. -/
def ApiGatewayStore.withApi (name : String) : ApiGatewayStore :=
  { store with apis := store.apis.insert act.apiId (newApi act name) }

def ApiGatewayStore.insertResource (id : String) (r : ApiResource) : ApiGatewayStore :=
  { store with resources := store.resources.insert id r }

def createRestApi : Answer × ApiGatewayStore :=
  match strParam act.body "name" with
  | none => (badRequest "name is required", store)
  | some name =>
    (.ok (.obj [("id", .str act.apiId), ("name", .str name), ("description", .str act.description),
        ("rootResourceId", .str act.rootId), ("createdDate", int act.now)]),
      (store.withApi act name).insertResource act.rootId (rootResource act))

def ApiGatewayStore.removeApi (apiId : String) : ApiGatewayStore where
  apis := store.apis.erase apiId
  resources := store.resources.filter fun _ r => r.apiId ≠ apiId

def deleteRestApi : Answer × ApiGatewayStore :=
  match act.pathSegment 1 with
  | none => (badRequest "restApiId required", store)
  | some apiId => (.okText "", store.removeApi apiId)

def extendPath (parentPath pathPart : String) : String :=
  if parentPath = "/" then "/" ++ pathPart else parentPath ++ "/" ++ pathPart

/-- The resource that a request makes below a path. -/
def newResource (apiId pathPart parentPath : String) : ApiResource where
  id := act.resourceId
  apiId := apiId
  parentId := act.pathSegment 3
  pathPart := pathPart
  path := extendPath parentPath pathPart
  methods := ∅

/-- The first part of `CreateResource`. -/
def lookupParent : Except Answer ApiResource :=
  match act.pathSegment 1, strParam act.body "pathPart" with
  | none, _ => .error (badRequest "restApiId required")
  | some _, none => .error (badRequest "pathPart is required")
  | some apiId, some pathPart =>
    if store.apis.contains apiId then
      match act.pathSegment 3 with
      | none => .ok (newResource act apiId pathPart "/")
      | some parentId =>
        match store.resources[parentId]? with
        | none => .error (notFound "Invalid Resource identifier specified")
        | some parent => .ok (newResource act apiId pathPart parent.path)
    else .error (notFound "Invalid API identifier specified")

/-- The second part of `CreateResource`. -/
def storeResource (r : ApiResource) : Answer × ApiGatewayStore :=
  (.ok (.obj [("id", .str r.id), ("parentId", (r.parentId.map Json.str).getD .null),
      ("pathPart", .str r.pathPart), ("path", .str r.path)]),
    store.insertResource r.id r)

def newMethod (httpMethod : String) : ApiMethod where
  httpMethod := httpMethod
  authorizationType := (strParam act.body "authorizationType").getD "NONE"
  integration := none

def ApiResource.putMethod (r : ApiResource) (httpMethod : String) (m : ApiMethod) : ApiResource :=
  { r with methods := r.methods.insert httpMethod m }

def putMethod : Answer × ApiGatewayStore :=
  match act.pathSegment 3, (act.pathSegment 5).map toUppercase with
  | none, _ => (badRequest "resourceId required", store)
  | some _, none => (badRequest "httpMethod required", store)
  | some resourceId, some httpMethod =>
    match store.resources[resourceId]? with
    | none => (notFound "Invalid resource identifier specified", store)
    | some r =>
      (.ok (.obj [("httpMethod", .str httpMethod), ("authorizationType", .str "NONE")]),
        store.insertResource resourceId (r.putMethod httpMethod (newMethod act httpMethod)))

def newIntegration : ApiIntegration where
  integrationType := (strParam act.body "type").getD "AWS_PROXY"
  uri := (strParam act.body "uri").getD ""
  httpMethod := (strParam act.body "httpMethod").getD "POST"

def ApiMethod.withIntegration (m : ApiMethod) (i : ApiIntegration) : ApiMethod :=
  { m with integration := some i }

def putIntegration : Answer × ApiGatewayStore :=
  match act.pathSegment 3, (act.pathSegment 5).map toUppercase with
  | none, _ => (badRequest "resourceId required", store)
  | some _, none => (badRequest "httpMethod required", store)
  | some resourceId, some httpMethod =>
    match store.resources[resourceId]? with
    | none => (notFound "Invalid resource identifier specified", store)
    | some r =>
      match r.methods[httpMethod]? with
      | none => (notFound "Invalid method identifier specified", store)
      | some m =>
        (.ok (.obj [("type", .str (newIntegration act).integrationType),
            ("uri", .str (newIntegration act).uri)]),
          store.insertResource resourceId
            (r.putMethod httpMethod (m.withIntegration (newIntegration act))))

end Operations

/-- The store and the resources that requests under way are about to store. -/
structure System where
  store : ApiGatewayStore := {}
  creating : List ApiResource := []

inductive Event where
  /-- A request arrives; of a `CreateResource` this is the part up to the lookup. -/
  | request (act : Act)
  /-- The `n`-th `CreateResource` under way stores its resource. -/
  | store (n : Nat)

/-- The request in one go, or its first part; the other operations leave APIs and resources alone. -/
@[grind] def System.request (toUppercase : String → String) (s : System) (act : Act) : System :=
  match act.canonicalOperation with
  | "CreateRestApi" => { s with store := (createRestApi act s.store).2 }
  | "DeleteRestApi" => { s with store := (deleteRestApi act s.store).2 }
  | "CreateResource" =>
    match lookupParent act s.store with
    | .error _ => s
    | .ok r => { s with creating := s.creating ++ [r] }
  | "PutMethod" => { s with store := (putMethod toUppercase act s.store).2 }
  | "PutIntegration" => { s with store := (putIntegration toUppercase act s.store).2 }
  | _ => s

@[grind] def System.step (toUppercase : String → String) (s : System) : Event → System
  | .request act => s.request toUppercase act
  | .store n =>
    match s.creating[n]? with
    | none => s
    | some r => ⟨(storeResource s.store r).2, s.creating.eraseIdx n⟩

end Openstack.ApiGateway

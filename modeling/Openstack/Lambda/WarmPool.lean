import Openstack.Framework.JsonService
import Openstack.Gateway.LambdaRouting
import Openstack.Lambda.RuntimeInterface

/-!
# Warm containers

`DockerExecutor::invoke`, `cold_start` and `evict_expired` (`crates/services/lambda/src/docker.rs`, lines
281-537), cut into their atomic steps on the warm pool and the started containers, together with the
requests on the functions that they are started for (`provider.rs`, lines 228-311 and 390-707). Calls to
docker succeed. The answers of the requests, and what a function keeps for them only, are left out.
-/
namespace Openstack.Lambda

/-- What a container is started with. -/
structure ContainerSpec where
  codeZip : String
  handler : String
  runtime : String
  environment : List (String × String)
  deriving DecidableEq, Repr

/-- `func_data`: what `Invoke` clones of a function. -/
structure FuncData where
  functionArn : String
  functionName : String
  runtime : String
  handler : String
  codeZip : String
  codeSha256 : String
  environment : StrMap String
  timeout : Int

def FuncData.spec (f : FuncData) : ContainerSpec :=
  ⟨f.codeZip, f.handler, f.runtime, f.environment.toList⟩

structure Config where
  keepaliveMs : Nat
  computeSha256B64 : String → String

section Requests

variable (config : Config) (call : Call) (functions : StrMap FuncData)

/-- `serde_json::from_value::<HashMap<String, String>>`. -/
def stringMap? : Json → Option (StrMap String)
  | .obj fields =>
    fields.foldl (fun vars (k, v) => vars.bind fun vars => (Json.asStr? v).map fun text => vars.insert k text)
      (some ∅)
  | _ => none

/-- The variables of the environment, if they are texts. -/
def requestEnvironment : Option (StrMap String) :=
  ((call.body.get? "Environment").bind (Json.get? "Variables")).bind stringMap?

def i64Field (key : String) (default : Int) : Int :=
  ((call.body.get? key).bind JsonService.asI64?).getD default

def requestCode : String :=
  (((call.body.get? "Code").bind (Json.get? "ZipFile")).bind Json.asStr?).getD ""

def newFunction (name : String) : FuncData where
  functionArn := makeArn call name
  functionName := name
  runtime := (strField call.body "Runtime").getD ""
  handler := (strField call.body "Handler").getD ""
  codeZip := requestCode call
  codeSha256 := config.computeSha256B64 (requestCode call)
  environment := (requestEnvironment call).getD ∅
  timeout := i64Field call "Timeout" 3

def createFunction : StrMap FuncData :=
  match strField call.body "FunctionName" with
  | none => functions
  | some name =>
    if functions.contains name then functions else functions.insert name (newFunction config call name)

/-- The name of a function in the path, or else in the body. -/
def requestName : Option String := (functionNameFromPath call.path).or (strField call.body "FunctionName")

def removeFunction : StrMap FuncData :=
  match requestName call with
  | none => functions
  | some name => functions.erase name

def withFunction (change : FuncData → FuncData) : StrMap FuncData :=
  match requestName call with
  | none => functions
  | some name =>
    match functions[name]? with
    | none => functions
    | some f => functions.insert name (change f)

def updateFunctionCode : StrMap FuncData :=
  withFunction call functions fun f =>
    let codeZip := (strField call.body "ZipFile").getD ""
    { f with codeZip, codeSha256 := config.computeSha256B64 codeZip }

def updateFunctionConfiguration : StrMap FuncData :=
  withFunction call functions fun f =>
    { f with
      runtime := (strField call.body "Runtime").getD f.runtime
      handler := (strField call.body "Handler").getD f.handler
      timeout := i64Field call "Timeout" f.timeout
      environment := (requestEnvironment call).getD f.environment }

inductive StoreOperation where
  | createFunction
  | updateFunctionCode
  | updateFunctionConfiguration
  | deleteFunction
  deriving DecidableEq, Repr

def applyRequest (operation : StoreOperation) : StrMap FuncData :=
  match operation with
  | .createFunction => createFunction config call functions
  | .updateFunctionCode => updateFunctionCode config call functions
  | .updateFunctionConfiguration => updateFunctionConfiguration call functions
  | .deleteFunction => removeFunction call functions

end Requests

structure WarmContainer where
  containerId : Nat
  lastUsed : Nat
  deriving DecidableEq, Repr

structure Containers where
  /-- By the ARN of the function. -/
  warmPool : StrMap WarmContainer := ∅
  /-- What each container was started with, by its id. -/
  specs : List ContainerSpec := []
  /-- The containers that are started and not removed. -/
  running : List Nat := []

/-- What the steps of a task find: the time, whether the channel of a warm container takes a request,
whether the code is extracted and the server for a new one started, whether that takes the request, and
what the container answers. -/
structure Outcome where
  now : Nat
  isOpen : Bool
  prepared : Bool
  queued : Bool
  result : InvocationResult

def InvocationResult.isAnswer : InvocationResult → Bool
  | .success _ | .functionError _ _ => true
  | .timeout | .containerError _ => false

/-- What an invocation or an eviction does next. -/
inductive Task where
  | checkPool (f : FuncData)
  /-- `warm_pool.remove` after the entry was found expired or closed. -/
  | removeEntry (f : FuncData)
  | coldStart (f : FuncData)
  | awaitWarm (f : FuncData) (id : Nat)
  | awaitCold (f : FuncData) (id : Nat)
  | cleanup (id : Nat)
  | evict (expired : List String)
  | evictCleanup (id : Nat) (expired : List String)
  | done

namespace Containers

variable (c : Containers)

def start (spec : ContainerSpec) : Containers :=
  { c with specs := c.specs ++ [spec], running := c.running ++ [c.specs.length] }

/-- `cleanup_container`. -/
def remove (id : Nat) : Containers := { c with running := c.running.filter (· ≠ id) }

def insert (arn : String) (entry : WarmContainer) : Containers :=
  { c with warmPool := c.warmPool.insert arn entry }

def erase (arn : String) : Containers := { c with warmPool := c.warmPool.erase arn }

end Containers

/-- The step of a task. -/
@[grind] def Task.step (keepaliveMs : Nat) (o : Outcome) : Task → Containers → Task × Containers
  | .checkPool f, c =>
    match if keepaliveMs = 0 then none else c.warmPool[f.functionArn]? with
    | none => (.coldStart f, c)
    | some entry =>
      if o.now - entry.lastUsed < keepaliveMs ∧ o.isOpen = true then
        (.awaitWarm f entry.containerId, c.insert f.functionArn { entry with lastUsed := o.now })
      else (.removeEntry f, c)
  | .removeEntry f, c => (.coldStart f, c.erase f.functionArn)
  | .coldStart f, c =>
    if o.prepared = true then
      (if o.queued = true then .awaitCold f c.specs.length else .cleanup c.specs.length, c.start f.spec)
    else (.done, c)
  | .awaitWarm _ _, c => (.done, c)
  | .awaitCold f id, c =>
    if 0 < keepaliveMs ∧ o.result.isAnswer = true then (.done, c.insert f.functionArn ⟨id, o.now⟩)
    else (.cleanup id, c)
  | .cleanup id, c => (.done, c.remove id)
  | .evict [], c => (.done, c)
  | .evict (key :: rest), c =>
    match c.warmPool[key]? with
    | none => (.evict rest, c)
    | some entry => (.evictCleanup entry.containerId rest, c.erase key)
  | .evictCleanup id rest, c => (.evict rest, c.remove id)
  | .done, c => (.done, c)

structure World where
  /-- By account and region. -/
  functions : String × String → StrMap FuncData := fun _ => ∅
  containers : Containers := {}
  tasks : List Task := []

inductive Act where
  | request (operation : StoreOperation) (call : Call)
  /-- `Invoke` with a payload that is UTF-8. -/
  | invoke (call : Call) (invocationType : String)
  /-- The scan of `evict_expired`, which is not atomic, found these keys expired. -/
  | evict (expired : List String)
  | advance (task : Nat) (o : Outcome)

/-- The function that `Invoke` looks up; a dry run invokes nothing. -/
def World.lookup (w : World) (call : Call) (invocationType : String) : Option FuncData :=
  if invocationType = "DryRun" then none
  else (functionNameFromPath call.path).bind fun name => (w.functions (call.accountId, call.region))[name]?

def World.step (config : Config) (w : World) (act : Act) : World :=
  match act with
  | .request operation call =>
    { w with
      functions := Function.update w.functions (call.accountId, call.region)
        (applyRequest config call (w.functions (call.accountId, call.region)) operation) }
  | .invoke call invocationType =>
    { w with tasks := w.tasks ++ ((w.lookup call invocationType).map .checkPool).toList }
  | .evict expired => { w with tasks := w.tasks ++ [.evict (if config.keepaliveMs = 0 then [] else expired)] }
  | .advance i o =>
    match w.tasks[i]? with
    | none => w
    | some task =>
      { w with
        containers := (task.step config.keepaliveMs o w.containers).2
        tasks := w.tasks.set i (task.step config.keepaliveMs o w.containers).1 }

section Example

def localConfig : Config where
  keepaliveMs := 600000
  computeSha256B64 _ := ""

def callOrders (path : String) (body : Json) : Call := ⟨"000000000000", "us-east-1", path, body⟩

def createOrders (code : String) : Act := .request .createFunction (callOrders "/2015-03-31/functions"
  (.obj [("Code", .obj [("ZipFile", .str code)]), ("FunctionName", .str "orders")]))

def updateOrders (code : String) : Act := .request .updateFunctionCode
  (callOrders "/2015-03-31/functions/orders/code" (.obj [("ZipFile", .str code)]))

def invokeOrders : Act :=
  .invoke (callOrders "/2015-03-31/functions/orders/invocations" .null) "RequestResponse"

def ordersArn : String := "arn:aws:lambda:us-east-1:000000000000:function:orders"

/-- The next step of a task, with nothing going wrong. -/
def proceed (task now : Nat) : Act := .advance task ⟨now, true, true, true, .success "1"⟩

end Example

end Openstack.Lambda

import Openstack.CloudFormation.Parameters
import Openstack.Ses.Provider

/-!
# Query-protocol requests in the URL

A query-protocol request has its action and parameters in a form body or in the query string. The
detection of the service knows both places, the parser of the protocol reads the body alone, and the
lists of SES and CloudFormation are read from the query alone.
-/
namespace Openstack.Gateway

open S3 (HttpRequest Headers QueryParams Bytes headerStr)

/-- An action with its parameters, sent with these headers. The operation is in the action, not in a
target header. -/
structure QueryCall where
  service : String
  action : String
  params : List (String × String)
  path : String
  headers : Headers
  formMethod : String
  urlMethod : String
  listed : service ∈ ["ses", "cloudformation", "iam"]
  untargeted : headers.lookup "x-amz-target" = none

namespace QueryCall

variable (call : QueryCall)

def fields : List (String × String) := ("Action", call.action) :: call.params

/-- The fields are in the body. -/
def formRequest : HttpRequest where
  method := call.formMethod
  path := call.path
  headers := call.headers
  queryParams := ∅

/-- The fields are in the query string, and the body is empty. -/
def urlRequest : HttpRequest where
  method := call.urlMethod
  path := call.path
  headers := call.headers
  queryParams := call.fields.foldl (fun params field => params.insert field.1 field.2) ∅

end QueryCall

/-- Service and operation, if the request is received. -/
def selection (received : Except String RequestContext) : Option (String × String) :=
  received.toOption.map fun ctx => (ctx.service, ctx.operation)

section Transports

variable (hash : String → Nat) (parsers : Parsers) (config : Config)

/-- Both requests are received as the call, and the provider of its service treats them alike; fresh ids
and times are fixed in it. -/
structure TransportsAgree {σ : Type} (provider : RequestContext → σ → Bool × σ) (call : QueryCall)
    (body : Bytes) : Prop where
  form : selection (receive hash parsers config call.formRequest body) = some (call.service, call.action)
  url : selection (receive hash parsers config call.urlRequest []) = some (call.service, call.action)
  alike : ∀ ctx ctx', receive hash parsers config call.formRequest body = .ok ctx →
    receive hash parsers config call.urlRequest [] = .ok ctx' →
    ∀ store, provider ctx store = provider ctx' store

/-- SendEmail stores no addresses and CreateStack no parameters, whatever was sent. -/
structure DropsLists (call : QueryCall) (body : Bytes) : Prop where
  addresses : ∀ ctx, receive hash parsers config call.formRequest body = .ok ctx →
    ctx.operation = "SendEmail" → ∀ env (store : Ses.SesStore) (id : String) stored,
      store.emails[id]? ≠ some stored → (Ses.dispatch env ctx store).2.emails[id]? = some stored →
      stored.destinationTo = [] ∧ stored.destinationCc = [] ∧ stored.destinationBcc = []
  parameters : ∀ ctx, receive hash parsers config call.formRequest body = .ok ctx →
    CloudFormation.stackParameters ctx = ∅

end Transports

section Refused

variable {hash : String → Nat} {parsers : Parsers} {config : Config}

theorem QueryCall.protocol (call : QueryCall) : AwsProtocol.fromService call.service = .query := by
  have each : ∀ service ∈ ["ses", "cloudformation", "iam"],
      AwsProtocol.fromService service = .query := by decide
  exact each call.service call.listed

/-- Without a target header, an empty body names no operation. -/
theorem parseQueryOperation_empty (empty : parsers.form [] = .ok []) {headers : Headers}
    (untargeted : headers.lookup "x-amz-target" = none) :
    parseQueryOperation parsers headers [] = .error (missingAction "query").text := by
  have noAction : parseQueryRequest parsers [] = .error (missingAction "query") := by
    simp [parseQueryRequest, empty, parsed, Except.mapError]
    rfl
  have noTarget : queryModeOperation headers = none := by
    simp [queryModeOperation, headerStr, untargeted]
  rw [parseQueryOperation, noAction]
  dsimp only
  split
  · rw [noTarget]
  · rfl

theorem selectBody_empty (localstackHost : String) (req : HttpRequest) :
    (selectBody localstackHost req []).1 = [] := by
  rw [selectBody]
  split <;> rfl

/-- A request in the URL is refused once its service is known. -/
theorem receive_url (empty : parsers.form [] = .ok []) (call : QueryCall)
    (service : detectService call.path call.urlRequest.queryParams call.headers []
      (requestScope call.headers).2.2 = call.service) :
    receive hash parsers config call.urlRequest [] =
      .error ("Failed to parse request: " ++ (missingAction "query").text) := by
  have path : call.urlRequest.path = call.path := rfl
  have headers : call.urlRequest.headers = call.headers := rfl
  rw [receive, buildRequestContext, selectBody_empty, path, headers, service, call.protocol,
    parseOperationAndParams, parseQueryOperation_empty empty call.untargeted]

theorem service_of_receive {req : HttpRequest} {ctx : RequestContext}
    (received : receive hash parsers config req [] = .ok ctx) :
    ctx.service = detectService req.path req.queryParams req.headers [] (requestScope req.headers).2.2 := by
  have tenant := congrArg (fun t => t.2.2) (tenant_of_receive received)
  rwa [selectBody_empty] at tenant

theorem queryParams_of_receive {req : HttpRequest} {body : Bytes} {ctx : RequestContext}
    (received : receive hash parsers config req body = .ok ctx) : ctx.queryParams = req.queryParams := by
  rw [receive, buildRequestContext] at received
  split at received
  · cases received
  · cases received
    rfl

theorem url_not_selected (empty : parsers.form [] = .ok []) (call : QueryCall) :
    selection (receive hash parsers config call.urlRequest []) ≠ some (call.service, call.action) := by
  intro selected
  cases received : receive hash parsers config call.urlRequest [] with
  | error e =>
    rw [received] at selected
    cases selected
  | ok ctx =>
    rw [received] at selected
    obtain ⟨service, -⟩ := Prod.mk.inj (Option.some.inj selected)
    have refused := @receive_url hash parsers config empty call
      ((service_of_receive received).symm.trans service)
    rw [received] at refused
    cases refused

end Refused

/-- No call is received as itself from the URL, and the form loses its lists. -/
theorem transports_never_agree (hash : String → Nat) {parsers : Parsers} (config : Config)
    (empty : parsers.form [] = .ok []) :
    (∀ {σ : Type} (provider : RequestContext → σ → Bool × σ) (call : QueryCall) (body : Bytes),
      ¬ TransportsAgree hash parsers config provider call body) ∧
    ∀ (call : QueryCall) (body : Bytes), DropsLists hash parsers config call body := by
  constructor
  · intro σ provider call body agree
    exact url_not_selected empty call agree.url
  · intro call body
    constructor
    · intro ctx received operation env store id stored new found
      exact Ses.addresses_of_body (queryParams_of_receive received) operation new found
    · intro ctx received
      exact CloudFormation.stackParameters_of_body (queryParams_of_receive received)

def mail : QueryCall where
  service := "ses"
  action := "SendEmail"
  params := [("Source", "shop@example.com"), ("Destination.ToAddresses.member.1", "ann@example.com")]
  path := "/"
  headers := []
  formMethod := "POST"
  urlMethod := "GET"
  listed := by decide
  untargeted := rfl

def mailBody : Bytes := ("Action=SendEmail&Source=shop%40example.com" ++
  "&Destination.ToAddresses.member.1=ann%40example.com").toUTF8.toList

/-- The form parser on the two bodies. -/
def mailParsers : Parsers where
  json _ := .error "expected value at line 1 column 1"
  form body := if body = [] then .ok [] else if body = mailBody then .ok mail.fields else .error ""
  text _ := ""

def mailProvider (ctx : RequestContext) (store : Ses.SesStore) : Bool × Ses.SesStore :=
  let result := Ses.dispatch ⟨"m1", 0⟩ ctx store
  (result.1.succeeds, result.2)

theorem mail_never_agrees :
    ¬ TransportsAgree (fun _ => 0) mailParsers standardConfig mailProvider mail mailBody :=
  (@transports_never_agree (fun _ => 0) mailParsers standardConfig rfl).1 mailProvider mail mailBody

/-- From the body, the email is stored for nobody; from the URL, the request is refused. -/
theorem mail_loses_address :
    ¬ TransportsAgree (fun _ => 0) mailParsers standardConfig mailProvider mail mailBody ∧
    selection (receive (fun _ => 0) mailParsers standardConfig mail.formRequest mailBody) =
      some ("ses", "SendEmail") ∧
    (receive (fun _ => 0) mailParsers standardConfig mail.formRequest mailBody).toOption.bind (fun ctx =>
      (mailProvider ctx {}).2.emails["m1"]?.map (·.destinationTo)) = some [] ∧
    selection (receive (fun _ => 0) mailParsers standardConfig mail.urlRequest []) = none := by
  have refused : selection (receive (fun _ => 0) mailParsers standardConfig mail.urlRequest []) = none := by
    decide +kernel
  refine ⟨fun agree => ?_, by decide +kernel, by decide +kernel, refused⟩
  have selected := agree.url
  rw [refused] at selected
  cases selected

example : ¬ mailBody.isEmpty := by decide +kernel

end Openstack.Gateway

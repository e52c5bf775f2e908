import Openstack.Gateway.Protocol

/-!
# The context of a request

`build_request_context` of `crates/gateway/src/server.rs`, lines 2178-2264, and the tenant that a
request works on. The credential scope comes from the `Authorization` header alone. The request id,
which only passes through, is left out.
-/
namespace Openstack.Gateway

open S3 (HttpRequest Headers QueryParams Bytes headerStr headerToStr)

variable {s : String} {req : HttpRequest} {body : Bytes} {config : Config}

structure Config where
  allowNonstandardRegions : Bool
  localstackHost : String

structure RequestContext where
  service : String
  operation : String
  region : String
  accountId : String
  accessKey : String
  protocol : AwsProtocol
  params : Json
  rawBody : Option Bytes
  headers : Headers
  path : String
  method : String
  queryParams : QueryParams
  bodyReader : Option Bytes

/-- `str_param` of the query-protocol services: a query parameter, or else a field of the parsed body. -/
def RequestContext.strParam (ctx : RequestContext) (key : String) : Option String :=
  ctx.queryParams[key]?.or ((ctx.params.get? key).bind Json.asStr?)

/-- Access key, region and service of the header, or the default without a service. -/
def requestScope (headers : Headers) : String × String × Option String :=
  match (headerStr headers "authorization").bind parseSigv4Auth with
  | some sigv4 => (sigv4.accessKey, sigv4.region, some sigv4.service)
  | none => (defaultAccessKey, defaultRegion, none)

def normalizeRegion (config : Config) (region : String) : String :=
  if config.allowNonstandardRegions ∨ isValidRegion region then region else defaultRegion

section Context

variable (hash : String → Nat) (parsers : Parsers) (config : Config) (req : HttpRequest)

def buildRequestContext (body : Bytes) (bodyReader : Option Bytes) : Except String RequestContext :=
  let scope := requestScope req.headers
  let service := detectService req.path req.queryParams req.headers body scope.2.2
  let path := contextPath config.localstackHost req service
  let protocol := AwsProtocol.fromService service
  match parseOperationAndParams parsers ⟨req.method, path, req.queryParams, req.headers, body⟩ protocol with
  | .error e => .error ("Failed to parse request: " ++ e)
  | .ok (operation, params) =>
    .ok { service := service
          operation := operation
          region := normalizeRegion config scope.2.1
          accountId := accessKeyToAccountId hash scope.1
          accessKey := scope.1
          protocol := protocol
          params := params
          rawBody := if body = [] then none else some body
          headers := req.headers
          path := path
          method := req.method
          queryParams := req.queryParams
          bodyReader := bodyReader }

/-- `handle_request` up to the context: the body is selected before the service is known. -/
def receive (body : Bytes) : Except String RequestContext :=
  let selected := selectBody config.localstackHost req body
  buildRequestContext hash parsers config req selected.1 selected.2

end Context

/-- `HeaderValue::to_str` reads the text. -/
def Visible (s : String) : Prop := headerToStr s = some s

instance (s : String) : Decidable (Visible s) := inferInstanceAs (Decidable (headerToStr s = some s))

def isScopeChar (c : Char) : Bool := 32 < c.toNat && c.toNat < 127 && c != '/' && c != ','

/-- One field of a credential scope. -/
def IsScopeField (s : String) : Prop := s.toList.all isScopeChar = true

instance (s : String) : Decidable (IsScopeField s) :=
  inferInstanceAs (Decidable (s.toList.all isScopeChar = true))

structure CredentialScope where
  accessKey : String
  date : String
  region : String
  service : String
  accessKey_field : IsScopeField accessKey
  date_field : IsScopeField date
  region_field : IsScopeField region
  service_field : IsScopeField service

def CredentialScope.text (scope : CredentialScope) : String :=
  scope.accessKey ++ "/" ++ scope.date ++ "/" ++ scope.region ++ "/" ++ scope.service ++ "/aws4_request"

/-- The rest of a signature. -/
structure Signature where
  signedHeaders : String
  signature : String
  signedHeaders_visible : Visible signedHeaders
  signature_visible : Visible signature

section Signing

variable (base : HttpRequest) (scope : CredentialScope) (sig : Signature)

def authorization : String :=
  "AWS4-HMAC-SHA256 Credential=" ++ scope.text ++ ", SignedHeaders=" ++ sig.signedHeaders ++
    ", Signature=" ++ sig.signature

def unsignedHeaders : Headers := base.headers.filter fun header => header.1 ≠ "authorization"

/-- The request with its scope in the `Authorization` header. -/
def headerSigned : HttpRequest where
  method := base.method
  path := base.path
  headers := ("authorization", authorization scope sig) :: unsignedHeaders base
  queryParams := base.queryParams

/-- The request with its scope in the query; a date and an expiry are among the other parameters. -/
def presigned : HttpRequest where
  method := base.method
  path := base.path
  headers := unsignedHeaders base
  queryParams := (((base.queryParams.insert "X-Amz-Algorithm" "AWS4-HMAC-SHA256").insert
    "X-Amz-Credential" scope.text).insert "X-Amz-SignedHeaders" sig.signedHeaders).insert
      "X-Amz-Signature" sig.signature

end Signing

/-- Account id, region and service. -/
def RequestContext.tenant (ctx : RequestContext) : String × String × String :=
  (ctx.accountId, ctx.region, ctx.service)

/-- The service that a request with a nonempty query names without a credential scope. -/
inductive NamesService (req : HttpRequest) (body : Bytes) : String → Prop where
  | host {service : String} (host : serviceFromHost req.headers = some service) :
    NamesService req body service
  | target {service : String} (host : serviceFromHost req.headers = none)
      (target : (headerStr req.headers "x-amz-target").bind serviceFromTarget = some service) :
    NamesService req body service
  | action {service : String} (host : serviceFromHost req.headers = none)
      (target : (headerStr req.headers "x-amz-target").bind serviceFromTarget = none)
      (action : serviceFromQueryAction req.queryParams body = some service) :
    NamesService req body service
  | path {service : String} (host : serviceFromHost req.headers = none)
      (target : (headerStr req.headers "x-amz-target").bind serviceFromTarget = none)
      (action : serviceFromQueryAction req.queryParams body = none)
      (path : serviceFromPath req.path = some service) :
    NamesService req body service
  | rest (host : serviceFromHost req.headers = none)
      (target : (headerStr req.headers "x-amz-target").bind serviceFromTarget = none)
      (action : serviceFromQueryAction req.queryParams body = none)
      (path : serviceFromPath req.path = none) :
    NamesService req body (if trimStartSlashes req.path = [] then "unknown" else "s3")

/-- The scope names the tenant that a request without a scope has. -/
structure ScopeIsDefault (hash : String → Nat) (config : Config) (base : HttpRequest)
    (scope : CredentialScope) (sig : Signature) (body : Bytes) : Prop where
  account : (∃ entry ∈ testAccessKeys, RustStr.startsWith scope.accessKey entry.1 = true) ∨
    hash scope.accessKey % 1000000000000 = 0
  region : scope.region = defaultRegion ∨
    (config.allowNonstandardRegions = false ∧ isValidRegion scope.region = false)
  service : NamesService (presigned base scope sig)
    (selectBody config.localstackHost (presigned base scope sig) body).1 (normalizeServiceName scope.service)

theorem IsScopeField.char (field : IsScopeField s) {c : Char} (member : c ∈ s.toList) :
    32 < c.toNat ∧ c.toNat < 127 ∧ c ≠ '/' ∧ c ≠ ',' := by
  simpa [isScopeChar, and_assoc] using List.all_eq_true.mp field c member

theorem IsScopeField.not_mem_slash (field : IsScopeField s) : '/' ∉ s.toList :=
  fun member => (field.char member).2.2.1 rfl

theorem IsScopeField.not_mem_comma (field : IsScopeField s) : ',' ∉ s.toList :=
  fun member => (field.char member).2.2.2 rfl

theorem visible_iff :
    Visible s ↔ ∀ c ∈ s.toList, c = '\t' ∨ (32 ≤ c.toNat ∧ c.toNat < 127) := by
  simp [Visible, headerToStr, or_iff_not_imp_left]

theorem IsScopeField.visible (field : IsScopeField s) : Visible s := by
  refine visible_iff.mpr fun c member => ?_
  have chars := field.char member
  omega

theorem Visible.append {s t : String} (left : Visible s) (right : Visible t) : Visible (s ++ t) := by
  refine visible_iff.mpr fun c member => ?_
  rw [String.toList_append, List.mem_append] at member
  rcases member with here | there
  · exact visible_iff.mp left c here
  · exact visible_iff.mp right c there

theorem isWhitespace_of_field {c : Char} (above : 32 < c.toNat) (below : c.toNat < 127) :
    RustStr.isWhitespace c = false := by
  simp only [RustStr.isWhitespace, Bool.or_eq_false_iff, Bool.and_eq_false_iff, decide_eq_false_iff_not,
    beq_eq_false_iff_ne]
  omega

namespace CredentialScope

variable (scope : CredentialScope)

theorem text_toList : scope.text.toList = scope.accessKey.toList ++ '/' :: (scope.date.toList ++
    '/' :: (scope.region.toList ++ '/' :: (scope.service.toList ++ '/' :: "aws4_request".toList))) := by
  have terminator : "/aws4_request".toList = '/' :: "aws4_request".toList := by decide
  have slash : "/".toList = ['/'] := by decide
  simp [text, String.toList_append, terminator, slash]

theorem parseCredentialScope_text : parseCredentialScope scope.text.toList =
    some ⟨scope.accessKey, scope.region, scope.service⟩ := by
  rw [parseCredentialScope, text_toList,
    RustStr.splitn_append scope.accessKey_field.not_mem_slash 3,
    RustStr.splitn_append scope.date_field.not_mem_slash 2,
    RustStr.splitn_append scope.region_field.not_mem_slash 1,
    RustStr.splitn_append scope.service_field.not_mem_slash 0, RustStr.splitn]
  simp

theorem not_mem_comma : ',' ∉ scope.text.toList := by
  rw [text_toList]
  simp [scope.accessKey_field.not_mem_comma, scope.date_field.not_mem_comma,
    scope.region_field.not_mem_comma, scope.service_field.not_mem_comma]

theorem visible : Visible scope.text := by
  have slash : Visible "/" := by decide +kernel
  have terminator : Visible "/aws4_request" := by decide +kernel
  exact ((((((scope.accessKey_field.visible.append slash).append scope.date_field.visible).append
    slash).append scope.region_field.visible).append slash).append
      scope.service_field.visible).append terminator

theorem getLast_text : scope.text.toList.getLast? = some 't' := by
  rw [text_toList]
  simp only [List.getLast?_append, List.getLast?_cons]
  simp

theorem trim_text : RustStr.trim scope.text.toList = scope.text.toList := by
  refine RustStr.trim_eq_self ?_ ?_
  · intro c head
    rw [text_toList] at head
    cases key : scope.accessKey.toList with
    | nil =>
      rw [key] at head
      cases head
      decide
    | cons first rest =>
      rw [key] at head
      cases head
      have chars := scope.accessKey_field.char (c := c) (by simp [key])
      exact isWhitespace_of_field chars.1 chars.2.1
  · intro c last
    rw [getLast_text] at last
    cases last
    decide

end CredentialScope

/-- The scope follows the first occurrence of `b`. -/
theorem after_label {a b t : List Char} (start : a.head? = some 'A')
    (first : RustStr.before b (a ++ b) = some a) (trimmed : RustStr.trim t = t)
    (last : t.getLast? = some 't') :
    (RustStr.after b (RustStr.trim (a ++ b ++ t))).map RustStr.trim = some t := by
  have whole : RustStr.trim (a ++ b ++ t) = a ++ b ++ t := by
    refine RustStr.trim_eq_self ?_ ?_
    · intro c head
      rw [List.append_assoc, List.head?_append, start, Option.some_or, Option.mem_some_iff] at head
      rw [← head]
      decide
    · intro c tail
      rw [List.getLast?_append, last, Option.some_or, Option.mem_some_iff] at tail
      rw [← tail]
      decide
  rw [whole, RustStr.after_append first, Option.map_some, trimmed]

theorem toList_header {s₁ t s₂ h s₃ g : String} {a b c : List Char} (start : s₁.toList = a ++ b)
    (comma : s₂.toList = ',' :: c) : (s₁ ++ t ++ s₂ ++ h ++ s₃ ++ g).toList =
      a ++ b ++ t.toList ++ ',' :: (c ++ h.toList ++ s₃.toList ++ g.toList) := by
  simp [String.toList_append, start, comma]

theorem prefix_append_append {p a : List Char} (front : p <+: a) (b t : List Char) :
    p <+: a ++ b ++ t :=
  front.trans ((List.prefix_append a b).trans (List.prefix_append (a ++ b) t))

/-- The first segment of the header holds the scope. -/
theorem authorization_segment (scope : CredentialScope) (sig : Signature) :
    ∃ segment rest, (authorization scope sig).toList = segment ++ ',' :: rest ∧ ',' ∉ segment ∧
      "AWS4-HMAC-SHA256".toList <+: segment ∧ credentialOf segment = some scope.text.toList := by
  have start : "AWS4-HMAC-SHA256 Credential=".toList =
      "AWS4-HMAC-SHA256 ".toList ++ "Credential=".toList := by decide
  have comma : ", SignedHeaders=".toList = ',' :: " SignedHeaders=".toList := by decide
  have plain : ',' ∉ "AWS4-HMAC-SHA256 ".toList ++ "Credential=".toList := by decide
  have front : "AWS4-HMAC-SHA256".toList <+: "AWS4-HMAC-SHA256 ".toList := by decide
  have first : RustStr.before "Credential=".toList
      ("AWS4-HMAC-SHA256 ".toList ++ "Credential=".toList) = some "AWS4-HMAC-SHA256 ".toList := by
    decide
  exact ⟨_, _, toList_header start comma,
    fun member => (List.mem_append.mp member).elim plain scope.not_mem_comma,
    prefix_append_append front _ _, after_label (by decide) first scope.trim_text scope.getLast_text⟩

theorem parse_authorization (scope : CredentialScope) (sig : Signature) :
    parseSigv4Auth (authorization scope sig) =
      some ⟨scope.accessKey, scope.region, scope.service⟩ := by
  obtain ⟨segment, rest, text, plain, front, found⟩ := authorization_segment scope sig
  have starts : RustStr.startsWith (authorization scope sig) "AWS4-HMAC-SHA256" = true := by
    rw [RustStr.startsWith, text, List.isPrefixOf_iff_prefix]
    exact front.trans (List.prefix_append _ _)
  rw [parseSigv4Auth, if_pos starts, text, List.splitOn_append_cons_self_of_not_mem plain,
    List.findSome?_cons, found]
  exact scope.parseCredentialScope_text

theorem visible_authorization (scope : CredentialScope) (sig : Signature) :
    Visible (authorization scope sig) := by
  have start : Visible "AWS4-HMAC-SHA256 Credential=" := by decide +kernel
  have signedHeaders : Visible ", SignedHeaders=" := by decide +kernel
  have signature : Visible ", Signature=" := by decide +kernel
  exact ((((start.append scope.visible).append signedHeaders).append sig.signedHeaders_visible).append
    signature).append sig.signature_visible

section Scope

variable (base : HttpRequest) (scope : CredentialScope) (sig : Signature)

theorem requestScope_headerSigned : requestScope (headerSigned base scope sig).headers =
    (scope.accessKey, scope.region, some scope.service) := by
  have header : headerStr (headerSigned base scope sig).headers "authorization" =
      some (authorization scope sig) := by
    rw [headerStr, headerSigned, List.lookup_cons_self, Option.bind_some]
    exact visible_authorization scope sig
  rw [requestScope, header, Option.bind_some, parse_authorization]

theorem requestScope_presigned :
    requestScope (presigned base scope sig).headers = (defaultAccessKey, defaultRegion, none) := by
  have absent : (unsignedHeaders base).lookup "authorization" = none := by
    rw [List.lookup_eq_none_iff]
    intro header member
    have kept := of_decide_eq_true (List.mem_filter.mp member).2
    exact bne_iff_ne.mpr (Ne.symm kept)
  have header : headerStr (presigned base scope sig).headers "authorization" = none := by
    rw [headerStr, presigned, absent, Option.bind_none]
  rw [requestScope, header, Option.bind_none]

end Scope

theorem detectUnsigned_eq_iff {service : String} (query : req.queryParams.isEmpty = false) :
    detectUnsigned req.path req.queryParams req.headers body = service ↔
      NamesService req body service := by
  have notRoot : ¬ (req.path = "/" ∧ req.queryParams.isEmpty = true ∧ body = [] ∧
      (req.headers.lookup "x-amz-target").isNone = true) := fun root => by simp [query] at root
  constructor
  · rintro rfl
    rw [detectUnsigned, if_neg notRoot]
    cases host : serviceFromHost req.headers with
    | some service => exact .host host
    | none =>
      cases target : (headerStr req.headers "x-amz-target").bind serviceFromTarget with
      | some service => exact .target host target
      | none =>
        cases action : serviceFromQueryAction req.queryParams body with
        | some service => exact .action host target action
        | none =>
          cases path : serviceFromPath req.path with
          | some service => exact .path host target action path
          | none => exact .rest host target action path
  · intro named
    rw [detectUnsigned, if_neg notRoot]
    cases named with
    | host host => rw [host]
    | target host target => rw [host, target]
    | action host target action => rw [host, target, action]
    | path host target action path => rw [host, target, action, path]
    | rest host target action path => rw [host, target, action, path]

theorem dec_eq_zeros_iff (n : Nat) : RustFmt.dec 12 n = defaultAccount ↔ n = 0 := by
  constructor
  · intro zeros
    have value := RustFmt.digitsValue_dec 12 n
    rw [zeros] at value
    rw [← value]
    decide
  · rintro rfl
    decide

theorem accessKeyToAccountId_eq_default_iff {hash : String → Nat} {key : String} :
    accessKeyToAccountId hash key = defaultAccount ↔
      (∃ entry ∈ testAccessKeys, RustStr.startsWith key entry.1 = true) ∨
        hash key % 1000000000000 = 0 := by
  rw [accessKeyToAccountId]
  cases found : testAccessKeys.find? fun entry => RustStr.startsWith key entry.1 with
  | some entry =>
    have all : ∀ entry ∈ testAccessKeys, entry.2 = defaultAccount := by decide
    have listed := List.mem_of_find?_eq_some found
    have starts := List.find?_some found
    exact iff_of_true (all entry listed) (Or.inl ⟨entry, listed, starts⟩)
  | none =>
    have unknown : ¬ ∃ entry ∈ testAccessKeys, RustStr.startsWith key entry.1 = true := by
      rintro ⟨entry, listed, starts⟩
      exact List.find?_eq_none.mp found entry listed starts
    rw [or_iff_right unknown]
    exact dec_eq_zeros_iff _

theorem accessKeyToAccountId_default (hash : String → Nat) :
    accessKeyToAccountId hash defaultAccessKey = defaultAccount :=
  accessKeyToAccountId_eq_default_iff.mpr (Or.inl ⟨_, List.mem_cons_self, by decide⟩)

theorem normalizeRegion_default (config : Config) : normalizeRegion config defaultRegion = defaultRegion := by
  rw [normalizeRegion, ite_self]

theorem normalizeRegion_eq_default_iff {region : String} :
    normalizeRegion config region = defaultRegion ↔
      region = defaultRegion ∨ (config.allowNonstandardRegions = false ∧ isValidRegion region = false) := by
  rw [normalizeRegion]
  split
  · next kept =>
    rw [or_iff_left]
    rintro ⟨standard, unknown⟩
    simp [standard, unknown] at kept
  · next dropped => simpa [not_or] using Or.inr dropped

theorem tenant_of_receive {hash : String → Nat} {parsers : Parsers}
     {ctx : RequestContext} (received : receive hash parsers config req body = .ok ctx) :
    ctx.tenant = (accessKeyToAccountId hash (requestScope req.headers).1,
      normalizeRegion config (requestScope req.headers).2.1,
      detectService req.path req.queryParams req.headers (selectBody config.localstackHost req body).1
        (requestScope req.headers).2.2) := by
  rw [receive, buildRequestContext] at received
  split at received
  · contradiction
  · cases received
    rfl

/-- For every access key, date, region and service, and every request and body that lead to a context
both ways. -/
theorem same_tenant_iff {hash : String → Nat} {parsers : Parsers} {config : Config} {base : HttpRequest}
    {scope : CredentialScope} {sig : Signature} {body : Bytes} {ctx ctx' : RequestContext}
    (fromQuery : receive hash parsers config (presigned base scope sig) body = .ok ctx)
    (fromHeader : receive hash parsers config (headerSigned base scope sig) body = .ok ctx') :
    ctx.tenant = ctx'.tenant ↔ ScopeIsDefault hash config base scope sig body := by
  have query : (presigned base scope sig).queryParams.isEmpty = false := by simp [presigned]
  rw [tenant_of_receive fromQuery, tenant_of_receive fromHeader, requestScope_presigned,
    requestScope_headerSigned, accessKeyToAccountId_default, normalizeRegion_default, Prod.mk.injEq,
    Prod.mk.injEq]
  simp only [detectService, detectUnsigned_eq_iff query]
  constructor
  · rintro ⟨account, region, service⟩
    exact ⟨accessKeyToAccountId_eq_default_iff.mp account.symm,
      normalizeRegion_eq_default_iff.mp region.symm, service⟩
  · intro default
    exact ⟨(accessKeyToAccountId_eq_default_iff.mpr default.account).symm,
      (normalizeRegion_eq_default_iff.mpr default.region).symm, default.service⟩

/-- A request for S3 always has a context. -/
theorem receive_of_s3 (hash : String → Nat) (parsers : Parsers)
     (service : detectService req.path req.queryParams req.headers
      (selectBody config.localstackHost req body).1 (requestScope req.headers).2.2 = "s3") :
    ∃ ctx, receive hash parsers config req body = .ok ctx := by
  have protocol : AwsProtocol.fromService "s3" = .restXml := by decide
  rw [receive, buildRequestContext, service, protocol, parseOperationAndParams]
  exact ⟨_, rfl⟩

def upload : HttpRequest where
  method := "PUT"
  path := "/docs/a"
  headers := []
  queryParams := ∅

def noSignature : Signature where
  signedHeaders := "host"
  signature := "00"
  signedHeaders_visible := by decide
  signature_visible := by decide

def defaultScope : CredentialScope where
  accessKey := "test"
  date := "20260306"
  region := "us-east-1"
  service := "s3"
  accessKey_field := by decide
  date_field := by decide
  region_field := by decide
  service_field := by decide

def otherRegionScope : CredentialScope where
  accessKey := "test"
  date := "20260306"
  region := "eu-west-1"
  service := "s3"
  accessKey_field := by decide
  date_field := by decide
  region_field := by decide
  service_field := by decide

def standardConfig : Config := ⟨false, "localhost:4566"⟩

def noParsers : Parsers where
  json _ := .error ""
  form _ := .ok []
  text _ := ""

theorem default_scope_same_tenant : ∃ ctx ctx',
    receive (fun _ => 0) noParsers standardConfig (presigned upload defaultScope noSignature) [1] = .ok ctx ∧
    receive (fun _ => 0) noParsers standardConfig (headerSigned upload defaultScope noSignature) [1] =
      .ok ctx' ∧ ctx.tenant = ctx'.tenant := by
  obtain ⟨ctx, fromQuery⟩ : ∃ ctx, receive (fun _ => 0) noParsers standardConfig
      (presigned upload defaultScope noSignature) [1] = .ok ctx :=
    receive_of_s3 _ _ (by decide +kernel)
  obtain ⟨ctx', fromHeader⟩ : ∃ ctx, receive (fun _ => 0) noParsers standardConfig
      (headerSigned upload defaultScope noSignature) [1] = .ok ctx :=
    receive_of_s3 _ _ (by decide +kernel)
  have default : ScopeIsDefault (fun _ => 0) standardConfig upload defaultScope noSignature [1] :=
    ⟨Or.inr rfl, Or.inl rfl, (detectUnsigned_eq_iff (by decide +kernel)).mp (by decide +kernel)⟩
  exact ⟨ctx, ctx', fromQuery, fromHeader, (same_tenant_iff fromQuery fromHeader).mpr default⟩

/-- Presigned for another region, the upload goes to the default one. -/
theorem presigned_upload_elsewhere : ∃ ctx ctx',
    receive (fun _ => 0) noParsers standardConfig (presigned upload otherRegionScope noSignature) [1] =
      .ok ctx ∧
    receive (fun _ => 0) noParsers standardConfig (headerSigned upload otherRegionScope noSignature) [1] =
      .ok ctx' ∧ ctx.tenant = ("000000000000", "us-east-1", "s3") ∧
    ctx'.tenant = ("000000000000", "eu-west-1", "s3") := by
  obtain ⟨ctx, fromQuery⟩ : ∃ ctx, receive (fun _ => 0) noParsers standardConfig
      (presigned upload otherRegionScope noSignature) [1] = .ok ctx :=
    receive_of_s3 _ _ (by decide +kernel)
  obtain ⟨ctx', fromHeader⟩ : ∃ ctx, receive (fun _ => 0) noParsers standardConfig
      (headerSigned upload otherRegionScope noSignature) [1] = .ok ctx :=
    receive_of_s3 _ _ (by decide +kernel)
  refine ⟨ctx, ctx', fromQuery, fromHeader, ?_, ?_⟩
  · rw [tenant_of_receive fromQuery]
    decide +kernel
  · rw [tenant_of_receive fromHeader]
    decide +kernel

end Openstack.Gateway

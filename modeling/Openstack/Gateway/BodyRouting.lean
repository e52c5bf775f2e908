import Openstack.Gateway.ServiceDetection

/-!
# Which body the gateway withholds

`handle_request` of `crates/gateway/src/server.rs`, lines 1876-1924, with
`is_s3_object_body_request` and the rewriting of virtual-hosted paths (lines 2178-2336 and 2947-3102).
A withheld body is handed over as a stream, and everything that parses sees an empty one.
-/
namespace Openstack.Gateway

open S3 (HttpRequest Headers QueryParams Bytes S3Operation headerStr)

/-- `host.strip_suffix(end)`. -/
def stripSuffix (back s : List Char) : Option (List Char) :=
  if back.isSuffixOf s then some (s.take (s.length - back.length)) else none

def extractBucketBeforeS3Region (host : List Char) : Option (List Char) :=
  let parts := host.splitOn '.'
  if parts.length < 4 then none
  else if RustStr.eqIgnoreAsciiCase (String.ofList (parts.getD 1 [])) "s3" then parts.head?
  else none

/-- The bucket in `<bucket>.s3.amazonaws.com`, `<bucket>.s3.<region>.<domain>` or
`<bucket>.<localstack_host>`. -/
def bucketOfHost (host localstackHost : List Char) : Option (List Char) :=
  match stripSuffix ".s3.amazonaws.com".toList host with
  | some rest => some rest
  | none =>
    match extractBucketBeforeS3Region host with
    | some bucket => some bucket
    | none =>
      ((stripSuffix ('.' :: localstackHost) host).or (stripSuffix ".localhost".toList host)).filter
        fun rest => '.' ∉ rest ∧ rest ≠ []

def rewriteS3VirtualHostedPath (path : String) (headers : Headers) (localstackHost : String) : String :=
  match headerStr headers "host" with
  | none => path
  | some host =>
    match bucketOfHost (withoutPort host).toList (withoutPort localstackHost).toList with
    | none => path
    | some bucket =>
      let stripped := trimStartSlashes path
      if bucket = [] then path
      else if bucket.isPrefixOf stripped = true ∧
          (stripped.length = bucket.length ∨ stripped[bucket.length]? = some '/') then path
      else String.ofList ('/' :: bucket ++ path.toList)

/-- The service in the credential scope of a presigned request, as this test reads it. -/
def presignedService (queryParams : QueryParams) : Option String :=
  (queryParams["X-Amz-Credential"]?.or queryParams["x-amz-credential"]?).bind fun credential =>
    ((credential.toList.splitOn '/')[3]?).map String.ofList

def shouldRewriteS3VhostForBodyCheck (headers : Headers) (queryParams : QueryParams) : Bool :=
  ((serviceFromAuth headers).any fun service => RustStr.eqIgnoreAsciiCase service "s3") ||
    presignedService queryParams = some "s3"

def pathSegments (path : String) : List (List Char) :=
  (((path.toList.takeWhile (· ≠ '?')).dropWhile (· = '/')).splitOn '/').filter (· ≠ [])

def targetsOtherService (headers : Headers) : Bool :=
  (serviceFromAuth headers).any fun service => !RustStr.eqIgnoreAsciiCase service "s3"

/-- Lambda, ELB and EC2. -/
def isVersionedApi (first : List Char) : Bool :=
  "2015-03-31".toList.isPrefixOf first || "2012-12-01".toList.isPrefixOf first ||
    "2016-11-15".toList.isPrefixOf first

def hasS3Hint (headers : Headers) : Bool :=
  ((headerStr headers "host").map withoutPort).any (fun host =>
      RustStr.eqIgnoreAsciiCase host "s3" || RustStr.startsWith host "s3." ||
        RustStr.contains host.toList ".s3.".toList) ||
    (headerStr headers "authorization").any (fun auth =>
      RustStr.contains auth.toList "/s3/aws4_request".toList ||
        RustStr.contains auth.toList "/S3/aws4_request".toList) ||
    (headers.lookup "x-amz-content-sha256").isSome ||
    (headers.lookup "x-amz-storage-class").isSome

/-- `is_s3_object_body_request`; the path is the one that `pathForBodyCheck` gives. -/
def isS3ObjectBodyRequest (req : HttpRequest) : Bool :=
  let segments := pathSegments req.path
  if req.method ≠ "PUT" ∧ req.method ≠ "POST" then false
  else if segments.length < 2 then false
  else if targetsOtherService req.headers then false
  else if isVersionedApi (segments.headD []) then false
  else if req.method = "POST" ∧ req.hasQuery "uploadId" = true ∧ req.hasQuery "partNumber" = false then
    false
  else if req.method = "POST" ∧ req.hasQuery "uploadId" = false ∧ req.hasQuery "partNumber" = false then
    false
  else if S3.xmlBodySubresources.any req.hasQuery then false
  else hasS3Hint req.headers || segments.length = 2

section Pipeline

variable (localstackHost : String) (req : HttpRequest)

def pathForBodyCheck : String :=
  if shouldRewriteS3VhostForBodyCheck req.headers req.queryParams then
    rewriteS3VirtualHostedPath req.path req.headers localstackHost
  else req.path

def isS3Body : Bool := isS3ObjectBodyRequest { req with path := pathForBodyCheck localstackHost req }

/-- The bytes that are parsed, and the stream for the provider. -/
def selectBody (body : Bytes) : Bytes × Option Bytes :=
  if isS3Body localstackHost req then ([], some body) else (body, none)

/-- The service of the request, as `build_request_context` finds it. -/
def contextService (body : Bytes) : String :=
  detectService req.path req.queryParams req.headers (selectBody localstackHost req body).1
    (serviceFromAuth req.headers)

def contextPath (service : String) : String :=
  if service = "s3" then rewriteS3VirtualHostedPath req.path req.headers localstackHost else req.path

/-- The request as the S3 provider sees it. -/
def s3Request : HttpRequest := { req with path := contextPath localstackHost req "s3" }

def s3Operation : S3Operation := S3.deriveS3Operation (s3Request localstackHost req)

end Pipeline

/-- PutObject and UploadPart read the stream, CopyObject needs no body. -/
def takesStream : S3Operation → Bool
  | .putObject | .uploadPart | .copyObject => true
  | _ => false

structure BodyReachesS3 (localstackHost : String) (req : HttpRequest) (body : Bytes) : Prop where
  service : contextService localstackHost req body = "s3"
  operation : takesStream (s3Operation localstackHost req) = true

/-- An unsigned request that nothing in its host, target, action or path takes elsewhere. -/
structure NamesNoOtherService (req : HttpRequest) : Prop where
  host : serviceFromHost req.headers = none
  target : (headerStr req.headers "x-amz-target").bind serviceFromTarget = none
  action : req.queryParams["Action"]?.bind serviceOfAction = none
  path : serviceFromPath req.path = none
  nonempty : trimStartSlashes req.path ≠ []

/-- A character of the bucket, and after a slash one of the key. -/
def HasTwoSegments (s : List Char) : Prop := ∃ c d, c ≠ '/' ∧ d ≠ '/' ∧ List.Sublist [c, '/', d] s

theorem HasTwoSegments.mono {s t : List Char} (segments : HasTwoSegments s) (within : List.Sublist s t) :
    HasTwoSegments t := by
  obtain ⟨c, d, bucket, key, inside⟩ := segments
  exact ⟨c, d, bucket, key, inside.trans within⟩

theorem sublist_dropWhile {p : Char → Bool} {a : Char} {l s : List Char} (within : List.Sublist (a :: l) s)
    (stops : p a = false) : List.Sublist (a :: l) (s.dropWhile p) := by
  induction s with
  | nil => exact within
  | cons c rest ih =>
    by_cases dropped : p c = true
    · have later : List.Sublist (a :: l) rest := by
        cases within with
        | cons _ later => exact later
        | cons_cons => simp [stops] at dropped
      rw [List.dropWhile_cons_of_pos dropped]
      exact ih later
    · rw [List.dropWhile_cons_of_neg dropped]
      exact within

theorem pathHasKey_of_segments {path : String} (segments : HasTwoSegments path.toList) :
    S3.pathHasKey path = true := by
  obtain ⟨c, d, bucket, key, inside⟩ := segments
  have fromBucket := sublist_dropWhile (p := (· = '/')) inside (by simpa using bucket)
  have fromSlash := sublist_dropWhile (p := (· ≠ '/')) (List.sublist_of_cons_sublist fromBucket) (by simp)
  have fromKey := sublist_dropWhile (p := (· = '/')) (List.sublist_of_cons_sublist fromSlash)
    (by simpa using key)
  simp only [S3.pathHasKey, Bool.not_eq_true', List.isEmpty_eq_false_iff]
  exact List.ne_nil_of_mem (fromKey.mem (List.mem_singleton_self d))

theorem pathHasBucket_of_segments {path : String} (segments : HasTwoSegments path.toList) :
    S3.pathHasBucket path = true := by
  obtain ⟨c, d, bucket, key, inside⟩ := segments
  have fromBucket := sublist_dropWhile (p := (· = '/')) inside (by simpa using bucket)
  simp only [S3.pathHasBucket, Bool.not_eq_true', List.isEmpty_eq_false_iff]
  cases rest : path.toList.dropWhile (· = '/') with
  | nil => simp [rest] at fromBucket
  | cons first more =>
    have starts : first ≠ '/' := by
      have head := List.head_dropWhile_not (· = '/') (l := path.toList) (by simp [rest])
      simpa [rest] using head
    simp [starts]

theorem mem_of_nonempty_piece {s : List Char} (pieces : 1 ≤ ((s.splitOn '/').filter (· ≠ [])).length) :
    ∃ d ∈ s, d ≠ '/' := by
  by_contra none
  have slashes : ∀ d ∈ s, d = '/' := by simpa using none
  have empty : ∀ s : List Char, (∀ d ∈ s, d = '/') → (s.splitOn '/').filter (· ≠ []) = [] := by
    intro s slashes
    induction s with
    | nil => rfl
    | cons c rest ih =>
      have := ih fun d member => slashes d (List.mem_cons_of_mem _ member)
      rw [List.splitOn_cons_eq_if_modifyHead, if_pos (by simp [slashes c])]
      simpa using this
  rw [empty s slashes] at pieces
  exact absurd pieces (by decide)

theorem segments_of_pieces {s : List Char} (pieces : 2 ≤ ((s.splitOn '/').filter (· ≠ [])).length) :
    HasTwoSegments s := by
  induction s with
  | nil => simp at pieces
  | cons c rest ih =>
    rw [List.splitOn_cons_eq_if_modifyHead] at pieces
    by_cases slash : c = '/'
    · have later : 2 ≤ ((rest.splitOn '/').filter (· ≠ [])).length := by simpa [slash] using pieces
      exact (ih later).mono (List.sublist_cons_self c rest)
    · rw [if_neg (by simpa using slash)] at pieces
      cases rest with
      | nil => simp at pieces
      | cons d more =>
        by_cases next : d = '/'
        · -- the segment of `c` ends here, and another one follows
          have later : 1 ≤ ((more.splitOn '/').filter (· ≠ [])).length := by
            simpa [next, List.splitOn_cons_eq_if_modifyHead] using pieces
          obtain ⟨e, member, key⟩ := mem_of_nonempty_piece later
          refine ⟨c, e, slash, key, ?_⟩
          rw [next]
          exact ((List.singleton_sublist.mpr member).cons_cons '/').cons_cons c
        · have later : 2 ≤ (((d :: more).splitOn '/').filter (· ≠ [])).length := by
            rw [List.splitOn_cons_eq_if_modifyHead, if_neg (by simpa using next)] at pieces ⊢
            cases heads : more.splitOn '/' with
            | nil => exact absurd heads (List.splitOn_ne_nil '/' more)
            | cons first others => simpa [heads] using pieces
          exact (ih later).mono (List.sublist_cons_self c _)

theorem segments_of_pathSegments {path : String} (two : 2 ≤ (pathSegments path).length) :
    HasTwoSegments path.toList :=
  (segments_of_pieces two).mono ((List.dropWhile_sublist _).trans (List.takeWhile_sublist _))

theorem sublist_rewrite (path : String) (headers : Headers) (localstackHost : String) :
    List.Sublist path.toList (rewriteS3VirtualHostedPath path headers localstackHost).toList := by
  unfold rewriteS3VirtualHostedPath
  split
  · exact List.Sublist.refl _
  · split
    · exact List.Sublist.refl _
    · dsimp only
      split
      · exact List.Sublist.refl _
      · split
        · exact List.Sublist.refl _
        · rw [String.toList_ofList]
          exact List.sublist_append_right _ _

/-- What every withheld request has. -/
structure Withheld (localstackHost : String) (req : HttpRequest) : Prop where
  method : req.method = "PUT" ∨ req.method = "POST"
  segments : 2 ≤ (pathSegments (pathForBodyCheck localstackHost req)).length
  scope : ∀ service, serviceFromAuth req.headers = some service →
    RustStr.eqIgnoreAsciiCase service "s3" = true
  acl : req.hasQuery "acl" = false

theorem withheld_of_isS3Body {localstackHost : String} {req : HttpRequest}
    (withheld : isS3Body localstackHost req = true) : Withheld localstackHost req := by
  rw [isS3Body, isS3ObjectBodyRequest] at withheld
  dsimp only at withheld
  split at withheld
  · contradiction
  next method =>
    split at withheld
    · contradiction
    next segments =>
      split at withheld
      · contradiction
      next scope =>
        split at withheld
        · contradiction
        · split at withheld
          · contradiction
          · split at withheld
            · contradiction
            · split at withheld
              · contradiction
              next xml =>
                refine ⟨?_, Nat.le_of_not_lt segments, ?_, ?_⟩
                · by_cases put : req.method = "PUT"
                  · exact Or.inl put
                  · exact Or.inr (by_contra fun post => method ⟨put, post⟩)
                · intro service named
                  simpa [targetsOtherService, named] using scope
                · by_contra acl
                  exact xml (List.any_eq_true.mpr ⟨"acl", by decide, by simpa [HttpRequest.hasQuery] using acl⟩)

section Path

variable {localstackHost : String} {req : HttpRequest}

theorem segments_of_withheld (withheld : Withheld localstackHost req) :
    HasTwoSegments (s3Request localstackHost req).path.toList := by
  have checked := segments_of_pathSegments withheld.segments
  rw [s3Request, contextPath, if_pos rfl]
  rw [pathForBodyCheck] at checked
  split at checked
  · exact checked
  · exact checked.mono (sublist_rewrite _ _ _)

/-- Only a signed or presigned request reaches the test with the path `/`. -/
theorem not_root_of_withheld (withheld : Withheld localstackHost req)
    (unsigned : serviceFromAuth req.headers = none) :
    ¬ (req.path = "/" ∧ req.queryParams.isEmpty = true) := by
  rintro ⟨root, plain⟩
  have presigned : presignedService req.queryParams = none := by
    rw [Std.ExtTreeMap.isEmpty_iff.mp plain]
    rfl
  have short : (pathSegments "/").length = 0 := by decide
  have segments := withheld.segments
  rw [pathForBodyCheck, shouldRewriteS3VhostForBodyCheck, unsigned, presigned] at segments
  simp [root, short] at segments

end Path

theorem toAsciiLowercase_of_not_upper {s : String} (plain : (s.toList.all fun c => !c.isUpper) = true) :
    RustStr.toAsciiLowercase s = s := by
  have same : s.toList.map Char.toLower = s.toList := by
    refine (List.map_congr_left fun c member => ?_).trans (List.map_id _)
    have lower := List.all_eq_true.mp plain c member
    simp only [Bool.not_eq_true', Char.isUpper, decide_eq_false_iff_not] at lower
    simp only [Char.toLower]
    split
    · next upper => exact absurd upper lower
    · rfl
  rw [RustStr.toAsciiLowercase, same, String.ofList_toList]

theorem normalizeServiceName_s3 {service : String}
    (named : RustStr.eqIgnoreAsciiCase service "s3" = true) : normalizeServiceName service = "s3" := by
  have lower : RustStr.toAsciiLowercase service = "s3" := by
    have known : RustStr.toAsciiLowercase "s3" = "s3" := by decide
    simpa [RustStr.eqIgnoreAsciiCase, known] using named
  have other (name : String) (apart : RustStr.toAsciiLowercase name ≠ "s3") :
      RustStr.eqIgnoreAsciiCase service name = false := by
    simpa [RustStr.eqIgnoreAsciiCase, lower] using apart.symm
  rw [normalizeServiceName, other "es" (by decide), other "cognito" (by decide),
    other "cognito-idp" (by decide)]
  split
  · contradiction
  · split
    · contradiction
    · split
      · next plain =>
        rw [← toAsciiLowercase_of_not_upper plain, lower]
        decide
      · exact lower

theorem serviceFromTarget_ne_s3 (target : String) : serviceFromTarget target ≠ some "s3" := by
  intro found
  rw [serviceFromTarget] at found
  split at found
  · exact absurd found (by decide)
  · obtain ⟨entry, listed, named⟩ := Option.map_eq_some_iff.mp found
    have apart : ∀ entry ∈ targetServices, entry.2 ≠ "s3" := by decide
    exact apart entry (List.mem_of_find?_eq_some listed) named

theorem serviceOfAction_ne_s3 (action : String) : serviceOfAction action ≠ some "s3" := by
  intro found
  obtain ⟨entry, listed, named⟩ := Option.map_eq_some_iff.mp found
  have apart : ∀ entry ∈ actionServices, entry.1 ≠ "s3" := by decide
  exact apart entry (List.mem_of_find?_eq_some listed) named

theorem serviceFromPath_ne_s3 (path : String) : serviceFromPath path ≠ some "s3" := by
  rw [serviceFromPath]
  split_ifs
  all_goals decide

theorem serviceFromQueryAction_nil (queryParams : QueryParams) :
    serviceFromQueryAction queryParams [] = queryParams["Action"]?.bind serviceOfAction := by
  have none : extractActionValue [] = none := by decide +kernel
  rw [serviceFromQueryAction, none, Option.or_none]

/-- Without a credential scope, the host decides, and after it every further test must pass. -/
theorem detectUnsigned_eq_s3_iff {req : HttpRequest}
    (notRoot : ¬ (req.path = "/" ∧ req.queryParams.isEmpty = true)) :
    detectUnsigned req.path req.queryParams req.headers [] = "s3" ↔
      serviceFromHost req.headers = some "s3" ∨ NamesNoOtherService req := by
  rw [detectUnsigned, serviceFromQueryAction_nil]
  cases host : serviceFromHost req.headers with
  | some service =>
    have named : ¬ NamesNoOtherService req := fun quiet => by simpa [host] using quiet.host
    simp [named]
  | none =>
    rw [if_neg (fun root => notRoot ⟨root.1, root.2.1⟩)]
    simp only [reduceCtorEq, false_or]
    cases target : (headerStr req.headers "x-amz-target").bind serviceFromTarget with
    | some service =>
      obtain ⟨text, -, named⟩ := Option.bind_eq_some_iff.mp target
      have apart : service ≠ "s3" := fun same => serviceFromTarget_ne_s3 text (same ▸ named)
      exact ⟨fun same => absurd same apart, fun quiet => by simpa [target] using quiet.target⟩
    | none =>
      cases action : req.queryParams["Action"]?.bind serviceOfAction with
      | some service =>
        obtain ⟨text, -, named⟩ := Option.bind_eq_some_iff.mp action
        have apart : service ≠ "s3" := fun same => serviceOfAction_ne_s3 text (same ▸ named)
        exact ⟨fun same => absurd same apart, fun quiet => by simpa [action] using quiet.action⟩
      | none =>
        cases path : serviceFromPath req.path with
        | some service =>
          have apart : service ≠ "s3" := fun same => serviceFromPath_ne_s3 req.path (same ▸ path)
          exact ⟨fun same => absurd same apart, fun quiet => by simpa [path] using quiet.path⟩
        | none =>
          by_cases empty : trimStartSlashes req.path = []
          · rw [if_pos empty]
            exact ⟨fun same => absurd same (by decide), fun quiet => absurd empty quiet.nonempty⟩
          · rw [if_neg empty]
            exact ⟨fun _ => ⟨host, target, action, path, empty⟩, fun _ => rfl⟩

section Operation

variable {localstackHost : String} {req : HttpRequest}

theorem takesStream_putObject (acl : req.hasQuery "acl" = false) :
    takesStream (S3.putObjectOperation req) = true := by
  unfold S3.putObjectOperation
  rw [acl]
  repeat' split
  all_goals first
    | rfl
    | contradiction

theorem takesStream_postObject : takesStream (S3.postObjectOperation req) = false := by
  unfold S3.postObjectOperation
  repeat' split
  all_goals rfl

theorem derive_post (method : req.method = "POST") (bucket : S3.pathHasBucket req.path = true)
    (key : S3.pathHasKey req.path = true) : S3.deriveS3Operation req = S3.postObjectOperation req := by
  unfold S3.deriveS3Operation
  split <;> simp_all

/-- Only PUT leads to an operation that reads the stream. -/
theorem takesStream_iff (withheld : Withheld localstackHost req) :
    takesStream (s3Operation localstackHost req) = true ↔ req.method = "PUT" := by
  have segments := segments_of_withheld withheld
  have bucket := pathHasBucket_of_segments segments
  have key := pathHasKey_of_segments segments
  have method : (s3Request localstackHost req).method = req.method := rfl
  have acl : (s3Request localstackHost req).hasQuery "acl" = false := withheld.acl
  rw [s3Operation]
  rcases withheld.method with put | post
  · rw [S3.derive_put (method.trans put), if_pos bucket, if_pos key]
    simp only [put, iff_true]
    exact takesStream_putObject acl
  · rw [derive_post (method.trans post) bucket key, takesStream_postObject, post]
    decide

end Operation

theorem contextService_of_isS3Body {localstackHost : String} {req : HttpRequest} (body : Bytes)
    (withheld : isS3Body localstackHost req = true) : contextService localstackHost req body =
      detectService req.path req.queryParams req.headers [] (serviceFromAuth req.headers) := by
  rw [contextService, selectBody, if_pos withheld]

/-- A withheld body reaches an operation of S3 that reads it exactly if the request is a PUT and either
signed, or sent to an S3 host, or without anything that names another service. -/
theorem body_reaches_s3_iff (localstackHost : String) (req : HttpRequest) (body : Bytes)
    (withheld : isS3Body localstackHost req = true) : BodyReachesS3 localstackHost req body ↔
      req.method = "PUT" ∧ ((serviceFromAuth req.headers).isSome = true ∨
        serviceFromHost req.headers = some "s3" ∨ NamesNoOtherService req) := by
  have let_through := withheld_of_isS3Body withheld
  have service : contextService localstackHost req body = "s3" ↔
      ((serviceFromAuth req.headers).isSome = true ∨ serviceFromHost req.headers = some "s3" ∨
        NamesNoOtherService req) := by
    rw [contextService_of_isS3Body body withheld]
    cases scope : serviceFromAuth req.headers with
    | some service => simp [detectService, normalizeServiceName_s3 (let_through.scope service scope)]
    | none => simp [detectService, detectUnsigned_eq_s3_iff (not_root_of_withheld let_through scope)]
  constructor
  · intro reaches
    exact ⟨(takesStream_iff let_through).mp reaches.operation, service.mp reaches.service⟩
  · intro named
    exact ⟨service.mpr named.2, (takesStream_iff let_through).mpr named.1⟩

/-- An upload of an object, signed for S3. -/
def signedUpload : HttpRequest where
  method := "PUT"
  path := "/docs/a"
  headers := [("authorization",
    "AWS4-HMAC-SHA256 Credential=test/20260306/us-east-1/s3/aws4_request, SignedHeaders=host")]
  queryParams := ∅

theorem signed_upload_reaches_s3 : isS3Body "localhost:4566" signedUpload = true ∧
    BodyReachesS3 "localhost:4566" signedUpload [1] := by
  have withheld : isS3Body "localhost:4566" signedUpload = true := by decide +kernel
  refine ⟨withheld, (body_reaches_s3_iff _ _ _ withheld).mpr ⟨rfl, Or.inl ?_⟩⟩
  decide +kernel

/-- The call of API Gateway that replaces a REST API, unsigned. -/
def putRestApi : HttpRequest where
  method := "PUT"
  path := "/restapis/a1"
  headers := []
  queryParams := ∅

theorem rest_api_loses_body : isS3Body "localhost:4566" putRestApi = true ∧
    contextService "localhost:4566" putRestApi [1] = "apigateway" ∧
    ¬ BodyReachesS3 "localhost:4566" putRestApi [1] := by
  have service : contextService "localhost:4566" putRestApi [1] = "apigateway" := by decide +kernel
  refine ⟨by decide +kernel, service, fun reaches => ?_⟩
  exact absurd (service.symm.trans reaches.service) (by decide)

example : signedUpload.method = "PUT" := by decide +kernel

end Openstack.Gateway

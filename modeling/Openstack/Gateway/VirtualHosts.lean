import Openstack.Gateway.BodyRouting

/-!
# Virtual-hosted and path-style hosts

`rewrite_s3_virtual_hosted_path` (`crates/gateway/src/server.rs`, lines 2225-2336) on the hosts of a bucket and
on the hosts of the endpoints themselves. The first text that the host ends in, or else its second label,
decides what the bucket is.
-/
namespace Openstack.Gateway

open S3 (Headers headerStr)

/-! ## Hosts -/

/-- One label of a host. -/
structure HostLabel where
  chars : List Char
  nonempty : chars ≠ []
  plain : '.' ∉ chars ∧ ':' ∉ chars

/-- The name of a bucket, dots and all. -/
structure BucketLabel where
  chars : List Char
  nonempty : chars ≠ []
  plain : ':' ∉ chars

inductive Endpoint where
  | global
  | regional (region : HostLabel)
  | localstack (region : HostLabel)
  | localhost
  | configured

def globalHost : List Char := "s3.amazonaws.com".toList

/-- The host of an endpoint, the configured one without its port. -/
def Endpoint.host (configured : List Char) : Endpoint → List Char
  | .global => globalHost
  | .regional region => "s3.".toList ++ region.chars ++ ".amazonaws.com".toList
  | .localstack region => "s3.".toList ++ region.chars ++ ".localhost.localstack.cloud".toList
  | .localhost => "localhost".toList
  | .configured => configured

/-- A host with a port, or without one. -/
def hostText (host : List Char) (port : Option String) : String :=
  String.ofList (host ++ port.elim [] fun port => ':' :: port.toList)

def configuredHost (localstackHost : String) : List Char := (withoutPort localstackHost).toList

/-- `<bucket>.<endpoint>`. -/
def virtualHost (localstackHost : String) (bucket : BucketLabel) (endpoint : Endpoint) : List Char :=
  bucket.chars ++ '.' :: endpoint.host (configuredHost localstackHost)

/-- The text is the first part of the path. -/
def IsFirstPart (part : List Char) (path : String) : Prop :=
  trimStartSlashes path = part ∨ part ++ ['/'] <+: trimStartSlashes path

/-! ## Statement -/

/-- A request for a path on a host of the endpoint and on one of the bucket. -/
structure HostedRequests where
  localstackHost : String
  bucket : BucketLabel
  endpoint : Endpoint
  path : String
  port : Option String
  virtualHeaders : Headers
  bareHeaders : Headers
  onBucket : headerStr virtualHeaders "host" = some (hostText (virtualHost localstackHost bucket endpoint) port)
  onEndpoint : headerStr bareHeaders "host" =
    some (hostText (endpoint.host (configuredHost localstackHost)) port)

/-- The bucket comes in front of the path, and a path without a bucket in the host stays as it is. -/
structure HostedRequests.Rewritten (reqs : HostedRequests) : Prop where
  virtual : rewriteS3VirtualHostedPath reqs.path reqs.virtualHeaders reqs.localstackHost =
    String.ofList ('/' :: reqs.bucket.chars ++ reqs.path.toList)
  bare : rewriteS3VirtualHostedPath reqs.path reqs.bareHeaders reqs.localstackHost = reqs.path

/-- The label is `s3`, in any case. -/
def IsS3 (label : List Char) : Prop := RustStr.eqIgnoreAsciiCase (String.ofList label) "s3" = true

/-- A configured host that has the shape of a bucket on an endpoint itself. -/
def LooksVirtual (configured bucket : List Char) : Prop :=
  configured = bucket ++ '.' :: globalHost ∨
  (¬ '.' :: globalHost <:+ configured ∧ ∃ label rest, configured = bucket ++ '.' :: (label ++ '.' :: rest) ∧
    '.' ∉ bucket ∧ '.' ∉ label ∧ '.' ∈ rest ∧ IsS3 label) ∨
  (configured = bucket ++ ".localhost".toList ∧ '.' ∉ bucket)

/-- What the bare host of the endpoint is taken for. -/
def Endpoint.MistakenFor (configured bucket : List Char) : Endpoint → Prop
  | .global => bucket = "s3".toList ∧ configured = "amazonaws.com".toList
  | .regional region =>
    bucket = "s3".toList ∧ (IsS3 region.chars ∨ configured = region.chars ++ '.' :: "amazonaws.com".toList)
  | .localstack region =>
    bucket = "s3".toList ∧
      (IsS3 region.chars ∨ configured = region.chars ++ '.' :: "localhost.localstack.cloud".toList)
  | .localhost => False
  | .configured => bucket ≠ [] ∧ LooksVirtual configured bucket

/-- The key does not begin with the name of the bucket; a bucket with dots is on `s3.amazonaws.com` itself,
another on a host that does not end in it; and the bare host is not taken for a bucket, unless for the one
that the path begins with. -/
structure HostedRequests.Fit (reqs : HostedRequests) : Prop where
  key : ¬ IsFirstPart reqs.bucket.chars reqs.path
  dotted : '.' ∈ reqs.bucket.chars → reqs.endpoint.host (configuredHost reqs.localstackHost) = globalHost
  plain : '.' ∉ reqs.bucket.chars →
    ¬ '.' :: globalHost <:+ reqs.endpoint.host (configuredHost reqs.localstackHost)
  bare : ∀ bucket, reqs.endpoint.MistakenFor (configuredHost reqs.localstackHost) bucket →
    IsFirstPart bucket reqs.path

/-! ## The bucket of a host -/

theorem stripSuffix_eq_some_iff (back s rest : List Char) :
    stripSuffix back s = some rest ↔ s = rest ++ back := by
  rw [stripSuffix]
  constructor
  · intro found
    split at found
    · next ends =>
      obtain ⟨front, rfl⟩ := List.isSuffixOf_iff_suffix.mp ends
      simpa using Option.some.inj found
    · cases found
  · rintro rfl
    rw [if_pos (List.isSuffixOf_iff_suffix.mpr (List.suffix_append _ _))]
    simp

theorem stripSuffix_eq_none_iff (back s : List Char) : stripSuffix back s = none ↔ ¬ back <:+ s := by
  rw [stripSuffix, ← List.isSuffixOf_iff_suffix]
  split <;> simp_all

theorem exists_dot {s : List Char} (dot : '.' ∈ s) : ∃ front back, s = front ++ '.' :: back ∧ '.' ∉ front :=
  List.eq_append_cons_of_mem dot

theorem two_le_length_splitOn (s : List Char) : 2 ≤ (s.splitOn '.').length ↔ '.' ∈ s := by
  by_cases dot : '.' ∈ s
  · obtain ⟨front, back, rfl, first⟩ := exists_dot dot
    have more := List.length_pos_of_ne_nil (List.splitOn_ne_nil '.' back)
    rw [List.splitOn_append_cons_self_of_not_mem first, List.length_cons]
    exact iff_of_true (by omega) dot
  · rw [List.splitOn_eq_singleton dot]
    exact iff_of_false (by simp) dot

theorem extractBucket_iff (host bucket : List Char) : extractBucketBeforeS3Region host = some bucket ↔
    ∃ label rest, host = bucket ++ '.' :: (label ++ '.' :: rest) ∧ '.' ∉ bucket ∧ '.' ∉ label ∧ '.' ∈ rest ∧
      IsS3 label := by
  constructor
  · intro found
    rw [extractBucketBeforeS3Region] at found
    split at found
    · cases found
    · next four =>
      have dot : '.' ∈ host := (two_le_length_splitOn host).mp (by omega)
      obtain ⟨front, back, rfl, first⟩ := exists_dot dot
      rw [List.splitOn_append_cons_self_of_not_mem first] at four found
      have dot' : '.' ∈ back := (two_le_length_splitOn back).mp (by simp only [List.length_cons] at four; omega)
      obtain ⟨label, rest, rfl, second⟩ := exists_dot dot'
      rw [List.splitOn_append_cons_self_of_not_mem second] at four found
      have dot'' : '.' ∈ rest := (two_le_length_splitOn rest).mp (by simp only [List.length_cons] at four; omega)
      split at found
      · next s3 =>
        obtain rfl := Option.some.inj found
        exact ⟨label, rest, rfl, first, second, dot'', s3⟩
      · cases found
  · rintro ⟨label, rest, rfl, first, second, dots, s3⟩
    have more := (two_le_length_splitOn rest).mpr dots
    rw [extractBucketBeforeS3Region, List.splitOn_append_cons_self_of_not_mem first,
      List.splitOn_append_cons_self_of_not_mem second]
    rw [if_neg (by simp only [List.length_cons]; omega)]
    exact if_pos s3

/-- What is left when neither of the first two tests finds a bucket. -/
def LastResort (configured host bucket : List Char) : Prop :=
  '.' ∉ bucket ∧ bucket ≠ [] ∧ (host = bucket ++ '.' :: configured ∨
    ¬ '.' :: configured <:+ host ∧ host = bucket ++ ".localhost".toList)

theorem bucketOfHost_iff (host configured bucket : List Char) :
    bucketOfHost host configured = some bucket ↔ host = bucket ++ '.' :: globalHost ∨
      (¬ '.' :: globalHost <:+ host ∧ (extractBucketBeforeS3Region host = some bucket ∨
        extractBucketBeforeS3Region host = none ∧ LastResort configured host bucket)) := by
  have global : ".s3.amazonaws.com".toList = '.' :: globalHost := rfl
  rw [bucketOfHost, global, LastResort]
  cases strip : stripSuffix ('.' :: globalHost) host with
  | some rest =>
    obtain rfl := (stripSuffix_eq_some_iff _ _ _).mp strip
    have suffixed : '.' :: globalHost <:+ rest ++ '.' :: globalHost := List.suffix_append _ _
    simp [suffixed]
  | none =>
    have unsuffixed := (stripSuffix_eq_none_iff _ _).mp strip
    have other : host ≠ bucket ++ '.' :: globalHost := by
      rintro rfl
      exact unsuffixed (List.suffix_append _ _)
    simp only [other, unsuffixed, false_or, not_false_eq_true, true_and]
    cases extract : extractBucketBeforeS3Region host with
    | some found => simp
    | none =>
      cases own : stripSuffix ('.' :: configured) host with
      | some rest =>
        obtain rfl := (stripSuffix_eq_some_iff _ _ _).mp own
        have suffixed : '.' :: configured <:+ rest ++ '.' :: configured := List.suffix_append _ _
        simp only [Option.some_or, Option.filter_eq_some_iff, Option.some.injEq, decide_eq_true_eq,
          suffixed, not_true_eq_false, false_and, or_false, List.append_cancel_right_eq, reduceCtorEq, false_or,
          true_and]
        constructor
        · rintro ⟨rfl, plain, nonempty⟩
          exact ⟨plain, nonempty, rfl⟩
        · rintro ⟨plain, nonempty, rfl⟩
          exact ⟨rfl, plain, nonempty⟩
      | none =>
        have unsuffixed' := (stripSuffix_eq_none_iff _ _).mp own
        have other' : host ≠ bucket ++ '.' :: configured := by
          rintro rfl
          exact unsuffixed' (List.suffix_append _ _)
        simp only [Option.none_or, Option.filter_eq_some_iff, stripSuffix_eq_some_iff, decide_eq_true_eq,
          other', unsuffixed', not_false_eq_true, true_and, false_or, reduceCtorEq]
        tauto

/-! ## Hosts that begin with a label -/

/-- What follows the first label has `s3` for its own first, and a further dot. -/
def NamesS3 (tail : List Char) : Prop :=
  ∃ label rest, tail = label ++ '.' :: rest ∧ '.' ∉ label ∧ '.' ∈ rest ∧ IsS3 label

section FirstLabel

variable {front tail configured bucket : List Char}

theorem suffix_of_label (plain : '.' ∉ front) (back : List Char) :
    '.' :: back <:+ front ++ '.' :: tail ↔ tail = back ∨ '.' :: back <:+ tail := by
  constructor
  · rintro ⟨before, same⟩
    by_cases dot : '.' ∈ before
    · obtain ⟨first, more, rfl, first_plain⟩ := exists_dot dot
      rw [List.append_assoc, List.cons_append] at same
      exact .inr ⟨more, (RustStr.first_inj first_plain plain same).2⟩
    · exact .inl (RustStr.first_inj dot plain same).2.symm
  · rintro (rfl | ⟨before, rfl⟩)
    · exact List.suffix_append _ _
    · exact ⟨front ++ '.' :: before, by simp⟩

theorem extractBucket_label (plain : '.' ∉ front) :
    extractBucketBeforeS3Region (front ++ '.' :: tail) = some bucket ↔ bucket = front ∧ NamesS3 tail := by
  rw [extractBucket_iff]
  constructor
  · rintro ⟨label, rest, same, first, second, dots, s3⟩
    obtain ⟨rfl, rfl⟩ := RustStr.first_inj plain first same
    exact ⟨rfl, label, rest, rfl, second, dots, s3⟩
  · rintro ⟨rfl, label, rest, rfl, second, dots, s3⟩
    exact ⟨label, rest, rfl, plain, second, dots, s3⟩

theorem lastResort_label (plain : '.' ∉ front) :
    LastResort configured (front ++ '.' :: tail) bucket →
      bucket = front ∧ (tail = configured ∨ tail = "localhost".toList) := by
  rintro ⟨plain', -, own | ⟨-, localhost⟩⟩
  · obtain ⟨rfl, rfl⟩ := RustStr.first_inj plain plain' own
    exact ⟨rfl, .inl rfl⟩
  · obtain ⟨rfl, rfl⟩ := RustStr.first_inj plain plain' localhost
    exact ⟨rfl, .inr rfl⟩

/-- Where the host does not end in a further `.s3.amazonaws.com`, nothing but its first label is the bucket. -/
theorem bucketOfHost_label (plain : '.' ∉ front) (nonempty : front ≠ [])
    (unsuffixed : ¬ '.' :: globalHost <:+ tail) :
    bucketOfHost (front ++ '.' :: tail) configured = some bucket ↔ bucket = front ∧
      (tail = globalHost ∨ NamesS3 tail ∨ tail = configured ∨ tail = "localhost".toList) := by
  rw [bucketOfHost_iff, suffix_of_label plain]
  constructor
  · rintro (same | ⟨other, extracted | ⟨-, last⟩⟩)
    · have suffixed : '.' :: globalHost <:+ front ++ '.' :: tail := same ▸ List.suffix_append _ _
      obtain rfl := ((suffix_of_label plain globalHost).mp suffixed).resolve_right unsuffixed
      exact ⟨(List.append_cancel_right same).symm, .inl rfl⟩
    · obtain ⟨rfl, s3⟩ := (extractBucket_label plain).mp extracted
      exact ⟨rfl, .inr (.inl s3)⟩
    · obtain ⟨rfl, own⟩ := lastResort_label plain last
      exact ⟨rfl, .inr (.inr own)⟩
  · rintro ⟨rfl, shape⟩
    by_cases global : tail = globalHost
    · exact .inl (by rw [global])
    · refine .inr ⟨not_or.mpr ⟨global, unsuffixed⟩, ?_⟩
      by_cases s3 : NamesS3 tail
      · exact .inl ((extractBucket_label plain).mpr ⟨rfl, s3⟩)
      · refine .inr ⟨?_, plain, nonempty, ?_⟩
        · refine Option.eq_none_iff_forall_ne_some.mpr fun found extracted => s3 ?_
          exact ((extractBucket_label plain).mp extracted).2
        · rw [suffix_of_label plain]
          rcases ((shape.resolve_left global).resolve_left s3) with rfl | rfl
          · exact .inl rfl
          · by_cases own : configured = "localhost".toList
            · exact .inl (by rw [own])
            · refine .inr ⟨?_, rfl⟩
              rintro (same | ⟨before, same⟩)
              · exact own same.symm
              · have dot : '.' ∈ "localhost".toList := by
                  rw [← same]
                  simp
                exact absurd dot (by decide)

end FirstLabel

/-- A bucket with dots is found in front of `s3.amazonaws.com` only. -/
theorem bucketOfHost_dotted {bucket : List Char} (dotted : '.' ∈ bucket) (host configured : List Char) :
    bucketOfHost host configured = some bucket ↔ host = bucket ++ '.' :: globalHost := by
  rw [bucketOfHost_iff]
  constructor
  · rintro (same | ⟨-, extracted | ⟨-, plain, -⟩⟩)
    · exact same
    · obtain ⟨label, rest, -, plain, -⟩ := (extractBucket_iff _ _).mp extracted
      exact absurd dotted plain
    · exact absurd dotted plain
  · exact .inl

/-! ## Hosts of buckets and of endpoints -/

section Endpoints

variable {configured : List Char}

theorem namesS3_region (region : HostLabel) {domain : List Char} (dot : '.' ∈ domain) :
    NamesS3 (region.chars ++ '.' :: domain) ↔ IsS3 region.chars := by
  constructor
  · rintro ⟨label, rest, same, plain, -, s3⟩
    rwa [(RustStr.first_inj region.plain.1 plain same).1]
  · exact fun s3 => ⟨region.chars, domain, rfl, region.plain.1, dot, s3⟩

theorem join_labels {first second last front back : List Char} (before : front = first ++ ['.'])
    (after : back = '.' :: last) : front ++ second ++ back = first ++ '.' :: (second ++ '.' :: last) := by
  rw [before, after, List.append_assoc, List.append_assoc, List.singleton_append]

theorem regional_host (region : HostLabel) : (Endpoint.regional region).host configured =
    "s3".toList ++ '.' :: (region.chars ++ '.' :: "amazonaws.com".toList) :=
  join_labels (by decide) (by decide)

theorem localstack_host (region : HostLabel) : (Endpoint.localstack region).host configured =
    "s3".toList ++ '.' :: (region.chars ++ '.' :: "localhost.localstack.cloud".toList) :=
  join_labels (by decide) (by decide)

/-- Each endpoint is known by what its host looks like behind a bucket. -/
theorem endpoint_known (endpoint : Endpoint) :
    endpoint.host configured = globalHost ∨ NamesS3 (endpoint.host configured) ∨
      endpoint.host configured = configured ∨ endpoint.host configured = "localhost".toList := by
  cases endpoint with
  | global => exact .inl rfl
  | regional region =>
    exact .inr (.inl ⟨_, _, regional_host region, by decide, by simp, rfl⟩)
  | localstack region =>
    exact .inr (.inl ⟨_, _, localstack_host region, by decide, by simp, rfl⟩)
  | localhost => exact .inr (.inr (.inr rfl))
  | configured => exact .inr (.inr (.inl rfl))

theorem bucketOfHost_virtual_iff (bucket : BucketLabel) (endpoint : Endpoint) :
    bucketOfHost (bucket.chars ++ '.' :: endpoint.host configured) configured = some bucket.chars ↔
      ('.' ∈ bucket.chars → endpoint.host configured = globalHost) ∧
        ('.' ∉ bucket.chars → ¬ '.' :: globalHost <:+ endpoint.host configured) := by
  by_cases dotted : '.' ∈ bucket.chars
  · rw [bucketOfHost_dotted dotted]
    simp [dotted]
  · simp only [dotted, false_implies, true_and, not_false_eq_true, true_implies]
    constructor
    · intro found suffixed
      rcases (bucketOfHost_iff _ _ _).mp found with same | ⟨other, -⟩
      · have short : endpoint.host configured = globalHost := by simpa using same
        rw [short] at suffixed
        exact absurd suffixed.length_le (by simp)
      · exact other ((suffix_of_label dotted globalHost).mpr (.inr suffixed))
    · intro unsuffixed
      exact (bucketOfHost_label dotted bucket.nonempty unsuffixed).mpr ⟨rfl, endpoint_known endpoint⟩

theorem bucketOfHost_global (bucket : List Char) :
    bucketOfHost globalHost configured = some bucket ↔
      bucket = "s3".toList ∧ configured = "amazonaws.com".toList := by
  have labels : globalHost = "s3".toList ++ '.' :: "amazonaws.com".toList := by decide
  rw [labels, bucketOfHost_label (by decide) (by decide) (by decide)]
  refine and_congr_right fun _ => ?_
  constructor
  · rintro (same | ⟨label, rest, same, plain, dot, -⟩ | own | same)
    · exact absurd same (by decide)
    · have split : "amazonaws.com".toList = "amazonaws".toList ++ '.' :: "com".toList := by decide
      obtain ⟨-, rfl⟩ := RustStr.first_inj (by decide) plain (split.symm.trans same)
      exact absurd dot (by decide)
    · exact own.symm
    · exact absurd same (by decide)
  · exact fun own => .inr (.inr (.inl own.symm))

/-- The bare host of a region, under a domain with a dot that is not that of `s3.amazonaws.com`. -/
theorem bucketOfHost_region (region : HostLabel) {domain : List Char} (dot : '.' ∈ domain)
    (other : domain ≠ globalHost) (unsuffixed : ¬ '.' :: globalHost <:+ domain) (bucket : List Char) :
    bucketOfHost ("s3".toList ++ '.' :: (region.chars ++ '.' :: domain)) configured = some bucket ↔
      bucket = "s3".toList ∧ (IsS3 region.chars ∨ configured = region.chars ++ '.' :: domain) := by
  have tail : ¬ '.' :: globalHost <:+ region.chars ++ '.' :: domain := by
    rw [suffix_of_label region.plain.1]
    exact not_or.mpr ⟨other, unsuffixed⟩
  rw [bucketOfHost_label (by decide) (by decide) tail, namesS3_region region dot]
  refine and_congr_right fun _ => ?_
  constructor
  · rintro (same | s3 | own | same)
    · have labels : globalHost = "s3".toList ++ '.' :: "amazonaws.com".toList := by decide
      obtain ⟨s3, -⟩ := RustStr.first_inj region.plain.1 (by decide) (same.trans labels)
      rw [s3]
      exact .inl rfl
    · exact .inl s3
    · exact .inr own.symm
    · have dotted : '.' ∈ "localhost".toList := by
        rw [← same]
        simp
      exact absurd dotted (by decide)
  · rintro (s3 | own)
    · exact .inr (.inl s3)
    · exact .inr (.inr (.inl own.symm))

theorem bucketOfHost_localhost (bucket : List Char) :
    bucketOfHost "localhost".toList configured ≠ some bucket := by
  intro found
  have undotted : ∀ front back : List Char, "localhost".toList ≠ front ++ '.' :: back := by
    intro front back same
    have dot : '.' ∈ "localhost".toList := by
      rw [same]
      simp
    exact absurd dot (by decide)
  rcases (bucketOfHost_iff _ _ _).mp found with same | ⟨-, extracted | ⟨-, -, -, own | ⟨-, same⟩⟩⟩
  · exact undotted _ _ same
  · obtain ⟨label, rest, same, -⟩ := (extractBucket_iff _ _).mp extracted
    exact undotted _ _ same
  · exact undotted _ _ own
  · exact undotted bucket "localhost".toList same

theorem bucketOfHost_configured {bucket : List Char} (nonempty : bucket ≠ []) :
    bucketOfHost configured configured = some bucket ↔ LooksVirtual configured bucket := by
  constructor
  · intro found
    rcases (bucketOfHost_iff _ _ _).mp found with same | ⟨other, extracted | ⟨-, plain, -, own | ⟨-, same⟩⟩⟩
    · exact .inl same
    · exact .inr (.inl ⟨other, (extractBucket_iff _ _).mp extracted⟩)
    · have lengths := congrArg List.length own
      rw [List.length_append, List.length_cons] at lengths
      omega
    · exact .inr (.inr ⟨same, plain⟩)
  · rintro (same | ⟨other, shape⟩ | ⟨same, plain⟩)
    · exact (bucketOfHost_iff _ _ _).mpr (.inl same)
    · exact (bucketOfHost_iff _ _ _).mpr (.inr ⟨other, .inl ((extractBucket_iff _ _).mpr shape)⟩)
    · have label : configured = bucket ++ '.' :: "localhost".toList := same
      have unsuffixed : ¬ '.' :: globalHost <:+ "localhost".toList := by decide
      have found : bucketOfHost (bucket ++ '.' :: "localhost".toList) configured = some bucket :=
        (bucketOfHost_label plain nonempty unsuffixed).mpr ⟨rfl, .inr (.inr (.inr rfl))⟩
      rwa [← label] at found

theorem bucketOfHost_bare_iff (endpoint : Endpoint) {bucket : List Char} (nonempty : bucket ≠ []) :
    bucketOfHost (endpoint.host configured) configured = some bucket ↔
      endpoint.MistakenFor configured bucket := by
  cases endpoint with
  | global => exact bucketOfHost_global bucket
  | regional region =>
    rewrite [regional_host]
    exact bucketOfHost_region region (by decide) (by decide) (by decide) bucket
  | localstack region =>
    rewrite [localstack_host]
    exact bucketOfHost_region region (by decide) (by decide) (by decide) bucket
  | localhost => exact iff_of_false (bucketOfHost_localhost bucket) id
  | configured => exact (bucketOfHost_configured nonempty).trans (and_iff_right nonempty).symm

end Endpoints

/-! ## Paths -/

theorem isFirstPart_iff (part : List Char) (path : String) : IsFirstPart part path ↔
    part.isPrefixOf (trimStartSlashes path) = true ∧ ((trimStartSlashes path).length = part.length ∨
      (trimStartSlashes path)[part.length]? = some '/') := by
  rw [IsFirstPart, List.isPrefixOf_iff_prefix]
  constructor
  · rintro (same | ⟨rest, same⟩)
    · rw [same]
      exact ⟨List.prefix_rfl, .inl rfl⟩
    · rw [← same, List.append_assoc]
      refine ⟨List.prefix_append _ _, .inr ?_⟩
      simp
  · rintro ⟨⟨rest, same⟩, ends⟩
    rw [← same] at ends ⊢
    rcases ends with short | slash
    · rw [List.length_append, Nat.add_eq_left, List.length_eq_zero_iff] at short
      rw [short, List.append_nil]
      exact .inl rfl
    · rw [List.getElem?_append_right le_rfl, Nat.sub_self] at slash
      obtain ⟨more, rfl⟩ := List.head?_eq_some_iff.mp (List.head?_eq_getElem?.trans slash)
      exact .inr ⟨more, by simp⟩

section Rewriting

variable {headers : Headers} {host : String} (localstackHost path : String)

theorem append_ne_path (bucket : List Char) : String.ofList ('/' :: bucket ++ path.toList) ≠ path := by
  intro same
  have lengths := congrArg (fun s : String => s.toList.length) same
  rw [String.toList_ofList, List.length_append, List.length_cons] at lengths
  omega

/-- The bucket comes in front exactly when it is what the host is read as and the path does not begin with
it. -/
theorem rewrite_eq_append_iff {bucket : List Char} (nonempty : bucket ≠ [])
    (sent : headerStr headers "host" = some host) :
    rewriteS3VirtualHostedPath path headers localstackHost = String.ofList ('/' :: bucket ++ path.toList) ↔
      bucketOfHost (withoutPort host).toList (configuredHost localstackHost) = some bucket ∧
        ¬ IsFirstPart bucket path := by
  have own : (withoutPort localstackHost).toList = configuredHost localstackHost := rfl
  rw [rewriteS3VirtualHostedPath, sent]
  dsimp only
  rw [own]
  cases bucketOfHost (withoutPort host).toList (configuredHost localstackHost) with
  | none => exact iff_of_false (append_ne_path path bucket).symm fun both => nomatch both.1
  | some found =>
    dsimp only
    split
    · next empty =>
      refine iff_of_false (append_ne_path path bucket).symm fun both => nonempty ?_
      rw [← Option.some.inj both.1, empty]
    · split
      · next first =>
        refine iff_of_false (append_ne_path path bucket).symm fun both => both.2 ?_
        rw [← Option.some.inj both.1]
        exact (isFirstPart_iff found path).mpr first
      · next other =>
        rw [← isFirstPart_iff] at other
        rw [Option.some.injEq, String.ofList_inj]
        constructor
        · intro same
          obtain rfl : found = bucket := by simpa using same
          exact ⟨rfl, other⟩
        · rintro ⟨rfl, -⟩
          rfl

/-- The path stays exactly when the host is read as none but the bucket that the path begins with. -/
theorem rewrite_eq_self_iff (sent : headerStr headers "host" = some host) :
    rewriteS3VirtualHostedPath path headers localstackHost = path ↔ ∀ bucket, bucket ≠ [] →
      bucketOfHost (withoutPort host).toList (configuredHost localstackHost) = some bucket →
      IsFirstPart bucket path := by
  have own : (withoutPort localstackHost).toList = configuredHost localstackHost := rfl
  rw [rewriteS3VirtualHostedPath, sent]
  dsimp only
  rw [own]
  cases bucketOfHost (withoutPort host).toList (configuredHost localstackHost) with
  | none => exact iff_of_true rfl fun _ _ => nofun
  | some found =>
    dsimp only
    split
    · next empty =>
      refine iff_of_true rfl fun bucket nonempty same => absurd ?_ nonempty
      rw [← Option.some.inj same, empty]
    · next nonempty =>
      split
      · next first =>
        refine iff_of_true rfl fun bucket _ same => ?_
        rw [← Option.some.inj same]
        exact (isFirstPart_iff found path).mpr first
      · next other =>
        refine iff_of_false (append_ne_path path found) fun stays => other ?_
        exact (isFirstPart_iff found path).mp (stays found nonempty rfl)

end Rewriting

/-! ## Requests -/

theorem withoutPort_hostText {host : List Char} (plain : ':' ∉ host) (port : Option String) :
    (withoutPort (hostText host port)).toList = host := by
  have before : host.takeWhile (· ≠ ':') = host := by
    rw [List.takeWhile_eq_self_iff]
    intro c member
    rw [decide_eq_true_eq]
    rintro rfl
    exact plain member
  rw [withoutPort, hostText, String.toList_ofList, String.toList_ofList]
  cases port with
  | none => rw [Option.elim_none, List.append_nil, before]
  | some port =>
    rw [Option.elim_some, List.takeWhile_append_of_pos fun c member => ?_]
    · simp
    · rw [decide_eq_true_eq]
      rintro rfl
      exact plain member

theorem configuredHost_plain (localstackHost : String) : ':' ∉ configuredHost localstackHost := by
  intro colon
  rw [configuredHost, withoutPort, String.toList_ofList] at colon
  simpa using List.mem_takeWhile_imp colon

theorem endpoint_plain (localstackHost : String) (endpoint : Endpoint) :
    ':' ∉ endpoint.host (configuredHost localstackHost) := by
  have joined : ∀ (region : HostLabel) (front domain : List Char), ':' ∉ front → ':' ∉ domain →
      ':' ∉ front ++ '.' :: (region.chars ++ '.' :: domain) := by
    intro region front domain before after
    simp [before, after, region.plain.2]
  cases endpoint with
  | global =>
    have global : ':' ∉ globalHost := by decide
    exact global
  | regional region =>
    rewrite [regional_host]
    exact joined region _ _ (by decide) (by decide)
  | localstack region =>
    rewrite [localstack_host]
    exact joined region _ _ (by decide) (by decide)
  | localhost =>
    have localhost : ':' ∉ "localhost".toList := by decide
    exact localhost
  | configured => exact configuredHost_plain localstackHost

theorem mistakenFor_nonempty {configured bucket : List Char} {endpoint : Endpoint}
    (mistaken : endpoint.MistakenFor configured bucket) : bucket ≠ [] := by
  cases endpoint with
  | global | regional _ | localstack _ =>
    rw [mistaken.1]
    decide
  | localhost => exact mistaken.elim
  | configured => exact mistaken.1

/-- For every configured host, bucket, endpoint, path and port. -/
theorem virtual_hosts_iff (reqs : HostedRequests) : reqs.Rewritten ↔ reqs.Fit := by
  have bare := endpoint_plain reqs.localstackHost reqs.endpoint
  have virtual : ':' ∉ virtualHost reqs.localstackHost reqs.bucket reqs.endpoint := by
    rw [virtualHost, List.mem_append, List.mem_cons, not_or, not_or]
    exact ⟨reqs.bucket.plain, by decide, bare⟩
  have onBucket := rewrite_eq_append_iff reqs.localstackHost reqs.path reqs.bucket.nonempty reqs.onBucket
  have onEndpoint := rewrite_eq_self_iff reqs.localstackHost reqs.path reqs.onEndpoint
  rw [withoutPort_hostText virtual, virtualHost, bucketOfHost_virtual_iff] at onBucket
  rw [withoutPort_hostText bare] at onEndpoint
  constructor
  · intro rewritten
    obtain ⟨⟨dotted, plain⟩, key⟩ := onBucket.mp rewritten.virtual
    refine ⟨key, dotted, plain, fun bucket mistaken => ?_⟩
    have nonempty := mistakenFor_nonempty mistaken
    exact onEndpoint.mp rewritten.bare bucket nonempty
      ((bucketOfHost_bare_iff reqs.endpoint nonempty).mpr mistaken)
  · intro fit
    refine ⟨onBucket.mpr ⟨⟨fit.dotted, fit.plain⟩, fit.key⟩, onEndpoint.mpr fun bucket nonempty found => ?_⟩
    exact fit.bare bucket ((bucketOfHost_bare_iff reqs.endpoint nonempty).mp found)

section DottedBucket

def usEast : HostLabel := ⟨"us-east-1".toList, by decide, by decide⟩

def myBucket : BucketLabel := ⟨"my.bucket".toList, by decide, by decide⟩

/-- `GET /report.txt` on `my.bucket.s3.us-east-1.amazonaws.com`. -/
def dottedRequests : HostedRequests where
  localstackHost := "localhost.localstack.cloud:4566"
  bucket := myBucket
  endpoint := .regional usEast
  path := "/report.txt"
  port := none
  virtualHeaders := [("host", "my.bucket.s3.us-east-1.amazonaws.com")]
  bareHeaders := [("host", "s3.us-east-1.amazonaws.com")]
  onBucket := by decide +kernel
  onEndpoint := by decide +kernel

/-- The key is served as a bucket; and so is one that begins with the name of its bucket. -/
theorem dotted_bucket_lost :
    rewriteS3VirtualHostedPath "/report.txt" [("host", "my.bucket.s3.us-east-1.amazonaws.com")]
      "localhost.localstack.cloud:4566" = "/report.txt" ∧
    rewriteS3VirtualHostedPath "/logs/today" [("host", "logs.s3.amazonaws.com")]
      "localhost.localstack.cloud:4566" = "/logs/today" ∧
    ¬ dottedRequests.Rewritten := by
  refine ⟨by decide +kernel, by decide +kernel, fun rewritten => ?_⟩
  exact absurd rewritten.virtual (by decide +kernel)

end DottedBucket

end Openstack.Gateway

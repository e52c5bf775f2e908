import Mathlib.Data.String.Basic
import Openstack.Lib.RustFmt
import Openstack.Lib.RustStr
import Openstack.S3.Store

/-!
# Listing objects

`S3Store::list_objects_paged` (`store.rs:605-719`), `handle_list_objects_v2` and
`handle_list_objects` (`provider.rs:1319-1583`). A response keeps the fields of its
`ListBucketResult`; their rendering as XML is not modelled.
-/
namespace Openstack.S3

/-- Key, last-modified instant, ETag and size of a listed object. -/
abbrev ObjMeta := String × Instant × String × Nat

structure ListPagedResult where
  contents : List ObjMeta := []
  /-- Common prefix and the last raw key seen under it. -/
  commonPrefixes : StrMap String := ∅

/-- The common prefix a key is grouped under: its text up to and including the
first delimiter after the prefix. -/
def commonPrefix? (pfx delimiter key : String) : Option String :=
  if delimiter = "" then none
  else (RustStr.before delimiter.toList (key.toList.drop pfx.toList.length)).map fun x =>
    String.ofList (pfx.toList ++ x ++ delimiter.toList)

/-- The lower bound of the scanned key range. -/
def aboveLower (pfx : String) (startAfterExclusive : Option String) (key : String) : Bool :=
  let fromPrefix := if pfx = "" then true else decide (pfx ≤ key)
  match startAfterExclusive with
  | none => fromPrefix
  | some s => if s ≠ "" ∧ pfx ≤ s then decide (s < key) else fromPrefix

/-- The variables of the scan loop. While `lastNewCp` is set, the loop only looks
for the last key under that prefix. -/
structure Scan where
  result : ListPagedResult := {}
  distinctCount : Nat := 0
  lastNewCp : Option String := none
  cursorUpdate : Option String := none

@[grind] def Scan.finish (st : Scan) : ListPagedResult :=
  match st.lastNewCp, st.cursorUpdate with
  | some lcp, some lastKey =>
    { st.result with commonPrefixes := st.result.commonPrefixes.insert lcp lastKey }
  | _, _ => st.result

def Scan.addPrefix (st : Scan) (maxResults : Nat) (cp key : String) : Scan :=
  let isNew := !st.result.commonPrefixes.contains cp
  let result :=
    { st.result with commonPrefixes := st.result.commonPrefixes.insert cp key }
  if isNew then
    { st with
      result := result
      distinctCount := st.distinctCount + 1
      lastNewCp := if st.distinctCount + 1 ≥ maxResults then some cp else none }
  else { st with result := result }

def Scan.addContent (st : Scan) (key : String) (v : ObjectVersion) : Scan :=
  { st with
    result :=
      { st.result with
        contents := st.result.contents ++ [(key, v.lastModified, v.etag, v.size)] }
    distinctCount := st.distinctCount + 1 }

def scanLoop (pfx delimiter : String) (maxResults : Nat) :
    Scan → List (String × S3Object) → ListPagedResult
  | st, [] => st.finish
  | st, (key, obj) :: rest =>
    match st.lastNewCp with
    | some lcp =>
      if RustStr.startsWith key lcp then
        scanLoop pfx delimiter maxResults { st with cursorUpdate := some key } rest
      else st.finish
    | none =>
      match obj.current with
      | none => scanLoop pfx delimiter maxResults st rest
      | some v =>
        match commonPrefix? pfx delimiter key with
        | some cp => scanLoop pfx delimiter maxResults (st.addPrefix maxResults cp key) rest
        | none =>
          if st.distinctCount + 1 ≥ maxResults then (st.addContent key v).finish
          else scanLoop pfx delimiter maxResults (st.addContent key v) rest

/-- The keys the scan runs over. -/
def scanRange (objects : Objects) (pfx : String) (startAfterExclusive : Option String) :
    List (String × S3Object) :=
  (objects.map.toList.filter fun kv => aboveLower pfx startAfterExclusive kv.1).takeWhile fun kv =>
    pfx = "" || RustStr.startsWith kv.1 pfx

def listObjectsPaged (store : S3Store) (bucket pfx : String) (startAfterExclusive : Option String)
    (maxResults : Nat) (delimiter : String) : ListPagedResult :=
  match store.objects[bucket]? with
  | none => {}
  | some objects =>
    scanLoop pfx delimiter maxResults {} (scanRange objects pfx startAfterExclusive)

structure S3Error where
  code : String
  message : String
  statusCode : Nat
  deriving DecidableEq, Repr

structure ListBucketResult where
  name : String
  pfx : String
  maxKeys : Nat
  isTruncated : Bool
  /-- `NextContinuationToken` or `NextMarker`. -/
  next : Option String
  contents : List ObjMeta
  commonPrefixes : List String
  deriving DecidableEq, Repr

def noSuchBucket : S3Error :=
  ⟨"NoSuchBucket", "The specified bucket does not exist", 404⟩

def bucketFromPath (path : String) : Option String :=
  let segment := (path.toList.dropWhile (· = '/')).takeWhile (· ≠ '/')
  if segment.isEmpty then none else some (String.ofList segment)

abbrev QueryParams := StrMap String

def queryPrefix (q : QueryParams) : String := q["prefix"]?.getD ""

def queryDelimiter (q : QueryParams) : String := q["delimiter"]?.getD ""

def queryMaxKeys (q : QueryParams) : Nat :=
  min ((q["max-keys"]?.bind (RustFmt.parseUnsigned 64)).getD 1000) 1000

/-- Common prefixes first, then contents with the rest of the budget, of the
outputs the V2 scan returned. -/
def pageV2 (bucket pfx : String) (maxKeys : Nat) (scanned : ListPagedResult) : ListBucketResult :=
  let cpMap := scanned.commonPrefixes
  let truncated := decide (scanned.contents.length + cpMap.size > maxKeys)
  let cpCountKept := min cpMap.size maxKeys
  let contentItems := scanned.contents.take (maxKeys - cpCountKept)
  let cpVec := cpMap.keys.take cpCountKept
  let nextToken :=
    if truncated then
      match contentItems.getLast? with
      | some item => some item.1
      | none => cpVec.getLast?.bind fun lastCp => cpMap[lastCp]?
    else none
  { name := bucket
    pfx := pfx
    maxKeys := maxKeys
    isTruncated := truncated
    next := nextToken
    contents := contentItems
    commonPrefixes := cpVec }

def handleListObjectsV2 (store : S3Store) (path : String) (q : QueryParams) :
    Except S3Error ListBucketResult :=
  match bucketFromPath path with
  | none => .error ⟨"InvalidBucketName", "Bucket name is required", 400⟩
  | some bucket =>
    if store.bucketExists bucket then
      let skipAfter := q["continuation-token"]?.or q["start-after"]?
      .ok (pageV2 bucket (queryPrefix q) (queryMaxKeys q)
        (listObjectsPaged store bucket (queryPrefix q) skipAfter (queryMaxKeys q + 1)
          (queryDelimiter q)))
    else .error noSuchBucket

/-- An object with a current version that matches the prefix. -/
def listedItem (pfx : String) (obj : S3Object) : Option ObjMeta :=
  match obj.current with
  | none => none
  | some v =>
    if RustStr.startsWith obj.key pfx then some (obj.key, v.lastModified, v.etag, v.size) else none

/-- `all_items` of the V1 handler. -/
def allItems (store : S3Store) (bucket pfx marker : String) : List ObjMeta :=
  let items := (store.listObjects bucket).filterMap (listedItem pfx)
  if marker = "" then items else items.filter fun item => decide (marker < item.1)

def insertPrefix (pfx delimiter : String) (acc : StrMap Unit) (item : ObjMeta) : StrMap Unit :=
  match commonPrefix? pfx delimiter item.1 with
  | none => acc
  | some cp => acc.insert cp ()

/-- The sorted set of the common prefixes of the items. -/
def itemPrefixes (pfx delimiter : String) (items : List ObjMeta) : StrMap Unit :=
  items.foldl (insertPrefix pfx delimiter) ∅

/-- The cursor of a truncated V1 page: the last kept key, or the last item under
the last kept prefix. -/
def nextMarker (items kept : List ObjMeta) (cpVec : List String) : String :=
  match kept.getLast? with
  | some item => item.1
  | none =>
    match cpVec.getLast? with
    | none => ""
    | some lastCp =>
      ((items.reverse.find? fun item => RustStr.startsWith item.1 lastCp).map (·.1)).getD ""

def pageV1 (bucket pfx delimiter : String) (maxKeys : Nat) (items : List ObjMeta) :
    ListBucketResult :=
  let commonPrefixes := (itemPrefixes pfx delimiter items).keys
  let contentItems := items.filter fun item => (commonPrefix? pfx delimiter item.1).isNone
  let truncated := decide (contentItems.length + commonPrefixes.length > maxKeys)
  let cpVec := commonPrefixes.take maxKeys
  let kept := contentItems.take (maxKeys - cpVec.length)
  let marker := if truncated then nextMarker items kept cpVec else ""
  { name := bucket
    pfx := pfx
    maxKeys := maxKeys
    isTruncated := truncated
    next := if truncated && marker ≠ "" then some marker else none
    contents := kept
    commonPrefixes := cpVec }

def handleListObjects (store : S3Store) (path : String) (q : QueryParams) :
    Except S3Error ListBucketResult :=
  match bucketFromPath path with
  | none => .error ⟨"InvalidBucketName", "Bucket name is required", 400⟩
  | some bucket =>
    if store.bucketExists bucket then
      .ok (pageV1 bucket (queryPrefix q) (queryDelimiter q) (queryMaxKeys q)
        (allItems store bucket (queryPrefix q) (q["marker"]?.getD "")))
    else .error noSuchBucket

end Openstack.S3

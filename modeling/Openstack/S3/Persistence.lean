import Openstack.Lib.Json
import Openstack.S3.Store
import Openstack.State.Persistence

/-!
# S3 snapshots

`crates/services/s3/src/persistence.rs` and the custom serialiser of `store.rs`, lines 59-114. Here
the path of a file reference is a whole `PathBuf`, by its components; the root is the component
`"/"`. Base64 comes from outside the repository. The warnings for missing files are left out.
-/
namespace Openstack.S3

open State (AccountRegionBundle AccountRegionKey Serde statePath saveStore loadStore)

structure Base64 where
  encode : Bytes → String
  decode : String → Option Bytes

def isRelative (p : Path) : Bool := p.head? != some "/"

/-- `p.strip_prefix(base)`. -/
def stripBase (p base : Path) : Option Path :=
  if base.isPrefixOf p then some (p.drop base.length) else none

/-- `base.join(p)`. -/
def joinPath (base p : Path) : Path := if isRelative p then base ++ p else p

def slashed (p : List String) : String := String.ofList (['/'].intercalate (p.map String.toList))

/-- `path.to_str()`. -/
def pathText : Path → String
  | "/" :: rest => "/" ++ slashed rest
  | p => slashed p

/-- `PathBuf::from`; a dot counts only in front. -/
def parsePath (text : String) : Path :=
  match (text.toList.splitOn '/').map String.ofList with
  | [] => []
  | first :: rest =>
    (if RustStr.startsWith text "/" then ["/"] else if first = "" then [] else [first]) ++
      rest.filter fun c => c ≠ "" ∧ c ≠ "."

namespace ObjectDataRef

def serialize (b64 : Base64) : ObjectDataRef → Json
  | .inline bytes => .str (b64.encode bytes)
  | .fileRef path => .obj [("file_ref", .str (pathText path))]

def deserialize (b64 : Base64) : Json → Option ObjectDataRef
  | .str text => (b64.decode text).map .inline
  | .obj map =>
    match (Json.obj map).get? "file_ref" with
    | some (.str path) => some (.fileRef (parsePath path))
    | _ => none
  | _ => none

def relativize (base : Path) : ObjectDataRef → ObjectDataRef
  | .fileRef path =>
    match stripBase path base with
    | some rel => .fileRef rel
    | none => .fileRef path
  | data => data

def resolve (base : Path) : ObjectDataRef → ObjectDataRef
  | .fileRef path => if isRelative path then .fileRef (joinPath base path) else .fileRef path
  | data => data

end ObjectDataRef

namespace Objects

def mapData (f : ObjectDataRef → ObjectDataRef) (o : Objects) : Objects where
  map := StrMap.mapValues (fun obj =>
    { obj with versions := obj.versions.map fun v => { v with data := f v.data } }) o.map
  keyed := by
    intro key obj found
    rw [StrMap.getElem?_mapValues] at found
    obtain ⟨old, stored, rfl⟩ := Option.map_eq_some_iff.mp found
    exact o.keyed key old stored

end Objects

namespace S3Store

instance : Inhabited S3Store := ⟨{}⟩

/-- Change the data references of all versions and parts. -/
def mapData (f : ObjectDataRef → ObjectDataRef) (s : S3Store) : S3Store :=
  { s with
    objects := StrMap.mapValues (·.mapData f) s.objects
    multipartUploads := StrMap.mapValues (fun u =>
      { u with parts := u.parts.map fun p => (p.1, { p.2 with data := f p.2.data }) })
      s.multipartUploads }

def relativizePaths (base : Path) (s : S3Store) : S3Store := s.mapData (·.relativize base)

def resolveAndVerifyPaths (base : Path) (s : S3Store) : S3Store := s.mapData (·.resolve base)

/-- The data references of all versions and parts. -/
def dataRefs (s : S3Store) : List ObjectDataRef :=
  (StrMap.values s.objects).flatMap (fun objects => (StrMap.values objects.map).flatMap fun obj =>
    obj.versions.map (·.data)) ++
  (StrMap.values s.multipartUploads).flatMap fun u => u.parts.map (·.2.data)

end S3Store

structure S3PersistableStore where
  serde : Serde S3Store
  s3ObjectsDir : Path

namespace S3PersistableStore

variable (p : S3PersistableStore) (dataDir : List String)

/-- `save`, entry by entry; the answer says whether it succeeded. -/
def saveAll (t : FileTree UInt8) : List (AccountRegionKey × S3Store) → FileTree UInt8 × Bool
  | [] => (t, true)
  | (key, store) :: rest =>
    let saved := saveStore p.serde t (store.relativizePaths p.s3ObjectsDir)
      (statePath dataDir "s3" key.accountId key.region)
    if saved.2 then saveAll saved.1 rest else (saved.1, false)

def save (t : FileTree UInt8) (bundle : AccountRegionBundle S3Store) : FileTree UInt8 × Bool :=
  p.saveAll dataDir t bundle.iter

/-- The account and region directories, as `read_dir` finds them. -/
def regionDirs (t : FileTree UInt8) (base : List String) : List (String × String) :=
  (t.subdirs base).flatMap fun accountId =>
    (t.subdirs (base ++ [accountId])).map fun region => (accountId, region)

def loadOne (t : FileTree UInt8) (base : List String) (bundle : AccountRegionBundle S3Store)
    (entry : String × String) : Option (AccountRegionBundle S3Store) :=
  (loadStore p.serde t (base ++ [entry.1, entry.2, "store.json"])).map fun store =>
    bundle.getOrCreate entry.1 entry.2 fun _ => store.resolveAndVerifyPaths p.s3ObjectsDir

/-- `load`; nothing on an error. -/
def load (t : FileTree UInt8) (bundle : AccountRegionBundle S3Store) :
    Option (AccountRegionBundle S3Store) :=
  let base := dataDir ++ ["state", "s3"]
  match t.lookup base with
  | none => some bundle
  | some (.file _) => none
  | some .dir => (regionDirs t base).foldlM (p.loadOne t base) bundle

def reset (bundle : AccountRegionBundle S3Store) : AccountRegionBundle S3Store := bundle.clear

end S3PersistableStore

end Openstack.S3

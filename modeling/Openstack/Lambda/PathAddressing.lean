import Openstack.Gateway.LambdaRouting

/-!
# Names in Lambda paths

The path helpers of `crates/services/lambda/src/provider.rs` (lines 172-199) and `RemovePermission` (lines
1322-1378) on the paths of the API. A helper takes the part after the first one that is its keyword,
wherever that stands.
-/
namespace Openstack.Lambda

def layerNameFromPath (path : String) : Option String := partAfter "layers" path

/-- Layer versions are of type `i64`. -/
def layerVersionFromPath (path : String) : Option Int :=
  (partAfter "versions" path).bind (RustFmt.parseSigned 64)

/-- `/2015-03-31/{family}/{name}/{label}/{last}`. -/
def apiPath (family : String) (name : PathSegment) (label : String) (last : PathSegment) : String :=
  "/2015-03-31/" ++ family ++ "/" ++ name.text ++ "/" ++ label ++ "/" ++ last.text

def aliasPath (f a : PathSegment) : String := apiPath "functions" f "aliases" a

def statementPath (f sid : PathSegment) : String := apiPath "functions" f "policy" sid

/-- The number of a layer version in a path. -/
def versionSegment (n : Fin (2 ^ 63)) : PathSegment where
  text := toString n.val
  nonempty := by
    intro none
    have digits : Nat.toDigits 10 n.val = [] := by
      rw [← RustFmt.toList_toString, none, String.toList_empty]
    simp at digits
  plain := by
    intro slash
    rw [RustFmt.toList_toString] at slash
    exact absurd (Nat.isDigit_of_mem_toDigits (by decide) (by decide) slash) (by decide)

def layerPath (l : PathSegment) (n : Fin (2 ^ 63)) : String := apiPath "layers" l "versions" (versionSegment n)

/-- The helpers give back what the path was built from. -/
structure NamesRead (f a l : PathSegment) (n : Fin (2 ^ 63)) : Prop where
  functionName : functionNameFromPath (aliasPath f a) = some f.text
  aliasName : aliasFromPath (aliasPath f a) = some a.text
  layerName : layerNameFromPath (layerPath l n) = some l.text
  layerVersion : layerVersionFromPath (layerPath l n) = some (n.val : Int)

/-- The statement goes from the function, and nothing else changes; without the function or the statement,
nothing changes at all. -/
@[grind] def withoutStatement (call : Call) (store : LambdaStore) (f sid : String) : Answer × LambdaStore :=
  match store.functions[f]? with
  | none => (.jsonError "ResourceNotFoundException" ("Function not found: " ++ makeArn call f) 404, store)
  | some func =>
    if func.policyStatements.any (·.sid = sid) then
      (.noContent, { store with
        functions := store.functions.insert f
          { func with policyStatements := func.policyStatements.filter (·.sid ≠ sid) } })
    else
      (.jsonError "ResourceNotFoundException"
        ("Statement " ++ sid ++ " not found in function " ++ makeArn call f) 404, store)

/-- A `RemovePermission` on the path of a statement, in an account and region. -/
structure Removal where
  accountId : String
  region : String
  body : Json
  store : LambdaStore

def Removal.call (removal : Removal) (f sid : PathSegment) : Call :=
  ⟨removal.accountId, removal.region, statementPath f sid, removal.body⟩

def RemovesStatement (removal : Removal) (f sid : PathSegment) : Prop :=
  removePermission (removal.call f sid) removal.store =
    withoutStatement (removal.call f sid) removal.store f.text sid.text

/-- The removal of a statement called `policy` has the name in its body too, or finds no function. -/
def StatementNamed (removal : Removal) (f sid : PathSegment) : Prop :=
  sid.text = "policy" →
    strField removal.body "StatementId" = some "policy" ∨ removal.store.functions[f.text]? = none

section Parts

variable {family label : String} (name last : PathSegment)

theorem pathParts_apiPath (family_plain : '/' ∉ family.toList) (label_plain : '/' ∉ label.toList) :
    pathParts (apiPath family name label last) = ["2015-03-31", family, name.text, label, last.text] := by
  have nonempty : last.text.toList ≠ [] := fun none => last.nonempty (String.toList_eq_nil_iff.mp none)
  obtain ⟨y, date, year, plain⟩ : ∃ y, "/2015-03-31/".toList = '/' :: ('2' :: y ++ ['/']) ∧
      String.ofList ('2' :: y) = "2015-03-31" ∧ '/' ∉ '2' :: y :=
    ⟨"015-03-31".toList, by decide, by decide, by decide⟩
  -- the two literals as variables, so that nothing computes them
  have joined : ∀ front slash : String, front.toList = '/' :: ('2' :: y ++ ['/']) → slash.toList = ['/'] →
      (front ++ family ++ slash ++ name.text ++ slash ++ label ++ slash ++ last.text).toList =
        '/' :: ('2' :: y ++ '/' :: (family.toList ++
          '/' :: (name.text.toList ++ '/' :: (label.toList ++ '/' :: last.text.toList)))) := by
    intro front slash frontText slashText
    simp [String.toList_append, frontText, slashText]
  have text := joined "/2015-03-31/" "/" date (by decide)
  unfold apiPath
  refine (pathParts_eq (by decide) text nonempty plain family_plain name.plain label_plain last.plain).trans ?_
  simp [String.ofList_toList, year]

theorem partAfter_family (family_plain : '/' ∉ family.toList) (label_plain : '/' ∉ label.toList)
    (other : family ≠ "2015-03-31") : partAfter family (apiPath family name label last) = some name.text := by
  rw [partAfter, pathParts_apiPath name last family_plain label_plain,
    List.dropWhile_cons_of_pos (by simpa using Ne.symm other), List.dropWhile_cons_of_neg (by simp)]
  rfl

/-- A name that is the label of the path is taken for it. -/
theorem partAfter_label (family_plain : '/' ∉ family.toList) (label_plain : '/' ∉ label.toList)
    (date : "2015-03-31" ≠ label) (other : family ≠ label) :
    partAfter label (apiPath family name label last) =
      some (if name.text = label then label else last.text) := by
  rw [partAfter, pathParts_apiPath name last family_plain label_plain,
    List.dropWhile_cons_of_pos (by simpa using date), List.dropWhile_cons_of_pos (by simpa using other)]
  by_cases same : name.text = label
  · rw [List.dropWhile_cons_of_neg (by simpa using same), if_pos same]
    rfl
  · rw [List.dropWhile_cons_of_pos (by simpa using same), List.dropWhile_cons_of_neg (by simp), if_neg same]
    rfl

end Parts

theorem functionName_read (f a : PathSegment) : functionNameFromPath (aliasPath f a) = some f.text :=
  partAfter_family f a (by decide) (by decide) (by decide)

theorem layerName_read (l : PathSegment) (n : Fin (2 ^ 63)) :
    layerNameFromPath (layerPath l n) = some l.text :=
  partAfter_family l (versionSegment n) (by decide) (by decide) (by decide)

theorem aliasName_read_iff (f a : PathSegment) : aliasFromPath (aliasPath f a) = some a.text ↔
    (f.text = "aliases" → a.text = "aliases") := by
  rw [aliasFromPath, aliasPath, partAfter_label f a (by decide) (by decide) (by decide) (by decide),
    Option.some.injEq]
  split
  · next same => exact ⟨fun read _ => read.symm, fun named => (named same).symm⟩
  · next other => exact iff_of_true rfl fun same => absurd same other

theorem parseSigned_version (n : Fin (2 ^ 63)) :
    RustFmt.parseSigned 64 (versionSegment n).text = some (n.val : Int) := by
  have digits : (toString n.val).toList = Nat.toDigits 10 n.val := RustFmt.toList_toString n.val
  have unsigned : ∀ rest, (toString n.val).toList ≠ '-' :: rest := by
    intro rest minus
    have digit : '-' ∈ Nat.toDigits 10 n.val := by
      rw [← digits, minus]
      exact List.mem_cons_self
    exact absurd (Nat.isDigit_of_mem_toDigits (by decide) (by decide) digit) (by decide)
  rw [versionSegment, RustFmt.parseSigned]
  split
  · next rest minus => exact absurd minus (unsigned rest)
  · rw [RustFmt.parseUnsigned_toString, if_pos n.isLt]
    rfl

theorem layerVersion_read_iff (l : PathSegment) (n : Fin (2 ^ 63)) :
    layerVersionFromPath (layerPath l n) = some (n.val : Int) ↔ l.text ≠ "versions" := by
  rw [layerVersionFromPath, layerPath,
    partAfter_label l (versionSegment n) (by decide) (by decide) (by decide) (by decide), Option.bind_some]
  split
  · next same =>
    have none : RustFmt.parseSigned 64 "versions" = none := by decide
    rw [none]
    exact iff_of_false (by simp) (not_not.mpr same)
  · next other => exact iff_of_true (parseSigned_version n) other

section Statements

variable (removal : Removal) (f sid : PathSegment)

theorem statementId_eq : statementId (removal.call f sid) =
    if sid.text = "policy" then (strField removal.body "StatementId").getD "" else sid.text := by
  have last : (pathParts (removal.call f sid).path).getLast? = some sid.text := by
    rw [Removal.call, statementPath, pathParts_apiPath f sid (by decide) (by decide)]
    rfl
  rw [statementId, last]
  by_cases policy : sid.text = "policy"
  · rw [policy, if_pos rfl, Option.filter_some, if_neg (by decide)]
    rfl
  · rw [if_neg policy, Option.filter_some, if_pos (decide_eq_true ⟨sid.nonempty, policy⟩)]
    rfl

/-- What `RemovePermission` does, by the statement that it looks for. -/
theorem removePermission_eq : removePermission (removal.call f sid) removal.store =
    withoutStatement (removal.call f sid) removal.store f.text (statementId (removal.call f sid)) := by
  have named : functionNameFromPath (removal.call f sid).path = some f.text :=
    partAfter_family f sid (by decide) (by decide) (by decide)
  rw [removePermission, named, Option.some_or, withoutStatement]
  dsimp only
  cases removal.store.functions[f.text]? with
  | none => rfl
  | some func =>
    dsimp only
    by_cases present : func.policyStatements.any (·.sid = statementId (removal.call f sid)) = true
    · rw [if_pos present, if_neg]
      rw [List.length_filter_eq_length_iff]
      intro all
      obtain ⟨statement, member, same⟩ := List.any_eq_true.mp present
      simpa [of_decide_eq_true same] using all statement member
    · rw [if_neg present, if_pos]
      rw [List.length_filter_eq_length_iff]
      intro statement member
      rw [decide_eq_true_eq]
      intro same
      exact present (List.any_eq_true.mpr ⟨statement, member, decide_eq_true same⟩)

/-- The outcomes for two statements differ, when there is a function. -/
theorem withoutStatement_inj {call : Call} {store : LambdaStore} {name sid' sid : String}
    {func : LambdaFunction} (found : store.functions[name]? = some func)
    (same : withoutStatement call store name sid' = withoutStatement call store name sid) : sid' = sid := by
  rw [withoutStatement, withoutStatement, found] at same
  dsimp only at same
  split at same
  · split at same
    · next _ present =>
      -- the function with neither list holds the one statement and not the other
      have functions := congrArg (fun outcome => (outcome.2.functions[name]?).map (·.policyStatements)) same
      simp only [StrMap.getElem?_insert, if_true, Option.map_some, Option.some.injEq] at functions
      obtain ⟨statement, member, named⟩ := List.any_eq_true.mp present
      rw [decide_eq_true_eq] at named
      by_contra other
      have kept : statement ∈ func.policyStatements.filter (·.sid ≠ sid') :=
        List.mem_filter.mpr ⟨member, by rw [named]; exact decide_eq_true (Ne.symm other)⟩
      rw [functions] at kept
      exact absurd named (by simpa using (List.mem_filter.mp kept).2)
    · cases same
  · split at same
    · cases same
    · simp only [Prod.mk.injEq, Answer.jsonError.injEq, true_and, and_true] at same
      have texts := congrArg String.toList same
      simp only [String.toList_append] at texts
      exact String.toList_inj.mp (List.append_cancel_left
        (List.append_cancel_right (List.append_cancel_right texts)))

theorem removesStatement_iff : RemovesStatement removal f sid ↔ StatementNamed removal f sid := by
  rw [RemovesStatement, removePermission_eq, statementId_eq, StatementNamed]
  by_cases policy : sid.text = "policy"
  · rw [if_pos policy, policy]
    cases found : removal.store.functions[f.text]? with
    | none => exact iff_of_true (by rw [withoutStatement, withoutStatement, found]) fun _ => .inr rfl
    | some func =>
      constructor
      · intro same _
        have named := withoutStatement_inj found same
        cases body : strField removal.body "StatementId" with
        | none =>
          rw [body] at named
          exact absurd named (by decide)
        | some text =>
          rw [body] at named
          exact .inl (congrArg some named)
      · intro named
        rcases named rfl with body | absent
        · rw [body, Option.getD_some]
        · cases absent
  · rw [if_neg policy]
    exact iff_of_true rfl fun same => absurd same policy

end Statements

/-- For every function, alias and layer name, every version number, and every statement id with every body
and store of the request. -/
theorem path_addressing_iff (f a l sid : PathSegment) (n : Fin (2 ^ 63)) (removal : Removal) :
    NamesRead f a l n ∧ RemovesStatement removal f sid ↔
      (f.text = "aliases" → a.text = "aliases") ∧ l.text ≠ "versions" ∧ StatementNamed removal f sid := by
  rw [removesStatement_iff, ← aliasName_read_iff, ← layerVersion_read_iff l n]
  constructor
  · rintro ⟨read, named⟩
    exact ⟨read.aliasName, read.layerVersion, named⟩
  · rintro ⟨aliasName, layerVersion, named⟩
    exact ⟨⟨functionName_read f a, aliasName, layerName_read l n, layerVersion⟩, named⟩

section Keywords

def keyword (text : String) (nonempty : text ≠ "") (plain : '/' ∉ text.toList) : PathSegment :=
  ⟨text, nonempty, plain⟩

def policyRemoval : Removal := ⟨"000000000000", "us-east-1", .null, ordersStore⟩

/-- The alias `live` of a function `aliases` is read as `aliases`, a layer `versions` has no version, and
the statement `policy` is looked for under the empty name. -/
theorem keywords_misread :
    aliasFromPath (aliasPath (keyword "aliases" (by decide) (by decide)) live) = some "aliases" ∧
    layerVersionFromPath (layerPath (keyword "versions" (by decide) (by decide)) 3) = none ∧
    ¬ (NamesRead (keyword "aliases" (by decide) (by decide)) live
        (keyword "versions" (by decide) (by decide)) 3 ∧
      RemovesStatement policyRemoval orders (keyword "policy" (by decide) (by decide))) := by
  refine ⟨by decide +kernel, by decide +kernel, fun both => ?_⟩
  exact absurd both.1.aliasName (by decide +kernel)

end Keywords

end Openstack.Lambda

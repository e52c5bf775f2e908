import Openstack.Lib.ResumedListing
import Openstack.DynamoDb.StreamReading
import Openstack.DynamoDb.TableDeletion

/-!
# Listing the tables page by page

`provider.rs:751-787`. Each page is cut out of the names of the moment: ListTables looks for
`ExclusiveStartTableName` among them and goes on behind it, or begins again when it is not there. The guard
of the store makes ListTables, CreateTable and DeleteTable one step each.
-/
namespace Openstack.DynamoDb

variable {s : TableListing} {name : String}

/-- `list_table_names`, sorted. -/
def sortedNames (tables : StrMap Table) : List String := tables.keys.insertionSort (· ≤ ·)

structure TablePage where
  tableNames : List String
  lastEvaluatedTableName : Option String
  deriving DecidableEq

/-- Where the page begins. -/
def startIdx (names : List String) : Option String → Nat
  | some start => ((names.findIdx? (· = start)).map (· + 1)).getD 0
  | none => 0

def tablePage (names : List String) (exclusiveStart : Option String) (limit : Nat) : TablePage :=
  let start := startIdx names exclusiveStart
  let page := (names.drop start).take limit
  { tableNames := page
    lastEvaluatedTableName := if start + page.length < names.length then page.getLast? else none }

/-- ListTables; `None` stands for an account and region without a store. -/
def listTables (store : Option (StrMap Table)) (body : Json) : TablePage :=
  match store with
  | none => ⟨[], none⟩
  | some tables =>
    tablePage (sortedNames tables) (stringField "ExclusiveStartTableName" body)
      (((body.get? "Limit").bind Json.asU64?).getD 100)

/-- CreateTable on the store of the request, which it creates when there is none. -/
def storeAfterCreate (ctx : RequestContext) (body : Json) (tableId : String)
    (store : Option (StrMap Table)) : Option (StrMap Table) :=
  match stringField "TableName" body with
  | none => store
  | some name =>
    let tables := store.getD ∅
    if tables.contains name then some tables
    else some (tables.insert name (requestedTable ctx body tableId name))

/-- DeleteTable. -/
def storeAfterDelete (body : Json) (store : Option (StrMap Table)) : Option (StrMap Table) :=
  match stringField "TableName" body with
  | none => store
  | some name => some ((store.getD ∅).erase name)

inductive Following where
  | unstarted
  | after (lastEvaluated : String)
  | finished
  deriving DecidableEq

def Following.lastEvaluated : Following → Option String
  | .after name => some name
  | _ => none

structure TableListing where
  store : Option (StrMap Table)
  following : Following
  /-- The names on the pages so far. -/
  listed : List String
  /-- The names of the tables that have been there since the first page. -/
  stayed : List String

/-- A `Limit` of at least one, or none. -/
abbrev PageLimit := Option {n : Nat // 1 ≤ n}

inductive ListingStep where
  | createTable (ctx : RequestContext) (body : Json) (tableId : String)
  | deleteTable (body : Json)
  | listTables (limit : PageLimit)

def pageBody (exclusiveStart : Option String) (limit : PageLimit) : Json :=
  .obj ((limit.map fun n => ("Limit", Json.posInt n.1)).toList ++
    (exclusiveStart.map fun start => ("ExclusiveStartTableName", Json.str start)).toList)

namespace TableListing

def names (s : TableListing) : List String := sortedNames (s.store.getD ∅)

def initial (store : Option (StrMap Table)) : TableListing := ⟨store, .unstarted, [], []⟩

/-- What the client does with the next page. -/
def read (s : TableListing) (page : TablePage) : TableListing :=
  { s with
    following := page.lastEvaluatedTableName.elim .finished .after
    listed := s.listed ++ page.tableNames }

@[grind] def step (s : TableListing) : ListingStep → TableListing
  | .createTable ctx body tableId => { s with store := storeAfterCreate ctx body tableId s.store }
  | .deleteTable body =>
    let store := storeAfterDelete body s.store
    { s with
      store := store
      stayed := if s.following = .finished then s.stayed
        else s.stayed.filter fun name => (store.getD ∅).contains name }
  | .listTables limit =>
    match s.following with
    | .unstarted =>
      ({ s with stayed := s.names }).read (DynamoDb.listTables s.store (pageBody none limit))
    | .after start => s.read (DynamoDb.listTables s.store (pageBody (some start) limit))
    | .finished => s

/-- Once there is no next page, each table that stayed has been listed once and in name order. -/
def ListsStayed (s : TableListing) : Prop :=
  s.following = .finished →
    (s.listed.filter (· ∈ s.stayed)).Pairwise (· < ·) ∧ ∀ name ∈ s.stayed, s.listed.count name = 1

end TableListing

/-- The table that ended the last page still exists, or no table listed so far has stayed. -/
def ListingStep.Resumes (s : TableListing) : ListingStep → Prop
  | .listTables _ =>
    ∀ start ∈ s.following.lastEvaluated, start ∈ s.names ∨ ∀ name ∈ s.listed, name ∉ s.stayed
  | _ => True

instance (s : TableListing) : (a : ListingStep) → Decidable (a.Resumes s)
  | .listTables _ => inferInstanceAs (Decidable (∀ start ∈ s.following.lastEvaluated, _))
  | .createTable _ _ _ => inferInstanceAs (Decidable True)
  | .deleteTable _ => inferInstanceAs (Decidable True)

theorem sortedNames_pairwise (tables : StrMap Table) : (sortedNames tables).Pairwise (· < ·) := by
  have ordered : tables.keys.Pairwise (· < ·) :=
    Std.ExtTreeMap.ordered_keys.imp fun h => compare_lt_iff_lt.mp h
  have same : sortedNames tables = tables.keys := (ordered.imp le_of_lt).insertionSort_eq
  rw [same]
  exact ordered

theorem mem_sortedNames {tables : StrMap Table} :
    name ∈ sortedNames tables ↔ tables.contains name = true := by
  rw [sortedNames, List.mem_insertionSort, Std.ExtTreeMap.mem_keys, Std.ExtTreeMap.contains_iff_mem]

theorem sortedNames_empty : sortedNames ∅ = [] := by
  rw [List.eq_nil_iff_forall_not_mem]
  intro name member
  rw [mem_sortedNames, Std.ExtTreeMap.contains_empty] at member
  cases member

theorem tablePage_nil (start : Option String) (limit : Nat) :
    tablePage [] start limit = ⟨[], none⟩ := by
  simp [tablePage]

theorem drop_startIdx_of_mem {names : List String} (sorted : names.Pairwise (· < ·)) {start : String}
    (member : start ∈ names) :
    names.drop (startIdx names (some start)) = names.filter (start < ·) := by
  cases found : names.findIdx? (· = start) with
  | none =>
    have absent := List.findIdx?_eq_none_iff.mp found start member
    simp at absent
  | some i =>
    obtain ⟨bound, here, _⟩ := List.findIdx?_eq_some_iff_getElem.mp found
    have at_i : names[i]? = some start := by
      rw [List.getElem?_eq_getElem bound, of_decide_eq_true here]
    rw [startIdx, found, PagedListing.filter_gt_getElem sorted at_i]
    rfl

/-- A name that is not there any more sends the reader back to the beginning. -/
theorem startIdx_of_not_mem {names : List String} {start : String} (absent : start ∉ names) :
    startIdx names (some start) = 0 := by
  have missed : names.findIdx? (· = start) = none := by
    refine List.findIdx?_eq_none_iff.mpr fun name member => ?_
    rw [decide_eq_false_iff_not]
    rintro rfl
    exact absent member
  rw [startIdx, missed]
  rfl

/-- The request of the client, answered. -/
theorem listTables_pageBody (store : Option (StrMap Table)) (start : Option String)
    (limit : PageLimit) : listTables store (pageBody start limit) =
      tablePage (sortedNames (store.getD ∅)) start ((limit.map Subtype.val).getD 100) := by
  cases store with
  | none => rw [Option.getD_none, sortedNames_empty, tablePage_nil, listTables]
  | some tables => cases limit <;> cases start <;> rfl

namespace TableListing

/-- The names the client has passed. -/
def passed (s : TableListing) (name : String) : Bool :=
  match s.following with
  | .unstarted => false
  | .after start => name ≤ start
  | .finished => true

structure Inv (s : TableListing) : Prop where
  kept : s.following ≠ .finished → ∀ name ∈ s.stayed, name ∈ s.names
  sorted : s.stayed.Pairwise (· < ·)
  fresh : s.following = .unstarted → s.listed = []
  told : s.listed.filter (· ∈ s.stayed) = s.stayed.filter s.passed

theorem Inv.listsStayed (inv : s.Inv) : s.ListsStayed := by
  intro finished
  have told : s.listed.filter (· ∈ s.stayed) = s.stayed := by
    refine inv.told.trans (List.filter_eq_self.mpr fun name _ => ?_)
    rw [passed, finished]
  refine ⟨by rw [told]; exact inv.sorted, fun name member => ?_⟩
  have once : s.stayed.count name = 1 := List.count_eq_one_of_mem inv.sorted.nodup member
  rw [← told, List.count_filter (by simpa using member)] at once
  exact once

theorem inv_initial (store : Option (StrMap Table)) : (initial store).Inv where
  kept _ := nofun
  sorted := List.Pairwise.nil
  fresh _ := rfl
  told := rfl

/-- Reading the page that begins the part `p` of the names. -/
theorem inv_read {start : Option String} {limit : Nat} {p : String → Bool}
    (kept : ∀ name ∈ s.stayed, name ∈ s.names) (sorted : s.stayed.Pairwise (· < ·))
    (upward : ∀ x y, x < y → p x = true → p y = true)
    (sofar : s.listed.filter (· ∈ s.stayed) = s.stayed.filter (fun x => !p x))
    (part : s.names.drop (startIdx s.names start) = s.names.filter p) (positive : 0 < limit) :
    (s.read (tablePage s.names start limit)).Inv := by
  have ordered : s.names.Pairwise (· < ·) := sortedNames_pairwise _
  have length : s.names.length - startIdx s.names start = (s.names.filter p).length := by
    rw [← part, List.length_drop]
  by_cases more : limit < (s.names.filter p).length
  · obtain ⟨last, isLast, told⟩ := PagedListing.earlier_page (n := limit) ordered sorted kept upward
      sofar positive more.le
    have page : tablePage s.names start limit =
        ⟨(s.names.filter p).take limit, some last⟩ := by
      simp only [tablePage, part]
      rw [if_pos (by rw [List.length_take]; omega), isLast]
    rw [page]
    exact ⟨fun _ => kept, sorted, nofun, told⟩
  · have page : tablePage s.names start limit = ⟨s.names.filter p, none⟩ := by
      simp only [tablePage, part]
      rw [List.take_of_length_le (by omega), if_neg (by omega)]
    rw [page]
    refine ⟨fun open_ => absurd rfl open_, sorted, nofun, ?_⟩
    have told := PagedListing.last_page ordered sorted kept upward sofar
    exact told.trans (List.filter_eq_self.mpr fun _ _ => rfl).symm

theorem positive (limit : PageLimit) : 0 < (limit.map Subtype.val).getD 100 := by
  cases limit with
  | none => exact Nat.succ_pos 99
  | some n => exact n.2

theorem mem_names :
    name ∈ s.names ↔ (s.store.getD ∅).contains name = true :=
  mem_sortedNames

/-- CreateTable takes no name away. -/
theorem mem_names_create (ctx : RequestContext) (body : Json) (tableId : String) (member : name ∈ s.names) :
    name ∈ (s.step (.createTable ctx body tableId)).names := by
  rw [mem_names] at member ⊢
  simp only [step, storeAfterCreate]
  split
  · exact member
  · split
    · exact member
    · rw [Option.getD_some, Std.ExtTreeMap.contains_insert, member, Bool.or_true]

theorem inv_createTable (inv : s.Inv) (ctx : RequestContext) (body : Json)
    (tableId : String) : (s.step (.createTable ctx body tableId)).Inv where
  kept unfinished name member := mem_names_create ctx body tableId (inv.kept unfinished name member)
  sorted := inv.sorted
  fresh := inv.fresh
  told := inv.told

theorem filter_mem_filter (listed stayed : List String) (q : String → Bool) :
    listed.filter (· ∈ stayed.filter q) = (listed.filter (· ∈ stayed)).filter q := by
  rw [List.filter_filter]
  refine List.filter_congr fun name _ => ?_
  simp only [List.mem_filter, Bool.decide_and, Bool.decide_eq_true, Bool.and_comm]

theorem inv_deleteTable (inv : s.Inv) (body : Json) :
    (s.step (.deleteTable body)).Inv := by
  by_cases finished : s.following = .finished
  · have same : s.step (.deleteTable body) = { s with store := storeAfterDelete body s.store } := by
      rw [step, if_pos finished]
    rw [same]
    exact ⟨fun unfinished => absurd finished unfinished, inv.sorted, inv.fresh, inv.told⟩
  · have same : s.step (.deleteTable body) =
        { s with
          store := storeAfterDelete body s.store
          stayed := s.stayed.filter fun name =>
            ((storeAfterDelete body s.store).getD ∅).contains name } := by
      rw [step, if_neg finished]
    rw [same]
    refine ⟨fun _ name member => mem_names.mpr (List.mem_filter.mp member).2, inv.sorted.filter _,
      inv.fresh, ?_⟩
    -- the names that go leave both sides
    calc s.listed.filter (· ∈ s.stayed.filter _) = (s.listed.filter (· ∈ s.stayed)).filter _ :=
          filter_mem_filter s.listed s.stayed _
      _ = (s.stayed.filter s.passed).filter _ := by rw [inv.told]
      _ = (s.stayed.filter _).filter s.passed := List.filter_comm _ _ _

theorem inv_listTables (inv : s.Inv) (limit : PageLimit)
    (resumes : (ListingStep.listTables limit).Resumes s) : (s.step (.listTables limit)).Inv := by
  have all : s.names.drop 0 = s.names.filter fun _ => true :=
    (List.filter_eq_self.mpr fun _ _ => rfl).symm
  cases following : s.following with
  | finished =>
    simp only [step, following]
    exact inv
  | unstarted =>
    simp only [step, following, listTables_pageBody]
    refine inv_read (s := { s with stayed := s.names }) (fun _ member => member)
      (sortedNames_pairwise _) (p := fun _ => true) (fun _ _ _ taken => taken) ?_ all (positive limit)
    rw [inv.fresh following]
    exact (List.filter_eq_nil_iff.mpr fun _ _ => by simp).symm
  | after start =>
    have open_ : s.following ≠ .finished := by
      rw [following]
      nofun
    simp only [step, following, listTables_pageBody]
    have told := inv.told
    by_cases there : start ∈ s.names
    · refine inv_read (inv.kept open_) inv.sorted (p := (start < ·)) ?_ ?_
        (drop_startIdx_of_mem (sortedNames_pairwise _) there) (positive limit)
      · intro x y less taken
        rw [decide_eq_true_eq] at taken ⊢
        exact taken.trans less
      · refine told.trans (List.filter_congr fun name _ => ?_)
        rw [passed, following, ← decide_not, decide_eq_decide, not_lt]
    · -- it begins again, and nothing that has stayed was listed
      have none_listed := (resumes start (by rw [following]; rfl)).resolve_left there
      refine inv_read (inv.kept open_) inv.sorted (p := fun _ => true) (fun _ _ _ taken => taken) ?_ ?_
        (positive limit)
      · rw [List.filter_eq_nil_iff.mpr fun name member => by simpa using none_listed name member]
        exact (List.filter_eq_nil_iff.mpr fun _ _ => by simp).symm
      · rw [startIdx_of_not_mem there]
        exact all

theorem inv_step (inv : s.Inv) (a : ListingStep) (resumes : a.Resumes s) :
    (s.step a).Inv := by
  cases a with
  | createTable ctx body tableId => exact inv_createTable inv ctx body tableId
  | deleteTable body => exact inv_deleteTable inv body
  | listTables limit => exact inv_listTables inv limit resumes

end TableListing

/-- A client that follows `LastEvaluatedTableName` lists each table that stays once and in name order, when
the table that ended a page is still there for the next one or nothing that stayed has been listed. -/
theorem tables_listed_once (store : Option (StrMap Table)) (steps : List ListingStep)
    (resumes : Run.AllSteps TableListing.step (fun s a => a.Resumes s) (.initial store) steps) :
    Run.AllStates TableListing.step TableListing.ListsStayed (.initial store) steps :=
  Run.AllStates.imp (P := TableListing.Inv) (fun _ inv => inv.listsStayed) _ _
    (Run.allStates_of_allSteps (C := fun s a => a.Resumes s)
      (fun _ a inv resumes => TableListing.inv_step inv a resumes) _ _
      (TableListing.inv_initial store) resumes)

/-- Tables of the given names. -/
def someTables (names : List String) : StrMap Table :=
  names.foldl (fun tables name => tables.insert name (streamedTable name)) ∅

def named (name : String) : Json := .obj [("TableName", .str name)]

def twoAPage : ListingStep := .listTables (some ⟨2, by decide⟩)

/-- Tables come and go between the pages, and the one that ended the first page is still there. -/
theorem orders_listed_once : Run.AllStates TableListing.step TableListing.ListsStayed
    (.initial (some (someTables ["a", "orders", "z"])))
    [twoAPage, .deleteTable (named "a"), .createTable exampleContext (named "b") "id", twoAPage] :=
  tables_listed_once _ _ (by decide +kernel)

/-- The table that ended the first page is deleted, and the second page begins with "a" again. -/
theorem deleted_cursor_lists_again : ¬ Run.AllStates TableListing.step TableListing.ListsStayed
    (.initial (some (someTables ["a", "b", "c"]))) [twoAPage, .deleteTable (named "b"), twoAPage] := by
  rintro ⟨_, _, _, final⟩
  have once := (final (by decide +kernel)).2 "a" (by decide +kernel)
  exact absurd once (by decide +kernel)

end Openstack.DynamoDb

import Openstack.DynamoDb.RowStore

/-!
# Table streams

`append_stream_record` (`store.rs:516-539`) over whole runs. A table with its stream enabled
is related to the log of all its changes and to all the records ever appended: the buffer
retains the last thousand of them, each record describes its change, and replaying the
records from nothing gives the stored rows.
-/
namespace Openstack.DynamoDb

open ChangeLog (Change)

/-- INSERT and MODIFY store the new image under its key; REMOVE deletes the key. -/
def replayRecord (keyOf : Item → Option (String × String))
    (m : String × String → Option Item) (r : StreamRecord) : String × String → Option Item :=
  if r.eventName = "INSERT" ∨ r.eventName = "MODIFY" then
    match r.newImage.bind fun image => (keyOf image).map fun k => (k, image) with
    | none => m
    | some (k, image) => Function.update m k (some image)
  else if r.eventName = "REMOVE" then
    match keyOf r.keys with
    | none => m
    | some k => Function.update m k none
  else m

def replayStream (keyOf : Item → Option (String × String)) (records : List StreamRecord) :
    String × String → Option Item :=
  records.foldl (replayRecord keyOf) fun _ => none

/-- The changes of the effective calls of a run. -/
@[grind] def Table.changes : Table → List ItemOp → List RowChange
  | _, [] => []
  | t, op :: rest => (t.change op).toList ++ (t.applyItem op).changes rest

/-- A table with its stream enabled beside its history: all its changes and all the records
appended for them. -/
structure Table.Logged (t : Table) (log : List RowChange) (appended : List StreamRecord) :
    Prop where
  enabled : t.streamSpecification.streamEnabled = true
  rows : t.rows = ChangeLog.replay log
  replays : replayStream t.extractKeyFromItem appended = ChangeLog.replay log
  records : t.streamRecords = ChangeLog.retained 1000 appended
  sequence : t.streamSequence = appended.length
  length : appended.length = log.length
  described : ∀ i c (r : StreamRecord), log[i]? = some c → appended[i]? = some r → r.Describes t (i + 1) c

theorem StreamRecord.Describes.congr {t t' : Table} {r : StreamRecord} {n : Nat} {c : RowChange}
    (schema : t'.keySchema = t.keySchema) (describes : r.Describes t n c) :
    r.Describes t' n c where
  sequenceNumber := describes.sequenceNumber
  event := describes.event
  keys := by rw [Table.extractKeyFromItem, Table.extractKey_congr schema]; exact describes.keys
  newImage := describes.newImage
  oldImage := describes.oldImage

/-- Replaying the record of a change makes the change. -/
theorem replayRecord_describes {t : Table} {r : StreamRecord} {n : Nat} {c : RowChange}
    (describes : r.Describes t n c)
    (keyed : ∀ item, c.after = some item → t.extractKeyFromItem item = some c.key)
    (m : String × String → Option Item) :
    replayRecord t.extractKeyFromItem m r = c.apply m := by
  unfold replayRecord Change.apply
  rw [describes.event, describes.newImage, describes.keys]
  cases after : c.after with
  | none => simp [changeEvent, after]
  | some item =>
    cases before : c.before with
    | none => simp [changeEvent, after, before, keyed item after]
    | some old => simp [changeEvent, after, before, keyed item after]

/-- One effective call appends the record of its change. -/
theorem Table.Logged.step {t t' : Table} {log : List RowChange} {appended : List StreamRecord}
    {c : RowChange} (logged : t.Logged log appended) (changed : t.Changed c t') :
    ∃ r, t'.Logged (log ++ [c]) (appended ++ [r]) := by
  obtain ⟨sequence, r, records, describes⟩ := changed.stream logged.enabled
  have sameKeys : t'.extractKeyFromItem = t.extractKeyFromItem := by
    funext item
    exact Table.extractKey_congr changed.keySchema avToKeyStr item
  refine ⟨r, ?_⟩
  constructor
  case enabled => rw [changed.streamSpecification, logged.enabled]
  case rows => rw [changed.rows, logged.rows, ChangeLog.replay_snoc]
  case replays =>
    have before := logged.replays
    unfold replayStream at before ⊢
    rw [sameKeys, List.foldl_append, before, ChangeLog.replay_snoc]
    exact replayRecord_describes describes changed.keyed _
  case records => rw [records, logged.records, ChangeLog.push_retained]
  case sequence => rw [sequence, logged.sequence, List.length_append, List.length_singleton]
  case length => simp [logged.length]
  case described =>
    intro i d s foundChange foundRecord
    have same := logged.length
    rcases Nat.lt_trichotomy i log.length with earlier | last | later
    · rw [List.getElem?_append_left earlier] at foundChange
      rw [List.getElem?_append_left (by omega)] at foundRecord
      exact (logged.described i d s foundChange foundRecord).congr changed.keySchema
    · subst last
      rw [← same] at foundRecord
      simp only [List.getElem?_concat_length, Option.some.injEq] at foundChange foundRecord
      subst foundChange foundRecord
      rw [logged.sequence, same] at describes
      exact describes.congr changed.keySchema
    · rw [List.getElem?_eq_none (by simp; omega)] at foundChange
      cases foundChange

/-- A whole run appends the records of its changes. -/
theorem Table.Logged.run {t : Table} {log : List RowChange} {appended : List StreamRecord}
    (logged : t.Logged log appended) (ops : List ItemOp) :
    ∃ later, (ops.foldl Table.applyItem t).Logged (log ++ t.changes ops) (appended ++ later) := by
  induction ops generalizing t log appended with
  | nil => exact ⟨[], by simpa [Table.changes] using logged⟩
  | cons op rest ih =>
    cases effective : t.change op with
    | none =>
      simp only [List.foldl_cons, Table.changes, effective, Option.toList_none, List.nil_append,
        Table.applyItem_unchanged effective]
      exact ih logged
    | some c =>
      obtain ⟨r, next⟩ := logged.step (Table.applyItem_changed effective)
      obtain ⟨later, final⟩ := ih next
      refine ⟨r :: later, ?_⟩
      simpa [Table.changes, effective] using final

theorem Table.new_logged (tableId : String) (now : Int) (name accountId region : String)
    (keySchema : List KeySchemaElement) (defs : List AttributeDefinition)
    (gsis lsis : List SecondaryIndex) (spec : StreamSpecification)
    (enabled : spec.streamEnabled = true) :
    (Table.new tableId now name accountId region keySchema defs gsis lsis spec).Logged [] [] where
  enabled := enabled
  rows := by funext k; simp [Table.rows, Table.new, row]
  replays := rfl
  records := rfl
  sequence := rfl
  length := rfl
  described i c r found := by simp at found

theorem Table.changes_append (t : Table) (first second : List ItemOp) :
    t.changes (first ++ second) = t.changes first ++ (first.foldl Table.applyItem t).changes second := by
  induction first generalizing t with
  | nil => rfl
  | cons op rest ih => simp [Table.changes, ih]

theorem Table.change_before {t : Table} {op : ItemOp} {c : RowChange}
    (effective : t.change op = some c) : c.before = t.rows c.key :=
  (Table.applyItem_changed effective).before

/-- What the stream says about a run of at most a thousand effective calls: replaying it
gives the rows, and the record of each effective call carries the next number, the event and
the row that the table held before the call. -/
structure Table.StreamTells (t : Table) (ops : List ItemOp) : Prop where
  replays : ∀ h s, replayStream (ops.foldl Table.applyItem t).extractKeyFromItem
    (ops.foldl Table.applyItem t).streamRecords (h, s) =
      row (ops.foldl Table.applyItem t).items h s
  length : (ops.foldl Table.applyItem t).streamRecords.length = (t.changes ops).length
  numbered : ∀ i r, (ops.foldl Table.applyItem t).streamRecords[i]? = some r →
    r.sequenceNumber = RustFmt.dec 20 (i + 1)
  each : ∀ earlier op later, ops = earlier ++ op :: later →
    ∀ c, (earlier.foldl Table.applyItem t).change op = some c →
      ∃ r, (ops.foldl Table.applyItem t).streamRecords[(t.changes earlier).length]? = some r ∧
        r.newImage = c.after ∧
        ((r.eventName = "INSERT" ∧ (earlier.foldl Table.applyItem t).rows c.key = none) ∨
          ((r.eventName = "MODIFY" ∨ r.eventName = "REMOVE") ∧
            ∃ old, (earlier.foldl Table.applyItem t).rows c.key = some old ∧
              r.oldImage = some old))

theorem Table.Logged.tells {t : Table} (fresh : t.Logged [] []) {ops : List ItemOp}
    (few : (t.changes ops).length ≤ 1000) : t.StreamTells ops := by
  obtain ⟨appended, final⟩ := fresh.run ops
  simp only [List.nil_append] at final
  have short : appended.length ≤ 1000 := by rw [final.length]; exact few
  have records := final.records
  rw [ChangeLog.retained_of_le short] at records
  have describing : ∀ i (r : StreamRecord), appended[i]? = some r →
      ∃ c, (t.changes ops)[i]? = some c ∧ r.Describes (ops.foldl Table.applyItem t) (i + 1) c := by
    intro i r found
    have inside : i < (t.changes ops).length := by
      rw [← final.length]
      exact (List.getElem?_eq_some_iff.mp found).1
    exact ⟨_, List.getElem?_eq_getElem inside,
      final.described i _ r (List.getElem?_eq_getElem inside) found⟩
  constructor
  case replays =>
    intro h s
    rw [records, final.replays, ← final.rows]
    rfl
  case length => rw [records, final.length]
  case numbered =>
    intro i r found
    rw [records] at found
    obtain ⟨c, _, describes⟩ := describing i r found
    exact describes.sequenceNumber
  case each =>
    intro earlier op later split c effective
    have log : t.changes ops = t.changes earlier ++ c ::
        ((earlier ++ [op]).foldl Table.applyItem t).changes later := by
      rw [split, Table.changes_append]
      simp [Table.changes, effective]
    have atCall : (t.changes ops)[(t.changes earlier).length]? = some c := by simp [log]
    have inside : (t.changes earlier).length < appended.length := by
      rw [final.length, log]
      simp
    obtain ⟨d, found, describes⟩ := describing _ _ (List.getElem?_eq_getElem inside)
    rw [atCall, Option.some.injEq] at found
    subst found
    refine ⟨_, by rw [records]; exact List.getElem?_eq_getElem inside, describes.newImage, ?_⟩
    have before := Table.change_before effective
    have held := (Table.applyItem_changed effective).held
    rw [describes.event, describes.oldImage, ← before]
    cases after : c.after with
    | none =>
      obtain ⟨old, old_eq⟩ := Option.ne_none_iff_exists'.mp (held after)
      simp [changeEvent, after, old_eq]
    | some item =>
      cases old_eq : c.before with
      | none => simp [changeEvent, after, old_eq]
      | some old => simp [changeEvent, after, old_eq]

/-- A table created with its stream enabled: the stream of every run with at most a
thousand effective calls tells the run exactly. -/
theorem stream_tells_run (tableId : String) (now : Int) (name accountId region : String)
    (keySchema : List KeySchemaElement) (defs : List AttributeDefinition)
    (gsis lsis : List SecondaryIndex) (spec : StreamSpecification)
    (enabled : spec.streamEnabled = true) (ops : List ItemOp)
    (few : ((Table.new tableId now name accountId region keySchema defs gsis lsis spec).changes
      ops).length ≤ 1000) :
    (Table.new tableId now name accountId region keySchema defs gsis lsis spec).StreamTells ops :=
  (Table.new_logged tableId now name accountId region keySchema defs gsis lsis spec enabled).tells
    few

def streamedItem : Item := (∅ : Item).insert "pk" (.s "1")

/-- A put, a put over it, a delete of another key and a delete: three effective calls. -/
def streamedOps : List ItemOp :=
  [.putItem 0 streamedItem, .putItem 0 (streamedItem.insert "v" (.n "2")),
    .deleteItem 0 ((∅ : Item).insert "pk" (.s "2")), .deleteItem 0 streamedItem]

theorem stream_tells_short_run :
    (Table.new "id" 0 "t" "000000000000" "us-east-1" [⟨"pk", .hash⟩] [] [] []
        ⟨true, none⟩).StreamTells streamedOps :=
  stream_tells_run "id" 0 "t" "000000000000" "us-east-1" [⟨"pk", .hash⟩] [] [] [] ⟨true, none⟩ rfl
    streamedOps (by decide +kernel)

end Openstack.DynamoDb

import Openstack.DynamoDb.Streams
import Openstack.DynamoDb.TransactWrite

/-!
# Reading a stream

GetShardIterator and GetRecords (`provider.rs:1797-1943`) with the iterator text of
`provider.rs:610-622`, and a reader that follows the iterators while the tables of its account
and region are written. The history of the stream stands beside the reader: the records
appended so far, those returned, and for every position the reader has passed a mark that
says whether its record was returned or had left the buffer by then.
-/
namespace Openstack.DynamoDb

open ChangeLog (marked retained)

def iteratorSep : List Char := [':', ':']

def makeShardIterator (streamArn : String) (seq : Nat) : String :=
  streamArn ++ "::shard-0000000001::" ++ RustFmt.dec 20 seq

/-- The three parts of `splitn(3, "::")`; the middle one is not looked at. -/
def parseShardIterator (it : String) : Option (String × Nat) := do
  let arn ← RustStr.before iteratorSep it.toList
  let rest ← RustStr.after iteratorSep it.toList
  let seq ← RustStr.after iteratorSep rest
  some (String.ofList arn, (RustFmt.parseTrimmed 64 (String.ofList seq)).getD 0)

def streamNotFound : Response := resourceNotFound "Stream not found"

/-- `tables.iter().find(|t| t.stream_arn.as_deref() == Some(&stream_arn))`. -/
def findStream (tables : StrMap Table) (streamArn : String) : Option Table :=
  tables.values.find? fun t => t.streamArn = some streamArn

/-- The sequence number an iterator of the requested type starts at. The successor of the largest number
wraps, as in the release profile. -/
def startSequence (t : Table) (iteratorType : String) (sequenceNumber : Option String) : Nat :=
  if iteratorType = "TRIM_HORIZON" then 0
  else if iteratorType = "LATEST" then t.streamSequence
  else if iteratorType = "AT_SEQUENCE_NUMBER" then
    (sequenceNumber.bind (RustFmt.parseTrimmed 64)).getD 0
  else if iteratorType = "AFTER_SEQUENCE_NUMBER" then
    ((sequenceNumber.bind (RustFmt.parseTrimmed 64)).map fun n => (n + 1) % 2 ^ 64).getD 0
  else 0

def getShardIterator (tables : StrMap Table) (body : Json) : Except Response String :=
  match stringField "StreamArn" body with
  | none => .error (validationException "StreamArn is required")
  | some streamArn =>
    match findStream tables streamArn with
    | none => .error streamNotFound
    | some t =>
      .ok (makeShardIterator streamArn (startSequence t
        ((stringField "ShardIteratorType" body).getD "TRIM_HORIZON")
        (stringField "SequenceNumber" body)))

/-- The records of one page. -/
def recordsFrom (t : Table) (startSeq limit : Nat) : List StreamRecord :=
  (t.streamRecords.filter fun r =>
    decide (startSeq ≤ (RustFmt.parseTrimmed 64 r.sequenceNumber).getD 0)).take limit

/-- Where the next page starts. -/
def nextSequence (records : List StreamRecord) (startSeq : Nat) : Nat :=
  ((records.getLast?.bind fun r => RustFmt.parseTrimmed 64 r.sequenceNumber).map
    fun n => (n + 1) % 2 ^ 64).getD startSeq

def getRecords (tables : StrMap Table) (body : Json) :
    Except Response (List StreamRecord × String) :=
  match stringField "ShardIterator" body with
  | none => .error (validationException "ShardIterator is required")
  | some shardIterator =>
    let limit := ((body.get? "Limit").bind Json.asU64?).getD 1000
    match parseShardIterator shardIterator with
    | none => .error (validationException "Invalid ShardIterator")
    | some (streamArn, startSeq) =>
      match findStream tables streamArn with
      | none => .error streamNotFound
      | some t =>
        let records := recordsFrom t startSeq limit
        .ok (records, makeShardIterator streamArn (nextSequence records startSeq))

/-! ## A reader beside the writers -/

structure StreamReader where
  tables : StrMap Table
  iterator : Option String
  appended : List StreamRecord
  returned : List StreamRecord
  marks : List Bool

inductive StreamStep where
  | write (table : String) (op : RowOp)
  | getShardIterator
  | getRecords (limit : Option Nat)

def trimHorizonBody (streamArn : String) : Json :=
  .obj [("ShardIteratorType", .str "TRIM_HORIZON"), ("StreamArn", .str streamArn)]

def recordsBody (it : String) (limit : Option Nat) : Json :=
  .obj ((limit.map fun n => ("Limit", Json.posInt n)).toList ++ [("ShardIterator", .str it)])

/-- The record a write appended, read off the back of the buffer. -/
def newRecords (t t' : Table) : List StreamRecord :=
  if t.streamSequence < t'.streamSequence then t'.streamRecords.getLast?.toList else []

/-- How many of the appended records have left the buffer of the table. -/
def StreamReader.evicted (name : String) (s : StreamReader) : Nat :=
  s.appended.length - ((s.tables[name]?.map fun t => t.streamRecords.length).getD 0)

/-- The reader of the stream `streamArn` of the table `name`. It asks for an iterator once,
and a refused call leaves it where it was. -/
def StreamReader.step (D : DecimalOps) (name streamArn : String) (s : StreamReader) :
    StreamStep → StreamReader
  | .write table op =>
    match s.tables[table]? with
    | none => s
    | some t =>
      { s with
        tables := s.tables.insert table (t.applyRow D op)
        appended := if table = name then s.appended ++ newRecords t (t.applyRow D op)
          else s.appended }
  | .getShardIterator =>
    match s.iterator with
    | some _ => s
    | none =>
      match DynamoDb.getShardIterator s.tables (trimHorizonBody streamArn) with
      | .error _ => s
      | .ok it => { s with iterator := some it }
  | .getRecords limit =>
    match s.iterator with
    | none => s
    | some it =>
      match DynamoDb.getRecords s.tables (recordsBody it limit) with
      | .error _ => s
      | .ok (page, next) =>
        { s with
          iterator := some next
          returned := s.returned ++ page
          marks := s.marks ++ List.replicate (s.evicted name - s.marks.length) false ++
            List.replicate page.length true }

/-- The records returned are the records appended, in order, up to the position the reader
has reached and without those that had left the buffer when it came to them. A read that is
not full has come to the end. -/
structure StreamReader.ExactlyOnce (D : DecimalOps) (name streamArn : String) (s : StreamReader) :
    Prop where
  returned : s.returned = marked s.appended s.marks
  covered : s.marks.length ≤ s.appended.length
  started : (s.step D name streamArn .getShardIterator).iterator ≠ none
  caughtUp : ∀ limit, s.iterator ≠ none → 1 ≤ limit.getD 1000 →
    (s.step D name streamArn (.getRecords limit)).returned.length <
      s.returned.length + limit.getD 1000 →
    (s.step D name streamArn (.getRecords limit)).marks.length = s.appended.length

/-- The tables as CreateTable left them: each under its own name. -/
def FreshTables (accountId region : String) (tables : StrMap Table) : Prop :=
  ∀ name t, tables[name]? = some t → ∃ tableId now keySchema defs gsis lsis spec,
    t = Table.new tableId now name accountId region keySchema defs gsis lsis spec

/-- A reader that has not started, before the first write. -/
def StreamReader.initial (tables : StrMap Table) : StreamReader := ⟨tables, none, [], [], []⟩

/-- Limits are at least one, and the sequence numbers stay below `2 ^ 64`. -/
def StreamStep.Regular (s : StreamReader) : StreamStep → Prop
  | .write _ _ => s.appended.length + 2 < 2 ^ 64
  | .getShardIterator => True
  | .getRecords limit => 1 ≤ limit.getD 1000

instance (s : StreamReader) : (a : StreamStep) → Decidable (a.Regular s)
  | .write _ _ => inferInstanceAs (Decidable (s.appended.length + 2 < 2 ^ 64))
  | .getShardIterator => isTrue trivial
  | .getRecords limit => inferInstanceAs (Decidable (1 ≤ limit.getD 1000))

/-! ## Iterator texts -/

/-- The first `::` after a text that neither contains one nor ends in a colon. -/
theorem before_iteratorSep {x : List Char} (plain : ¬ iteratorSep <:+: x)
    (ends : x.getLast? ≠ some ':') (rest : List Char) :
    RustStr.before iteratorSep (x ++ (iteratorSep ++ rest)) = some x := by
  induction x with
  | nil => simp [RustStr.before, iteratorSep]
  | cons c x ih =>
    have elsewhere : iteratorSep.isPrefixOf (c :: (x ++ (iteratorSep ++ rest))) = false := by
      rw [Bool.eq_false_iff]
      intro here
      rw [List.isPrefixOf_iff_prefix] at here
      cases x with
      | nil =>
        obtain ⟨rfl, _⟩ := List.cons_prefix_cons.mp here
        exact ends rfl
      | cons d x =>
        obtain ⟨rfl, next⟩ := List.cons_prefix_cons.mp here
        obtain ⟨rfl, _⟩ := List.cons_prefix_cons.mp next
        exact plain ⟨[], x, rfl⟩
    have plain' : ¬ iteratorSep <:+: x := fun inside => plain (List.infix_cons inside)
    have ends' : x.getLast? ≠ some ':' := by
      intro last
      cases x with
      | nil => simp at last
      | cons d x => exact ends (by simpa using last)
    rw [List.cons_append, RustStr.before, elsewhere]
    simp [ih plain' ends']

theorem after_iteratorSep {x : List Char} (plain : ¬ iteratorSep <:+: x)
    (ends : x.getLast? ≠ some ':') (rest : List Char) :
    RustStr.after iteratorSep (x ++ (iteratorSep ++ rest)) = some rest := by
  rw [RustStr.after, before_iteratorSep plain ends, Option.map_some, ← List.drop_drop,
    List.drop_left]
  rfl

def shardId : List Char := "shard-0000000001".toList

theorem shardId_plain : ¬ iteratorSep <:+: shardId ∧ shardId.getLast? ≠ some ':' := by
  decide

/-- An iterator of a stream whose ARN has no `::` reads back. -/
theorem parseShardIterator_make {streamArn : String} (plain : ¬ iteratorSep <:+: streamArn.toList)
    (ends : streamArn.toList.getLast? ≠ some ':') {seq : Nat} (fits : seq < 2 ^ 64) :
    parseShardIterator (makeShardIterator streamArn seq) = some (streamArn, seq) := by
  have text : (makeShardIterator streamArn seq).toList = streamArn.toList ++
      (iteratorSep ++ (shardId ++ (iteratorSep ++ (RustFmt.dec 20 seq).toList))) := by
    have separators : "::shard-0000000001::".toList = iteratorSep ++ (shardId ++ iteratorSep) := by
      decide
    simp [makeShardIterator, String.toList_append, separators]
  have shard : RustStr.after iteratorSep (shardId ++ (iteratorSep ++ (RustFmt.dec 20 seq).toList)) =
      some (RustFmt.dec 20 seq).toList :=
    after_iteratorSep shardId_plain.1 shardId_plain.2 _
  have number : (RustFmt.parseTrimmed 64 (RustFmt.dec 20 seq)).getD 0 = seq := by
    rcases Nat.eq_zero_or_pos seq with rfl | positive
    · rw [RustFmt.parseTrimmed_dec_zero]
      rfl
    · rw [RustFmt.parseTrimmed_dec 20 positive fits]
      rfl
  rw [parseShardIterator, text, before_iteratorSep plain ends, after_iteratorSep plain ends]
  simp [shard, String.ofList_toList, number]

/-- The ARN of the stream of a table created at a time. -/
def streamArnOf (accountId region name : String) (now : Int) : String :=
  "arn:aws:dynamodb:" ++ region ++ ":" ++ accountId ++ ":table/" ++ name ++ "/stream/" ++ toString now

/-- A printed integer is its digits behind an optional sign. -/
theorem toList_toString_int_cases (now : Int) : ∃ n, (toString now).toList = Nat.toDigits 10 n ∨
    (toString now).toList = '-' :: Nat.toDigits 10 n := by
  cases now with
  | ofNat n => exact ⟨n, Or.inl Nat.toList_repr⟩
  | negSucc n =>
    refine ⟨n + 1, Or.inr ?_⟩
    rw [← Nat.toList_repr]
    simp [toString, Int.repr]

theorem toList_toString_int_ne_nil (now : Int) : (toString now).toList ≠ [] := by
  obtain ⟨n, digits | signed⟩ := toList_toString_int_cases now
  · rw [digits]
    exact Nat.toDigits_ne_nil
  · rw [signed]
    exact List.cons_ne_nil _ _

theorem toList_toString_int (now : Int) (c : Char) (member : c ∈ (toString now).toList) :
    c = '-' ∨ c.isDigit = true := by
  obtain ⟨n, digits | signed⟩ := toList_toString_int_cases now
  · rw [digits] at member
    exact Or.inr (Nat.isDigit_of_mem_toDigits (by decide) (by decide) member)
  · rw [signed, List.mem_cons] at member
    rcases member with rfl | digit
    · exact Or.inl rfl
    · exact Or.inr (Nat.isDigit_of_mem_toDigits (by decide) (by decide) digit)

/-- The text up to the last slash, when none follows it. -/
theorem rdropWhile_slash {tail : List Char} (noSlash : '/' ∉ tail) (front : List Char) :
    (front ++ ('/' :: tail)).rdropWhile (· ≠ '/') = front ++ ['/'] := by
  have passed : ∀ c ∈ tail.reverse, decide (c ≠ '/') = true := by
    intro c member
    simp only [ne_eq, decide_eq_true_eq]
    rintro rfl
    exact noSlash (List.mem_reverse.mp member)
  have text : (front ++ ('/' :: tail)).reverse = tail.reverse ++ ('/' :: front.reverse) := by simp
  rw [List.rdropWhile, text, List.dropWhile_append_of_pos passed]
  simp

theorem slash_notMem_toString (now : Int) : '/' ∉ (toString now).toList := by
  intro member
  rcases toList_toString_int now '/' member with minus | digit
  · exact absurd minus (by decide)
  · exact absurd digit (by decide)

/-- The creation time has no slash, so the table name can be read off a stream ARN. -/
theorem streamArnOf_name {accountId region name name' : String} {now now' : Int}
    (same : streamArnOf accountId region name now = streamArnOf accountId region name' now') :
    name = name' := by
  obtain ⟨front, parts⟩ : ∃ front : String, ∀ n (at_ : Int), streamArnOf accountId region n at_ =
      front ++ n ++ "/stream/" ++ toString at_ := ⟨_, fun _ _ => rfl⟩
  have stream : "/stream/".toList = "/stream".toList ++ ['/'] := by decide
  have text : ∀ n (at_ : Int), (front ++ n ++ "/stream/" ++ toString at_).toList =
      (front.toList ++ n.toList ++ "/stream".toList) ++ ('/' :: (toString at_).toList) := by
    intro n at_
    simp [String.toList_append, stream]
  have texts := congrArg String.toList same
  rw [parts, parts, text, text] at texts
  have fronts := congrArg (List.rdropWhile (· ≠ '/')) texts
  rw [rdropWhile_slash (slash_notMem_toString now), rdropWhile_slash (slash_notMem_toString now')]
    at fronts
  have names := List.append_cancel_right (List.append_cancel_right fronts)
  exact String.toList_inj.mp (List.append_cancel_left names)

theorem streamArnOf_ends (accountId region name : String) (now : Int) :
    (streamArnOf accountId region name now).toList.getLast? ≠ some ':' := by
  obtain ⟨front, parts⟩ : ∃ front : String, streamArnOf accountId region name now =
      front ++ toString now := ⟨_, rfl⟩
  intro last
  rw [parts, String.toList_append, List.getLast?_append_of_ne_nil _ (toList_toString_int_ne_nil now)]
    at last
  rcases toList_toString_int now ':' (List.mem_of_getLast? last) with minus | digit
  · exact absurd minus (by decide)
  · exact absurd digit (by decide)

/-! ## One page -/

theorem Table.Logged.sequenceNumber {t : Table} {log : List RowChange}
    {appended : List StreamRecord} (logged : t.Logged log appended) {i : Nat} {r : StreamRecord}
    (found : appended[i]? = some r) : r.sequenceNumber = RustFmt.dec 20 (i + 1) := by
  have inside : i < log.length := by
    rw [← logged.length]
    exact (List.getElem?_eq_some_iff.mp found).1
  exact (logged.described i _ r (List.getElem?_eq_getElem inside) found).sequenceNumber

section Page

variable {t : Table} {log : List RowChange} {appended : List StreamRecord}

/-- An iterator stands at position `pos`: its number is that of the next record, or zero
before the first. -/
def StandsAt (seq pos : Nat) : Prop := seq = pos + 1 ∨ (seq = 0 ∧ pos = 0)

/-- A page holds the next records that are still in the buffer. -/
theorem Table.Logged.recordsFrom_eq (logged : t.Logged log appended)
    (fits : appended.length < 2 ^ 64) {seq pos : Nat} (stands : StandsAt seq pos) (limit : Nat) :
    recordsFrom t seq limit =
      (appended.drop (pos + (appended.length - 1000 - pos))).take limit := by
  have accepts : ∀ i r, (retained 1000 appended)[i]? = some r →
      decide (seq ≤ (RustFmt.parseTrimmed 64 r.sequenceNumber).getD 0) =
        decide (pos - (appended.length - 1000) ≤ i) := by
    intro i r found
    rw [retained, List.getElem?_drop] at found
    have inside := (List.getElem?_eq_some_iff.mp found).1
    rw [logged.sequenceNumber found, RustFmt.parseTrimmed_dec 20 (by omega) (by omega),
      Option.getD_some, decide_eq_decide]
    rcases stands with rfl | ⟨rfl, rfl⟩ <;> omega
  have first : appended.length - 1000 + (pos - (appended.length - 1000)) =
      pos + (appended.length - 1000 - pos) := by omega
  rw [recordsFrom, logged.records, ChangeLog.filter_eq_drop _ _ _ accepts, retained, List.drop_drop,
    first]

theorem Table.Logged.nextSequence_eq (logged : t.Logged log appended)
    (fits : appended.length + 1 < 2 ^ 64) (first limit seq : Nat) :
    nextSequence ((appended.drop first).take limit) seq =
      if ((appended.drop first).take limit).length = 0 then seq
      else first + ((appended.drop first).take limit).length + 1 := by
  by_cases empty : (appended.drop first).take limit = []
  · simp [nextSequence, empty]
  · have positive : 0 < ((appended.drop first).take limit).length :=
      List.length_pos_iff.mpr empty
    have inside : first + (((appended.drop first).take limit).length - 1) < appended.length := by
      simp only [List.length_take, List.length_drop] at positive ⊢
      omega
    have last : ((appended.drop first).take limit).getLast? =
        appended[first + (((appended.drop first).take limit).length - 1)]? := by
      rw [List.getLast?_eq_getElem?, List.getElem?_take_of_lt, List.getElem?_drop]
      simp only [List.length_take] at positive ⊢
      omega
    have found := List.getElem?_eq_getElem inside
    rw [nextSequence, last, found, Option.bind_some, logged.sequenceNumber found,
      RustFmt.parseTrimmed_dec 20 (by omega) (by omega), if_neg (by omega)]
    simp only [Option.map_some, Option.getD_some]
    omega

end Page

/-! ## The reader along a run -/

/-- What ties the reader to the history of its stream. -/
structure StreamReader.Inv (accountId region name streamArn : String) (s : StreamReader) :
    Prop where
  table : ∃ t log, s.tables[name]? = some t ∧ t.Logged log s.appended ∧
    t.streamArn = some streamArn
  arns : ∀ (n : String) t a, s.tables[n]? = some t → t.streamArn = some a →
    ∃ now, a = streamArnOf accountId region n now
  fits : s.appended.length + 1 < 2 ^ 64
  returned : s.returned = marked s.appended s.marks
  covered : s.marks.length ≤ s.appended.length
  iterator : ∀ it, s.iterator = some it →
    ∃ seq, it = makeShardIterator streamArn seq ∧ StandsAt seq s.marks.length
  unstarted : s.iterator = none → s.marks = []

section Run

variable {D : DecimalOps} {accountId region name streamArn : String} {s : StreamReader}

/-- No other table of the account and region has the same stream ARN. -/
theorem StreamReader.Inv.findStream_eq (inv : s.Inv accountId region name streamArn) {t : Table}
    (found : s.tables[name]? = some t) (arn : t.streamArn = some streamArn) :
    findStream s.tables streamArn = some t := by
  have listed : t ∈ s.tables.values := StrMap.mem_values.mpr ⟨name, found⟩
  cases result : findStream s.tables streamArn with
  | none =>
    have refused := List.find?_eq_none.mp result t listed
    simp [arn] at refused
  | some t' =>
    obtain ⟨n, found'⟩ := StrMap.mem_values.mp (List.mem_of_find?_eq_some result)
    have arn' : t'.streamArn = some streamArn := by simpa using List.find?_some result
    obtain ⟨now, first⟩ := inv.arns name t streamArn found arn
    obtain ⟨now', second⟩ := inv.arns n t' streamArn found' arn'
    have sameName : name = n := streamArnOf_name (first.symm.trans second)
    subst sameName
    rw [found] at found'
    exact found'.symm

theorem StreamReader.Inv.ends (inv : s.Inv accountId region name streamArn) :
    streamArn.toList.getLast? ≠ some ':' := by
  obtain ⟨t, _, found, _, arn⟩ := inv.table
  obtain ⟨now, same⟩ := inv.arns name t streamArn found arn
  rw [same]
  exact streamArnOf_ends accountId region name now

theorem StreamReader.Inv.evicted_eq (inv : s.Inv accountId region name streamArn) :
    s.evicted name = s.appended.length - 1000 := by
  obtain ⟨t, log, found, logged, _⟩ := inv.table
  rw [StreamReader.evicted, found, Option.map_some, Option.getD_some, logged.records,
    ChangeLog.length_retained]
  omega

/-- The page a read of a started reader returns, and the reader after it. -/
theorem StreamReader.Inv.read (inv : s.Inv accountId region name streamArn)
    (plain : ¬ iteratorSep <:+: streamArn.toList) {it : String} (started : s.iterator = some it)
    (limit : Option Nat) :
    ∃ seq gap page, it = makeShardIterator streamArn seq ∧ StandsAt seq s.marks.length ∧
      gap = s.appended.length - 1000 - s.marks.length ∧
      page = (s.appended.drop (s.marks.length + gap)).take (limit.getD 1000) ∧
      s.step D name streamArn (.getRecords limit) =
        { s with
          iterator := some (makeShardIterator streamArn (if page.length = 0 then seq
            else s.marks.length + gap + page.length + 1))
          returned := s.returned ++ page
          marks := s.marks ++ List.replicate gap false ++ List.replicate page.length true } := by
  obtain ⟨t, log, found, logged, arn⟩ := inv.table
  obtain ⟨seq, rfl, stands⟩ := inv.iterator it started
  have fits := inv.fits
  have covered := inv.covered
  have small : seq < 2 ^ 64 := by rcases stands with rfl | ⟨rfl, _⟩ <;> omega
  refine ⟨seq, _, _, rfl, stands, rfl, rfl, ?_⟩
  have shardIterator : stringField "ShardIterator"
      (recordsBody (makeShardIterator streamArn seq) limit) =
        some (makeShardIterator streamArn seq) := by
    cases limit <;> rfl
  have limited : (((recordsBody (makeShardIterator streamArn seq) limit).get? "Limit").bind
      Json.asU64?).getD 1000 = limit.getD 1000 := by
    cases limit <;> rfl
  rw [StreamReader.step, started]
  simp only [getRecords, shardIterator, limited, parseShardIterator_make plain inv.ends small,
    inv.findStream_eq found arn, logged.recordsFrom_eq (by omega) stands,
    logged.nextSequence_eq (by omega), inv.evicted_eq]

/-- What a write does to the table it names, as the stream sees it. -/
theorem Table.Logged.write {t : Table} {log : List RowChange} {appended : List StreamRecord}
    (logged : t.Logged log appended) (D : DecimalOps) (op : RowOp) :
    ∃ log', (t.applyRow D op).Logged log' (appended ++ newRecords t (t.applyRow D op)) := by
  rcases t.applyRow_cases D op with same | ⟨c, changed⟩
  · exact ⟨log, by simpa [same, newRecords] using logged⟩
  · obtain ⟨r, next⟩ := logged.step changed
    have longer : t.streamSequence < (t.applyRow D op).streamSequence := by
      rw [(changed.stream logged.enabled).1]
      omega
    have back : newRecords t (t.applyRow D op) = [r] := by
      rw [newRecords, if_pos longer, next.records, ChangeLog.getLast?_retained (by decide)]
      rfl
    exact ⟨log ++ [c], by rw [back]; exact next⟩

theorem Table.applyRow_streamArn (D : DecimalOps) (t : Table) (op : RowOp) :
    (t.applyRow D op).streamArn = t.streamArn := by
  rcases t.applyRow_cases D op with same | ⟨c, changed⟩
  · rw [same]
  · exact changed.streamArn

theorem newRecords_length (t t' : Table) : (newRecords t t').length ≤ 1 := by
  unfold newRecords
  split
  · cases t'.streamRecords.getLast? <;> simp
  · simp

theorem StreamReader.Inv.write (inv : s.Inv accountId region name streamArn) (table : String)
    (op : RowOp) (room : s.appended.length + 2 < 2 ^ 64) :
    (s.step D name streamArn (.write table op)).Inv accountId region name streamArn := by
  obtain ⟨t, log, found, logged, arn⟩ := inv.table
  rw [StreamReader.step]
  cases target : s.tables[table]? with
  | none => exact inv
  | some u =>
    have short := newRecords_length u (u.applyRow D op)
    have extends_ : ∃ later : List StreamRecord, later.length ≤ 1 ∧
        (if table = name then s.appended ++ newRecords u (u.applyRow D op) else s.appended) =
          s.appended ++ later := by
      split
      · exact ⟨_, short, rfl⟩
      · exact ⟨[], by simp, by simp⟩
    obtain ⟨later, one, history⟩ := extends_
    constructor
    case table =>
      by_cases here : table = name
      · subst here
        rw [found, Option.some.injEq] at target
        subst target
        obtain ⟨log', next⟩ := logged.write D op
        exact ⟨t.applyRow D op, log', by simp, by simpa using next,
          by rw [Table.applyRow_streamArn, arn]⟩
      · exact ⟨t, log, by simp [StrMap.getElem?_insert, here, found], by simpa [here] using logged,
          arn⟩
    case arns =>
      intro n v a stored streams
      simp only [StrMap.getElem?_insert] at stored
      split at stored
      · next same =>
        cases stored
        subst same
        exact inv.arns table u a target (by rw [← Table.applyRow_streamArn D u op, streams])
      · exact inv.arns n v a stored streams
    case fits => simp only [history, List.length_append]; omega
    case returned =>
      simp only [history, inv.returned, ChangeLog.marked_append_left _ _ _ inv.covered]
    case covered =>
      have covered := inv.covered
      simp only [history, List.length_append]
      omega
    case iterator => exact inv.iterator
    case unstarted => exact inv.unstarted

theorem StreamReader.Inv.start (inv : s.Inv accountId region name streamArn) :
    (s.step D name streamArn .getShardIterator).Inv accountId region name streamArn ∧
      (s.step D name streamArn .getShardIterator).iterator ≠ none := by
  obtain ⟨t, log, found, logged, arn⟩ := inv.table
  rw [StreamReader.step]
  cases started : s.iterator with
  | some it => exact ⟨inv, by simp [started]⟩
  | none =>
    have answer : getShardIterator s.tables (trimHorizonBody streamArn) =
        .ok (makeShardIterator streamArn 0) := by
      have field : stringField "StreamArn" (trimHorizonBody streamArn) = some streamArn := rfl
      simp only [getShardIterator, field, inv.findStream_eq found arn]
      rfl
    rw [answer]
    refine ⟨{ inv with iterator := ?_, unstarted := ?_ }, by simp⟩
    · rintro it ⟨rfl⟩
      exact ⟨0, rfl, Or.inr ⟨rfl, by simp [inv.unstarted started]⟩⟩
    · simp

theorem StreamReader.Inv.records (inv : s.Inv accountId region name streamArn)
    (plain : ¬ iteratorSep <:+: streamArn.toList) {limit : Option Nat}
    (positive : 1 ≤ limit.getD 1000) :
    (s.step D name streamArn (.getRecords limit)).Inv accountId region name streamArn := by
  cases started : s.iterator with
  | none => simpa [StreamReader.step, started] using inv
  | some it =>
    obtain ⟨seq, gap, page, _, stands, gap_eq, page_eq, after⟩ :=
      inv.read (D := D) plain started limit
    have covered := inv.covered
    have size : page.length =
        min (limit.getD 1000) (s.appended.length - (s.marks.length + gap)) := by simp [page_eq]
    rw [after]
    refine { inv with returned := ?_, covered := ?_, iterator := ?_, unstarted := by simp }
    · have whole : (s.appended.drop (s.marks.length + gap)).take page.length = page := by
        rw [size, page_eq, List.take_eq_take_iff]
        simp
      simp only [ChangeLog.marked_read, ← inv.returned, whole]
    · simp only [List.length_append, List.length_replicate, size]
      omega
    · rintro _ ⟨rfl⟩
      refine ⟨_, rfl, ?_⟩
      simp only [List.length_append, List.length_replicate]
      -- an empty page means that the reader had come to the end, so it has no gap either
      split
      · next empty =>
        have no_gap : gap = 0 := by omega
        rw [empty, no_gap]
        exact stands
      · exact Or.inl rfl

theorem StreamReader.Inv.exactlyOnce (inv : s.Inv accountId region name streamArn)
    (plain : ¬ iteratorSep <:+: streamArn.toList) : s.ExactlyOnce D name streamArn where
  returned := inv.returned
  covered := inv.covered
  started := inv.start.2
  caughtUp limit running positive short := by
    obtain ⟨it, started⟩ := Option.ne_none_iff_exists'.mp running
    obtain ⟨seq, gap, page, _, _, gap_eq, page_eq, after⟩ := inv.read (D := D) plain started limit
    have covered := inv.covered
    have size : page.length =
        min (limit.getD 1000) (s.appended.length - (s.marks.length + gap)) := by simp [page_eq]
    rw [after] at short ⊢
    simp only [List.length_append, List.length_replicate] at short ⊢
    omega

theorem StreamReader.initial_inv {tables : StrMap Table} {t : Table}
    (fresh : FreshTables accountId region tables) (found : tables[name]? = some t)
    (enabled : t.streamSpecification.streamEnabled = true) (arn : t.streamArn = some streamArn) :
    (StreamReader.initial tables).Inv accountId region name streamArn where
  table := by
    obtain ⟨tableId, now, keySchema, defs, gsis, lsis, spec, rfl⟩ := fresh name t found
    exact ⟨_, [], found, Table.new_logged _ _ _ _ _ _ _ _ _ _ enabled, arn⟩
  arns n u a stored streams := by
    obtain ⟨tableId, now, keySchema, defs, gsis, lsis, spec, rfl⟩ := fresh n u stored
    simp only [Table.new, Option.ite_none_right_eq_some, Option.some.injEq] at streams
    exact ⟨now, streams.2.symm⟩
  fits := by simp [StreamReader.initial]
  returned := by simp [StreamReader.initial]
  covered := by simp [StreamReader.initial]
  iterator := by simp [StreamReader.initial]
  unstarted := by simp [StreamReader.initial]

end Run

/-- In every run of writes and reads on a stream whose ARN has no `::`, the reader returns
every record exactly once, unless it had left the buffer by then. -/
theorem stream_read_exactly_once (D : DecimalOps) (accountId region name streamArn : String)
    (tables : StrMap Table) (t : Table) (fresh : FreshTables accountId region tables)
    (found : tables[name]? = some t) (enabled : t.streamSpecification.streamEnabled = true)
    (arn : t.streamArn = some streamArn) (plain : ¬ iteratorSep <:+: streamArn.toList)
    (steps : List StreamStep)
    (regular : Run.AllSteps (StreamReader.step D name streamArn) (fun s a => a.Regular s)
      (StreamReader.initial tables) steps) :
    Run.AllStates (StreamReader.step D name streamArn)
      (StreamReader.ExactlyOnce D name streamArn) (StreamReader.initial tables) steps := by
  have preserved : ∀ (s : StreamReader) (a : StreamStep), s.Inv accountId region name streamArn →
      a.Regular s → (s.step D name streamArn a).Inv accountId region name streamArn := by
    intro s a inv ok
    cases a with
    | write table op => exact inv.write table op ok
    | getShardIterator => exact inv.start.1
    | getRecords limit => exact inv.records plain ok
  have along := Run.allStates_of_allSteps preserved _ steps
    (StreamReader.initial_inv fresh found enabled arn) regular
  exact Run.AllStates.imp (fun s inv => inv.exactlyOnce plain) _ _ along

/-- The one table of a region, created with its stream enabled. -/
def streamedTable (name : String) : Table :=
  Table.new "id" 0 name "000000000000" "us-east-1" [⟨"pk", .hash⟩] [⟨"pk", "S"⟩] [] []
    ⟨true, some "NEW_AND_OLD_IMAGES"⟩

def oneStreamedTable (name : String) : StrMap Table := (∅ : StrMap Table).insert name (streamedTable name)

theorem oneStreamedTable_fresh (name : String) :
    FreshTables "000000000000" "us-east-1" (oneStreamedTable name) := by
  intro n t found
  rw [oneStreamedTable, StrMap.getElem?_insert] at found
  split at found
  · next same =>
    cases found
    subst same
    exact ⟨_, _, _, _, _, _, _, rfl⟩
  · simp at found

def oneRecordRead : List StreamStep :=
  [.getShardIterator, .write "orders" (.item (.putItem 0 streamedItem)), .getRecords (some 1)]

theorem orders_read_exactly_once :
    Run.AllStates (StreamReader.step wholeDecimals "orders"
        "arn:aws:dynamodb:us-east-1:000000000000:table/orders/stream/0")
      (StreamReader.ExactlyOnce wholeDecimals "orders"
        "arn:aws:dynamodb:us-east-1:000000000000:table/orders/stream/0")
      (StreamReader.initial (oneStreamedTable "orders")) oneRecordRead :=
  stream_read_exactly_once wholeDecimals "000000000000" "us-east-1" "orders" _
    (oneStreamedTable "orders") (streamedTable "orders") (oneStreamedTable_fresh "orders")
    (by simp [oneStreamedTable]) rfl (by decide +kernel) (by decide +kernel) oneRecordRead
    (by decide +kernel)

/-- A table name with `::` cuts the ARN in every iterator of its stream: GetRecords answers
that there is no such stream, and the record is never returned. -/
theorem colons_hide_stream :
    FreshTables "000000000000" "us-east-1" (oneStreamedTable "a::b") ∧
    (streamedTable "a::b").streamArn =
      some "arn:aws:dynamodb:us-east-1:000000000000:table/a::b/stream/0" ∧
    ¬ Run.AllStates (StreamReader.step wholeDecimals "a::b"
        "arn:aws:dynamodb:us-east-1:000000000000:table/a::b/stream/0")
      (StreamReader.ExactlyOnce wholeDecimals "a::b"
        "arn:aws:dynamodb:us-east-1:000000000000:table/a::b/stream/0")
      (StreamReader.initial (oneStreamedTable "a::b"))
      [.write "a::b" (.item (.putItem 0 streamedItem)), .getShardIterator] := by
  refine ⟨oneStreamedTable_fresh "a::b", by decide +kernel, ?_⟩
  rintro ⟨_, _, final⟩
  have reached := final.caughtUp none (by decide +kernel) (by decide) (by decide +kernel)
  exact absurd reached (by decide +kernel)

end Openstack.DynamoDb

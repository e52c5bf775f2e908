import Openstack.DynamoDb.StreamReading

/-!
# Shard iterators

The iterator text (`provider.rs:610-622`) keeps the stream ARN and the number only while the ARN has no
`::`, which CreateTable does not ask of a table name. The four iterator kinds (`provider.rs:1833-1845`) are
kept as the first number to return: LATEST stands one record too early, and the successor of the largest
number wraps to zero.
-/
namespace Openstack.DynamoDb

open ChangeLog (retained)

section Pairs

variable {c d : Char} {a b : List Char}

theorem pair_infix_cons {x : Char} : [c, d] <:+: x :: a ↔ (x = c ∧ a.head? = some d) ∨ [c, d] <:+: a := by
  rw [List.infix_cons_iff]
  refine or_congr_left ?_
  cases a with
  | nil => simp
  | cons y rest => simp [List.cons_prefix_cons, eq_comm]

/-- Two characters stand side by side in a part, or around the cut. -/
theorem pair_infix_append : [c, d] <:+: a ++ b ↔
    [c, d] <:+: a ∨ [c, d] <:+: b ∨ (a.getLast? = some c ∧ b.head? = some d) := by
  induction a with
  | nil => simp
  | cons x rest ih =>
    rw [List.cons_append, pair_infix_cons, ih, pair_infix_cons]
    cases rest with
    | nil => simp; tauto
    | cons y more => simp; tauto

/-- The text before the first occurrence has no occurrence in it. -/
theorem before_not_infix {pat s x : List Char} (some_char : pat ≠ [])
    (found : RustStr.before pat s = some x) : ¬ pat <:+: x := by
  induction s generalizing x with
  | nil =>
    rw [RustStr.before, if_neg (by simpa using some_char)] at found
    cases found
  | cons c rest ih =>
    intro inside
    rw [RustStr.before] at found
    split at found
    · cases found
      exact some_char (List.infix_nil.mp inside)
    · next elsewhere =>
      obtain ⟨y, later, rfl⟩ := Option.map_eq_some_iff.mp found
      rcases List.infix_cons_iff.mp inside with here | further
      · have front : pat <+: c :: rest := here.trans
          (List.cons_prefix_cons.mpr ⟨rfl, (List.prefix_append _ _).trans (RustStr.before_isPrefix later)⟩)
        exact elsewhere (List.isPrefixOf_iff_prefix.mpr front)
      · exact ih later further

end Pairs

/-- Every iterator of the table's stream reads back, and GetRecords reads on from its number in the stream
that it was issued for. -/
def IteratorsReadBack (t : Table) (seq : UInt64) : Prop :=
  ∀ arn, t.streamArn = some arn →
    parseShardIterator (makeShardIterator arn seq.toNat) = some (arn, seq.toNat) ∧
      ∀ tables limit, getRecords tables (recordsBody (makeShardIterator arn seq.toNat) limit) =
        match findStream tables arn with
        | none => .error streamNotFound
        | some u => .ok (recordsFrom u seq.toNat (limit.getD 1000),
            makeShardIterator arn (nextSequence (recordsFrom u seq.toNat (limit.getD 1000)) seq.toNat))

/-- No `::` in the table name, nor around or in the region and the account id. -/
def PlainNames (accountId region name : String) : Prop :=
  ¬ iteratorSep <:+: name.toList ∧
    ¬ iteratorSep <:+: ':' :: (region.toList ++ ':' :: (accountId.toList ++ [':']))

/-- What a stream ARN holds of `::` comes from the names in it. -/
theorem streamArn_plain_iff (accountId region name : String) (now : Int) :
    ¬ iteratorSep <:+: (streamArnOf accountId region name now).toList ↔
      PlainNames accountId region name := by
  have text : (streamArnOf accountId region name now).toList =
      "arn:aws:dynamodb".toList ++ ((':' :: (region.toList ++ ':' :: (accountId.toList ++ [':']))) ++
        ("table/".toList ++ (name.toList ++ ("/stream/".toList ++ (toString now).toList)))) := by
    have front : "arn:aws:dynamodb:".toList = "arn:aws:dynamodb".toList ++ [':'] := by decide
    have middle : ":table/".toList = [':'] ++ "table/".toList := by decide
    have colon : ":".toList = [':'] := by decide
    unfold streamArnOf
    rw [String.toList_append, String.toList_append, String.toList_append, String.toList_append,
      String.toList_append, String.toList_append, String.toList_append]
    rw [front, middle, colon]
    simp
  have digits : ¬ iteratorSep <:+: (toString now).toList := by
    intro inside
    have member : ':' ∈ (toString now).toList := inside.subset (by decide)
    rcases toList_toString_int now ':' member with minus | digit
    · exact absurd minus (by decide)
    · exact absurd digit (by decide)
  have words : ¬ iteratorSep <:+: "arn:aws:dynamodb".toList ∧ ¬ iteratorSep <:+: "table/".toList ∧
      ¬ iteratorSep <:+: "/stream/".toList := by decide
  have ends : "arn:aws:dynamodb".toList.getLast? = some 'b' ∧ "table/".toList.getLast? = some '/' ∧
      "/stream/".toList.getLast? = some '/' := by decide
  have heads : ∀ rest : List Char, ("table/".toList ++ rest).head? = some 't' ∧
      ("/stream/".toList ++ rest).head? = some '/' := fun _ => ⟨rfl, rfl⟩
  rw [text]
  unfold iteratorSep at digits words ⊢
  rw [pair_infix_append, pair_infix_append, pair_infix_append, pair_infix_append, pair_infix_append]
  simp only [ends, heads, words, digits, false_or, or_false, Option.some.injEq,
    show ('b' = ':') = False by simp, show ('/' = ':') = False by simp, show ('t' = ':') = False by simp,
    false_and, and_false, PlainNames, iteratorSep, not_or]
  exact and_comm

theorem parseShardIterator_arn {arn it x : String} {seq k : Nat} (text : it = makeShardIterator arn seq)
    (parsed : parseShardIterator it = some (x, k)) : ¬ iteratorSep <:+: x.toList := by
  rw [text, parseShardIterator] at parsed
  obtain ⟨front, found, rest⟩ := Option.bind_eq_some_iff.mp parsed
  obtain ⟨_, _, rest⟩ := Option.bind_eq_some_iff.mp rest
  obtain ⟨_, _, rest⟩ := Option.bind_eq_some_iff.mp rest
  cases rest
  rw [String.toList_ofList]
  exact before_not_infix (by decide) found

/-- The iterators of a table read back exactly when it has no stream or its names are plain. -/
theorem iterators_read_back_iff (tableId : String) (now : Int) (name accountId region : String)
    (keySchema : List KeySchemaElement) (defs : List AttributeDefinition)
    (gsis lsis : List SecondaryIndex) (spec : StreamSpecification) (seq : UInt64) :
    IteratorsReadBack (Table.new tableId now name accountId region keySchema defs gsis lsis spec) seq ↔
      (spec.streamEnabled = true → PlainNames accountId region name) := by
  have arn : ∀ a, (Table.new tableId now name accountId region keySchema defs gsis lsis spec).streamArn =
      some a ↔ spec.streamEnabled = true ∧ a = streamArnOf accountId region name now := by
    intro a
    have held : (Table.new tableId now name accountId region keySchema defs gsis lsis spec).streamArn =
        if spec.streamEnabled then some (streamArnOf accountId region name now) else none := rfl
    rw [held, Option.ite_none_right_eq_some, Option.some.injEq]
    exact and_congr_right fun _ => eq_comm
  unfold IteratorsReadBack
  constructor
  · intro back enabled
    have parsed := (back _ ((arn _).mpr ⟨enabled, rfl⟩)).1
    exact (streamArn_plain_iff accountId region name now).mp (parseShardIterator_arn rfl parsed)
  · intro plain a held
    obtain ⟨enabled, rfl⟩ := (arn a).mp held
    have parsed := parseShardIterator_make
      ((streamArn_plain_iff accountId region name now).mpr (plain enabled))
      (streamArnOf_ends accountId region name now) seq.toNat_lt
    refine ⟨parsed, fun tables limit => ?_⟩
    have field : stringField "ShardIterator" (recordsBody
        (makeShardIterator (streamArnOf accountId region name now) seq.toNat) limit) =
          some (makeShardIterator (streamArnOf accountId region name now) seq.toNat) := by
      cases limit <;> rfl
    have limited : (((recordsBody (makeShardIterator (streamArnOf accountId region name now) seq.toNat)
        limit).get? "Limit").bind Json.asU64?).getD 1000 = limit.getD 1000 := by
      cases limit <;> rfl
    rw [getRecords]
    simp only [field, parsed, limited]
    all_goals cases findStream tables (streamArnOf accountId region name now) <;> rfl

/-- The iterator of a table called `a::b` names another stream. -/
theorem colons_cut_arn : ¬ IteratorsReadBack (streamedTable "a::b") 1 := by
  intro back
  have parsed := (back "arn:aws:dynamodb:us-east-1:000000000000:table/a::b/stream/0" (by decide +kernel)).1
  exact absurd parsed (by decide +kernel)

/-- A sequence number as a request writes it: decimal digits of a value of 64 bits. -/
structure SequenceText where
  text : String
  nonempty : text.toList ≠ []
  digits : ∀ c ∈ text.toList, c.isDigit = true
  fits : RustFmt.digitsValue text.toList < 2 ^ 64

def SequenceText.number (n : SequenceText) : Nat := RustFmt.digitsValue n.text.toList

/-- The iterator types that name a position. -/
inductive IteratorPosition where
  | latest
  | atSequenceNumber (n : SequenceText)
  | afterSequenceNumber (n : SequenceText)

/-- The GetShardIterator request. -/
def IteratorPosition.body (streamArn : String) : IteratorPosition → Json
  | latest => .obj [("ShardIteratorType", .str "LATEST"), ("StreamArn", .str streamArn)]
  | atSequenceNumber n => .obj [("SequenceNumber", .str n.text),
      ("ShardIteratorType", .str "AT_SEQUENCE_NUMBER"), ("StreamArn", .str streamArn)]
  | afterSequenceNumber n => .obj [("SequenceNumber", .str n.text),
      ("ShardIteratorType", .str "AFTER_SEQUENCE_NUMBER"), ("StreamArn", .str streamArn)]

/-- The number that a record carries. -/
def StreamRecord.number (r : StreamRecord) : Nat := RustFmt.digitsValue r.sequenceNumber.toList

/-- The records in the buffer of the table. -/
def StreamReader.retained (name : String) (s : StreamReader) : List StreamRecord :=
  (s.tables[name]?.map fun t => t.streamRecords).getD []

/-- The page that belongs to the position, with the tables at `s` when the iterator is issued and at `s'`
when it is used. -/
def RightPage (s s' : StreamReader) (name : String) (limit : Option Nat) (page : List StreamRecord) :
    IteratorPosition → Prop
  | .latest => ∀ r ∈ page, r ∈ s'.appended.drop s.appended.length
  | .atSequenceNumber n =>
    page = ((s'.retained name).filter fun r => decide (n.number ≤ r.number)).take (limit.getD 1000)
  | .afterSequenceNumber n =>
    page = ((s'.retained name).filter fun r => decide (n.number < r.number)).take (limit.getD 1000)

/-- GetShardIterator issues an iterator of the stream, and GetRecords answers it with the right page. -/
def PositionRight (s s' : StreamReader) (name streamArn : String) (limit : Option Nat)
    (p : IteratorPosition) : Prop :=
  ∃ it page next, getShardIterator s.tables (p.body streamArn) = .ok it ∧
    (parseShardIterator it).map Prod.fst = some streamArn ∧
    getRecords s'.tables (recordsBody it limit) = .ok (page, next) ∧ RightPage s s' name limit page p

/-- LATEST is right before the first record, when the last one has left the buffer, and on a page of none;
AFTER_SEQUENCE_NUMBER is right below the largest number, on an empty stream, and on a page of none. -/
def PositionFits (s s' : StreamReader) (limit : Option Nat) : IteratorPosition → Prop
  | .latest => s.appended = [] ∨ s.appended.length + 1000 ≤ s'.appended.length ∨ limit = some 0
  | .atSequenceNumber _ => True
  | .afterSequenceNumber n => n.number + 1 < 2 ^ 64 ∨ s'.appended = [] ∨ limit = some 0

/-- The first number that the iterator lets pass. -/
def IteratorPosition.start (s : StreamReader) : IteratorPosition → Nat
  | latest => s.appended.length
  | atSequenceNumber n => n.number
  | afterSequenceNumber n => if n.number = 0 then 0 else (n.number + 1) % 2 ^ 64

/-- Writes to the tables of the account and region. -/
def StreamReader.writeRows (D : DecimalOps) (name streamArn : String) (s : StreamReader)
    (writes : List (String × RowOp)) : StreamReader :=
  writes.foldl (fun s w => s.step D name streamArn (.write w.1 w.2)) s

theorem digitsValue_pos {c : Char} (digit : c.isDigit = true) (lead : c ≠ '0') (more : List Char) :
    0 < RustFmt.digitsValue (c :: more) := by
  have grows : ∀ (cs : List Char) (acc : Nat), 0 < acc →
      0 < cs.foldl (fun acc c => 10 * acc + (c.toNat - '0'.toNat)) acc := by
    intro cs
    induction cs with
    | nil => exact fun _ positive => positive
    | cons d rest ih => exact fun acc positive => ih (10 * acc + (d.toNat - '0'.toNat)) (by omega)
  refine grows more _ ?_
  have bounds : 48 ≤ c.toNat := by
    simp only [Char.isDigit, Bool.and_eq_true, decide_eq_true_eq, ge_iff_le, UInt32.le_iff_toNat_le] at digit
    exact digit.1
  have other : c.toNat ≠ 48 := fun same => lead (Char.toNat_inj.mp same)
  change 0 < 10 * 0 + (c.toNat - 48)
  omega

theorem SequenceText.parse (n : SequenceText) :
    RustFmt.parseTrimmed 64 n.text = if n.number = 0 then none else some n.number := by
  have value : RustFmt.digitsValue (n.text.toList.dropWhile (· = '0')) = n.number :=
    RustFmt.digitsValue_dropWhile _
  have digits : ∀ c ∈ n.text.toList.dropWhile (· = '0'), c.isDigit = true := fun c member =>
    n.digits c (List.dropWhile_subset _ member)
  rw [RustFmt.parseTrimmed]
  cases rest : n.text.toList.dropWhile (· = '0') with
  | nil =>
    rw [rest] at value
    have zero : n.number = 0 := value.symm
    rw [if_pos zero]
    rfl
  | cons c more =>
    have lead : c ≠ '0' := by
      have first := List.head_dropWhile_not (· = '0') (l := n.text.toList) (by simp [rest])
      simpa [rest] using first
    rw [rest] at value
    have positive : n.number ≠ 0 := by
      rw [← value]
      exact (digitsValue_pos (digits c (by simp [rest])) lead more).ne'
    rw [← rest] at value
    rw [if_neg positive, ← rest, RustFmt.parseUnsigned_digits (by simp [rest]) digits (by rw [value]; exact n.fits),
      value]

section Records

variable {t : Table} {log : List RowChange} {appended : List StreamRecord}

theorem Table.Logged.number_eq (logged : t.Logged log appended) {i : Nat} {r : StreamRecord}
    (found : appended[i]? = some r) : r.number = i + 1 := by
  rw [StreamRecord.number, logged.sequenceNumber found, RustFmt.digitsValue_dec]

theorem Table.Logged.numbered (logged : t.Logged log appended) {r : StreamRecord}
    (stored : r ∈ t.streamRecords) :
    ∃ i, appended[i]? = some r ∧ appended.length - 1000 ≤ i := by
  rw [logged.records, retained] at stored
  obtain ⟨i, found⟩ := List.getElem?_of_mem stored
  rw [List.getElem?_drop] at found
  exact ⟨_, found, Nat.le_add_right _ _⟩

/-- The filter of GetRecords goes by the numbers of the records. -/
theorem Table.Logged.recordsFrom_number (logged : t.Logged log appended) (fits : appended.length < 2 ^ 64)
    (seq limit : Nat) : recordsFrom t seq limit =
      (t.streamRecords.filter fun r => decide (seq ≤ r.number)).take limit := by
  rw [recordsFrom]
  congr 1
  refine List.filter_congr fun r stored => ?_
  obtain ⟨i, found, _⟩ := logged.numbered stored
  have inside := (List.getElem?_eq_some_iff.mp found).1
  rw [logged.number_eq found, logged.sequenceNumber found, RustFmt.parseTrimmed_dec 20 (by omega) (by omega),
    Option.getD_some]

end Records

section Issue

variable {D : DecimalOps} {accountId region name streamArn : String} {s s' : StreamReader}

theorem StreamReader.Inv.writeRows (inv : s.Inv accountId region name streamArn)
    (writes : List (String × RowOp)) (room : s.appended.length + writes.length + 1 < 2 ^ 64) :
    (s.writeRows D name streamArn writes).Inv accountId region name streamArn ∧
      ∃ more, (s.writeRows D name streamArn writes).appended = s.appended ++ more ∧
        more.length ≤ writes.length := by
  induction writes generalizing s with
  | nil => exact ⟨inv, [], by simp [StreamReader.writeRows], Nat.le_refl 0⟩
  | cons w rest ih =>
    simp only [List.length_cons] at room
    have next := inv.write (D := D) w.1 w.2 (by omega)
    obtain ⟨first, one, grown⟩ : ∃ first : List StreamRecord, first.length ≤ 1 ∧
        (s.step D name streamArn (.write w.1 w.2)).appended = s.appended ++ first := by
      rw [StreamReader.step]
      split
      · exact ⟨[], by simp, by simp⟩
      · split
        · exact ⟨_, newRecords_length _ _, rfl⟩
        · exact ⟨[], by simp, by simp⟩
    have length := congrArg List.length grown
    rw [List.length_append] at length
    obtain ⟨later, more, appended, short⟩ := ih next (by omega)
    refine ⟨later, first ++ more, ?_, ?_⟩
    · rw [← List.append_assoc, ← grown]
      exact appended
    · simp only [List.length_append, List.length_cons]
      omega

/-- What GetShardIterator issues. -/
theorem StreamReader.Inv.issue (inv : s.Inv accountId region name streamArn) (p : IteratorPosition) :
    getShardIterator s.tables (p.body streamArn) = .ok (makeShardIterator streamArn (p.start s)) := by
  obtain ⟨t, log, found, logged, arn⟩ := inv.table
  have field : stringField "StreamArn" (p.body streamArn) = some streamArn := by
    cases p <;> rfl
  rw [getShardIterator]
  simp only [field, inv.findStream_eq found arn]
  cases p with
  | latest =>
    rw [IteratorPosition.start, ← logged.sequence]
    rfl
  | atSequenceNumber n =>
    have number : stringField "SequenceNumber" ((IteratorPosition.atSequenceNumber n).body streamArn) =
        some n.text := rfl
    have start : startSequence t "AT_SEQUENCE_NUMBER" (some n.text) = n.number := by
      rw [startSequence, if_neg (by decide), if_neg (by decide), if_pos rfl, Option.bind_some, n.parse]
      split
      · next zero => rw [zero]; rfl
      · rfl
    rw [number, IteratorPosition.start, ← start]
    rfl
  | afterSequenceNumber n =>
    have number : stringField "SequenceNumber" ((IteratorPosition.afterSequenceNumber n).body streamArn) =
        some n.text := rfl
    have start : startSequence t "AFTER_SEQUENCE_NUMBER" (some n.text) =
        if n.number = 0 then 0 else (n.number + 1) % 2 ^ 64 := by
      rw [startSequence, if_neg (by decide), if_neg (by decide), if_neg (by decide), if_pos rfl,
        Option.bind_some, n.parse]
      split <;> rfl
    rw [number, IteratorPosition.start, ← start]
    rfl

end Issue

section Page

variable {D : DecimalOps} {accountId region name streamArn : String} {s s' : StreamReader}

theorem StreamReader.retained_of_found {t : Table} (found : s.tables[name]? = some t) :
    s.retained name = t.streamRecords := by
  rw [StreamReader.retained, found]
  rfl

/-- What GetRecords answers to an iterator of the stream. -/
theorem StreamReader.Inv.answer (inv : s.Inv accountId region name streamArn)
    (plain : ¬ iteratorSep <:+: streamArn.toList) {seq : Nat} (fits : seq < 2 ^ 64) (limit : Option Nat) :
    ∃ next, getRecords s.tables (recordsBody (makeShardIterator streamArn seq) limit) =
      .ok (((s.retained name).filter fun r => decide (seq ≤ r.number)).take (limit.getD 1000), next) := by
  obtain ⟨t, log, found, logged, arn⟩ := inv.table
  have room := inv.fits
  have field : stringField "ShardIterator" (recordsBody (makeShardIterator streamArn seq) limit) =
      some (makeShardIterator streamArn seq) := by
    cases limit <;> rfl
  have limited : (((recordsBody (makeShardIterator streamArn seq) limit).get? "Limit").bind
      Json.asU64?).getD 1000 = limit.getD 1000 := by
    cases limit <;> rfl
  rw [StreamReader.retained_of_found found, ← logged.recordsFrom_number (by omega)]
  rw [getRecords]
  simp only [field, limited, parseShardIterator_make plain inv.ends fits, inv.findStream_eq found arn]
  exact ⟨_, rfl⟩

/-- The records from a number on are the history from a place on, as far as the buffer goes back. -/
theorem StreamReader.Inv.filter_number (inv : s.Inv accountId region name streamArn) (seq : Nat) :
    ((s.retained name).filter fun r => decide (seq ≤ r.number)) =
      s.appended.drop (max (seq - 1) (s.appended.length - 1000)) := by
  obtain ⟨t, log, found, logged, arn⟩ := inv.table
  have accepts : ∀ i r, (ChangeLog.retained 1000 s.appended)[i]? = some r →
      decide (seq ≤ r.number) = decide (seq - 1 - (s.appended.length - 1000) ≤ i) := by
    intro i r there
    rw [ChangeLog.retained, List.getElem?_drop] at there
    rw [logged.number_eq there, decide_eq_decide]
    omega
  have first : s.appended.length - 1000 + (seq - 1 - (s.appended.length - 1000)) =
      max (seq - 1) (s.appended.length - 1000) := by omega
  rw [StreamReader.retained_of_found found, logged.records, ChangeLog.filter_eq_drop _ _ _ accepts,
    ChangeLog.retained, List.drop_drop, first]

theorem StreamReader.Inv.number_eq (inv : s.Inv accountId region name streamArn) {i : Nat}
    {r : StreamRecord} (there : s.appended[i]? = some r) : r.number = i + 1 := by
  obtain ⟨t, log, found, logged, arn⟩ := inv.table
  exact logged.number_eq there

/-- LATEST starts at the record before the ones to come. -/
theorem latest_right_iff (inv : s'.Inv accountId region name streamArn)
    {more : List StreamRecord} (grown : s'.appended = s.appended ++ more) (limit : Option Nat) :
    (∀ r ∈ ((s'.retained name).filter fun r => decide (s.appended.length ≤ r.number)).take
        (limit.getD 1000), r ∈ s'.appended.drop s.appended.length) ↔ PositionFits s s' limit .latest := by
  have length := congrArg List.length grown
  rw [List.length_append] at length
  rw [inv.filter_number]
  constructor
  · intro right
    by_contra unfit
    simp only [PositionFits, not_or] at unfit
    obtain ⟨nonempty, close, some_limit⟩ := unfit
    have positive : 0 < s.appended.length := List.length_pos_iff.mpr nonempty
    have wanted : 0 < limit.getD 1000 := by
      cases limit with
      | none => decide
      | some l => exact Nat.pos_of_ne_zero fun zero => some_limit (congrArg some zero)
    have first : max (s.appended.length - 1) (s'.appended.length - 1000) = s.appended.length - 1 := by omega
    have inside : s.appended.length - 1 < s'.appended.length := by omega
    have there := List.getElem?_eq_getElem inside
    -- the record that LATEST should leave out is the first of the page
    have listed : s'.appended[s.appended.length - 1] ∈ (s'.appended.drop (max (s.appended.length - 1)
        (s'.appended.length - 1000))).take (limit.getD 1000) := by
      refine List.mem_of_getElem? (i := 0) ?_
      rw [List.getElem?_take_of_lt wanted, List.getElem?_drop, first, Nat.add_zero, there]
    obtain ⟨j, again⟩ := List.getElem?_of_mem (right _ listed)
    rw [List.getElem?_drop] at again
    have numbers := (inv.number_eq there).symm.trans (inv.number_eq again)
    omega
  · intro fits r listed
    rcases fits with empty | far | none_wanted
    · rw [empty]
      exact List.mem_of_mem_drop (List.mem_of_mem_take listed)
    · have later : max (s.appended.length - 1) (s'.appended.length - 1000) =
          s.appended.length + (s'.appended.length - 1000 - s.appended.length) := by omega
      rw [later, ← List.drop_drop] at listed
      exact List.mem_of_mem_drop (List.mem_of_mem_take listed)
    · rw [none_wanted, Option.getD_some, List.take_zero] at listed
      cases listed

/-- After the largest number comes the first. -/
theorem after_right_iff (inv : s'.Inv accountId region name streamArn) (n : SequenceText)
    (limit : Option Nat) :
    ((s'.retained name).filter fun r => decide
        ((if n.number = 0 then 0 else (n.number + 1) % 2 ^ 64) ≤ r.number)).take (limit.getD 1000) =
      ((s'.retained name).filter fun r => decide (n.number < r.number)).take (limit.getD 1000) ↔
      PositionFits s s' limit (.afterSequenceNumber n) := by
  have room := inv.fits
  have bound : n.number < 2 ^ 64 := n.fits
  have expected := inv.filter_number (n.number + 1)
  rw [Nat.add_sub_cancel] at expected
  change _ = ((s'.retained name).filter fun r => decide (n.number + 1 ≤ r.number)).take _ ↔ _
  rw [inv.filter_number, expected]
  by_cases small : n.number + 1 < 2 ^ 64
  · have start : (if n.number = 0 then 0 else (n.number + 1) % 2 ^ 64) - 1 = n.number := by
      rw [Nat.mod_eq_of_lt small]
      split <;> omega
    rw [start]
    exact iff_of_true rfl (.inl small)
  · have start : (if n.number = 0 then 0 else (n.number + 1) % 2 ^ 64) - 1 = 0 := by
      rw [if_neg (by omega)]
      omega
    have nothing : s'.appended.drop (max n.number (s'.appended.length - 1000)) = [] :=
      List.drop_eq_nil_iff.mpr (by omega)
    rw [start, Nat.zero_max, nothing, List.take_nil, List.take_eq_nil_iff, List.drop_eq_nil_iff]
    have empty : s'.appended.length ≤ s'.appended.length - 1000 ↔ s'.appended = [] := by
      rw [← List.length_eq_zero_iff]
      omega
    have none_wanted : limit.getD 1000 = 0 ↔ limit = some 0 := by
      cases limit <;> simp
    rw [empty, none_wanted, PositionFits, or_iff_right small, or_comm]

/-- An iterator is answered with its page exactly when its ARN is plain and the position fits. -/
theorem StreamReader.Inv.position_iff (inv : s.Inv accountId region name streamArn)
    (inv' : s'.Inv accountId region name streamArn) {more : List StreamRecord}
    (grown : s'.appended = s.appended ++ more) (limit : Option Nat) (p : IteratorPosition) :
    PositionRight s s' name streamArn limit p ↔
      ¬ iteratorSep <:+: streamArn.toList ∧ PositionFits s s' limit p := by
  have small : p.start s < 2 ^ 64 := by
    have room := inv.fits
    cases p with
    | latest =>
      rw [IteratorPosition.start]
      omega
    | atSequenceNumber n => exact n.fits
    | afterSequenceNumber n =>
      rw [IteratorPosition.start]
      split
      · decide
      · exact Nat.mod_lt _ (by decide)
  have right : ∀ page, page = ((s'.retained name).filter fun r => decide (p.start s ≤ r.number)).take
      (limit.getD 1000) → (RightPage s s' name limit page p ↔ PositionFits s s' limit p) := by
    rintro page rfl
    cases p with
    | latest => exact latest_right_iff inv' grown limit
    | atSequenceNumber n => exact iff_of_true rfl trivial
    | afterSequenceNumber n => exact after_right_iff inv' n limit
  constructor
  · rintro ⟨it, page, next, issued, own, answered, page_right⟩
    rw [inv.issue p, Except.ok.injEq] at issued
    subst issued
    obtain ⟨⟨x, k⟩, parsed, same⟩ := Option.map_eq_some_iff.mp own
    have plain : ¬ iteratorSep <:+: streamArn.toList := by
      rw [← same]
      exact parseShardIterator_arn rfl parsed
    obtain ⟨next', answer⟩ := inv'.answer plain small limit
    rw [answer, Except.ok.injEq, Prod.mk.injEq] at answered
    exact ⟨plain, (right page answered.1.symm).mp page_right⟩
  · rintro ⟨plain, fits⟩
    obtain ⟨next, answer⟩ := inv'.answer plain small limit
    refine ⟨_, _, next, inv.issue p, ?_, answer, (right _ rfl).mpr fits⟩
    rw [parseShardIterator_make plain inv.ends small]
    rfl

end Page

/-- With any writes before an iterator is issued and any writes before it is used, GetRecords answers it
with the right page exactly when the stream ARN is plain and the position fits. -/
theorem iterator_positions_iff (D : DecimalOps) (accountId region name streamArn : String)
    (tables : StrMap Table) (t : Table) (fresh : FreshTables accountId region tables)
    (found : tables[name]? = some t) (enabled : t.streamSpecification.streamEnabled = true)
    (arn : t.streamArn = some streamArn) (earlier later : List (String × RowOp))
    (few : earlier.length + later.length + 1 < 2 ^ 64) (limit : Option Nat) (p : IteratorPosition) :
    let s := (StreamReader.initial tables).writeRows D name streamArn earlier
    let s' := s.writeRows D name streamArn later
    PositionRight s s' name streamArn limit p ↔
      ¬ iteratorSep <:+: streamArn.toList ∧ PositionFits s s' limit p := by
  intro s s'
  have start := StreamReader.initial_inv fresh found enabled arn
  have zero : (StreamReader.initial tables).appended.length = 0 := rfl
  obtain ⟨inv, first, appended, short⟩ := start.writeRows (D := D) earlier (by omega)
  have size := congrArg List.length appended
  rw [List.length_append, zero] at size
  obtain ⟨inv', more, grown, _⟩ := inv.writeRows (D := D) later (by omega)
  exact inv.position_iff inv' grown limit p

def ordersArn : String := "arn:aws:dynamodb:us-east-1:000000000000:table/orders/stream/0"

/-- The reader of the orders after one put. -/
def oneOrder : StreamReader :=
  (StreamReader.initial (oneStreamedTable "orders")).writeRows wholeDecimals "orders" ordersArn
    [("orders", .item (.putItem 0 streamedItem))]

def firstNumber : SequenceText where
  text := "1"
  nonempty := by decide
  digits := List.all_eq_true.mp (by decide)
  fits := by decide +kernel

theorem orders_from_first :
    PositionRight oneOrder (oneOrder.writeRows wholeDecimals "orders" ordersArn []) "orders" ordersArn none
      (.atSequenceNumber firstNumber) :=
  (iterator_positions_iff wholeDecimals "000000000000" "us-east-1" "orders" ordersArn
    (oneStreamedTable "orders") (streamedTable "orders") (oneStreamedTable_fresh "orders")
    (by simp [oneStreamedTable]) rfl (by decide +kernel) [("orders", .item (.putItem 0 streamedItem))] []
    (by decide) none _).mpr ⟨by decide +kernel, trivial⟩

/-- An iterator issued with LATEST after the put returns the record of the put. -/
theorem latest_returns_earlier : ¬ PositionRight oneOrder oneOrder "orders" ordersArn none .latest := by
  rintro ⟨it, page, next, issued, _, answered, right⟩
  have text : (getShardIterator oneOrder.tables (IteratorPosition.latest.body ordersArn)).toOption =
      some (ordersArn ++ "::shard-0000000001::00000000000000000001") := by decide +kernel
  rw [issued] at text
  obtain rfl : it = ordersArn ++ "::shard-0000000001::00000000000000000001" := Option.some.inj text
  have size : (getRecords oneOrder.tables (recordsBody (ordersArn ++
      "::shard-0000000001::00000000000000000001") none)).toOption.map (fun a => a.1.length) = some 1 := by
    decide +kernel
  rw [answered] at size
  have nonempty : page ≠ [] := by
    rintro rfl
    cases size
  obtain ⟨r, listed⟩ := List.exists_mem_of_ne_nil _ nonempty
  have again := right r listed
  rw [List.drop_length] at again
  cases again

end Openstack.DynamoDb

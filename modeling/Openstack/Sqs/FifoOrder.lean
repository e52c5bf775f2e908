import Openstack.Sqs.Visibility

/-!
# Order within a message group

A receive takes the first messages in sight, whatever their group. A message of a group is thus
returned while an earlier one of its group is still in the queue exactly when the earlier one is out
of sight: in flight, or delayed.
-/
namespace Openstack.Sqs

theorem Received.mem_positions {vt limit counter idx counter' : Nat} {now : Instant}
    {msgs taken msgs' : List SqsMessage} {positions : List Nat}
    (received : Received vt now limit counter idx msgs positions taken msgs' counter') (i : Nat)
    (m : SqsMessage) (there : msgs[i]? = some m) :
    idx + i ∈ positions ↔
      m.isVisibleAt now = true ∧ (msgs.take i).countP (·.isVisibleAt now) < limit := by
  induction received generalizing i with
  | nil => simp at there
  | full => simp
  | @take limit counter idx counter' x rest taken rest' positions visible later ih =>
    cases i with
    | zero =>
      obtain rfl : x = m := by simpa using there
      simp [visible]
    | succ j =>
      have behind : idx + 1 + j ≠ idx := by omega
      have next := ih j (by simpa using there)
      rw [show idx + (j + 1) = idx + 1 + j by omega]
      simp only [List.mem_cons, behind, false_or, next, List.take_succ_cons, List.countP_cons, visible,
        if_true]
      constructor <;> (rintro ⟨seen, count⟩; exact ⟨seen, by omega⟩)
  | @hidden limit counter idx counter' x rest taken rest' positions invisible later ih =>
    cases i with
    | zero =>
      obtain rfl : x = m := by simpa using there
      have absent : idx ∉ positions := by
        intro member
        have := later.le_position _ member
        omega
      simp [absent, invisible]
    | succ j =>
      rw [show idx + (j + 1) = idx + 1 + j by omega, ih j (by simpa using there)]
      simp [invisible]

namespace Numbered

/-- A receive takes the messages that are among the first `maxNumber` in sight. -/
theorem mem_returned_iff {w : Numbered} {e : Event} {maxNumber : Nat} {vt : Option Nat}
    (op : e.op = .receive maxNumber vt) {i n : Nat} {m : SqsMessage} (number : w.numbers[i]? = some n)
    (there : w.queue.messages[i]? = some m) :
    n ∈ w.returned e ↔ w.queue.delivers e.now maxNumber i m = true := by
  obtain ⟨taken, received⟩ := receiveMessages_received e.now e.counter w.queue maxNumber vt
  rw [mem_returned number, SqsQueue.answer, op]
  have position := received.mem_positions i m there
  rw [Nat.zero_add] at position
  simp [position, SqsQueue.delivers]

theorem answer_sorted (q : SqsQueue) (e : Event) : (q.answer e).Pairwise (· < ·) := by
  unfold SqsQueue.answer
  split
  · next maxNumber vt _ =>
    obtain ⟨taken, received⟩ := receiveMessages_received e.now e.counter q maxNumber vt
    exact received.sorted
  · exact .nil

/-- The answer lists the messages in the order of acceptance. -/
theorem returned_sorted (w : Numbered) (e : Event) : (w.returned e).Pairwise (· < ·) := by
  refine List.pairwise_filterMap.mpr ((answer_sorted w.queue e).imp ?_)
  intro i j before n number k number'
  obtain ⟨bound, rfl⟩ := List.getElem?_eq_some_iff.mp number
  obtain ⟨bound', rfl⟩ := List.getElem?_eq_some_iff.mp number'
  exact List.pairwise_iff_getElem.mp w.sorted i j bound bound' before

/-- Of two returned messages the one accepted first comes first. -/
theorem returned_before {w : Numbered} {e : Event} {a b : Nat} (before : a < b)
    (left : a ∈ w.returned e) (right : b ∈ w.returned e) : [a, b].Sublist (w.returned e) := by
  have sorted := w.returned_sorted e
  obtain ⟨front, back, split⟩ := List.append_of_mem right
  rw [split] at left sorted ⊢
  rcases List.mem_append.mp left with earlier | later
  · exact List.Sublist.append (List.singleton_sublist.mpr earlier) (by simp)
  · rcases List.mem_cons.mp later with same | behind
    · omega
    · have after := (List.pairwise_cons.mp (List.pairwise_append.mp sorted).2.1).1 a behind
      omega

/-- The event returns no message of a group while one accepted earlier is in the queue, unless it
returns the earlier one first. -/
def KeepsGroupOrder (w : Numbered) (e : Event) : Prop :=
  ∀ a b ma mb group, a < b → w.Has a ma → w.Has b mb → ma.messageGroupId = some group →
    mb.messageGroupId = some group → b ∈ w.returned e → [a, b].Sublist (w.returned e)

/-- No message of a receive's first `maxNumber` in sight has one of its group in front of it that is
out of sight. -/
def NoneHiddenInFront (w : Numbered) (e : Event) : Prop :=
  ∀ maxNumber vt, e.op = .receive maxNumber vt → ∀ (i j : Nat) ma mb group, i < j →
    w.queue.messages[i]? = some ma → w.queue.messages[j]? = some mb →
    ma.messageGroupId = some group → mb.messageGroupId = some group →
    w.queue.delivers e.now maxNumber j mb = true → ma.isVisibleAt e.now = true

theorem numbers_lt_iff {w : Numbered} {i j a b : Nat} (left : w.numbers[i]? = some a)
    (right : w.numbers[j]? = some b) : a < b ↔ i < j := by
  obtain ⟨bound, rfl⟩ := List.getElem?_eq_some_iff.mp left
  obtain ⟨bound', rfl⟩ := List.getElem?_eq_some_iff.mp right
  have sorted := List.pairwise_iff_getElem.mp w.sorted
  constructor
  · intro less
    by_contra behind
    rcases Nat.lt_or_eq_of_le (Nat.not_lt.mp behind) with before | same
    · have := sorted j i bound' bound before
      omega
    · subst same
      omega
  · exact sorted i j bound bound'

theorem number_of_message {w : Numbered} {i : Nat} {m : SqsMessage}
    (there : w.queue.messages[i]? = some m) : ∃ n, w.numbers[i]? = some n := by
  obtain ⟨bound, _⟩ := List.getElem?_eq_some_iff.mp there
  rw [← w.length_eq] at bound
  exact ⟨_, List.getElem?_eq_getElem bound⟩

theorem keepsGroupOrder_iff (w : Numbered) (e : Event) :
    w.KeepsGroupOrder e ↔ w.NoneHiddenInFront e := by
  constructor
  · intro kept maxNumber vt op i j ma mb group before left right groupA groupB delivered
    obtain ⟨a, numberA⟩ := number_of_message left
    obtain ⟨b, numberB⟩ := number_of_message right
    have returned := (mem_returned_iff op numberB right).mpr delivered
    have order := kept a b ma mb group ((numbers_lt_iff numberA numberB).mpr before)
      ⟨i, numberA, left⟩ ⟨j, numberB, right⟩ groupA groupB returned
    have first : a ∈ w.returned e := order.subset List.mem_cons_self
    have taken := (mem_returned_iff op numberA left).mp first
    unfold SqsQueue.delivers at taken
    exact (Bool.and_eq_true_iff.mp taken).1
  · intro free a b ma mb group before hasA hasB groupA groupB returned
    obtain ⟨i, numberA, left⟩ := hasA
    obtain ⟨j, numberB, right⟩ := hasB
    obtain ⟨_, maxNumber, vt, _, op, _⟩ := returned_has ⟨fun _ => "", fun _ => none⟩ returned
    have position := (numbers_lt_iff numberA numberB).mp before
    have visible := free maxNumber vt op i j ma mb group position left right groupA groupB
      ((mem_returned_iff op numberB right).mp returned)
    obtain ⟨taken, received⟩ := receiveMessages_received e.now e.counter w.queue maxNumber vt
    have later : 0 + j ∈ (w.queue.receiveMessages e.now e.counter maxNumber vt).1 := by
      have answered := (mem_returned numberB).mp returned
      simpa [SqsQueue.answer, op] using answered
    have first := received.visible_before position later left visible
    refine returned_before before ((mem_returned numberA).mpr ?_) returned
    simpa [SqsQueue.answer, op] using first

end Numbered

/-- Along every run of a queue: each receive keeps the order of the groups exactly if none of the
messages it takes has a message of its group in front of it that is out of sight. -/
theorem fifo_group_order_iff (env : Env) (w : Numbered) (events : List Event) :
    Run.AllSteps (Numbered.step env) Numbered.KeepsGroupOrder w events ↔
      Run.AllSteps (Numbered.step env) Numbered.NoneHiddenInFront w events := by
  induction events generalizing w with
  | nil => exact Iff.rfl
  | cons e rest ih => exact and_congr (w.keepsGroupOrder_iff e) (ih (w.step env e))

/-- An empty FIFO queue. -/
def emptyFifoQueue : Numbered := .ofNew "jobs.fifo"

/-- The second message of a group is returned while the first is in flight. -/
theorem group_overtaken :
    ¬ Run.AllSteps (Numbered.step emptyBodyEnv) Numbered.KeepsGroupOrder emptyFifoQueue
      [⟨0, 1, .send ⟨"", none, ∅, some "g", some "1"⟩⟩, ⟨0, 3, .send ⟨"", none, ∅, some "g", some "2"⟩⟩,
        ⟨0, 5, .receive 1 none⟩, ⟨0, 6, .receive 1 none⟩] := by
  rintro ⟨_, _, _, last, _⟩
  have order := last 0 1 _ _ "g" (by decide) ⟨0, rfl, rfl⟩ ⟨1, rfl, rfl⟩ rfl rfl (by decide +kernel)
  exact absurd order (by decide +kernel)

end Openstack.Sqs

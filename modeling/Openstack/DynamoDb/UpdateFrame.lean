import Openstack.DynamoDb.SortContract

/-!
# Which rows UpdateItem touches

UpdateItem reads the row of the key that it is given and puts the updated item under the key that this
item has by then (`provider.rs:1083-1103`). An expression may set or remove a key attribute, and the key
that is given may be a Boolean, under which the reading side finds nothing.
-/
namespace Openstack.DynamoDb

section Statement

variable (D : DecimalOps) (now : Int) (key : Item) (updateExpr : Option String) (o : WriteOptions) (t : Table)

/-- The item that the request would report with `ReturnValues` ALL_NEW. -/
def ReportsNew (item : Item) : Prop :=
  (updateItemOn D now key updateExpr { o with returnValues := "ALL_NEW" } t).1 =
    .ok (.attributes (some item))

/-- The request changes the row of its key and no other. Two keys are different when the store tells them
apart by their texts. -/
structure UpdatesOnlyKey : Prop where
  stored : (updateItemOn D now key updateExpr o t).1.status = some 200 → ∃ item,
    (updateItemOn D now key updateExpr o t).2.getItem key = some item ∧
      ReportsNew D now key updateExpr o t item
  others : (updateItemOn D now key updateExpr o t).1.status = some 200 →
    ∀ k, t.extractKeyRefFromItem k ≠ t.extractKeyFromItem key →
      (updateItemOn D now key updateExpr o t).2.getItem k = t.getItem k
  refused : (updateItemOn D now key updateExpr o t).1.status ≠ some 200 →
    (updateItemOn D now key updateExpr o t).2 = t

/-- The request gets as far as to put this item; the row that it read is the one at `h` and `s`. -/
structure Puts (h s : String) (item : Item) : Prop where
  admitted : o.refusal (t.getItem key) = none
  filed : t.extractKeyFromItem key = some (h, s)
  updated : updatedItem D ((row t.items h s).getD key) updateExpr o.attrNames o.attrValues = some item

/-- No key attribute is a Boolean, and the update leaves the item under its key. -/
def KeepsKey : Prop :=
  ∀ h s item, Puts D key updateExpr o t h s item →
    t.extractKeyRefFromItem key = some (h, s) ∧ t.extractKeyFromItem item = some (h, s)

end Statement

variable {D : DecimalOps} {now : Int} {key : Item} {updateExpr : Option String} {o : WriteOptions}
  {t : Table} {h s : String} {item : Item}

theorem Puts.result (puts : Puts D key updateExpr o t h s item) :
    updateItemOn D now key updateExpr o t =
      (.ok (.attributes (updateAttributes o.returnValues (row t.items h s) item)),
        (t.putItem now item).2) := by
  unfold updateItemOn
  simp only [puts.admitted, puts.filed, puts.updated]

theorem Puts.reports (puts : Puts D key updateExpr o t h s item) :
    ReportsNew D now key updateExpr o t item := by
  have again : Puts D key updateExpr { o with returnValues := "ALL_NEW" } t h s item :=
    ⟨puts.admitted, puts.filed, puts.updated⟩
  rw [ReportsNew, again.result]
  rfl

theorem refusal_status {existing : Option Item} {r : Response} (refused : o.refusal existing = some r) :
    r.status ≠ some 200 := by
  unfold WriteOptions.refusal at refused
  split at refused
  · cases refused
  · split at refused
    · cases refused
      decide
    · cases refused
      simp [Response.status]
    · cases refused

/-- A request that does not get so far is not answered with 200 and leaves the table. -/
theorem updateItemOn_idle (now : Int) (idle : ∀ h s item, ¬ Puts D key updateExpr o t h s item) :
    (updateItemOn D now key updateExpr o t).1.status ≠ some 200 ∧
      (updateItemOn D now key updateExpr o t).2 = t := by
  unfold updateItemOn
  cases admitted : o.refusal (t.getItem key) with
  | some r => exact ⟨refusal_status admitted, rfl⟩
  | none =>
    cases filed : t.extractKeyFromItem key with
    | none =>
      simp only
      exact ⟨by simp [validationException, Response.status], trivial⟩
    | some k =>
      obtain ⟨h, s⟩ := k
      cases updated : updatedItem D ((row t.items h s).getD key) updateExpr o.attrNames o.attrValues with
      | none =>
        simp only [updated]
        exact ⟨by simp [Response.status], trivial⟩
      | some item => exact absurd ⟨admitted, filed, updated⟩ (idle h s item)

theorem Table.putItem_unfiled {t : Table} {item : Item} (now : Int)
    (unfiled : t.extractKeyFromItem item = none) : (t.putItem now item).2 = t := by
  simp [Table.putItem, unfiled]

/-- A row that a get finds lies under the key that names it. -/
theorem Table.RowInvariant.keyed_of_getItem {t : Table} (invariant : t.RowInvariant) {key item : Item}
    (found : t.getItem key = some item) : ∃ k, t.extractKeyRefFromItem key = some k ∧
      t.extractKeyFromItem item = some k := by
  unfold Table.getItem at found
  cases named : t.extractKeyRefFromItem key with
  | none => simp [named] at found
  | some k =>
    rw [named] at found
    exact ⟨k, rfl, invariant.keyed k.1 k.2 item found⟩

/-- An item put under another key, or under none, is not found under this one. -/
theorem Table.RowInvariant.same_key_of_put {t : Table} (invariant : t.RowInvariant) {now : Int}
    {key item : Item} (found : (t.putItem now item).2.getItem key = some item) :
    ∃ k, t.extractKeyRefFromItem key = some k ∧ t.extractKeyFromItem item = some k := by
  cases filed : t.extractKeyFromItem item with
  | none =>
    rw [Table.putItem_unfiled now filed] at found
    obtain ⟨k, -, same⟩ := invariant.keyed_of_getItem found
    rw [filed] at same
    cases same
  | some k =>
    rw [Table.getItem_putItem now filed] at found
    split at found
    · next named => exact ⟨k, named, rfl⟩
    · obtain ⟨k', named, same⟩ := invariant.keyed_of_getItem found
      rw [filed] at same
      exact ⟨k', named, same⟩

/-- In every reachable table, UpdateItem touches only its key exactly if it keeps the key. -/
theorem updates_only_key_iff (reachable : t.Reachable D) (now : Int) (key : Item)
    (updateExpr : Option String) (o : WriteOptions) :
    UpdatesOnlyKey D now key updateExpr o t ↔ KeepsKey D key updateExpr o t := by
  constructor
  · intro only h s item puts
    obtain ⟨item', found, reported⟩ := only.stored (by rw [puts.result]; rfl)
    have same : item' = item := by
      have both := reported.symm.trans puts.reports
      simpa using both
    rw [puts.result, same] at found
    obtain ⟨k, named, filed⟩ := reachable.invariant.same_key_of_put found
    have own := Table.extractKeyRef_some named
    rw [puts.filed, Option.some.injEq] at own
    exact ⟨own ▸ named, own ▸ filed⟩
  · intro keeps
    by_cases idle : ∀ h s item, ¬ Puts D key updateExpr o t h s item
    · obtain ⟨status, same⟩ := updateItemOn_idle now idle
      exact ⟨fun ok => absurd ok status, fun ok => absurd ok status, fun _ => same⟩
    · simp only [not_forall, not_not] at idle
      obtain ⟨h, s, item, puts⟩ := idle
      obtain ⟨named, filed⟩ := keeps h s item puts
      refine ⟨fun _ => ⟨item, ?_, puts.reports⟩, fun _ k other => ?_, fun refused => ?_⟩
      · rw [puts.result, Table.getItem_putItem now filed, if_pos named]
      · rw [puts.filed] at other
        rw [puts.result, Table.getItem_putItem now filed, if_neg other]
      · rw [puts.result] at refused
        exact absurd rfl refused

def unconditional (values : AttrValues) : WriteOptions := ⟨none, ∅, values, "NONE"⟩

theorem updates_only_key_iff_row :
    UpdatesOnlyKey wholeDecimals 0 (rowWithSk (.s "a")) none (unconditional ∅) (tableOf []) ↔
      KeepsKey wholeDecimals (rowWithSk (.s "a")) none (unconditional ∅) (tableOf []) :=
  updates_only_key_iff (tableOf_reachable []) 0 (rowWithSk (.s "a")) none (unconditional ∅)

/-- `SET sk = :v` answers with 200, and stores the item under another key. -/
theorem update_moves_item :
    (tableOf []).Reachable wholeDecimals ∧
      ¬ UpdatesOnlyKey wholeDecimals 0 (rowWithSk (.s "a")) (some "SET sk = :v")
        (unconditional ((∅ : AttrValues).insert ":v" (.s "b"))) (tableOf []) := by
  refine ⟨tableOf_reachable [], fun only => ?_⟩
  obtain ⟨item, found, -⟩ := only.stored (by decide +kernel)
  have missing : ((updateItemOn wholeDecimals 0 (rowWithSk (.s "a")) (some "SET sk = :v")
    (unconditional ((∅ : AttrValues).insert ":v" (.s "b"))) (tableOf [])).2.getItem
      (rowWithSk (.s "a"))).isSome = false := by decide +kernel
  rw [found] at missing
  cases missing

end Openstack.DynamoDb

import Openstack.Lib.RustStr

/-!
`s.replace(pat, repl)`, piece by piece: texts in which the pattern does not begin stay as they are, and a
replacement by something shorter leaves the whole text as it is or makes it shorter.
-/
namespace Openstack.Replacement

/-- A replacement that works chunk by chunk. -/
theorem replace_flatMap {pat repl : List Char} {f g : Char → List Char}
    (chunk : ∀ c rest, RustStr.replace pat repl (f c ++ rest) = g c ++ RustStr.replace pat repl rest)
    (text : List Char) : RustStr.replace pat repl (text.flatMap f) = text.flatMap g := by
  induction text with
  | nil => rfl
  | cons c text ih => rw [List.flatMap_cons, chunk, ih, List.flatMap_cons]

theorem replace_cons_of_ne {p c : Char} (other : c ≠ p) (pat repl rest : List Char) :
    RustStr.replace (p :: pat) repl (c :: rest) = c :: RustStr.replace (p :: pat) repl rest := by
  have here : (p :: pat).isPrefixOf (c :: rest) = false := by
    simp [List.isPrefixOf, Ne.symm other]
  rw [RustStr.replace, RustStr.replaceFrom, here]
  rfl

theorem replaceFrom_skip (pat repl front rest : List Char) :
    RustStr.replaceFrom pat repl front.length (front ++ rest) = RustStr.replaceFrom pat repl 0 rest := by
  induction front with
  | nil => rfl
  | cons c front ih => rw [List.length_cons, List.cons_append, RustStr.replaceFrom, ih]

theorem replace_self (p : Char) (pat repl rest : List Char) :
    RustStr.replace (p :: pat) repl (p :: pat ++ rest) = repl ++ RustStr.replace (p :: pat) repl rest := by
  have here : (p :: pat).isPrefixOf (p :: (pat ++ rest)) = true :=
    List.isPrefixOf_iff_prefix.mpr (List.prefix_append (p :: pat) rest)
  rw [RustStr.replace, List.cons_append, RustStr.replaceFrom, if_pos here, List.length_cons,
    Nat.add_sub_cancel, replaceFrom_skip]
  rfl

theorem replace_plain {p : Char} {front : List Char} (plain : p ∉ front) (pat repl rest : List Char) :
    RustStr.replace (p :: pat) repl (front ++ rest) = front ++ RustStr.replace (p :: pat) repl rest := by
  induction front with
  | nil => rfl
  | cons c front ih =>
    rw [List.mem_cons, not_or] at plain
    rw [List.cons_append, replace_cons_of_ne (Ne.symm plain.1), ih plain.2, List.cons_append]

/-- Something else that begins like the pattern stays as it is. -/
theorem replace_other {p : Char} {pat entity : List Char} (plain : p ∉ entity)
    (other : ∀ rest, (p :: pat).isPrefixOf (p :: (entity ++ rest)) = false) (repl rest : List Char) :
    RustStr.replace (p :: pat) repl (p :: entity ++ rest) =
      p :: entity ++ RustStr.replace (p :: pat) repl rest := by
  rw [List.cons_append, RustStr.replace, RustStr.replaceFrom, other, List.cons_append]
  exact congrArg (p :: ·) (replace_plain plain pat repl rest)

/-- No occurrence of the pattern runs over a character that it does not have. -/
theorem replaceFrom_append_cons {pat a b : List Char} {c : Char} (nonempty : pat ≠ []) (absent : c ∉ pat)
    (repl : List Char) {skip : Nat} (within : skip ≤ a.length) :
    RustStr.replaceFrom pat repl skip (a ++ c :: b) =
      RustStr.replaceFrom pat repl skip a ++ c :: RustStr.replaceFrom pat repl 0 b := by
  induction a generalizing skip with
  | nil =>
    obtain rfl : skip = 0 := by simpa using within
    have here : ¬ pat.isPrefixOf (c :: b) = true := by
      rw [List.isPrefixOf_iff_prefix]
      intro found
      cases pat with
      | nil => exact nonempty rfl
      | cons p ps => exact absent (by simp [(List.cons_prefix_cons.mp found).1])
    simp only [List.nil_append, RustStr.replaceFrom, if_neg here]
  | cons d a ih =>
    cases skip with
    | succ skip =>
      rw [List.cons_append, RustStr.replaceFrom, RustStr.replaceFrom]
      exact ih (Nat.le_of_succ_le_succ within)
    | zero =>
      have same : pat.isPrefixOf (d :: (a ++ c :: b)) = pat.isPrefixOf (d :: a) := by
        rw [Bool.eq_iff_iff, List.isPrefixOf_iff_prefix, List.isPrefixOf_iff_prefix]
        constructor
        · intro found
          refine List.prefix_of_prefix_length_le found (List.prefix_append (d :: a) (c :: b)) ?_
          by_contra long
          obtain ⟨rest, whole⟩ := found
          have char : (pat ++ rest)[(d :: a).length]? = some c := by
            rw [whole, ← List.cons_append]
            simp
          rw [List.getElem?_append_left (by omega)] at char
          exact absent (List.mem_of_getElem? char)
        · exact fun found => found.trans (List.prefix_append (d :: a) (c :: b))
      rw [List.cons_append, RustStr.replaceFrom, RustStr.replaceFrom, same]
      split
      · next here =>
        have short := (List.isPrefixOf_iff_prefix.mp here).length_le
        rw [List.length_cons] at short
        rw [ih (by omega), List.append_assoc]
      · rw [ih (Nat.zero_le _)]
        rfl

/-- A replacement by something shorter leaves a text as it is or makes it shorter. -/
theorem length_replaceFrom_le {pat repl : List Char} (shorter : repl.length ≤ pat.length) (skip : Nat)
    (s : List Char) : (RustStr.replaceFrom pat repl skip s).length ≤ s.length - skip := by
  induction s generalizing skip with
  | nil => simp [RustStr.replaceFrom]
  | cons c rest ih =>
    cases skip with
    | succ skip =>
      rw [RustStr.replaceFrom, List.length_cons]
      exact (ih skip).trans (by omega)
    | zero =>
      rw [RustStr.replaceFrom]
      split
      · next here =>
        have inside := (List.isPrefixOf_iff_prefix.mp here).length_le
        have later := ih (pat.length - 1)
        rw [List.length_append, List.length_cons] at *
        omega
      · have later := ih 0
        simp only [List.length_cons]
        omega

theorem contains_cons (pat : List Char) (c : Char) (s : List Char) :
    RustStr.contains (c :: s) pat = (pat.isPrefixOf (c :: s) || RustStr.contains s pat) := by
  rw [RustStr.contains, RustStr.before, RustStr.contains]
  split
  · next here => rw [here]; rfl
  · next absent => rw [Bool.eq_false_iff.mpr absent, Bool.false_or, Option.isSome_map]

theorem replace_eq_or_shorter {pat repl : List Char} (shorter : repl.length < pat.length) (s : List Char) :
    RustStr.contains s pat = false ∧ RustStr.replace pat repl s = s ∨
      RustStr.contains s pat = true ∧ (RustStr.replace pat repl s).length < s.length := by
  induction s with
  | nil =>
    have none : pat.isEmpty = false := by
      cases pat with
      | nil => cases shorter
      | cons p pat => rfl
    exact .inl ⟨by simp [RustStr.contains, RustStr.before, none], rfl⟩
  | cons c rest ih =>
    unfold RustStr.replace at ih ⊢
    rw [RustStr.replaceFrom, contains_cons]
    split
    · next here =>
      have inside := (List.isPrefixOf_iff_prefix.mp here).length_le
      have later := length_replaceFrom_le (Nat.le_of_lt shorter) (pat.length - 1) rest
      refine .inr ⟨by rw [here, Bool.true_or], ?_⟩
      rw [List.length_append, List.length_cons] at *
      omega
    · next absent =>
      rw [Bool.eq_false_iff.mpr absent, Bool.false_or]
      rcases ih with ⟨none, same⟩ | ⟨some, less⟩
      · exact .inl ⟨none, by rw [same]⟩
      · exact .inr ⟨some, by simpa using less⟩

/-- One replacement after the other. -/
theorem foldl_replace_eq_or_shorter {table : List (String × String)}
    (shorter : ∀ e ∈ table, e.2.toList.length < e.1.toList.length) (s : List Char) :
    (∀ e ∈ table, RustStr.contains s e.1.toList = false) ∧
        table.foldl (fun text e => RustStr.replace e.1.toList e.2.toList text) s = s ∨
      (¬ ∀ e ∈ table, RustStr.contains s e.1.toList = false) ∧
        (table.foldl (fun text e => RustStr.replace e.1.toList e.2.toList text) s).length <
          s.length := by
  induction table generalizing s with
  | nil => exact .inl ⟨by simp, rfl⟩
  | cons e table ih =>
    obtain ⟨first, others⟩ := List.forall_mem_cons.mp shorter
    rw [List.foldl_cons, List.forall_mem_cons]
    rcases replace_eq_or_shorter first s with ⟨none, same⟩ | ⟨some, less⟩
    · rw [same, none]
      simpa using ih others s
    · right
      refine ⟨fun both => ?_, ?_⟩
      · rw [some] at both
        cases both.1
      · rcases ih others (RustStr.replace e.1.toList e.2.toList s) with ⟨_, stays⟩ | ⟨_, again⟩
        · rwa [stays]
        · exact again.trans less

end Openstack.Replacement

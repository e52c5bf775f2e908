import Openstack.DynamoDb.ExpressionReading
import Openstack.DynamoDb.KeyCondition

/-!
# Cutting key conditions

The splitter passes over a printed clause, or it panics in it: a clause in ASCII is passed, and a character
outside ASCII stops the scan unless it stands in the parentheses of a call and far enough from the bracket.
-/
namespace Openstack.DynamoDb

theorem eq_of_toLower {c d : Char} (folded : c.toLower = d) (plain : d.isAlpha = false) : c = d := by
  have plain' : c.isAlpha = false := by rw [← Char.isAlpha_toLower_eq_isAlpha, folded, plain]
  have small : ¬ c.isUpper := by
    intro upper
    simp [Char.isAlpha, upper] at plain'
  rw [← folded, Char.toLower_eq_of_not_isUpper small]

theorem eq_of_toUpper {c d : Char} (folded : c.toUpper = d) (plain : d.isAlpha = false) : c = d := by
  have plain' : c.isAlpha = false := by rw [← Char.isAlpha_toUpper_eq_isAlpha, folded, plain]
  have big : ¬ c.isLower := by
    intro lower
    simp [Char.isAlpha, lower] at plain'
  rw [← folded, Char.toUpper_eq_of_not_isLower big]

theorem toUpper_ascii {c : Char} (ascii : c.utf8Size = 1) : c.toUpper.utf8Size = 1 := by
  by_cases lower : c.isLower = true
  · have bounds : 97 ≤ c.toNat ∧ c.toNat ≤ 122 := by
      simp only [Char.isLower, Bool.and_eq_true, decide_eq_true_eq, ge_iff_le, UInt32.le_iff_toNat_le] at lower
      exact lower
    have small : ∀ n < 128, (Char.ofNat n).utf8Size = 1 := by decide
    rw [Char.toUpper_eq_of_isLower lower]
    exact small _ (by omega)
  · rw [Char.toUpper_eq_of_not_isLower lower, ascii]

theorem splitAtByte_ascii {front : Text} (ascii : ∀ c ∈ front, c.utf8Size = 1) (rest : Text) :
    splitAtByte front.length (front ++ rest) = some (front, rest) := by
  induction front with
  | nil => cases rest <;> rfl
  | cons c more ih =>
    have one : c.utf8Size = 1 := ascii c (by simp)
    have later := ih fun x mem => ascii x (by simp [mem])
    rw [List.length_cons, List.cons_append, splitAtByte, if_pos (by omega), one, Nat.add_sub_cancel, later]
    rfl

theorem splitAtByte_byteLen (front rest : Text) :
    splitAtByte (byteLen front) (front ++ rest) = some (front, rest) := by
  induction front with
  | nil => cases rest <;> rfl
  | cons c more ih =>
    have positive := c.utf8Size_pos
    obtain ⟨n, size⟩ : ∃ n, byteLen (c :: more) = n + 1 := by
      refine ⟨byteLen (c :: more) - 1, ?_⟩
      simp only [byteLen, List.map_cons, List.sum_cons]
      omega
    have left : n + 1 - c.utf8Size = byteLen more := by
      simp only [byteLen, List.map_cons, List.sum_cons] at size ⊢
      omega
    have fits : c.utf8Size ≤ n + 1 := by
      simp only [byteLen, List.map_cons, List.sum_cons] at size
      omega
    rw [size, List.cons_append, splitAtByte, if_pos fits, left, ih]
    rfl

/-- The first five bytes end inside a character. -/
theorem not_sliceable_of_inside {front : Text} (more : Text) {d : Char} (four : front.length = 4)
    (ascii : ∀ c ∈ front, c.utf8Size = 1) (wide : d.utf8Size ≠ 1) :
    sliceable (front ++ d :: more) = false := by
  have boundary : ∀ front : Text, (∀ c ∈ front, c.utf8Size = 1) →
      isCharBoundary (front.length + 1) (front ++ d :: more) = false := by
    intro front ascii
    induction front with
    | nil =>
      have := d.utf8Size_pos
      have long : ¬ d.utf8Size ≤ 1 := by omega
      simp [isCharBoundary, long]
    | cons c rest ih =>
      have one : c.utf8Size = 1 := ascii c (by simp)
      have later := ih fun x mem => ascii x (by simp [mem])
      simp [isCharBoundary, one, later]
  have cut := boundary front ascii
  have long : 5 ≤ byteLen (front ++ d :: more) := by
    have := byteLen_of_ascii ascii
    have := d.utf8Size_pos
    simp only [byteLen, List.map_append, List.sum_append, List.map_cons, List.sum_cons] at *
    omega
  rw [four] at cut
  cases front with
  | nil => cases four
  | cons c rest =>
    rw [List.cons_append] at cut long ⊢
    rw [sliceable, cut, decide_eq_false (by omega), Bool.or_self, Bool.and_false]

theorem not_sliceable_of_wide {d : Char} (wide : d.utf8Size ≠ 1) (more : Text) :
    sliceable (d :: more) = false := by
  rw [sliceable, beq_eq_false_iff_ne.mpr wide, Bool.false_and]

theorem sliceable_of_ascii {text : Text} (ascii : AsciiFor 5 text) : sliceable text = true := by
  cases text with
  | nil => rfl
  | cons c rest =>
    have one : c.utf8Size = 1 := ascii c (by simp)
    rw [sliceable, one, beq_self_eq_true, Bool.true_and, Bool.or_eq_true, decide_eq_true_eq]
    by_cases short : byteLen (c :: rest) < 5
    · exact .inl short
    · exact .inr (isCharBoundary_of_ascii ascii (long_of_byteLen ascii (by omega)))

theorem prependPart_append (a b : Text) (parts : List Text) :
    prependPart a (prependPart b parts) = prependPart (a ++ b) parts := by
  cases parts <;> simp [prependPart]

theorem map_prependPart (a b : Text) (found : Option (List Text)) :
    (found.map (prependPart b)).map (prependPart a) = found.map (prependPart (a ++ b)) := by
  rw [Option.map_map]
  congr 1
  funext parts
  exact prependPart_append a b parts

theorem map_prependPart_nil (found : Option (List Text)) : found.map (prependPart []) = found := by
  have same : prependPart [] = id := by
    funext parts
    cases parts <;> rfl
  rw [same, Option.map_id_fun, id]

/-- No `AND` starts in `seg` when `tail` stands behind it. -/
def AndFree (tail : Text) : Text → Prop
  | [] => True
  | c :: rest => startsWithAnd (c :: (rest ++ tail)) = false ∧ AndFree tail rest

theorem AndFree.append {tail a b : Text} (front : AndFree (b ++ tail) a) (back : AndFree tail b) :
    AndFree tail (a ++ b) := by
  induction a with
  | nil => exact back
  | cons c rest ih =>
    refine ⟨?_, ih front.2⟩
    have here : startsWithAnd (c :: (rest ++ (b ++ tail))) = false := front.1
    rwa [← List.append_assoc] at here

theorem AndFree.front {tail a b : Text} (whole : AndFree tail (a ++ b)) : AndFree (b ++ tail) a := by
  induction a with
  | nil => trivial
  | cons c rest ih =>
    refine ⟨?_, ih whole.2⟩
    have here : startsWithAnd (c :: (rest ++ b ++ tail)) = false := whole.1
    rwa [List.append_assoc] at here

/-- An `AND` starts with a blank and an `A`. -/
theorem not_startsWithAnd {c d : Char} (rest : Text) (other : c = ' ' → d.toLower ≠ 'a') :
    startsWithAnd (c :: d :: rest) = false := by
  rw [startsWithAnd, beq_eq_false_iff_ne]
  intro same
  simp only [List.take_succ_cons, List.map_cons, show andKeyword.map Char.toLower =
    [' ', 'a', 'n', 'd', ' '] from rfl, List.cons.injEq] at same
  exact other (eq_of_toLower same.1.symm rfl) same.2.1.symm

theorem not_startsWithAnd_of_ne {c : Char} (rest : Text) (other : c ≠ ' ') :
    startsWithAnd (c :: rest) = false := by
  rw [startsWithAnd, beq_eq_false_iff_ne]
  intro same
  simp only [List.take_succ_cons, List.map_cons, show andKeyword.map Char.toLower =
    [' ', 'a', 'n', 'd', ' '] from rfl, List.cons.injEq] at same
  exact other (eq_of_toLower same.1.symm rfl)

theorem andFree_word {tail seg : Text} (noBlank : ∀ c ∈ seg, c ≠ ' ') : AndFree tail seg := by
  induction seg with
  | nil => trivial
  | cons c rest ih =>
    exact ⟨not_startsWithAnd_of_ne _ (noBlank c (by simp)), ih fun x mem => noBlank x (by simp [mem])⟩

theorem andFree_blank {tail : Text} {d : Char} (other : d.toLower ≠ 'a') :
    AndFree (d :: tail) [' '] :=
  ⟨not_startsWithAnd tail fun _ => other, trivial⟩

variable {seg tail : Text}

theorem depthAfter_flat {d : Int} {c : Char} (flat : c ≠ '(' ∧ c ≠ ')') : depthAfter d c = d := by
  rw [depthAfter, if_neg flat.1, if_neg flat.2]

/-- The scan passes over text in ASCII without parentheses. -/
theorem splitFromDepth_segment (ascii : AsciiFor (seg.length + 4) (seg ++ tail))
    (flat : ∀ c ∈ seg, c ≠ '(' ∧ c ≠ ')') (free : AndFree tail seg) :
    splitFromDepth 0 0 (seg ++ tail) = (splitFromDepth 0 0 tail).map (prependPart seg) := by
  induction seg with
  | nil => rw [List.nil_append, map_prependPart_nil]
  | cons c rest ih =>
    have asciiHere : AsciiFor 5 (c :: (rest ++ tail)) := ascii.mono (by simp only [List.length_cons]; omega)
    have asciiRest : AsciiFor (rest.length + 4) (rest ++ tail) := by
      refine AsciiFor.tail (c := c) (ascii.mono ?_)
      simp only [List.length_cons]
      omega
    rw [List.cons_append, splitFromDepth]
    simp only [depthAfter_flat (flat c (by simp)), if_pos, sliceable_of_ascii asciiHere, free.1,
      if_neg Bool.false_ne_true, ih asciiRest (fun x mem => flat x (by simp [mem])) free.2, map_prependPart]
    rfl

/-- A panic behind text without parentheses is reached, or there is one before it. -/
theorem splitFromDepth_none (flat : ∀ c ∈ seg, c ≠ '(' ∧ c ≠ ')') (free : AndFree tail seg)
    (panic : splitFromDepth 0 0 tail = none) : splitFromDepth 0 0 (seg ++ tail) = none := by
  induction seg with
  | nil => exact panic
  | cons c rest ih =>
    rw [List.cons_append, splitFromDepth]
    simp [depthAfter_flat (flat c (by simp)), free.1,
      ih (fun x mem => flat x (by simp [mem])) free.2]

theorem splitFromDepth_panic {c : Char} {rest : Text} (flat : c ≠ '(' ∧ c ≠ ')')
    (cut : sliceable (c :: rest) = false) : splitFromDepth 0 0 (c :: rest) = none := by
  rw [splitFromDepth]
  simp [depthAfter_flat flat, cut]

/-- The scan passes over what stands in parentheses. -/
theorem splitFromDepth_inside (flat : ∀ c ∈ seg, c ≠ '(' ∧ c ≠ ')') (ascii : AsciiFor 4 tail) :
    splitFromDepth 1 0 (seg ++ ')' :: tail) =
      (splitFromDepth 0 0 tail).map (prependPart (seg ++ [')'])) := by
  induction seg with
  | nil =>
    have asciiHere : AsciiFor 5 (')' :: tail) := by
      intro x mem
      rw [List.take_succ_cons] at mem
      rcases List.mem_cons.mp mem with rfl | later
      · rfl
      · exact ascii x later
    rw [List.nil_append, splitFromDepth]
    simp only [show depthAfter 1 ')' = 0 from rfl, if_pos, sliceable_of_ascii asciiHere,
      not_startsWithAnd_of_ne tail (show ')' ≠ ' ' by decide), if_neg Bool.false_ne_true]
    rfl
  | cons c rest ih =>
    rw [List.cons_append, splitFromDepth]
    simp only [depthAfter_flat (flat c (by simp)), if_neg (show ¬ (1 : Int) = 0 by decide),
      ih fun x mem => flat x (by simp [mem]), map_prependPart]
    rfl

end Openstack.DynamoDb

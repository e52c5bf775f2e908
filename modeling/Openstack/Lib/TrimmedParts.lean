import Openstack.Lib.RustStr

/-!
A text cut at a separator, each part without the white space around it: `s.split(sep).map(|p| p.trim())`.
-/
namespace Openstack.RustStr

/-- Every character is white space. -/
def Blank (s : List Char) : Prop := ∀ c ∈ s, isWhitespace c = true

def trimmedParts (sep : Char) (s : List Char) : List (List Char) := (s.splitOn sep).map trim

theorem trim_blank_append {lead : List Char} (blank : Blank lead) (s : List Char) :
    trim (lead ++ s) = trim s := by
  rw [trim, List.dropWhile_append_of_pos blank, trim]

theorem rdropWhile_append_blank {trail : List Char} (blank : Blank trail) (s : List Char) :
    (s ++ trail).rdropWhile isWhitespace = s.rdropWhile isWhitespace := by
  have reversed : ∀ c ∈ trail.reverse, isWhitespace c = true := fun c member =>
    blank c (List.mem_reverse.mp member)
  rw [List.rdropWhile, List.reverse_append, List.dropWhile_append_of_pos reversed, ← List.rdropWhile]

theorem trim_append_blank {trail : List Char} (blank : Blank trail) (s : List Char) :
    trim (s ++ trail) = trim s := by
  induction s with
  | nil =>
    rw [List.nil_append, trim, List.dropWhile_eq_nil_iff.mpr blank]
    rfl
  | cons c rest ih =>
    cases white : isWhitespace c with
    | true =>
      rw [List.cons_append, trim, List.dropWhile_cons_of_pos white, ← trim, ih, trim, trim,
        List.dropWhile_cons_of_pos white]
    | false =>
      rw [List.cons_append, trim, List.dropWhile_cons_of_neg (by simp [white]), ← List.cons_append,
        rdropWhile_append_blank blank, trim, List.dropWhile_cons_of_neg (by simp [white])]

theorem trim_trim (s : List Char) : trim (trim s) = trim s := by
  have front : (trim s).dropWhile isWhitespace = trim s := by
    obtain ⟨trail, whole⟩ := List.rdropWhile_prefix isWhitespace (s.dropWhile isWhitespace)
    rw [← trim] at whole
    cases kept : trim s with
    | nil => rfl
    | cons c rest =>
      -- the first character is the one the front of `s` was dropped up to
      rw [kept, List.cons_append] at whole
      have dark := List.head_dropWhile_not isWhitespace (l := s) (by rw [← whole]; simp)
      simp only [← whole, List.head_cons] at dark
      exact List.dropWhile_cons_of_neg (by simp [dark])
  rw [trim, front]
  exact List.rdropWhile_idempotent isWhitespace _

section Parts

variable {sep : Char}

theorem trimmedParts_append (a b : List Char) :
    trimmedParts sep (a ++ sep :: b) = trimmedParts sep a ++ trimmedParts sep b := by
  rw [trimmedParts, List.splitOn_append_cons_self, List.map_append, trimmedParts, trimmedParts]

/-- White space in front of a text is in front of its first part. -/
theorem trimmedParts_blank_append {lead : List Char} (blank : Blank lead) (dark : isWhitespace sep = false)
    (s : List Char) : trimmedParts sep (lead ++ s) = trimmedParts sep s := by
  induction lead with
  | nil => rfl
  | cons c rest ih =>
    have white := blank c (by simp)
    have apart : (c == sep) = false := by
      rw [beq_eq_false_iff_ne]
      rintro rfl
      rw [white] at dark
      cases dark
    rw [← ih fun x member => blank x (by simp [member]), trimmedParts, trimmedParts, List.cons_append,
      List.splitOn_cons_eq_if_modifyHead, if_neg (by simp [apart])]
    cases (rest ++ s).splitOn sep with
    | nil => rfl
    | cons first later =>
      rw [List.modifyHead_cons, List.map_cons, List.map_cons]
      congr 1
      exact @trim_blank_append [c] (by simpa [Blank] using white) first

/-- White space behind a text is behind its last part. -/
theorem trimmedParts_append_blank {trail : List Char} (blank : Blank trail)
    (dark : isWhitespace sep = false) (s : List Char) :
    trimmedParts sep (s ++ trail) = trimmedParts sep s := by
  have plain : sep ∉ trail := fun member => by
    rw [blank sep member] at dark
    cases dark
  have uncut : ∀ last : List Char, sep ∉ last →
      trimmedParts sep (last ++ trail) = trimmedParts sep last := by
    intro last whole
    rw [trimmedParts, trimmedParts, List.splitOn_eq_singleton (by simp [whole, plain]),
      List.splitOn_eq_singleton whole, List.map_singleton, List.map_singleton, trim_append_blank blank]
  by_cases cut : sep ∈ s
  · obtain ⟨last, front, backwards, whole⟩ := List.eq_append_cons_of_mem (List.mem_reverse.mpr cut)
    have split : s = front.reverse ++ sep :: last.reverse := by
      rw [← List.reverse_reverse s, backwards]
      simp
    rw [split, List.append_assoc, List.cons_append, trimmedParts_append, trimmedParts_append,
      uncut last.reverse (by simpa using whole)]
  · exact uncut s cut

theorem sep_not_mem_splitOn {s part : List Char} (member : part ∈ s.splitOn sep) : sep ∉ part := by
  induction s generalizing part with
  | nil =>
    rw [List.splitOn_nil, List.mem_singleton] at member
    simp [member]
  | cons c rest ih =>
    rw [List.splitOn_cons_eq_if_modifyHead] at member
    split at member
    · rcases List.mem_cons.mp member with rfl | later
      · simp
      · exact ih later
    · next apart =>
      cases parts : rest.splitOn sep with
      | nil => exact absurd parts (List.splitOn_ne_nil sep rest)
      | cons first later =>
        rw [parts, List.modifyHead_cons] at member
        rcases List.mem_cons.mp member with rfl | behind
        · have plain : sep ∉ first := ih (by simp [parts])
          rintro found
          rcases List.mem_cons.mp found with rfl | inside
          · simp at apart
          · exact plain inside
        · exact ih (by simp [parts, behind])

theorem trim_sublist (s : List Char) : (trim s).Sublist s :=
  (List.rdropWhile_prefix isWhitespace _).sublist.trans (List.dropWhile_sublist _)

theorem plain_of_mem_trimmedParts {s part : List Char} (member : part ∈ trimmedParts sep s) :
    sep ∉ part ∧ trim part = part := by
  obtain ⟨piece, listed, rfl⟩ := List.mem_map.mp member
  exact ⟨fun inside => sep_not_mem_splitOn listed ((trim_sublist piece).subset inside), trim_trim piece⟩

theorem trimmedParts_eq_self {s : List Char} (plain : sep ∉ s) (trimmed : trim s = s) :
    trimmedParts sep s = [s] := by
  rw [trimmedParts, List.splitOn_eq_singleton plain, List.map_singleton, trimmed]

end Parts

end Openstack.RustStr

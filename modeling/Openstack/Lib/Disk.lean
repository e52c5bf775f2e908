import Mathlib.Logic.Function.Basic

/-!
A file system with hard links: directory entries that point to inodes, and the
bytes of each inode. `rename` replaces the target's entry, `hardLink` shares the
inode and fails when the target exists, and `copy` opens the target with
truncation and so rewrites an existing target's inode in place.
-/
namespace Openstack

structure Disk (P α : Type) where
  entry : P → Option Nat
  content : Nat → List α
  /-- The next unused inode. -/
  fresh : Nat
  bounded : ∀ p i, entry p = some i → i < fresh

namespace Disk

variable {P α : Type}
variable {d : Disk P α} {src dst : P} {p : P}

def empty : Disk P α := ⟨fun _ => none, fun _ => [], 0, by simp⟩

def read (d : Disk P α) (p : P) : Option (List α) := (d.entry p).map d.content

/-- Replace the bytes of an inode, seen through every entry that points to it. -/
def setContent (d : Disk P α) (i : Nat) (bytes : List α) : Disk P α :=
  { d with content := Function.update d.content i bytes }

variable [DecidableEq P]

/-- A new inode under `p`. -/
def alloc (d : Disk P α) (p : P) (bytes : List α) : Disk P α where
  entry := Function.update d.entry p (some d.fresh)
  content := Function.update d.content d.fresh bytes
  fresh := d.fresh + 1
  bounded := by
    intro q i found
    rw [Function.update_apply] at found
    split at found
    · have := Option.some.inj found
      omega
    · have := d.bounded q i found
      omega

/-- Let `dst` point where `src` points. -/
def link (d : Disk P α) (src dst : P) : Disk P α where
  entry := Function.update d.entry dst (d.entry src)
  content := d.content
  fresh := d.fresh
  bounded := by
    intro q i found
    rw [Function.update_apply] at found
    split at found
    · exact d.bounded src i found
    · exact d.bounded q i found

def unlink (d : Disk P α) (p : P) : Disk P α where
  entry := Function.update d.entry p none
  content := d.content
  fresh := d.fresh
  bounded := by
    intro q i found
    rw [Function.update_apply] at found
    split at found
    · cases found
    · exact d.bounded q i found

/-- Open with truncation and write `bytes`. -/
@[grind] def create (d : Disk P α) (p : P) (bytes : List α) : Disk P α :=
  match d.entry p with
  | some i => d.setContent i bytes
  | none => d.alloc p bytes

/-- Two names of one inode are left as they are. -/
def rename (d : Disk P α) (src dst : P) : Option (Disk P α) :=
  if d.entry src = none then none
  else if d.entry dst = d.entry src then some d
  else some ((d.link src dst).unlink src)

def hardLink (d : Disk P α) (src dst : P) : Option (Disk P α) :=
  if d.entry src = none ∨ d.entry dst ≠ none then none else some (d.link src dst)

/-- The target is truncated before the source is read. -/
@[grind] def copy (d : Disk P α) (src dst : P) : Option (Disk P α) :=
  match d.entry src with
  | none => none
  | some i =>
    let truncated := d.create dst []
    some (truncated.create dst (truncated.content i))

def removeFile (d : Disk P α) (p : P) : Option (Disk P α) :=
  if d.entry p = none then none else some (d.unlink p)

/-- Remove every entry that `gone` selects. -/
def removeAll (d : Disk P α) (gone : P → Bool) : Disk P α where
  entry := fun p => if gone p then none else d.entry p
  content := d.content
  fresh := d.fresh
  bounded := by
    intro q i found
    split at found
    · cases found
    · exact d.bounded q i found

/-- No other entry points to the inode of `p`. -/
def Alone (d : Disk P α) (p : P) : Prop :=
  ∀ q i, d.entry p = some i → d.entry q = some i → q = p

omit [DecidableEq P] in
theorem read_eq_none_iff : d.read p = none ↔ d.entry p = none := by
  simp [read]

omit [DecidableEq P] in
theorem read_setContent_of_ne (d : Disk P α) {q : P} {i : Nat} (bytes : List α)
    (other : d.entry q ≠ some i) : (d.setContent i bytes).read q = d.read q := by
  unfold read setContent
  cases h : d.entry q with
  | none => rfl
  | some j =>
    have ne : j ≠ i := by
      intro same
      exact other (h.trans (congrArg some same))
    simp [ne]

theorem read_alloc_of_ne (d : Disk P α) {p q : P} (bytes : List α) (ne : q ≠ p) :
    (d.alloc p bytes).read q = d.read q := by
  unfold read alloc
  simp only [Function.update_of_ne ne]
  cases h : d.entry q with
  | none => rfl
  | some j =>
    have old : j ≠ d.fresh := Nat.ne_of_lt (d.bounded q j h)
    simp [old]

@[simp] theorem read_create_self (d : Disk P α) (p : P) (bytes : List α) :
    (d.create p bytes).read p = some bytes := by
  unfold create
  cases h : d.entry p with
  | none => simp [alloc, read]
  | some i => simp [setContent, read, h]

theorem read_create_of_ne (d : Disk P α) {p q : P} (bytes : List α) (ne : q ≠ p)
    (alone : d.Alone p) : (d.create p bytes).read q = d.read q := by
  unfold create
  cases h : d.entry p with
  | none => exact d.read_alloc_of_ne bytes ne
  | some i =>
    refine d.read_setContent_of_ne bytes ?_
    intro same
    exact ne (alone q i h same)

theorem read_unlink_of_ne (d : Disk P α) {p q : P} (ne : q ≠ p) :
    (d.unlink p).read q = d.read q := by
  simp [read, unlink, ne]

theorem read_link_of_ne (d : Disk P α) {src dst q : P} (ne : q ≠ dst) :
    (d.link src dst).read q = d.read q := by
  simp [read, link, ne]

theorem read_link_self (d : Disk P α) (src dst : P) : (d.link src dst).read dst = d.read src := by
  simp [read, link]

theorem entry_create_of_ne (d : Disk P α) {p q : P} (bytes : List α) (ne : q ≠ p) :
    (d.create p bytes).entry q = d.entry q := by
  unfold create
  cases d.entry p with
  | none => simp [alloc, ne]
  | some i => rfl

theorem entry_create_self_ne_none (d : Disk P α) (p : P) (bytes : List α) :
    (d.create p bytes).entry p ≠ none := by
  have found := d.read_create_self p bytes
  intro missing
  rw [read_eq_none_iff.mpr missing] at found
  cases found

/-- Writing to the file that has just been created. -/
theorem create_setContent {i : Nat} {bytes : List α}
    (found : (d.create p bytes).entry p = some i) (later : List α) :
    (d.create p bytes).setContent i later = d.create p later := by
  unfold create at *
  cases entry : d.entry p with
  | none =>
    have new : d.fresh = i := by simpa [entry, alloc] using found
    simp [alloc, setContent, ← new]
  | some j =>
    have same : j = i := by simpa [entry, setContent] using found
    simp [setContent, same]

theorem Alone.create (alone : d.Alone p) (bytes : List α) :
    (d.create p bytes).Alone p := by
  intro q i hp hq
  by_contra ne
  rw [d.entry_create_of_ne bytes ne] at hq
  unfold Disk.create at hp
  cases h : d.entry p with
  | none =>
    rw [h] at hp
    have new : d.fresh = i := by simpa [alloc] using hp
    have old := d.bounded q i hq
    omega
  | some j =>
    rw [h] at hp
    have same : d.entry p = some i := by simpa [setContent] using hp
    exact ne (alone q i same hq)

/-- A file written under a name of its own and then renamed: the target holds the
new bytes and, apart from the two names, nothing changes. -/
theorem create_rename {tmp dst : P} (bytes : List α) (ne : tmp ≠ dst) (alone : d.Alone tmp) :
    ∃ d', (d.create tmp bytes).rename tmp dst = some d' ∧ d'.read dst = some bytes ∧
      d'.entry tmp = none ∧ d'.entry dst = (d.create tmp bytes).entry tmp ∧
      (∀ q, q ≠ tmp → q ≠ dst → d'.entry q = d.entry q) ∧
      ∀ q, q ≠ tmp → q ≠ dst → d'.read q = d.read q := by
  have present := d.entry_create_self_ne_none tmp bytes
  have aloneCreated := alone.create bytes
  have apart : (d.create tmp bytes).entry dst ≠ (d.create tmp bytes).entry tmp := by
    intro same
    obtain ⟨i, hi⟩ := Option.ne_none_iff_exists'.mp present
    exact ne (aloneCreated dst i hi (same.trans hi)).symm
  refine ⟨((d.create tmp bytes).link tmp dst).unlink tmp, ?_, ?_, ?_, ?_, ?_, ?_⟩
  · simp [rename, present, apart]
  · rw [read_unlink_of_ne _ ne.symm, read_link_self, read_create_self]
  · simp [unlink]
  · simp [unlink, link, ne.symm]
  · intro q hq hd
    simp [unlink, link, hq, hd, entry_create_of_ne]
  · intro q hq hd
    rw [read_unlink_of_ne _ hq, read_link_of_ne _ hd, read_create_of_ne _ _ hq alone]

theorem hardLink_eq_some (present : d.entry src ≠ none)
    (absent : d.entry dst = none) : d.hardLink src dst = some (d.link src dst) := by
  simp [hardLink, present, absent]

theorem hardLink_eq_none (present : d.entry dst ≠ none) :
    d.hardLink src dst = none := by
  simp [hardLink, present]

/-- A copy over a target whose inode no other entry points to. -/
theorem copy_of_alone {bytes : List α} (ne : src ≠ dst)
    (found : d.read src = some bytes) (alone : d.Alone dst) :
    ∃ d', d.copy src dst = some d' ∧ d'.read dst = some bytes ∧
      (∀ q, q ≠ dst → d'.entry q = d.entry q) ∧ d'.Alone dst ∧
      ∀ q, q ≠ dst → d'.read q = d.read q := by
  obtain ⟨i, hi, content⟩ := Option.map_eq_some_iff.mp found
  have kept : (d.create dst []).read src = some bytes := by
    rw [read_create_of_ne _ _ ne alone, found]
  have same : (d.create dst []).content i = bytes := by
    rw [read, entry_create_of_ne _ _ ne, hi] at kept
    exact Option.some.inj kept
  refine ⟨(d.create dst []).create dst bytes, ?_, read_create_self _ _ _, ?_,
    (alone.create []).create bytes, ?_⟩
  · simp [copy, hi, same]
  · intro q hq
    rw [entry_create_of_ne _ _ hq, entry_create_of_ne _ _ hq]
  · intro q hq
    rw [read_create_of_ne _ _ hq (alone.create []), read_create_of_ne _ _ hq alone]

/-- A renamed file is read under its new name, and nothing else changes. -/
theorem rename_reads {d d' : Disk P α} (renamed : d.rename src dst = some d') :
    d'.read dst = d.read src ∧ (∀ q, q ≠ src → q ≠ dst → d'.read q = d.read q) ∧
      ∀ q, q ≠ dst → d.entry q = none → d'.entry q = none := by
  unfold rename at renamed
  split at renamed
  · cases renamed
  split at renamed
  · next same =>
    cases renamed
    exact ⟨by rw [read, read, same], fun _ _ _ => rfl, fun _ _ absent => absent⟩
  · next apart =>
    cases renamed
    have ne : dst ≠ src := fun same => apart (congrArg d.entry same)
    refine ⟨?_, ?_, ?_⟩
    · rw [read_unlink_of_ne _ ne, read_link_self]
    · intro q hs hd
      rw [read_unlink_of_ne _ hs, read_link_of_ne _ hd]
    · intro q hd absent
      by_cases hs : q = src <;> simp [unlink, link, hs, hd, absent]

/-- A copy of a file that is not linked with the target. -/
theorem copy_reads {d d' : Disk P α} (apart : d.entry src ≠ d.entry dst)
    (copied : d.copy src dst = some d') : d'.read dst = d.read src := by
  unfold copy at copied
  cases found : d.entry src with
  | none =>
    rw [found] at copied
    cases copied
  | some i =>
    rw [found] at copied
    cases copied
    have ne : src ≠ dst := fun same => apart (congrArg d.entry same)
    have kept : (d.create dst []).content i = d.content i := by
      unfold create
      cases target : d.entry dst with
      | none =>
        have old : i ≠ d.fresh := Nat.ne_of_lt (d.bounded src i found)
        simp [alloc, old]
      | some j =>
        have other : i ≠ j := by
          rintro rfl
          exact apart (found.trans target.symm)
        simp [setContent, other]
    rw [read_create_self, kept, read, found, Option.map_some]

/-- A copy over an existing target changes what is read through the target's inode only. -/
theorem copy_over (present : d.entry src ≠ none) (exists_ : d.entry dst ≠ none) :
    ∃ d', d.copy src dst = some d' ∧ (∀ q, d'.entry q = d.entry q) ∧
      ∀ q, d.entry q ≠ d.entry dst → d'.read q = d.read q := by
  obtain ⟨i, hi⟩ := Option.ne_none_iff_exists'.mp present
  obtain ⟨j, hj⟩ := Option.ne_none_iff_exists'.mp exists_
  have truncated : d.create dst [] = d.setContent j [] := by simp [create, hj]
  refine ⟨(d.setContent j []).setContent j ((d.setContent j []).content i), ?_, ?_, ?_⟩
  · have here : (d.setContent j []).entry dst = some j := hj
    simp only [copy, hi, truncated]
    simp only [create, here]
  · intro q
    rfl
  · intro q differs
    have other : d.entry q ≠ some j := by
      rw [← hj]
      exact differs
    have untruncated : (d.setContent j []).entry q ≠ some j := other
    rw [read_setContent_of_ne _ _ untruncated, read_setContent_of_ne _ _ other]

theorem removeFile_getD (d : Disk P α) (p : P) : (d.removeFile p).getD d = d.unlink p := by
  unfold removeFile
  split
  · next missing =>
    have same : Function.update d.entry p none = d.entry := by
      rw [← missing, Function.update_eq_self]
    simp only [Option.getD_none, unlink, same]
  · rfl

/-- Only entries in `S` share an inode with another entry. -/
def SharedWithin (S : P → Prop) (d : Disk P α) : Prop :=
  ∀ p q i, d.entry p = some i → d.entry q = some i → p ≠ q → S p ∧ S q

variable {S : P → Prop}

omit [DecidableEq P] in
theorem sharedWithin_empty : SharedWithin S (empty : Disk P α) := by
  intro p q i hp
  cases hp

theorem SharedWithin.alone (shared : d.SharedWithin S) (out : ¬ S p) :
    d.Alone p := by
  intro q i hp hq
  by_contra ne
  exact out (shared p q i hp hq fun same => ne same.symm).1

/-- An operation that gives no other entry a new inode keeps sharing within `S`,
if the entry it changes is alone afterwards. -/
theorem SharedWithin.of_alone {d d' : Disk P α} (shared : d.SharedWithin S)
    (others : ∀ q i, q ≠ p → d'.entry q = some i → d.entry q = some i)
    (alone : d'.Alone p) : d'.SharedWithin S := by
  intro q r i hq hr ne
  by_cases hqp : q = p
  · subst hqp
    exact absurd (alone r i hq hr).symm ne
  · by_cases hrp : r = p
    · subst hrp
      exact absurd (alone q i hr hq) ne
    · exact shared q r i (others q i hqp hq) (others r i hrp hr) ne

theorem SharedWithin.unlink (shared : d.SharedWithin S) (p : P) :
    (d.unlink p).SharedWithin S := by
  refine shared.of_alone (p := p) ?_ ?_
  · intro q i ne found
    simpa [Disk.unlink, ne] using found
  · intro q i hp
    simp [Disk.unlink] at hp

theorem SharedWithin.link (shared : d.SharedWithin S)
    (hsrc : S src) (hdst : S dst) : (d.link src dst).SharedWithin S := by
  intro p q i hp hq ne
  simp only [Disk.link, Function.update_apply] at hp hq
  split at hp
  · next hpd =>
    subst hpd
    rw [if_neg ne.symm] at hq
    refine ⟨hdst, ?_⟩
    by_cases hqs : q = src
    · rw [hqs]
      exact hsrc
    · exact (shared q src i hq hp hqs).1
  · split at hq
    · next hqd =>
      subst hqd
      refine ⟨?_, hdst⟩
      by_cases hps : p = src
      · rw [hps]
        exact hsrc
      · exact (shared p src i hp hq hps).1
    · exact shared p q i hp hq ne

theorem SharedWithin.create (shared : d.SharedWithin S) (out : ¬ S p)
    (bytes : List α) : (d.create p bytes).SharedWithin S := by
  refine shared.of_alone (p := p) ?_ ((shared.alone out).create bytes)
  intro q i ne found
  rwa [entry_create_of_ne _ _ ne] at found

theorem SharedWithin.rename {d d' : Disk P α} (shared : d.SharedWithin S)
    (out : ¬ S src) (renamed : d.rename src dst = some d') : d'.SharedWithin S := by
  unfold Disk.rename at renamed
  split at renamed
  · cases renamed
  split at renamed
  · cases renamed
    exact shared
  · next present apart =>
    cases renamed
    have ne : dst ≠ src := by
      intro same
      exact apart (congrArg d.entry same)
    refine shared.of_alone (p := dst) ?_ ?_
    · intro q i hq found
      by_cases hqs : q = src
      · simp [Disk.unlink, hqs] at found
      · simpa [Disk.unlink, Disk.link, hq, hqs] using found
    · intro q i hdst found
      by_contra hq
      have moved : d.entry src = some i := by simpa [Disk.unlink, Disk.link, ne] using hdst
      by_cases hqs : q = src
      · simp [Disk.unlink, hqs] at found
      · have other : d.entry q = some i := by
          simpa [Disk.unlink, Disk.link, hq, hqs] using found
        exact hqs (shared.alone out q i moved other)

end Disk
end Openstack

import LocalizationAudit.Text.Blank
import Mathlib.Data.List.TakeWhile

/-!
What trimming leaves of a text: the part of it that has white space only around it and neither
begins nor ends with any. Before that a text may be split, so that no piece holds the mark.
-/

namespace LocalizationAudit

theorem not_mem_of_mem_splitOn {mark : Char} {text piece : List Char}
    (member : piece ∈ text.splitOn mark) : mark ∉ piece := by
  induction text generalizing piece with
  | nil =>
      obtain rfl : piece = [] := by simpa using member
      simp
  | cons c rest ih =>
      rw [List.splitOn_cons_eq_if_modifyHead] at member
      split at member
      next =>
        rcases List.mem_cons.mp member with rfl | behind
        · simp
        · exact ih behind
      next different =>
        obtain ⟨first, others, pieces⟩ :=
          List.exists_cons_of_ne_nil (List.splitOn_ne_nil mark rest)
        rw [pieces, List.modifyHead_cons] at member
        rw [pieces] at ih
        rcases List.mem_cons.mp member with rfl | behind
        · have notHere : mark ≠ c := fun same => different (beq_iff_eq.mpr same.symm)
          simpa [notHere] using ih List.mem_cons_self
        · exact ih (List.mem_cons_of_mem _ behind)

variable {blank : Char → Bool}

structure IsTrimmed (blank : Char → Bool) (text : List Char) : Prop where
  head : ∀ c, text.head? = some c → blank c = false
  last : ∀ c, text.getLast? = some c → blank c = false

def TrimsTo (blank : Char → Bool) (text kept : List Char) : Prop :=
  IsTrimmed blank kept ∧ ∃ before after, text = before ++ kept ++ after ∧
    (∀ c ∈ before, blank c = true) ∧ ∀ c ∈ after, blank c = true

theorem dropWhile_blank_append {before kept : List Char} (blanks : ∀ c ∈ before, blank c = true)
    (solid : ∀ c, kept.head? = some c → blank c = false) (nonempty : kept ≠ [])
    (after : List Char) : (before ++ (kept ++ after)).dropWhile blank = kept ++ after := by
  obtain ⟨c, rest, rfl⟩ := List.exists_cons_of_ne_nil nonempty
  have notBlank : ¬ blank c = true := by simp [solid c rfl]
  rw [List.dropWhile_append_of_pos blanks, List.cons_append, List.dropWhile_cons_of_neg notBlank]

theorem trimWith_of_blank {text : List Char} (blanks : ∀ c ∈ text, blank c = true) :
    trimWith blank text = [] := by
  have nothing : text.dropWhile blank = [] := List.dropWhile_eq_nil_iff.mpr blanks
  simp [trimWith, nothing]

theorem trimWith_between {before kept after : List Char} (trimmed : IsTrimmed blank kept)
    (blankBefore : ∀ c ∈ before, blank c = true) (blankAfter : ∀ c ∈ after, blank c = true) :
    trimWith blank (before ++ kept ++ after) = kept := by
  by_cases empty : kept = []
  · subst empty
    refine trimWith_of_blank fun c member => ?_
    rw [List.append_nil] at member
    exact (List.mem_append.mp member).elim (blankBefore c) (blankAfter c)
  · have backwards : ∀ c, kept.reverse.head? = some c → blank c = false := by
      simpa using trimmed.last
    have reversedBlank : ∀ c ∈ after.reverse, blank c = true := by simpa using blankAfter
    have behind := dropWhile_blank_append reversedBlank backwards (by simpa using empty) []
    rw [trimWith, List.append_assoc, dropWhile_blank_append blankBefore trimmed.head empty,
      List.reverse_append]
    rw [List.append_nil] at behind
    rw [behind, List.reverse_reverse]

theorem head?_dropWhile_blank (text : List Char) :
    ∀ c, (text.dropWhile blank).head? = some c → blank c = false := by
  intro c first
  have stopped := List.head?_dropWhile_not blank text
  rw [first] at stopped
  simpa using stopped

theorem trimsTo_trimWith (blank : Char → Bool) (text : List Char) :
    TrimsTo blank text (trimWith blank text) := by
  have opened := List.takeWhile_append_dropWhile (p := blank) (l := text)
  have closed := List.takeWhile_append_dropWhile (p := blank) (l := (text.dropWhile blank).reverse)
  have front : text.dropWhile blank = trimWith blank text ++
      ((text.dropWhile blank).reverse.takeWhile blank).reverse := by
    rw [trimWith, ← List.reverse_append, closed, List.reverse_reverse]
  refine ⟨⟨fun c first => ?_, fun c final => ?_⟩, text.takeWhile blank,
    ((text.dropWhile blank).reverse.takeWhile blank).reverse, ?_, ?_, ?_⟩
  · refine head?_dropWhile_blank text c ?_
    rw [front, List.head?_append, first]
    rfl
  · refine head?_dropWhile_blank (text.dropWhile blank).reverse c ?_
    rwa [trimWith, List.getLast?_reverse] at final
  · rw [List.append_assoc, ← front, opened]
  · exact List.all_eq_true.mp List.all_takeWhile
  · intro c member
    exact List.all_eq_true.mp List.all_takeWhile c (List.mem_reverse.mp member)

theorem trimWith_eq_iff {text kept : List Char} :
    trimWith blank text = kept ↔ TrimsTo blank text kept := by
  constructor
  · rintro rfl
    exact trimsTo_trimWith blank text
  · rintro ⟨trimmed, before, after, rfl, blankBefore, blankAfter⟩
    exact trimWith_between trimmed blankBefore blankAfter

theorem trim_eq_iff {text kept : List Char} : trim text = kept ↔ TrimsTo isBlank text kept :=
  trimWith_eq_iff

end LocalizationAudit

import LocalizationAudit.Text.Order
import Mathlib.Data.List.Forall2
import Mathlib.Data.List.Nodup

/-!
Lists of texts as sets: sorting by a text forgets the order of the list, and a list of distinct
texts becomes strictly increasing. A member of one of two related lists has a partner in the other.
-/

namespace LocalizationAudit

variable {α : Type}

theorem nodup_eraseDups [BEq α] [LawfulBEq α] (xs : List α) : xs.eraseDups.Nodup := by
  generalize size : xs.length = count
  induction count using Nat.strongRecOn generalizing xs with
  | ind count ih =>
      cases xs with
      | nil => simp
      | cons x xs =>
          have shorter := List.length_filter_le (fun y => !y == x) xs
          rw [List.eraseDups_cons, List.nodup_cons]
          refine ⟨by simp, ih _ ?_ _ rfl⟩
          simp only [List.length_cons] at size
          omega

theorem eraseDups_perm_of_mem_iff [BEq α] [LawfulBEq α] {left right : List α}
    (same : ∀ x, x ∈ left ↔ x ∈ right) : left.eraseDups.Perm right.eraseDups := by
  rw [List.perm_ext_iff_of_nodup (nodup_eraseDups left) (nodup_eraseDups right)]
  simpa using same

theorem exists_related_of_mem {β : Type} {related : α → β → Prop} {xs : List α} {ys : List β}
    (pairs : List.Forall₂ related xs ys) {x : α} (member : x ∈ xs) : ∃ y ∈ ys, related x y := by
  induction pairs with
  | nil => simp at member
  | cons pair _ ih =>
      rcases List.mem_cons.mp member with rfl | later
      · exact ⟨_, List.mem_cons_self, pair⟩
      · obtain ⟨y, isMember, found⟩ := ih later
        exact ⟨y, List.mem_cons_of_mem _ isMember, found⟩

section ByText

variable (textOf : α → String)

theorem pairwise_sortBy (xs : List α) :
    (xs.mergeSort fun left right => decide (textOf left ≤ textOf right)).Pairwise
      fun left right => textOf left ≤ textOf right := by
  have trans : ∀ x y z : α, decide (textOf x ≤ textOf y) = true →
      decide (textOf y ≤ textOf z) = true → decide (textOf x ≤ textOf z) = true := by
    intro x y z first second
    simp only [decide_eq_true_eq] at first second ⊢
    exact String.le_trans first second
  have total : ∀ x y : α,
      (decide (textOf x ≤ textOf y) || decide (textOf y ≤ textOf x)) = true := by
    intro x y
    simpa using String.le_total (textOf x) (textOf y)
  simpa using List.pairwise_mergeSort trans total xs

/-- Where texts tell the members apart, the sorted list does not depend on the order before. -/
theorem sortBy_eq_of_perm {left right : List α}
    (apart : ∀ x ∈ left, ∀ y ∈ left, textOf x = textOf y → x = y) (perm : left.Perm right) :
    (left.mergeSort fun x y => decide (textOf x ≤ textOf y)) =
      right.mergeSort fun x y => decide (textOf x ≤ textOf y) := by
  have sorted : (left.mergeSort fun x y => decide (textOf x ≤ textOf y)).Perm
      (right.mergeSort fun x y => decide (textOf x ≤ textOf y)) :=
    ((List.mergeSort_perm _ _).trans perm).trans (List.mergeSort_perm _ _).symm
  refine sorted.eq_of_pairwise ?_ (pairwise_sortBy textOf left) (pairwise_sortBy textOf right)
  intro x y inLeft inRight below above
  have listed : x ∈ left := List.mem_mergeSort.mp inLeft
  have listedToo : y ∈ left := perm.mem_iff.mpr (List.mem_mergeSort.mp inRight)
  exact apart x listed y listedToo (String.le_antisymm below above)

theorem map_sortBy (xs : List α) :
    (xs.mergeSort fun left right => decide (textOf left ≤ textOf right)).map textOf =
      sortTexts (xs.map textOf) :=
  List.map_mergeSort fun _ _ _ _ => rfl

/-- Strictly increasing lists with the same members are the same list. -/
theorem eq_of_increasing {left right : List α} (increasing : (left.map textOf).Pairwise (· < ·))
    (increasingToo : (right.map textOf).Pairwise (· < ·)) (same : ∀ x, x ∈ left ↔ x ∈ right) :
    left = right := by
  rw [List.pairwise_map] at increasing increasingToo
  have apart : ∀ {xs : List α}, xs.Pairwise (fun x y => textOf x < textOf y) → xs.Nodup := by
    intro xs ordered
    refine ordered.imp ?_
    rintro x _ below rfl
    exact String.lt_irrefl _ below
  have perm : left.Perm right :=
    (List.perm_ext_iff_of_nodup (apart increasing) (apart increasingToo)).mpr same
  refine perm.eq_of_pairwise ?_ increasing increasingToo
  intro x y _ _ below above
  exact absurd above (String.lt_asymm below)

end ByText

theorem mem_sortTexts {text : String} {texts : List String} :
    text ∈ sortTexts texts ↔ text ∈ texts :=
  List.mem_mergeSort

theorem sortTexts_eq_of_perm {left right : List String} (perm : left.Perm right) :
    sortTexts left = sortTexts right :=
  sortBy_eq_of_perm id (fun _ _ _ _ same => same) perm

theorem sortTexts_increasing {texts : List String} (distinct : texts.Nodup) :
    (sortTexts texts).Pairwise (· < ·) := by
  have ordered := pairwise_sortBy id texts
  have apart : (sortTexts texts).Nodup := (List.mergeSort_perm _ _).symm.nodup distinct
  refine (ordered.and apart).imp ?_
  rintro left right ⟨atMost, different⟩
  exact String.not_le.mp fun above => different (String.le_antisymm atMost above)

theorem mem_sortedDistinct {text : String} {texts : List String} :
    text ∈ sortedDistinct texts ↔ text ∈ texts := by
  simp [sortedDistinct, mem_sortTexts]

theorem sortedDistinct_increasing (texts : List String) :
    (sortedDistinct texts).Pairwise (· < ·) :=
  sortTexts_increasing (nodup_eraseDups texts)

theorem sortedDistinct_eq_of_mem_iff {left right : List String}
    (same : ∀ text, text ∈ left ↔ text ∈ right) : sortedDistinct left = sortedDistinct right :=
  sortTexts_eq_of_perm (eraseDups_perm_of_mem_iff same)

end LocalizationAudit

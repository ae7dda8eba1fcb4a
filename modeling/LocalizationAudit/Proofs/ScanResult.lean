import LocalizationAudit.Proofs.Key
import LocalizationAudit.Proofs.Text.Order
import LocalizationAudit.ScanResult

/-!
What each operation on a scan result does to what can be asked of it: the texts of its defined
keys, its literals, and the keys added with a text. All that is reported depends on these alone.
-/

namespace LocalizationAudit

def occurrencesOf (occurrences : List (String × List LocalizationKey)) (text : String) :
    List LocalizationKey :=
  (occurrences.lookup text).getD []

theorem lookup_mapValues {α β : Type} [BEq α] [LawfulBEq α] (change : α → β → β)
    (entries : List (α × β)) (x : α) :
    (entries.map fun entry => (entry.1, change entry.1 entry.2)).lookup x =
      (entries.lookup x).map (change x) := by
  induction entries with
  | nil => rfl
  | cons first others ih =>
      obtain ⟨y, value⟩ := first
      simp only [List.map_cons, List.lookup_cons]
      by_cases here : x == y
      · have same : x = y := by simpa using here
        simp [same]
      · simpa [here] using ih

theorem occurrencesOf_addOccurrence (occurrences : List (String × List LocalizationKey))
    (key : LocalizationKey) (text : String) :
    occurrencesOf (addOccurrence occurrences key) text =
      occurrencesOf occurrences text ++ if key.text == text then [key] else [] := by
  rw [addOccurrence]
  split
  next known =>
    rw [List.map_congr_left (g := fun entry =>
      (entry.1, if entry.1 == key.text then entry.2 ++ [key] else entry.2))]
    · rw [occurrencesOf, lookup_mapValues fun other keys =>
        if other == key.text then keys ++ [key] else keys]
      by_cases same : text = key.text
      · subst same
        have found : (occurrences.lookup key.text).isSome = true := by
          obtain ⟨entry, member, same⟩ := List.any_eq_true.mp known
          exact List.lookup_isSome_iff.mpr ⟨entry, member, by simpa using (beq_iff_eq.mp same).symm⟩
        obtain ⟨keys, found⟩ := Option.isSome_iff_exists.mp found
        simp [occurrencesOf, found]
      · have different : ¬key.text = text := fun equal => same equal.symm
        simp [occurrencesOf, same, different]
    · rintro ⟨other, keys⟩ _
      by_cases same : other == key.text <;> simp [same]
  next unknown =>
    rw [occurrencesOf, List.lookup_append, List.lookup_cons, List.lookup_nil]
    by_cases same : text = key.text
    · subst same
      have missing : occurrences.lookup key.text = none := by
        refine List.lookup_eq_none_iff.mpr fun entry member => ?_
        simp only [bne_iff_ne, ne_eq]
        exact fun same => unknown (List.any_eq_true.mpr ⟨entry, member, by simp [same]⟩)
      simp [occurrencesOf, missing]
    · have different : ¬key.text = text := fun equal => same equal.symm
      simp [occurrencesOf, beq_eq_false_iff_ne.mpr same, different]

theorem occurrencesOf_foldl (keys : List LocalizationKey)
    (occurrences : List (String × List LocalizationKey)) (text : String) :
    occurrencesOf (keys.foldl addOccurrence occurrences) text =
      occurrencesOf occurrences text ++ keys.filter (·.text == text) := by
  induction keys generalizing occurrences with
  | nil => simp
  | cons key others ih =>
      rw [List.foldl_cons, ih, occurrencesOf_addOccurrence, List.append_assoc]
      by_cases same : key.text == text <;> simp [same]

namespace ScanResult

variable (result : ScanResult)

@[simp] theorem definedKeys_addKeys (keys : List LocalizationKey) :
    (result.addKeys keys).definedKeys = result.definedKeys.union keys :=
  KeySet.union_ofList _ _

theorem keysAt_addKeys (keys : List LocalizationKey) (text : String) :
    (result.addKeys keys).keysAt text =
      result.keysAt text ++ (KeySet.ofList keys).filter (·.text == text) :=
  occurrencesOf_foldl _ _ _

@[simp] theorem usedLiterals_addKeys (keys : List LocalizationKey) :
    (result.addKeys keys).usedLiterals = result.usedLiterals := rfl

@[simp] theorem failures_addKeys (keys : List LocalizationKey) :
    (result.addKeys keys).failures = result.failures := rfl

@[simp] theorem definedKeys_addLiterals (literals : List String) :
    (result.addLiterals literals).definedKeys = result.definedKeys := rfl

@[simp] theorem keysAt_addLiterals (literals : List String) (text : String) :
    (result.addLiterals literals).keysAt text = result.keysAt text := rfl

@[simp] theorem failures_addLiterals (literals : List String) :
    (result.addLiterals literals).failures = result.failures := rfl

theorem mem_usedLiterals_addLiterals {literals : List String} {text : String} :
    text ∈ (result.addLiterals literals).usedLiterals ↔
      text ∈ result.usedLiterals ∨ text ∈ literals := by
  simp [addLiterals]

theorem nodup_usedLiterals_addLiterals (literals : List String) :
    (result.addLiterals literals).usedLiterals.Nodup :=
  nodup_eraseDups _

def unusedTexts : List String :=
  result.unusedKeys.map (·.text)

theorem unusedTexts_eq :
    result.unusedTexts = sortTexts
      (result.definedKeys.texts.filter fun text => !result.usedLiterals.contains text) := by
  rw [KeySet.texts, List.filter_map]
  exact map_sortBy _ _

theorem mem_unusedTexts {text : String} :
    text ∈ result.unusedTexts ↔ text ∈ result.definedKeys.texts ∧ text ∉ result.usedLiterals := by
  simp [unusedTexts_eq, mem_sortTexts]

variable {result} in
theorem unusedTexts_increasing (distinct : result.definedKeys.texts.Nodup) :
    result.unusedTexts.Pairwise (· < ·) := by
  rw [unusedTexts_eq]
  exact sortTexts_increasing (distinct.filter _)

theorem locationsOf_subset {left right : ScanResult} {text : String}
    (sites : left.keysAt text ⊆ right.keysAt text) :
    left.locationsOf text ⊆ right.locationsOf text := by
  intro location member
  rw [locationsOf, mem_sortedDistinct] at member ⊢
  exact List.filter_subset _ (List.map_subset _ sites) member

structure Agrees (left right : ScanResult) : Prop where
  texts : left.definedKeys.texts.Perm right.definedKeys.texts
  literals : left.usedLiterals.Perm right.usedLiterals
  sites : ∀ text, (left.keysAt text).Perm (right.keysAt text)
  resourceFiles : left.resourceFiles = right.resourceFiles
  sourceFiles : left.sourceFiles = right.sourceFiles
  failures : left.failures = right.failures

namespace Agrees

variable {left right : ScanResult}

theorem unusedTexts_eq (agrees : left.Agrees right) : left.unusedTexts = right.unusedTexts := by
  have sameTest : (fun text => !left.usedLiterals.contains text) =
      fun text => !right.usedLiterals.contains text := by
    funext text
    simp [agrees.literals.mem_iff]
  rw [ScanResult.unusedTexts_eq, ScanResult.unusedTexts_eq, sameTest]
  exact sortTexts_eq_of_perm (agrees.texts.filter _)

theorem locationsOf_eq (agrees : left.Agrees right) (text : String) :
    left.locationsOf text = right.locationsOf text := by
  refine sortedDistinct_eq_of_mem_iff fun location => ?_
  exact (((agrees.sites text).map _).filter _).mem_iff

end Agrees

end ScanResult

end LocalizationAudit

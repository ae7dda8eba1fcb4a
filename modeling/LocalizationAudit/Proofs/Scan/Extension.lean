import LocalizationAudit.Configuration
import LocalizationAudit.FileKind
import LocalizationAudit.Proofs.Path
import LocalizationAudit.Proofs.Text.LowerCase

/-!
Which extensions that a configuration may have are extensions of a file. A file has only what stands
behind the last dot of its name, so an extension with another dot or a slash in it belongs to none.
-/

namespace LocalizationAudit

section Suffix

theorem suffixOf_append {stem extension : List Char} (named : stem ≠ []) (nonempty : extension ≠ [])
    (plain : '.' ∉ extension) : suffixOf (stem ++ '.' :: extension) = '.' :: extension := by
  have undotted : ∀ c ∈ extension.reverse, (c != '.') = true := by
    intro c member
    rw [bne_iff_ne]
    rintro rfl
    exact plain (List.mem_reverse.mp member)
  have reversed : (stem ++ '.' :: extension).reverse = extension.reverse ++ '.' :: stem.reverse := by
    simp
  rw [suffixOf, reversed, List.takeWhile_append_of_pos undotted,
    List.dropWhile_append_of_pos undotted]
  simp [named, nonempty]

/-- A suffix has a dot in front and no other, and takes no part of the name twice. -/
theorem suffixOf_eq_nil_or (name : List Char) :
    suffixOf name = [] ∨
      ∃ extension, suffixOf name = '.' :: extension ∧ '.' ∉ extension ∧ extension ⊆ name := by
  rw [suffixOf]
  split
  · exact .inl rfl
  · refine .inr ⟨_, rfl, fun dotted => ?_, fun c member => ?_⟩
    · have undotted := List.all_eq_true.mp List.all_takeWhile _ (List.mem_reverse.mp dotted)
      simp at undotted
    · exact List.mem_reverse.mp ((List.takeWhile_subset _) (List.mem_reverse.mp member))

theorem Path.slash_not_mem_name (path : Path) : '/' ∉ path.name.toList := by
  rw [Path.name]
  cases last : path.components.getLast? with
  | none => simp
  | some name =>
      have plain := path.components_plain name (List.mem_of_getLast? last)
      exact ((isComponent_iff _).mp plain).2.2

theorem name_ofString_of_component {text : String} (plain : isComponent text.toList = true) :
    (Path.ofString text).name = text := by
  obtain ⟨_, _, unslashed⟩ := (isComponent_iff _).mp plain
  have whole : text.toList.splitOn '/' = [text.toList] := List.splitOn_eq_singleton unslashed
  simp [Path.name, Path.ofString, Path.componentsOf, whole, plain]

end Suffix

def IsSimpleExtension (extension : String) : Prop :=
  '.' ∉ extension.toList.tail ∧ '/' ∉ extension.toList

instance : DecidablePred IsSimpleExtension :=
  fun extension =>
    inferInstanceAs (Decidable ('.' ∉ extension.toList.tail ∧ '/' ∉ extension.toList))

section HasExtension

variable {extension : String} (valid : Configuration.isExtension extension = true)

include valid

theorem exists_of_isExtension :
    ∃ rest, rest ≠ [] ∧ extension.toList = '.' :: rest := by
  rw [Configuration.isExtension, Bool.and_eq_true, beq_iff_eq, decide_eq_true_eq] at valid
  obtain ⟨dotted, long⟩ := valid
  rw [← String.length_toList] at long
  cases spelled : extension.toList with
  | nil => simp [spelled] at dotted
  | cons c rest =>
      obtain rfl : c = '.' := by simpa [spelled] using dotted
      refine ⟨rest, ?_, rfl⟩
      rintro rfl
      simp [spelled] at long

/-- No file at all has an extension that is not simple. -/
theorem isSimpleExtension_of_hasExtension {path : Path}
    (has : hasExtension path extension = true) : IsSimpleExtension extension := by
  obtain ⟨rest, _, spelled⟩ := exists_of_isExtension valid
  have dot : IsBelowLetters '.' := by decide
  have slash : IsBelowLetters '/' := by decide
  rw [hasExtension, beq_iff_eq, spelled, lower, lower, lowerFrom_of_below dot] at has
  rcases suffixOf_eq_nil_or path.name.toList with none | ⟨own, isSuffix, undotted, within⟩
  · rw [Path.suffix, none] at has
    simp [lowerFrom] at has
  · rw [Path.suffix, isSuffix, lowerFrom_of_below dot, List.cons.injEq] at has
    have same : ∀ {mark : Char}, IsBelowLetters mark → (mark ∈ rest ↔ mark ∈ own) := by
      intro mark below
      rw [← mem_lowerFrom_iff below ['.'] rest, ← mem_lowerFrom_iff below ['.'] own, has.2]
    refine ⟨?_, ?_⟩
    · rw [spelled]
      exact mt (same dot).mp undotted
    · rw [spelled, List.mem_cons, not_or]
      exact ⟨by decide, mt (same slash).mp fun member => path.slash_not_mem_name (within member)⟩

theorem suffix_ofString_append (simple : IsSimpleExtension extension) {stem : String}
    (named : stem ≠ "") (unslashed : '/' ∉ stem.toList) :
    (Path.ofString (stem ++ extension)).suffix = extension.toList := by
  obtain ⟨rest, nonempty, spelled⟩ := exists_of_isExtension valid
  obtain ⟨undotted, unslashedToo⟩ := simple
  have stemmed : stem.toList ≠ [] := by simpa using named
  have plain : isComponent (stem ++ extension).toList = true := by
    rw [String.toList_append, isComponent_iff]
    refine ⟨by simp [stemmed], fun dot => ?_, by simp [unslashed, unslashedToo]⟩
    have size := congrArg List.length dot
    have long := List.length_pos_iff.mpr stemmed
    have longToo := List.length_pos_iff.mpr nonempty
    simp only [spelled, List.length_append, List.length_cons, List.length_nil] at size
    omega
  rw [Path.suffix, name_ofString_of_component plain, String.toList_append, spelled]
  rw [spelled] at undotted
  exact suffixOf_append stemmed nonempty undotted

theorem hasExtension_append (simple : IsSimpleExtension extension) {stem : String}
    (named : stem ≠ "") (unslashed : '/' ∉ stem.toList) (other : String) :
    hasExtension (Path.ofString (stem ++ extension)) other = true ↔
      lower extension.toList = lower other.toList := by
  rw [hasExtension, suffix_ofString_append valid simple named unslashed, beq_iff_eq]

end HasExtension

section Classify

variable {configuration : Configuration}

structure Configuration.Unfiltered (configuration : Configuration) : Prop where
  components : configuration.excludedComponents = []
  files : configuration.excludedFiles = []
  lproj : configuration.lproj = none ∨ configuration.lproj = some ""

theorem isExtension_of_no_problems (sound : configuration.problems = []) :
    Configuration.isExtension configuration.resourceExtension = true ∧
      Configuration.isExtension configuration.sourceExtension = true := by
  have valid : ∀ {setting value : String},
      Configuration.extensionProblems setting value = [] → Configuration.isExtension value = true := by
    intro setting value none
    rw [Configuration.extensionProblems] at none
    split at none
    next isExtension => exact isExtension
    next => simp at none
  simp only [Configuration.problems, List.append_eq_nil_iff] at sound
  exact ⟨valid sound.1.2, valid sound.2⟩

theorem classify_eq_resource_iff (unfiltered : configuration.Unfiltered) {root : Option Path}
    {path : Path} :
    classify configuration root path = .resource ↔
      hasExtension path configuration.resourceExtension = true := by
  have kept : isKeptResource configuration root path = true := by
    rcases unfiltered.lproj with none | empty
    · simp [isKeptResource, unfiltered.components, unfiltered.files, matchesLproj, none]
    · simp [isKeptResource, unfiltered.components, unfiltered.files, matchesLproj, empty]
  rw [classify, kept]
  split
  · simp [*]
  · split <;> simp [*]

theorem classify_eq_source_iff {root : Option Path} {path : Path} :
    classify configuration root path = .source ↔
      hasExtension path configuration.resourceExtension = false ∧
        hasExtension path configuration.sourceExtension = true := by
  rw [classify]
  split
  · split <;> simp [*]
  · split <;> simp [*]

/--
A configured extension is that of some files exactly if it is simple: then any name may stand in
front of it, and otherwise no file at all has it, although the configuration is found to be sound.
-/
theorem classify_configured_extension (sound : configuration.problems = [])
    (unfiltered : configuration.Unfiltered) (root : Option Path) {stem : String} (named : stem ≠ "")
    (unslashed : '/' ∉ stem.toList) :
    (IsSimpleExtension configuration.resourceExtension →
      classify configuration root (Path.ofString (stem ++ configuration.resourceExtension)) =
        .resource) ∧
    (¬ IsSimpleExtension configuration.resourceExtension →
      ∀ path, classify configuration root path ≠ .resource) ∧
    (lower configuration.resourceExtension.toList ≠ lower configuration.sourceExtension.toList →
      IsSimpleExtension configuration.sourceExtension →
      classify configuration root (Path.ofString (stem ++ configuration.sourceExtension)) =
        .source) ∧
    (¬ IsSimpleExtension configuration.sourceExtension →
      ∀ path, classify configuration root path ≠ .source) := by
  obtain ⟨validResource, validSource⟩ := isExtension_of_no_problems sound
  refine ⟨fun simple => ?_, fun compound path found => ?_, fun different simple => ?_,
    fun compound path found => ?_⟩
  · rw [classify_eq_resource_iff unfiltered,
      hasExtension_append validResource simple named unslashed]
  · have has := (classify_eq_resource_iff unfiltered).mp found
    exact compound (isSimpleExtension_of_hasExtension validResource has)
  · rw [classify_eq_source_iff, hasExtension_append validSource simple named unslashed,
      ← Bool.not_eq_true, hasExtension_append validSource simple named unslashed]
    exact ⟨different.symm, rfl⟩
  · have has := (classify_eq_source_iff.mp found).2
    exact compound (isSimpleExtension_of_hasExtension validSource has)

def compoundConfiguration : Configuration :=
  { resourceExtension := ".loc.strings"
    sourceExtension := ".SWIFT"
    excludedComponents := []
    excludedFiles := []
    lproj := none
    maxWorkers := some 1
    showFiles := false }

theorem classify_configured_extension_compound :
    compoundConfiguration.problems = [] ∧ compoundConfiguration.Unfiltered ∧
    (∀ path, classify compoundConfiguration none path ≠ .resource) ∧
    classify compoundConfiguration none (Path.ofString "Main.SWIFT") = .source := by
  have sound : compoundConfiguration.problems = [] := by decide
  have unfiltered : compoundConfiguration.Unfiltered := ⟨rfl, rfl, .inl rfl⟩
  have compound : ¬ IsSimpleExtension compoundConfiguration.resourceExtension := by decide
  have simple : IsSimpleExtension compoundConfiguration.sourceExtension := by decide
  have different : lower compoundConfiguration.resourceExtension.toList ≠
      lower compoundConfiguration.sourceExtension.toList := by
    decide +kernel
  obtain ⟨_, never, always, _⟩ :=
    @classify_configured_extension _ sound unfiltered none "Main" (by decide) (by decide)
  exact ⟨sound, unfiltered, never compound, always different simple⟩

end Classify

end LocalizationAudit

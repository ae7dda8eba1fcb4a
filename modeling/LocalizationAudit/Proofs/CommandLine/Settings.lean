import LocalizationAudit.Proofs.CommandLine.Workers
import LocalizationAudit.Proofs.Text.Integer
import LocalizationAudit.Swift.Language
import Mathlib.Data.List.Forall2

/-!
The settings of a scan, each taken from the command line before the environment and from there
before the default. What is absent, empty or blank counts differently for each of them.
-/

namespace LocalizationAudit

section Items

def IsItemList (text : List Char) (items : List String) : Prop :=
  ∃ pieces trimmed, pieces ≠ [] ∧ (∀ piece ∈ pieces, ',' ∉ piece) ∧ text = [','].intercalate pieces ∧
    List.Forall₂ (TrimsTo isBlank) pieces trimmed ∧
    items.map String.toList = trimmed.filter (· ≠ [])

theorem isItemList_listItems (text : String) : IsItemList text.toList (listItems text) := by
  refine ⟨text.toList.splitOn ',', (text.toList.splitOn ',').map trim, List.splitOn_ne_nil _ _,
    fun piece => not_mem_of_mem_splitOn, (List.intercalate_splitOn ',').symm, ?_, ?_⟩
  · rw [List.forall₂_map_right_iff]
    exact List.forall₂_same.mpr fun piece _ => trimsTo_trimWith isBlank piece
  · have spelled : String.toList ∘ String.ofList = id := funext fun item => by simp
    rw [listItems, List.map_map, spelled, List.map_id]
    exact congrArg (List.filter · _) (funext fun item => by cases item <;> rfl)

end Items

section Configured

variable {environment : Environment} {processors : Option Nat}

theorem lprojOf_eq_some_iff {text : Option String} {language : String} :
    Configuration.lprojOf text = some language ↔ text = some language ∧ language ≠ "" := by
  simp [Configuration.lprojOf, Option.filter_eq_some_iff]

theorem workersOf_of_blank {text : Option String}
    (blank : ∀ value, text = some value → ∀ c ∈ value.toList, isBlank c = true) :
    Configuration.workersOf processors text = some (defaultWorkers processors) := by
  have nothing : trim (text.getD "").toList = [] := by
    refine trimWith_of_blank fun c member => ?_
    cases text with
    | none => simp at member
    | some value => exact blank value rfl c member
  rw [Configuration.workersOf, nothing]

theorem workersOf_of_trimsTo {value : String} {kept : List Char}
    (trims : TrimsTo isBlank value.toList kept) (solid : kept ≠ []) {workers : Int} :
    Configuration.workersOf processors (some value) = some workers ↔ IsInteger kept workers := by
  obtain ⟨c, rest, rfl⟩ := List.exists_cons_of_ne_nil solid
  rw [Configuration.workersOf, Option.getD_some, trim_eq_iff.mpr trims]
  exact integer?_of_isTrimmed trims.1

theorem isTrueWord_iff {value : String} :
    isTrueWord value = true ↔
      ∃ kept, TrimsTo isBlank value.toList kept ∧ String.ofList (lower kept) ∈ trueWords := by
  rw [isTrueWord, List.contains_iff_mem]
  constructor
  · intro found
    exact ⟨_, trimsTo_trimWith isBlank value.toList, found⟩
  · rintro ⟨kept, trims, found⟩
    rwa [trim_eq_iff.mpr trims]

end Configured

/-- An empty name filters nothing, like none at all. -/
theorem classify_empty_lproj {settings : ScanSettings} (empty : settings.lproj = some "")
    (root : Option Path) (path : Path) :
    classify settings root path = classify { settings with lproj := none } root path := by
  simp [classify, isKeptResource, matchesLproj, empty]

namespace ScanSettings

/--
Where each setting of a scan comes from. The extensions and the excluded files come from no option;
an item of the environment is kept together with those excluded by options, in this order.
-/
structure Follows (settings : ScanSettings) (environment : Environment) (processors : Option Nat)
    (options : ScanOptions) : Prop where
  resourceExtension : settings.resourceExtension =
    (environment.value? Environment.resourceExtensionName).getD ".strings"
  sourceExtension : settings.sourceExtension =
    (environment.value? Environment.sourceExtensionName).getD ".swift"
  excludedFiles : settings.excludedFiles = ["InfoPlist.strings"]
  excludedComponents : ∃ configured, settings.excludedComponents = configured ++ options.excluded ∧
    (environment.value? Environment.excludeName = none → configured = ["Pods", "Carthage"]) ∧
    ∀ text, environment.value? Environment.excludeName = some text →
      IsItemList text.toList configured
  lproj_given : ∀ language, options.lproj = some language → settings.lproj = some language
  lproj_configured : options.lproj = none → ∀ language, settings.lproj = some language ↔
    environment.value? Environment.lprojName = some language ∧ language ≠ ""
  lproj_empty : settings.lproj = some "" → ∀ root path,
    classify settings root path = classify { settings with lproj := none } root path
  workers_given : ∀ workers, options.workers = some workers → settings.maxWorkers = some workers
  workers_configured : options.workers = none → ∀ text kept,
    environment.value? Environment.workersName = some text → TrimsTo isBlank text.toList kept →
    kept ≠ [] → (∃ workers, settings.maxWorkers = some workers) ∧
      ∀ workers, settings.maxWorkers = some workers ↔ IsInteger kept workers
  workers_default : options.workers = none →
    (∀ text, environment.value? Environment.workersName = some text →
      ∀ c ∈ text.toList, isBlank c = true) →
    settings.maxWorkers = some (defaultWorkers processors)
  showFiles : settings.showFiles = true ↔ options.showFiles = true ∨
    ∃ text kept, environment.value? Environment.showFilesName = some text ∧
      TrimsTo isBlank text.toList kept ∧ String.ofList (lower kept) ∈ ["1", "true", "yes", "on"]

def Takes {α : Type} (given : Option α) (before after : α) : Prop :=
  (given = none → after = before) ∧ ∀ value, given = some value → after = value

structure ChangedBy (result settings : ScanSettings) (overrides : Overrides) : Prop where
  resourceExtension :
    Takes overrides.resourceExtension settings.resourceExtension result.resourceExtension
  sourceExtension : Takes overrides.sourceExtension settings.sourceExtension result.sourceExtension
  excludedComponents :
    Takes overrides.excludedComponents settings.excludedComponents result.excludedComponents
  excludedFiles : Takes overrides.excludedFiles settings.excludedFiles result.excludedFiles
  lproj : Takes (overrides.lproj.map some) settings.lproj result.lproj
  maxWorkers : Takes (overrides.maxWorkers.map some) settings.maxWorkers result.maxWorkers
  showFiles : Takes overrides.showFiles settings.showFiles result.showFiles

theorem takes_getD {α : Type} (given : Option α) (before : α) :
    Takes given before (given.getD before) := by
  cases given <;> simp [Takes]

theorem takes_orElse {α : Type} (given before : Option α) :
    Takes (given.map some) before (given <|> before) := by
  cases given <;> simp [Takes]

theorem apply_changedBy (settings : ScanSettings) (overrides : Overrides) :
    (settings.apply overrides).ChangedBy settings overrides where
  resourceExtension := takes_getD _ _
  sourceExtension := takes_getD _ _
  excludedComponents := takes_getD _ _
  excludedFiles := takes_getD _ _
  lproj := takes_orElse _ _
  maxWorkers := takes_orElse _ _
  showFiles := takes_getD _ _

theorem override_eq_ok_iff {settings result : ScanSettings} {overrides : Overrides} :
    settings.override overrides = .ok result ↔
      (∀ name, (name, true) ∉ overrides.others) ∧ result = settings.apply overrides := by
  have unnamed : overrides.others.find? (·.2) = none ↔ ∀ name, (name, true) ∉ overrides.others := by
    simp [List.find?_eq_none]
  rw [← unnamed, override]
  split
  next found => simp [found]
  next none => simp [none, eq_comm]

/-- The first unknown name that has a value is the one that is reported. -/
theorem override_eq_error_iff {settings : ScanSettings} {overrides : Overrides} {failure : Failure} :
    settings.override overrides = .error failure ↔ ∃ name before after,
      failure = .unknownSetting name ∧ overrides.others = before ++ (name, true) :: after ∧
        ∀ other ∈ before, other.2 = false := by
  rw [override]
  split
  next name hasValue found =>
    obtain ⟨valued, before, after, whole, earlier⟩ := List.find?_eq_some_iff_append.mp found
    obtain rfl : hasValue = true := valued
    constructor
    · intro failed
      refine ⟨name, before, after, (Except.error.inj failed).symm, whole, fun other member => ?_⟩
      simpa using earlier other member
    · rintro ⟨other, _, _, rfl, again, unvalued⟩
      have first : overrides.others.find? (·.2) = some (other, true) :=
        List.find?_eq_some_iff_append.mpr ⟨rfl, _, _, again, by simpa using unvalued⟩
      obtain rfl : name = other := congrArg Prod.fst (Option.some.inj (found.symm.trans first))
      rfl
  next none =>
    rw [List.find?_eq_none] at none
    simp only [reduceCtorEq, false_iff]
    rintro ⟨name, before, after, _, whole, _⟩
    exact none (name, true) (by simp [whole]) rfl

theorem override_fails_iff {settings : ScanSettings} {overrides : Overrides} :
    (∃ failure, settings.override overrides = .error failure) ↔
      ∃ name, (name, true) ∈ overrides.others := by
  constructor
  · rintro ⟨failure, failed⟩
    obtain ⟨name, before, after, _, whole, _⟩ := override_eq_error_iff.mp failed
    exact ⟨name, by simp [whole]⟩
  · rintro ⟨name, member⟩
    cases outcome : settings.override overrides with
    | error failure => exact ⟨failure, rfl⟩
    | ok result => exact absurd member ((override_eq_ok_iff.mp outcome).1 name)

end ScanSettings

section Precedence

variable {around : Surroundings} (options : ScanOptions)

theorem follows_of_no_problems (sound : around.configuration.problems = []) :
    (options.settings around.configuration).Follows around.environment around.processors
      options where
  resourceExtension := rfl
  sourceExtension := rfl
  excludedFiles := rfl
  excludedComponents := by
    refine ⟨around.configuration.excludedComponents, rfl, fun unset => ?_, fun text set => ?_⟩
    · simp [Surroundings.configuration, Configuration.ofEnvironment, unset,
        defaultExcludedComponents]
    · simpa [Surroundings.configuration, Configuration.ofEnvironment, set]
        using isItemList_listItems text
  lproj_given := by
    intro language given
    change (options.lproj <|> around.configuration.lproj) = some language
    rw [given]
    rfl
  lproj_configured := by
    intro absent language
    change (options.lproj <|> Configuration.lprojOf _) = some language ↔ _
    rw [absent]
    exact lprojOf_eq_some_iff
  lproj_empty := classify_empty_lproj
  workers_given := by
    intro workers given
    change (options.workers <|> around.configuration.maxWorkers) = some workers
    rw [given]
    rfl
  workers_configured := by
    intro absent text kept set trims solid
    obtain ⟨workers, configured, _⟩ := exists_workers_of_no_problems sound
    have read : around.configuration.maxWorkers =
        Configuration.workersOf around.processors (some text) := by
      rw [← set]
      rfl
    change (∃ workers, (options.workers <|> around.configuration.maxWorkers) = some workers) ∧
      ∀ other, (options.workers <|> around.configuration.maxWorkers) = some other ↔ _
    rw [absent]
    refine ⟨⟨workers, configured⟩, fun other => ?_⟩
    rw [read]
    exact workersOf_of_trimsTo trims solid
  workers_default := by
    intro absent blank
    change (options.workers <|> Configuration.workersOf _ _) = _
    rw [absent]
    exact workersOf_of_blank blank
  showFiles := by
    have overridden : (options.settings around.configuration).showFiles =
        (options.showFiles || around.configuration.showFiles) := by
      simp only [ScanOptions.settings, ScanOptions.overrides, ScanSettings.apply]
      cases options.showFiles <;> rfl
    have configured : around.configuration.showFiles = true ↔ ∃ text,
        around.environment.value? Environment.showFilesName = some text ∧ isTrueWord text = true := by
      simp only [Surroundings.configuration, Configuration.ofEnvironment]
      cases around.environment.value? Environment.showFilesName <;> simp
    rw [overridden, Bool.or_eq_true, configured]
    simp only [isTrueWord_iff, exists_and_left, trueWords]

/--
A scan runs with settings that its options, the environment and the defaults give in this order. Any
other setting that is overridden by name changes alone, and a name that no setting has is refused
exactly if a value comes with it.
-/
theorem scan_follows_precedence (sound : around.configuration.problems = []) :
    (∃ settings,
      around.configuration.override (options.overrides around.configuration) = .ok settings ∧
      settings.Follows around.environment around.processors options ∧
      runScan around options = finishAudit around.console
        (auditReading Disk.reader around.disk id around settings (options.pathIn around)).1) ∧
    ∀ (settings : ScanSettings) (overrides : Overrides),
      ((∃ failure, settings.override overrides = .error failure) ↔
        ∃ name, (name, true) ∈ overrides.others) ∧
      (∀ failure, settings.override overrides = .error failure →
        ∃ name, failure = .unknownSetting name ∧ (name, true) ∈ overrides.others) ∧
      ∀ result, settings.override overrides = .ok result → result.ChangedBy settings overrides := by
  refine ⟨⟨options.settings around.configuration, ?_, follows_of_no_problems options sound, ?_⟩,
    fun settings overrides => ⟨ScanSettings.override_fails_iff, fun failure failed => ?_,
      fun result changed => ?_⟩⟩
  · exact ScanSettings.override_eq_ok_iff.mpr ⟨by simp [ScanOptions.overrides], rfl⟩
  · rw [runScan, runScanReading, sound]
  · obtain ⟨name, before, after, named, whole, _⟩ := ScanSettings.override_eq_error_iff.mp failed
    exact ⟨name, named, by simp [whole]⟩
  · obtain ⟨_, rfl⟩ := ScanSettings.override_eq_ok_iff.mp changed
    exact settings.apply_changedBy overrides

def variedProject : Surroundings :=
  { environment :=
      [(Environment.excludeName, "Pods, Vendor ,"), (Environment.workersName, " 1_0 "),
        (Environment.showFilesName, " Yes"), (Environment.lprojName, "en")]
    processors := none
    workingDirectory := "/"
    disk := ⟨.directory "" [], []⟩
    clock := ⟨0, 0⟩
    grammar := ⟨Swift.language, .ok Swift.tree⟩ }

def variedOptions : ScanOptions :=
  { excluded := ["Generated", "Pods"], lproj := some "" }

def variedSettings : ScanSettings :=
  { resourceExtension := ".strings"
    sourceExtension := ".swift"
    excludedComponents := ["Pods", "Vendor", "Generated", "Pods"]
    excludedFiles := ["InfoPlist.strings"]
    lproj := some ""
    maxWorkers := some 10
    showFiles := true }

theorem scan_follows_precedence_varied :
    variedProject.configuration.problems = [] ∧
    variedSettings.Follows variedProject.environment none variedOptions ∧
    ∃ failure, variedSettings.override { others := [("depth", false), ("jobs", true)] } =
      .error failure := by
  have sound : variedProject.configuration.problems = [] := by decide +kernel
  obtain ⟨⟨settings, effective, follows, _⟩, overridden⟩ :=
    scan_follows_precedence variedOptions sound
  have given : variedProject.configuration.override
      (variedOptions.overrides variedProject.configuration) = .ok variedSettings := by
    decide +kernel
  obtain rfl : settings = variedSettings := Except.ok.inj (effective.symm.trans given)
  exact ⟨sound, follows, (overridden _ _).1.mpr ⟨"jobs", by simp⟩⟩

end Precedence

end LocalizationAudit

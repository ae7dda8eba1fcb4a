import LocalizationAudit.Proofs.Scan.Accounting
import LocalizationAudit.Proofs.Scan.Returned

/-!
Stricter filters take resources away and nothing else. A scan with them reads the same sources with
the same outcome, and what it defines, reports as unused and places is part of what was there
before.
-/

namespace LocalizationAudit

/-- Stricter settings exclude more, and may filter by language where nothing was filtered. -/
structure ScanSettings.Narrows (narrow wide : ScanSettings) : Prop where
  resourceExtension : narrow.resourceExtension = wide.resourceExtension
  sourceExtension : narrow.sourceExtension = wide.sourceExtension
  components : wide.excludedComponents ⊆ narrow.excludedComponents
  files : wide.excludedFiles ⊆ narrow.excludedFiles
  lproj : narrow.lproj = wide.lproj ∨ wide.lproj.getD "" = ""
  workers : narrow.maxWorkers = wide.maxWorkers

section Classification

variable {narrow wide : ScanSettings} (narrows : narrow.Narrows wide) (root : Option Path)
  (path : Path)

include narrows

theorem matchesLproj_of_narrows (kept : matchesLproj narrow.lproj path = true) :
    matchesLproj wide.lproj path = true := by
  rcases narrows.lproj with same | none
  · rwa [← same]
  · cases filter : wide.lproj with
    | none => rfl
    | some language =>
        have empty : language = "" := by simpa [filter] using none
        simp [matchesLproj, empty]

theorem isKeptResource_of_narrows (kept : isKeptResource narrow root path = true) :
    isKeptResource wide root path = true := by
  simp only [isKeptResource, Bool.and_eq_true, Bool.not_eq_true', List.any_eq_false,
    List.contains_eq_mem, decide_eq_true_eq, decide_eq_false_iff_not] at kept ⊢
  obtain ⟨⟨components, file⟩, language⟩ := kept
  refine ⟨⟨?_, ?_⟩, matchesLproj_of_narrows narrows path language⟩
  · intro part isPart excluded
    exact components part isPart (narrows.components excluded)
  · intro excluded
    exact file (narrows.files excluded)

/-- Filters are looked at behind the resource extension only. -/
theorem classify_eq_source_iff_of_narrows :
    classify narrow root path = .source ↔ classify wide root path = .source := by
  simp only [classify, narrows.resourceExtension, narrows.sourceExtension]
  by_cases resource : hasExtension path wide.resourceExtension = true
  · simp only [resource, ↓reduceIte]
    constructor <;> intro isSource <;> split at isSource <;> simp at isSource
  · simp [resource]

theorem classify_eq_resource_of_narrows (isResource : classify narrow root path = .resource) :
    classify wide root path = .resource := by
  simp only [classify, narrows.resourceExtension] at isResource ⊢
  by_cases resource : hasExtension path wide.resourceExtension = true
  · simp only [resource, ↓reduceIte] at isResource ⊢
    by_cases kept : isKeptResource narrow root path = true
    · rw [if_pos (isKeptResource_of_narrows narrows root path kept)]
    · simp [kept] at isResource
  · rw [if_neg resource] at isResource
    split at isResource <;> simp at isResource

end Classification

section Tasks

variable {narrow wide : ScanSettings} (narrows : narrow.Narrows wide) {root : Path}
  {listing other : List Path} (same : ∀ path, path ∈ listing ↔ path ∈ other) {task : Task}

include narrows same

theorem mem_candidates_of_narrows (member : task ∈ candidates narrow root listing) :
    task ∈ candidates wide root other := by
  obtain ⟨listed, kind, counted⟩ := mem_candidates.mp member
  refine mem_candidates.mpr ⟨(same _).mp listed, ?_, counted⟩
  cases classified : classify narrow (some root) task.path with
  | resource => rw [kind, classified, classify_eq_resource_of_narrows narrows _ _ classified]
  | source =>
      rw [kind, classified, (classify_eq_source_iff_of_narrows narrows _ _).mp classified]
  | ignored => exact absurd (kind.trans classified) counted

theorem source_mem_candidates_of_narrows (kind : task.kind = .source)
    (member : task ∈ candidates wide root other) : task ∈ candidates narrow root listing := by
  obtain ⟨listed, classified, counted⟩ := mem_candidates.mp member
  have isSource := (classify_eq_source_iff_of_narrows narrows (some root) task.path).mpr
    (classified.symm.trans kind)
  exact mem_candidates.mpr ⟨(same _).mpr listed, kind.trans isSource.symm, counted⟩

omit narrows same in
theorem countKind_le {kind : FileKind} {tasks others : List Task}
    (distinct : (tasks.map Task.path).Nodup)
    (kept : ∀ task ∈ tasks, task.kind = kind → task ∈ others) :
    countKind kind tasks ≤ countKind kind others := by
  have apart : (tasks.filter (·.kind == kind)).Nodup := (distinct.of_map _).filter _
  refine (List.subperm_of_subset apart fun task member => ?_).length_le
  obtain ⟨isTask, isKind⟩ := List.mem_filter.mp member
  exact List.mem_filter.mpr ⟨kept task isTask (beq_iff_eq.mp isKind), isKind⟩

end Tasks

def sourceFailures (settings : ScanSettings) (root : Path) (result : ScanResult) :
    List FileFailure :=
  result.failures.filter fun failure =>
    classify settings (some root) (Path.ofString failure.path) == .source

theorem mem_sourceFailures_of_returned {Store : Type} {settings : ScanSettings}
    {extractors : Extractors} {files : FileSystem Store} {store : Store} {root : String}
    {listing : List Path} {schedule : List Task → List Task} (complete : IsSchedule schedule)
    {result : ScanResult}
    (returned : (scan settings extractors files.toReader store schedule root
      (.ok listing)).1.outcome = .ok result) (failure : FileFailure) :
    failure ∈ sourceFailures settings (Path.ofString root) result ↔
      ∃ task ∈ candidates settings (Path.ofString root) listing, task.kind = .source ∧
        FailsAs extractors task (files.content store task.path) failure := by
  have pathOf : ∀ task, FailsAs extractors task (files.content store task.path) failure →
      Path.ofString failure.path = task.path := by
    rintro task ⟨contribution, done, failed⟩
    rw [failure_path_of_outcomeOf done failed, Path.ofString_text]
  rw [sourceFailures, List.mem_filter, mem_failures_of_returned complete returned, beq_iff_eq]
  constructor
  · rintro ⟨⟨task, member, fails⟩, isSource⟩
    rw [pathOf task fails, ← (mem_candidates.mp member).2.1] at isSource
    exact ⟨task, member, isSource, fails⟩
  · rintro ⟨task, member, kind, fails⟩
    refine ⟨⟨task, member, fails⟩, ?_⟩
    rw [pathOf task fails, ← (mem_candidates.mp member).2.1, kind]

structure Narrowed (narrow wide : ScanSettings) (root : Path) (narrowed result : ScanResult) :
    Prop where
  sourceFiles : narrowed.sourceFiles = result.sourceFiles
  literals : ∀ text, text ∈ narrowed.usedLiterals ↔ text ∈ result.usedLiterals
  failures : sourceFailures narrow root narrowed = sourceFailures wide root result
  resourceFiles : narrowed.resourceFiles ≤ result.resourceFiles
  defined : narrowed.definedKeys.texts ⊆ result.definedKeys.texts
  unused : narrowed.unusedTexts ⊆ result.unusedTexts
  locations : ∀ text, narrowed.locationsOf text ⊆ result.locationsOf text

section Scan

variable {Store : Type} {narrow wide : ScanSettings} (narrows : narrow.Narrows wide)
  {extractors : Extractors} {files : FileSystem Store} {store : Store} {root : String}
  {listing other : List Path} (same : ∀ path, path ∈ listing ↔ path ∈ other)
  {schedule otherSchedule : List Task → List Task} (complete : IsSchedule schedule)
  (completeOther : IsSchedule otherSchedule)

include narrows same complete completeOther

theorem narrow_returns {result : ScanResult}
    (returned : (scan wide extractors files.toReader store otherSchedule root
      (.ok other)).1.outcome = .ok result) :
    ∃ narrowed, (scan narrow extractors files.toReader store schedule root
      (.ok listing)).1.outcome = .ok narrowed := by
  obtain ⟨start, total⟩ :=
    (exists_returned_iff wide extractors files store root other completeOther).mp ⟨_, returned⟩
  refine (exists_returned_iff narrow extractors files store root listing complete).mpr ⟨?_, ?_⟩
  · rcases start with nothing | workers
    · refine .inl (List.eq_nil_iff_forall_not_mem.mpr fun task member => ?_)
      have inWide := mem_candidates_of_narrows narrows same member
      rw [nothing] at inWide
      exact List.not_mem_nil inWide
    · right
      rwa [hasWorkers, narrows.workers]
  · intro task member
    exact total task (mem_candidates_of_narrows narrows same member)

/-- Only a missing worker may be noticed by the wider scan alone. -/
theorem wide_returns (workers : hasWorkers wide = true) {narrowed : ScanResult}
    (returned : (scan narrow extractors files.toReader store schedule root
      (.ok listing)).1.outcome = .ok narrowed) :
    ∃ result, (scan wide extractors files.toReader store otherSchedule root
      (.ok other)).1.outcome = .ok result := by
  obtain ⟨_, total⟩ :=
    (exists_returned_iff narrow extractors files store root listing complete).mp ⟨_, returned⟩
  refine (exists_returned_iff wide extractors files store root other completeOther).mpr
    ⟨.inr workers, fun task member => ?_⟩
  cases kind : task.kind with
  | resource => exact completes_of_resource kind
  | source => exact total task (source_mem_candidates_of_narrows narrows same kind member)
  | ignored => exact absurd kind (mem_candidates.mp member).2.2

variable {narrowed result : ScanResult}
  (returned : (scan narrow extractors files.toReader store schedule root
    (.ok listing)).1.outcome = .ok narrowed)
  (returnedWide : (scan wide extractors files.toReader store otherSchedule root
    (.ok other)).1.outcome = .ok result)

include returned returnedWide

theorem mem_usedLiterals_of_narrows (text : String) :
    text ∈ narrowed.usedLiterals ↔ text ∈ result.usedLiterals := by
  rw [mem_usedLiterals_of_returned complete returned,
    mem_usedLiterals_of_returned completeOther returnedWide]
  simp only [same, classify_eq_source_iff_of_narrows narrows]

theorem texts_subset_of_narrows : narrowed.definedKeys.texts ⊆ result.definedKeys.texts := by
  intro text defined
  obtain ⟨path, listed, isResource, found⟩ :=
    (mem_texts_of_returned complete returned text).mp defined
  exact (mem_texts_of_returned completeOther returnedWide text).mpr ⟨path, (same path).mp listed,
    classify_eq_resource_of_narrows narrows _ _ isResource, found⟩

theorem locationsOf_subset_of_narrows (text : String) :
    narrowed.locationsOf text ⊆ result.locationsOf text := by
  refine ScanResult.locationsOf_subset fun key member => ?_
  obtain ⟨sameText, path, listed, isResource, found⟩ :=
    (mem_keysAt_of_returned complete returned text key).mp member
  exact (mem_keysAt_of_returned completeOther returnedWide text key).mpr ⟨sameText, path,
    (same path).mp listed, classify_eq_resource_of_narrows narrows _ _ isResource, found⟩

theorem unusedTexts_subset_of_narrows : narrowed.unusedTexts ⊆ result.unusedTexts := by
  intro text unused
  obtain ⟨defined, free⟩ := (ScanResult.mem_unusedTexts narrowed).mp unused
  refine (ScanResult.mem_unusedTexts result).mpr ⟨?_, ?_⟩
  · exact texts_subset_of_narrows narrows same complete completeOther returned returnedWide defined
  · -- The difference only shrinks because nothing is taken from the literals.
    intro used
    exact free ((mem_usedLiterals_of_narrows narrows same complete completeOther returned
      returnedWide text).mpr used)

theorem sourceFailures_of_narrows :
    sourceFailures narrow (Path.ofString root) narrowed =
      sourceFailures wide (Path.ofString root) result := by
  refine eq_of_increasing FileFailure.path ?_ ?_ fun failure => ?_
  · exact (failures_increasing complete returned).sublist (List.filter_sublist.map _)
  · exact (failures_increasing completeOther returnedWide).sublist (List.filter_sublist.map _)
  · rw [mem_sourceFailures_of_returned complete returned,
      mem_sourceFailures_of_returned completeOther returnedWide]
    constructor
    · rintro ⟨task, member, kind, fails⟩
      exact ⟨task, mem_candidates_of_narrows narrows same member, kind, fails⟩
    · rintro ⟨task, member, kind, fails⟩
      exact ⟨task, source_mem_candidates_of_narrows narrows same kind member, kind, fails⟩

theorem narrowed_of_narrows : Narrowed narrow wide (Path.ofString root) narrowed result := by
  have distinct := nodup_paths_candidates narrow (Path.ofString root) listing
  have distinctWide := nodup_paths_candidates wide (Path.ofString root) other
  constructor
  · rw [sourceFiles_of_returned returned, sourceFiles_of_returned returnedWide]
    apply Nat.le_antisymm
    · exact countKind_le distinct fun _ member _ => mem_candidates_of_narrows narrows same member
    · exact countKind_le distinctWide fun _ member kind =>
        source_mem_candidates_of_narrows narrows same kind member
  · exact mem_usedLiterals_of_narrows narrows same complete completeOther returned returnedWide
  · exact sourceFailures_of_narrows narrows same complete completeOther returned returnedWide
  · rw [resourceFiles_of_returned returned, resourceFiles_of_returned returnedWide]
    exact countKind_le distinct fun _ member _ => mem_candidates_of_narrows narrows same member
  · exact texts_subset_of_narrows narrows same complete completeOther returned returnedWide
  · exact unusedTexts_subset_of_narrows narrows same complete completeOther returned returnedWide
  · exact locationsOf_subset_of_narrows narrows same complete completeOther returned returnedWide

end Scan

theorem filters_only_take_resources {Store : Type} {narrow wide : ScanSettings}
    (narrows : narrow.Narrows wide) (extractors : Extractors) (files : FileSystem Store)
    (store : Store) (root : String) {listing other : List Path}
    (same : ∀ path, path ∈ listing ↔ path ∈ other) {schedule otherSchedule : List Task → List Task}
    (complete : IsSchedule schedule) (completeOther : IsSchedule otherSchedule) :
    let kindOf := fun settings path => classify settings (some (Path.ofString root)) path
    let narrowScan :=
      (scan narrow extractors files.toReader store schedule root (.ok listing)).1.outcome
    let wideScan :=
      (scan wide extractors files.toReader store otherSchedule root (.ok other)).1.outcome
    (∀ path, kindOf narrow path = .source ↔ kindOf wide path = .source) ∧
    (∀ path, kindOf narrow path = .resource → kindOf wide path = .resource) ∧
    (∀ result, wideScan = .ok result → ∃ narrowed, narrowScan = .ok narrowed ∧
      Narrowed narrow wide (Path.ofString root) narrowed result) ∧
    (hasWorkers wide = true → ∀ narrowed, narrowScan = .ok narrowed →
      ∃ result, wideScan = .ok result) := by
  intro kindOf narrowScan wideScan
  refine ⟨fun path => classify_eq_source_iff_of_narrows narrows _ path,
    fun path => classify_eq_resource_of_narrows narrows _ path, ?_, ?_⟩
  · intro result returnedWide
    obtain ⟨narrowed, returned⟩ := narrow_returns narrows same complete completeOther returnedWide
    exact ⟨narrowed, returned,
      narrowed_of_narrows narrows same complete completeOther returned returnedWide⟩
  · intro workers narrowed returned
    exact wide_returns narrows same complete completeOther workers returned

def vendoredProject : MemoryFiles :=
  MemoryFiles.ofFiles "/app"
    [("en.lproj/Main.strings", encodeUtf8 "\"used\" = \"1\"; \"spare\" = \"2\";".toList),
      ("Vendor/en.lproj/Other.strings", encodeUtf8 "\"foreign\" = \"3\";".toList),
      ("main.swift", encodeUtf8 "show(\"used\")".toList), ("lost.swift", [0xFF])]

def vendoredListing : List Path :=
  ["/app/en.lproj/Main.strings", "/app/Vendor/en.lproj/Other.strings", "/app/main.swift",
    "/app/lost.swift"].map Path.ofString

def strictSettings : ScanSettings :=
  { ScanSettings.standard none with
    excludedComponents := ["Vendor", "Carthage", "Pods"]
    lproj := some "en" }

def vendoredScan (settings : ScanSettings) (schedule : List Task → List Task) :
    Transcript Failure ScanResult :=
  (scan settings sampleExtractors MemoryFiles.fileSystem.toReader vendoredProject schedule "/app"
    (.ok vendoredListing)).1

theorem filters_only_take_resources_vendored :
    strictSettings.Narrows (.standard none) ∧ IsSchedule List.reverse ∧ IsSchedule id ∧
    ∃ narrowed result,
      (vendoredScan strictSettings List.reverse).outcome = .ok narrowed ∧
      (vendoredScan (.standard none) id).outcome = .ok result ∧
      Narrowed strictSettings (.standard none) (Path.ofString "/app") narrowed result ∧
      "foreign" ∈ result.definedKeys.texts ∧ "foreign" ∉ narrowed.definedKeys.texts := by
  have narrows : strictSettings.Narrows (.standard none) := by
    constructor <;> decide
  have texts : (vendoredScan (.standard none) id).outcome.toOption.map (·.definedKeys.texts) =
      some ["used", "spare", "foreign"] := by
    decide +kernel
  have strictTexts : (vendoredScan strictSettings List.reverse).outcome.toOption.map
      (·.definedKeys.texts) = some ["used", "spare"] := by
    decide +kernel
  have succeeds : (vendoredScan (.standard none) id).outcome.toOption.isSome = true := by
    rw [← Option.isSome_map, texts]
    rfl
  have same : ∀ path, path ∈ vendoredListing ↔ path ∈ vendoredListing := fun _ => Iff.rfl
  obtain ⟨_, _, narrowing, _⟩ := filters_only_take_resources narrows sampleExtractors
    MemoryFiles.fileSystem vendoredProject "/app" same isSchedule_reverse isSchedule_id
  obtain ⟨result, returned⟩ := exists_ok_of_isSome succeeds
  refine ⟨narrows, isSchedule_reverse, isSchedule_id, ?_⟩
  rw [vendoredScan] at returned texts strictTexts
  obtain ⟨narrowed, strictly, isNarrowed⟩ := narrowing result returned
  rw [vendoredScan, vendoredScan]
  refine ⟨narrowed, result, strictly, returned, isNarrowed, ?_, ?_⟩
  · rw [returned] at texts
    simp [Option.some.inj texts]
  · rw [strictly] at strictTexts
    simp [Option.some.inj strictTexts]

end LocalizationAudit

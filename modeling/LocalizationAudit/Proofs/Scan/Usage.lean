import LocalizationAudit.Proofs.Scan.Gathering
import LocalizationAudit.Swift.Language

/-!
What a scan reports as unused: exactly the texts that a readable resource defines and that no
readable source uses, each once and in increasing order. The order in which files are listed and
in which their tasks end plays no part.
-/

namespace LocalizationAudit

section Contributions

variable {extractors : Extractors} {content : Path → Except ReadError Bytes}

theorem exists_contribution_iff {tasks scheduled : List Task} {contributions : List Contribution}
    (perm : scheduled.Perm tasks)
    (completed : List.Forall₂ (Completes extractors content) scheduled contributions)
    {holds : Contribution → Prop} {expected : Task → Prop}
    (meaning : ∀ task contribution, Completes extractors content task contribution →
      (holds contribution ↔ expected task)) :
    (∃ contribution ∈ contributions, holds contribution) ↔ ∃ task ∈ tasks, expected task := by
  have reordered : (∃ task ∈ tasks, expected task) ↔ ∃ task ∈ scheduled, expected task := by
    simp only [perm.mem_iff]
  rw [reordered]
  clear perm reordered
  induction completed with
  | nil => simp
  | cons done _ ih => simp [meaning _ _ done, ih]

theorem exists_candidate_iff {settings : ScanSettings} {root : Path} {listing : List Path}
    {kind : FileKind} (counted : kind ≠ .ignored) (expected : Path → Prop) :
    (∃ task ∈ candidates settings root listing, task.kind = kind ∧ expected task.path) ↔
      ∃ path ∈ listing, classify settings (some root) path = kind ∧ expected path := by
  simp only [mem_candidates]
  constructor
  · rintro ⟨task, ⟨listed, classified, _⟩, rfl, met⟩
    exact ⟨task.path, listed, classified.symm, met⟩
  · rintro ⟨path, listed, rfl, met⟩
    exact ⟨⟨path, _⟩, ⟨listed, rfl, counted⟩, rfl, met⟩

end Contributions

theorem unusedKeys_exact {Store : Type} (settings : ScanSettings) (extractors : Extractors)
    (files : FileSystem Store) (store : Store) (schedule : List Task → List Task)
    (complete : IsSchedule schedule) (root : String) (listing : List Path) (result : ScanResult)
    (returned : (scan settings extractors files.toReader store schedule root
      (.ok listing)).1.outcome = .ok result) :
    (∀ text, text ∈ result.unusedKeys.map (·.text) ↔
      (∃ path ∈ listing, classify settings (some (Path.ofString root)) path = .resource ∧
        DefinesKey extractors path (files.content store path) text) ∧
      ¬ ∃ path ∈ listing, classify settings (some (Path.ofString root)) path = .source ∧
        UsesLiteral extractors path (files.content store path) text) ∧
    (result.unusedKeys.map (·.text)).Pairwise (· < ·) := by
  rcases scan_cases settings extractors files store schedule root listing with
    ⟨contributions, _, completed, transcript⟩ | ⟨_, failure, transcript⟩
  · rw [transcript] at returned
    cases returned
    have perm := complete (candidates settings (Path.ofString root) listing)
    refine ⟨fun text => ?_, ScanResult.unusedTexts_increasing
      (ScanResult.nodup_texts_ofContributions _ _)⟩
    have defined := (exists_contribution_iff perm completed fun _ _ done =>
      mem_texts_of_outcomeOf done text).trans (exists_candidate_iff (by simp)
        fun path => DefinesKey extractors path (files.content store path) text)
    have used := (exists_contribution_iff perm completed fun _ _ done =>
      mem_literals_of_outcomeOf done text).trans (exists_candidate_iff (by simp)
        fun path => UsesLiteral extractors path (files.content store path) text)
    refine (ScanResult.mem_unusedTexts _).trans ?_
    rw [ScanResult.mem_texts_ofContributions, ScanResult.mem_usedLiterals_ofContributions, defined,
      used]
  · rw [transcript] at returned
    cases returned

def sampleProject : MemoryFiles :=
  MemoryFiles.ofFiles "/app"
    [("en.lproj/Main.strings",
        encodeUtf8 "\"used\" = \"1\";\n\"spare\" = \"2\";\n\"spare\" = \"3\";".toList),
      ("Pods/Other.strings", encodeUtf8 "\"foreign\" = \"4\";".toList),
      ("broken.strings", [0xFF]),
      ("main.swift", encodeUtf8 "show(\"used\")".toList)]

def sampleListing : List Path :=
  ["/app/main.swift", "/app/broken.strings", "/app/Pods/Other.strings",
    "/app/en.lproj/Main.strings", "/app/main.swift"].map Path.ofString

def sampleResult : ScanResult :=
  { definedKeys :=
      [⟨"used", some "/app/en.lproj/Main.strings", some 1⟩,
        ⟨"spare", some "/app/en.lproj/Main.strings", some 2⟩]
    usedLiterals := ["used"]
    occurrences :=
      [("used", [⟨"used", some "/app/en.lproj/Main.strings", some 1⟩]),
        ("spare", [⟨"spare", some "/app/en.lproj/Main.strings", some 2⟩])]
    resourceFiles := 2
    sourceFiles := 1
    failures := [⟨"/app/broken.strings", .decode, "Could not decode file: truncated data"⟩] }

def sampleExtractors : Extractors :=
  ⟨standardKeySites, Swift.grammarFor Swift.language⟩

theorem unusedKeys_sample :
    IsSchedule List.reverse ∧
    (scan (.standard none) sampleExtractors MemoryFiles.fileSystem.toReader sampleProject
      List.reverse "/app" (.ok sampleListing)).1.outcome = .ok sampleResult ∧
    sampleResult.unusedKeys.map (·.text) = ["spare"] ∧
    (∃ path ∈ sampleListing,
      classify (.standard none) (some (Path.ofString "/app")) path = .resource ∧
      DefinesKey sampleExtractors path (MemoryFiles.fileSystem.content sampleProject path)
        "spare") ∧
    ¬ ∃ path ∈ sampleListing,
      classify (.standard none) (some (Path.ofString "/app")) path = .source ∧
      UsesLiteral sampleExtractors path (MemoryFiles.fileSystem.content sampleProject path)
        "spare" := by
  have returned : (scan (.standard none) sampleExtractors MemoryFiles.fileSystem.toReader
      sampleProject List.reverse "/app" (.ok sampleListing)).1.outcome = .ok sampleResult := by
    decide +kernel
  have unused : sampleResult.unusedKeys.map (·.text) = ["spare"] := by decide +kernel
  have exact := unusedKeys_exact _ _ _ _ _ isSchedule_reverse _ _ _ returned
  exact ⟨isSchedule_reverse, returned, unused, (exact.1 "spare").mp (by simp [unused])⟩

end LocalizationAudit

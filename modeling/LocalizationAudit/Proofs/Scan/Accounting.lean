import LocalizationAudit.Proofs.FileSystem.Memory
import LocalizationAudit.Proofs.Literal.Extraction
import LocalizationAudit.Proofs.Scan.Scheduling

/-!
A file that cannot be used costs a scan only that file. A scan of files in memory always gives a
result, reads each candidate once and nothing else, and accounts for every candidate: it is counted
with its kind, it advances the progress by one, and it either adds to the result or is recorded as
one failure, by the step that failed.
-/

namespace LocalizationAudit

/-- A tree without faults lies over its source; of a tree with faults nothing is asked. -/
def LaysOver (parse : Bytes → SyntaxNode) (source : Bytes) : Prop :=
  (¬ ∃ node ∈ (parse source).preorder, node.isFaulty = true) → (parse source).IsTreeOf source

instance (parse : Bytes → SyntaxNode) (source : Bytes) : Decidable (LaysOver parse source) :=
  inferInstanceAs (Decidable ((¬ ∃ node ∈ (parse source).preorder, node.isFaulty = true) → _))

/-- The failure of a file, by the first step that fails: reading, decoding or parsing. -/
inductive FailsWith (parse : Bytes → SyntaxNode) (task : Task) :
    Except ReadError Bytes → FileFailure → Prop
  | read (error : ReadError) :
      FailsWith parse task (.error error) ⟨task.path.text, .read, error.message⟩
  | resourceText {content : Bytes} {error : DecodeError} (kind : task.kind = .resource)
      (refused : decodeText content resourceEncodings = .error error) :
      FailsWith parse task (.ok content)
        ⟨task.path.text, .decode, "Could not decode file: " ++ error.reason⟩
  | sourceText {content : Bytes} {error : DecodeError} (kind : task.kind = .source)
      (refused : decodeText content sourceEncodings = .error error) :
      FailsWith parse task (.ok content)
        ⟨task.path.text, .decode, "Could not read file: " ++ error.reason⟩
  | sourceTree {content : Bytes} (kind : task.kind = .source) (isText : IsUtf8 content)
      (faulty : ∃ node ∈ (parse content).preorder, node.isFaulty = true) :
      FailsWith parse task (.ok content)
        ⟨task.path.text, .parse,
          "Syntax error near line " ++ toString ((parse content).firstErrorLine content)⟩

structure IsCandidate (settings : ScanSettings) (root : Path) (listing : List Path) (task : Task) :
    Prop where
  listed : task.path ∈ listing
  classified : task.kind = classify settings (some root) task.path
  counted : task.kind ≠ .ignored

structure Accounts (settings : ScanSettings) (parse : Bytes → SyntaxNode)
    (content : Path → Except ReadError Bytes) (root : Path) (listing : List Path)
    (events : List LogEvent) (result : ScanResult) : Prop where
  resources : result.resourceFiles =
    (listing.eraseDups.filter (classify settings (some root) · == .resource)).length
  sources : result.sourceFiles =
    (listing.eraseDups.filter (classify settings (some root) · == .source)).length
  told : events =
    .count "Found" ↑(result.resourceFiles + result.sourceFiles) "files to scan." ::
      .startProgress "Scanning files" ↑(result.resourceFiles + result.sourceFiles) ::
      (List.replicate (result.resourceFiles + result.sourceFiles) (.advance 1) ++
        .finishProgress :: result.failures.map fun failure => .warning failure.warning)
  increasing : (result.failures.map FileFailure.path).Pairwise (· < ·)
  failed : ∀ failure, failure ∈ result.failures ↔
    ∃ task, IsCandidate settings root listing task ∧
      FailsWith parse task (content task.path) failure
  keys : ∀ text, ∀ key ∈ result.definedKeys ++ result.keysAt text,
    ∃ task, IsCandidate settings root listing task ∧ task.kind = .resource ∧
      (∀ failure, ¬ FailsWith parse task (content task.path) failure) ∧
      key.file = some task.path.text
  literals : ∀ literal ∈ result.usedLiterals,
    ∃ task, IsCandidate settings root listing task ∧ task.kind = .source ∧
      (∀ failure, ¬ FailsWith parse task (content task.path) failure) ∧
      ∃ source, content task.path = .ok source ∧ (parse source).HasSegment source literal

section Outcome

variable {keySites : List Char → List KeySite} {language : String} {parse : Bytes → SyntaxNode}
  {task : Task} {read : Except ReadError Bytes}

theorem FailsWith.unique {failure other : FileFailure}
    (fails : FailsWith parse task read failure) (again : FailsWith parse task read other) :
    failure = other := by
  cases fails with
  | read error =>
      cases again
      rfl
  | resourceText kind refused => cases again <;> simp_all
  | sourceText kind refused =>
      cases again with
      | resourceText isResource _ => simp [kind] at isResource
      | sourceText _ other => simp_all
      | sourceTree _ isText _ => exact absurd isText (not_isUtf8_of_refused refused)
  | sourceTree kind isText faulty =>
      cases again with
      | resourceText isResource _ => simp [kind] at isResource
      | sourceText _ refused => exact absurd isText (not_isUtf8_of_refused refused)
      | sourceTree _ _ _ => rfl

theorem outcomeOf_of_fails {failure : FileFailure} (fails : FailsWith parse task read failure) :
    outcomeOf ⟨keySites, ⟨language, .ok parse⟩⟩ task read = .ok { task, failure := some failure } := by
  cases fails with
  | read error => rfl
  | resourceText kind refused =>
      rw [outcomeOf, contributionOf_of_resource kind, keysOfBytes, refused]
      rfl
  | sourceText kind refused =>
      rw [outcomeOf, contributionOf_of_source kind, Grammar.extractBytes, refused]
      rfl
  | sourceTree kind isText faulty =>
      rw [outcomeOf, contributionOf_of_source kind, extractBytes_of_fault language _ isText faulty]
      rfl

theorem outcomeOf_of_not_fails (never : ∀ failure, ¬ FailsWith parse task read failure)
    (laysOver : ∀ source, read = .ok source → IsUtf8 source → LaysOver parse source) :
    ∃ contribution,
      outcomeOf ⟨keySites, ⟨language, .ok parse⟩⟩ task read = .ok contribution ∧
      contribution.failure = none := by
  cases read with
  | error error => exact absurd (.read error) (never _)
  | ok content =>
      suffices parsed : ∃ contribution,
          contributionOf ⟨keySites, ⟨language, .ok parse⟩⟩ task content = .ok contribution ∧
          contribution.failure = none by
        obtain ⟨contribution, parsed, clean⟩ := parsed
        exact ⟨contribution, by rw [outcomeOf, parsed, settle], clean⟩
      cases kind : task.kind with
      | ignored => exact ⟨{ task }, by rw [contributionOf, kind], rfl⟩
      | resource =>
          rw [contributionOf_of_resource kind, keysOfBytes]
          cases decoded : decodeText content resourceEncodings with
          | ok found => exact ⟨_, rfl, rfl⟩
          | error error => exact absurd (.resourceText kind decoded) (never _)
      | source =>
          rw [contributionOf_of_source kind]
          have isText : IsUtf8 content := by
            rcases decodeText_source content with ⟨text, _, spelled⟩ | ⟨error, refused, _⟩
            · exact ⟨text, spelled⟩
            · exact absurd (.sourceText kind refused) (never _)
          have sound : ¬ ∃ node ∈ (parse content).preorder, node.isFaulty = true :=
            fun faulty => never _ (.sourceTree kind isText faulty)
          rcases extractBytes_of_sound language task.path.text isText sound with
            ⟨texts, returned, _⟩ | ⟨_, _, noTree⟩
          · exact ⟨{ task, literals := texts }, by rw [returned]; rfl, rfl⟩
          · exact absurd (laysOver content rfl isText sound) noTree

/-- A task is always completed, and it records a failure exactly when it fails. -/
theorem outcomeOf_total
    (laysOver : ∀ source, read = .ok source → IsUtf8 source → LaysOver parse source) :
    ∃ contribution,
      outcomeOf ⟨keySites, ⟨language, .ok parse⟩⟩ task read = .ok contribution ∧
      ∀ failure, contribution.failure = some failure ↔ FailsWith parse task read failure := by
  by_cases failing : ∃ failure, FailsWith parse task read failure
  · obtain ⟨failure, fails⟩ := failing
    refine ⟨_, outcomeOf_of_fails fails, fun other => ⟨?_, ?_⟩⟩
    · rintro ⟨⟩
      exact fails
    · exact fun again => congrArg some (fails.unique again)
  · have never : ∀ failure, ¬ FailsWith parse task read failure :=
      fun failure fails => failing ⟨failure, fails⟩
    obtain ⟨contribution, done, clean⟩ : ∃ contribution,
        outcomeOf ⟨keySites, ⟨language, .ok parse⟩⟩ task read = .ok contribution ∧
        contribution.failure = none := outcomeOf_of_not_fails never laysOver
    refine ⟨contribution, done, fun failure => ?_⟩
    simp [clean, never failure]

theorem failure_eq_some_iff {contribution : Contribution} {failure : FileFailure}
    (laysOver : ∀ source, read = .ok source → IsUtf8 source → LaysOver parse source)
    (done : outcomeOf ⟨keySites, ⟨language, .ok parse⟩⟩ task read = .ok contribution) :
    contribution.failure = some failure ↔ FailsWith parse task read failure := by
  obtain ⟨found, again, exact⟩ := outcomeOf_total laysOver
  obtain rfl := Except.ok.inj (again.symm.trans done)
  exact exact failure

theorem not_fails_of_clean {contribution : Contribution}
    (laysOver : ∀ source, read = .ok source → IsUtf8 source → LaysOver parse source)
    (done : outcomeOf ⟨keySites, ⟨language, .ok parse⟩⟩ task read = .ok contribution)
    (clean : contribution.failure = none) (failure : FileFailure) :
    ¬ FailsWith parse task read failure := by
  intro fails
  rw [(failure_eq_some_iff laysOver done).mpr fails] at clean
  simp at clean

end Outcome

section Counts

variable {settings : ScanSettings} {root : Path} {listing : List Path}

theorem isCandidate_iff {task : Task} :
    IsCandidate settings root listing task ↔ task ∈ candidates settings root listing := by
  rw [mem_candidates]
  exact ⟨fun ⟨listed, classified, counted⟩ => ⟨listed, classified, counted⟩,
    fun ⟨listed, classified, counted⟩ => ⟨listed, classified, counted⟩⟩

theorem countKind_candidates {kind : FileKind} (counted : kind ≠ .ignored) :
    countKind kind (candidates settings root listing) =
      (listing.eraseDups.filter (classify settings (some root) · == kind)).length := by
  rw [countKind, candidates, List.filter_filter, List.filter_map, List.length_map]
  congr 1
  refine List.filter_congr fun path _ => ?_
  cases classified : classify settings (some root) path <;> cases kind <;> simp_all

theorem length_eq_countKind_add {tasks : List Task} (counted : ∀ task ∈ tasks, task.kind ≠ .ignored) :
    tasks.length = countKind .resource tasks + countKind .source tasks := by
  induction tasks with
  | nil => rfl
  | cons task others ih =>
      have later := ih fun other member => counted other (List.mem_cons_of_mem _ member)
      have here := counted task List.mem_cons_self
      rw [countKind, countKind] at later ⊢
      cases kind : task.kind with
      | resource => simp [kind, later, Nat.add_right_comm]
      | source => simp [kind, later, Nat.add_assoc]
      | ignored => exact absurd kind here

end Counts

section Run

variable {settings : ScanSettings} {language : String} {parse : Bytes → SyntaxNode}
  {content : Path → Except ReadError Bytes} {root : Path} {listing : List Path}
  {scheduled : List Task} {contributions : List Contribution}

theorem accounts_of_completion
    (laysOver : ∀ path source, content path = .ok source → IsUtf8 source → LaysOver parse source)
    (perm : scheduled.Perm (candidates settings root listing))
    (completed : List.Forall₂
      (Completes ⟨standardKeySites, ⟨language, .ok parse⟩⟩ content) scheduled contributions) :
    let tasks := candidates settings root listing
    let result := ScanResult.ofContributions tasks contributions
    Accounts settings parse content root listing
      (openingEvents tasks ++ progressEvents contributions ++ warningEvents result) result := by
  intro tasks result
  have resources : result.resourceFiles = countKind .resource tasks :=
    ScanResult.resourceFiles_ofContributions _ _
  have sources : result.sourceFiles = countKind .source tasks :=
    ScanResult.sourceFiles_ofContributions _ _
  have total : tasks.length = result.resourceFiles + result.sourceFiles := by
    rw [resources, sources]
    exact length_eq_countKind_add fun task member => (isCandidate_iff.mpr member).counted
  have candidate : ∀ task ∈ scheduled, IsCandidate settings root listing task :=
    fun task member => isCandidate_iff.mpr (perm.mem_iff.mp member)
  constructor
  · rw [resources, countKind_candidates (by simp)]
  · rw [sources, countKind_candidates (by simp)]
  · -- One step of progress for each contribution, and one contribution for each task.
    have length : contributions.length = tasks.length :=
      completed.length_eq.symm.trans perm.length_eq
    rw [← total, openingEvents, progressEvents, warningEvents, List.map_const', length]
    simp
  · exact failure_paths_increasing
      ((perm.map Task.path).nodup_iff.mpr (nodup_paths_candidates settings root listing)) completed
  · intro failure
    rw [ScanResult.failures_ofContributions, List.mem_mergeSort, List.mem_filterMap,
      exists_contribution_iff perm completed fun task _ done =>
        failure_eq_some_iff (laysOver task.path) done]
    simp only [isCandidate_iff]
  · intro text key member
    obtain ⟨contribution, isOne, inside⟩ :=
      ScanResult.exists_contribution_of_mem_keys _ _ (List.mem_append.mp member)
    obtain ⟨task, isTask, done⟩ := exists_related_of_mem completed.flip isOne
    obtain ⟨kind, clean, file⟩ := origin_of_key done inside
    exact ⟨task, candidate task isTask, kind, not_fails_of_clean (laysOver task.path) done clean,
      file⟩
  · intro literal member
    obtain ⟨contribution, isOne, inside⟩ :=
      (ScanResult.mem_usedLiterals_ofContributions _ _).mp member
    obtain ⟨task, isTask, done⟩ := exists_related_of_mem completed.flip isOne
    obtain ⟨kind, clean, source, literals, found, extracted, isLiteral⟩ :=
      origin_of_literal done inside
    have segment := ((extractBytes_eq_ok extracted).2.2 literal).mp isLiteral
    exact ⟨task, candidate task isTask, kind, not_fails_of_clean (laysOver task.path) done clean,
      source, found, segment.2⟩

end Run

theorem hasWorkers_of_positive {settings : ScanSettings}
    (positive : ∀ count, settings.maxWorkers = some count → 1 ≤ count) :
    hasWorkers settings = true := by
  rw [hasWorkers]
  split
  · rfl
  next count found => simpa using positive count found

/-- Where trees lie over their sources, nothing keeps a scan from completing all its tasks. -/
theorem scan_completes {Store : Type} {settings : ScanSettings} {language : String}
    {parse : Bytes → SyntaxNode} {files : FileSystem Store} {store : Store}
    (workers : hasWorkers settings = true)
    (laysOver : ∀ path source, files.content store path = .ok source → IsUtf8 source →
      LaysOver parse source)
    (schedule : List Task → List Task) (root : String) (listing : List Path) :
    let tasks := candidates settings (Path.ofString root) listing
    let extractors : Extractors := ⟨standardKeySites, ⟨language, .ok parse⟩⟩
    ∃ contributions,
      List.Forall₂ (Completes extractors (files.content store)) (schedule tasks) contributions ∧
      (scan settings extractors files.toReader store schedule root (.ok listing)).1 =
        ⟨openingEvents tasks ++ progressEvents contributions ++
          warningEvents (.ofContributions tasks contributions),
          .ok (.ofContributions tasks contributions)⟩ := by
  intro tasks extractors
  rcases scan_cases settings extractors files store schedule root listing with
    ⟨contributions, _, completed, transcript⟩ | ⟨impossible, _⟩
  · exact ⟨contributions, completed, transcript⟩
  · refine absurd ⟨.inr workers, exists_completion fun task _ => ?_⟩ impossible
    obtain ⟨contribution, done, _⟩ := outcomeOf_total (laysOver task.path)
    exact ⟨contribution, done⟩

section Reads

variable {Store : Type} {extractors : Extractors}

def Reader.Remembers (reader : Reader Store) (reads : Store → List Path) : Prop :=
  ∀ store path, reads (reader.read store path).2 = reads store ++ [path]

theorem MemoryFiles.remembers : MemoryFiles.reader.Remembers MemoryFiles.reads := by
  intro store path
  exact congrArg (store.reads ++ [·]) (Path.ofString_text path)

theorem remembered_processAll {reader : Reader Store} {reads : Store → List Path}
    (remembers : reader.Remembers reads) {store : Store} {tasks : List Task}
    {contributions : List Contribution}
    (finished : (processAll extractors reader store tasks).1 = .ok contributions) :
    reads (processAll extractors reader store tasks).2 = reads store ++ tasks.map Task.path := by
  induction tasks generalizing store contributions with
  | nil => simp [processAll]
  | cons task others ih =>
      obtain ⟨contribution, rest, done, later, _⟩ := processAll_cons_eq_ok_iff.mp finished
      have behind := ih later
      rw [processAll, processFile_eq, done]
      simp only
      rw [behind, remembers, List.map_cons, List.append_assoc, List.singleton_append]

theorem store_scan {settings : ScanSettings} (workers : hasWorkers settings = true)
    (reader : Reader Store) (store : Store) (schedule : List Task → List Task) (root : String)
    (listing : List Path) :
    (scan settings extractors reader store schedule root (.ok listing)).2 =
      (processAll extractors reader store
        (schedule (candidates settings (Path.ofString root) listing))).2 := by
  simp only [scan, scanListing, workers, Bool.not_true, Bool.and_false]
  rw [if_neg (by simp)]
  generalize processAll extractors reader store _ = processed
  obtain ⟨contributions, after⟩ := processed
  cases contributions <;> rfl

/-- A scan that completes its tasks reads the file of each once, and nothing else. -/
theorem remembered_scan {settings : ScanSettings} (workers : hasWorkers settings = true)
    {files : FileSystem Store} {reads : Store → List Path}
    (remembers : files.toReader.Remembers reads) {store : Store}
    {schedule : List Task → List Task} {root : String} {listing : List Path}
    {contributions : List Contribution}
    (completed : List.Forall₂ (Completes extractors (files.content store))
      (schedule (candidates settings (Path.ofString root) listing)) contributions) :
    reads (scan settings extractors files.toReader store schedule root (.ok listing)).2 =
      reads store ++
        (schedule (candidates settings (Path.ofString root) listing)).map Task.path := by
  rw [store_scan workers]
  exact remembered_processAll remembers ((processAll_eq_ok_iff ..).mpr completed)

theorem reads_scan {store : MemoryFiles} {settings : ScanSettings}
    (workers : hasWorkers settings = true) {schedule : List Task → List Task} {root : String}
    {listing : List Path} {contributions : List Contribution}
    (completed : List.Forall₂ (Completes extractors (MemoryFiles.fileSystem.content store))
      (schedule (candidates settings (Path.ofString root) listing)) contributions) :
    (scan settings extractors MemoryFiles.reader store schedule root (.ok listing)).2.reads =
      store.reads ++
        (schedule (candidates settings (Path.ofString root) listing)).map Task.path :=
  remembered_scan workers MemoryFiles.remembers completed

theorem mem_paths_of_perm {settings : ScanSettings} {root : Path} {listing : List Path}
    {scheduled : List Task} (perm : scheduled.Perm (candidates settings root listing))
    {path : Path} :
    path ∈ scheduled.map Task.path ↔
      path ∈ listing ∧ classify settings (some root) path ≠ .ignored := by
  rw [List.mem_map]
  constructor
  · rintro ⟨task, member, rfl⟩
    obtain ⟨listed, kind, counted⟩ := mem_candidates.mp (perm.mem_iff.mp member)
    exact ⟨listed, kind ▸ counted⟩
  · rintro ⟨listed, counted⟩
    exact ⟨⟨path, _⟩, perm.mem_iff.mpr (mem_candidates.mpr ⟨listed, rfl, counted⟩), rfl⟩

end Reads

theorem scan_of_memory_accounts (settings : ScanSettings) (language : String)
    (parse : Bytes → SyntaxNode) (root scanRoot : String) (files : List (String × Bytes))
    (unreadable : List String) (schedule : List Task → List Task)
    (workers : ∀ count, settings.maxWorkers = some count → 1 ≤ count)
    (relative : ∀ file ∈ files, (Path.ofString file.1).anchor = .relative)
    (matching : Path.ofString scanRoot = Path.ofString root)
    (laysOver : ∀ file ∈ files, IsUtf8 file.2 → LaysOver parse file.2)
    (complete : IsSchedule schedule) :
    let project := MemoryFiles.ofFiles root files
    let store := project.withhold unreadable
    ∃ listed, project.enumerate scanRoot = .ok listed ∧
      (∀ path, path ∈ listed ↔ (∃ file ∈ files, path = MemoryFiles.placeOf root file.1) ∧
        MemoryFiles.IsShown (Path.ofString root) path) ∧
      ∀ listing, (∀ path, path ∈ listing ↔ path ∈ listed) →
        let run := scan settings ⟨standardKeySites, ⟨language, .ok parse⟩⟩ MemoryFiles.reader store
          schedule scanRoot (.ok listing)
        ∃ result, run.1.outcome = .ok result ∧
          Accounts settings parse (MemoryFiles.fileSystem.content store) (Path.ofString root)
            listing run.1.events result ∧
          run.2.reads.Nodup ∧
          ∀ path, path ∈ run.2.reads ↔
            path ∈ listed ∧ classify settings (some (Path.ofString root)) path ≠ .ignored := by
  intro project store
  obtain ⟨listed, enumerated, shown⟩ := MemoryFiles.enumerate_ofFiles relative matching
  refine ⟨listed, enumerated, shown, fun listing same => ?_⟩
  intro run
  have started := hasWorkers_of_positive workers
  have lays : ∀ path source, MemoryFiles.fileSystem.content store path = .ok source →
      IsUtf8 source → LaysOver parse source := by
    -- Withholding only takes files away, so what is read was given with one of them.
    intro path source found isText
    have stored := List.mem_of_mem_filter (MemoryFiles.content_of_read found)
    obtain ⟨file, isFile, rfl⟩ := MemoryFiles.content_of_mem_ofFiles stored
    exact laysOver file isFile isText
  obtain ⟨contributions, completed, transcript⟩ :=
    scan_completes started lays schedule scanRoot listing
  have reads : run.2.reads = _ := reads_scan started completed
  have told : run.1 = _ := transcript
  have perm := complete (candidates settings (Path.ofString root) listing)
  rw [matching] at completed told reads
  refine ⟨_, by rw [told], ?_, ?_, fun path => ?_⟩
  · rw [told]
    exact accounts_of_completion lays perm completed
  · rw [reads]
    exact (perm.map Task.path).nodup_iff.mpr (nodup_paths_candidates _ _ _)
  · rw [reads, ← same]
    exact mem_paths_of_perm perm

def mixedFiles : List (String × Bytes) :=
  [("en.lproj/Main.strings", encodeUtf8 "\"used\" = \"1\";\n\"spare\" = \"2\";".toList),
    ("Pods/Other.strings", encodeUtf8 "\"foreign\" = \"3\";".toList),
    (".build/Hidden.strings", [0xFF]),
    ("main.swift", encodeUtf8 "show(\"used\")".toList),
    ("lost.swift", encodeUtf8 "show(\"spare\")".toList)]

def mixedStore : MemoryFiles :=
  (MemoryFiles.ofFiles "/app" mixedFiles).withhold ["lost.swift"]

def mixedListing : List Path :=
  ["/app/main.swift", "/app/lost.swift", "/app/Pods/Other.strings", "/app/en.lproj/Main.strings",
    "/app/main.swift"].map Path.ofString

def mixedScan : Transcript Failure ScanResult × MemoryFiles :=
  scan (.standard none) ⟨standardKeySites, ⟨Swift.language, .ok Swift.tree⟩⟩ MemoryFiles.reader
    mixedStore List.reverse "/app/." (.ok mixedListing)

theorem scan_of_memory_accounts_mixed :
    (∀ file ∈ mixedFiles, (Path.ofString file.1).anchor = .relative) ∧
    (∀ file ∈ mixedFiles, IsUtf8 file.2 → LaysOver Swift.tree file.2) ∧
    IsSchedule List.reverse ∧
    ∃ result, mixedScan.1.outcome = .ok result ∧
      result.failures = [⟨"/app/lost.swift", .read, "File not found: /app/lost.swift"⟩] ∧
      Accounts (.standard none) Swift.tree (MemoryFiles.fileSystem.content mixedStore)
        (Path.ofString "/app") mixedListing mixedScan.1.events result ∧
      mixedScan.2.reads.Nodup := by
  have workers : ∀ count, (ScanSettings.standard none).maxWorkers = some count → 1 ≤ count := by
    rintro count ⟨⟩
    decide
  have relative : ∀ file ∈ mixedFiles, (Path.ofString file.1).anchor = .relative := by
    decide +kernel
  have matching : Path.ofString "/app/." = Path.ofString "/app" := by decide +kernel
  have laysOver : ∀ file ∈ mixedFiles, IsUtf8 file.2 → LaysOver Swift.tree file.2 := by
    decide +kernel
  have failures : mixedScan.1.outcome.toOption.map ScanResult.failures =
      some [⟨"/app/lost.swift", .read, "File not found: /app/lost.swift"⟩] := by
    decide +kernel
  have stored : ∀ path ∈ mixedListing,
      (∃ file ∈ mixedFiles, path = MemoryFiles.placeOf "/app" file.1) ∧
        MemoryFiles.IsShown (Path.ofString "/app") path := by
    decide +kernel
  have listedAll : ∀ file ∈ mixedFiles,
      MemoryFiles.IsShown (Path.ofString "/app") (MemoryFiles.placeOf "/app" file.1) →
        MemoryFiles.placeOf "/app" file.1 ∈ mixedListing := by
    decide +kernel
  obtain ⟨listed, _, shown, accounted⟩ := scan_of_memory_accounts (.standard none) Swift.language
    Swift.tree "/app" "/app/." mixedFiles ["lost.swift"] List.reverse workers relative matching
    laysOver isSchedule_reverse
  have same : ∀ path, path ∈ mixedListing ↔ path ∈ listed := by
    intro path
    constructor
    · intro member
      have here := stored path member
      exact (shown path).mpr here
    · intro member
      obtain ⟨⟨file, isFile, isPlace⟩, isShown⟩ := (shown path).mp member
      rw [isPlace] at isShown ⊢
      exact listedAll file isFile isShown
  obtain ⟨result, returned, accounts, distinct, _⟩ := accounted mixedListing same
  rw [← mixedStore, ← mixedScan] at returned accounts distinct
  rw [returned] at failures
  exact ⟨relative, laysOver, isSchedule_reverse, result, returned, Option.some.inj failures, accounts,
    distinct⟩

end LocalizationAudit

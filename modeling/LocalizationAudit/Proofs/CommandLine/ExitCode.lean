import LocalizationAudit.CommandLine.Run
import LocalizationAudit.Proofs.CommandLine.Workers
import LocalizationAudit.Proofs.Console.Ascii
import LocalizationAudit.Proofs.FileSystem.Refusal
import LocalizationAudit.Proofs.Scan.Accounting
import LocalizationAudit.Proofs.Scan.Mirroring

/-!
When a scan on the command line succeeds: the configuration is sound, the path is a directory in
which no name is refused, and the output takes every character of what is said. Nothing else that a
file holds makes it fail, and a scan without a listing reads nothing.
-/

namespace LocalizationAudit

section Recording

variable {Store : Type}

def Reader.recording (reader : Reader Store) : Reader (Store × List Path) :=
  ⟨fun (store, asked) path =>
    let (content, store) := reader.read store path
    (content, store, asked ++ [path])⟩

def FileSystem.recording (files : FileSystem Store) : FileSystem (Store × List Path) :=
  { toReader := files.toReader.recording
    steady := fun store path other => files.steady store.1 path other }

theorem FileSystem.content_recording (files : FileSystem Store) (store : Store)
    (asked : List Path) : files.recording.content (store, asked) = files.content store :=
  rfl

theorem Reader.recording_remembers (reader : Reader Store) :
    reader.recording.Remembers Prod.snd :=
  fun _ _ => rfl

/-- A record of the reads, or another order of them, changes nothing in what a scan says. -/
theorem scan_recording_agrees (settings : ScanSettings) (extractors : Extractors)
    (files : FileSystem Store) (store : Store) (asked : List Path) (root : String)
    (listing : List Path) {schedule : List Task → List Task} (complete : IsSchedule schedule) :
    let plain := (scan settings extractors files.toReader store id root (.ok listing)).1
    let recorded := (scan settings extractors files.recording.toReader (store, asked) schedule root
      (.ok listing)).1
    plain.events = recorded.events ∧
      OutcomesAgree ScanResult.Agrees plain.outcome recorded.outcome := by
  intro plain recorded
  have same : ∀ path ∈ listing,
      files.recording.content (store, asked) path = files.content store path := by
    intro path _
    rw [files.content_recording]
  have exchanged : recorded = _ := scan_congr extractors settings complete root same
  rw [exchanged]
  exact scan_agrees settings extractors files store root (fun _ => Iff.rfl) isSchedule_id complete

end Recording

section Outcome

variable (console : Console) {transcript : Transcript Failure Report}

theorem exitCode_after_of_one {finish : List Char → RunResult}
    (fails : ∀ output, (finish output).exitCode = 1) (printed : List Char × Option PrintError) :
    (RunResult.after printed finish).exitCode = 1 := by
  obtain ⟨output, _ | error⟩ := printed
  · exact fails output
  · rfl

theorem finishAudit_of_error {failure : Failure} (failed : transcript.outcome = .error failure) :
    (finishAudit console transcript).exitCode = 1 := by
  unfold finishAudit
  rw [failed]
  cases failure <;> exact exitCode_after_of_one (fun _ => rfl) _

/-- An audit that has come to its end fails only if some of what it says cannot be encoded. -/
inductive Ends (console : Console) (whole : RunResult) : RunResult → Prop
  | shown (taken : ∀ c ∈ whole.output.toList, console.charset.encodes c = true) :
      Ends console whole whole
  | cut {shown : List Char} {c : Char} (member : c ∈ whole.output.toList)
      (refused : console.charset.encodes c = false) :
      Ends console whole (.crashed shown (.printing (.unencodable c)))

theorem finishAudit_of_ok {report : Report} (done : transcript.outcome = .ok report) :
    ∃ full, finishAudit console.uncut transcript = ⟨String.ofList full, 0, none⟩ ∧
      Ends console ⟨String.ofList full, 0, none⟩ (finishAudit console transcript) := by
  obtain ⟨full, uncut, came⟩ := console.writeEvents_shows false transcript.events
  unfold finishAudit
  rw [done]
  refine ⟨full, by simp only [uncut]; rfl, ?_⟩
  simp only
  generalize console.writeEvents false transcript.events = printed at came
  cases came with
  | whole taken => exact .shown (by simpa using taken)
  | cut _ member refused => exact .cut (by simp [member]) refused

theorem finishAudit_output {report : Report} (done : transcript.outcome = .ok report) :
    (finishAudit console transcript).output =
      String.ofList (console.writeEvents false transcript.events).1 := by
  unfold finishAudit
  rw [done]
  obtain ⟨output, _ | error⟩ := console.writeEvents false transcript.events <;> rfl

theorem finishAudit_opening {showFiles : Bool} {clock : Clock} {tasks : List Task}
    {events : List LogEvent} {result : ScanResult} :
    (console.writeEvents false (searchEvent :: openingEvents tasks)).1 <+:
      (finishAudit console
        (analyze showFiles clock ⟨openingEvents tasks ++ events, .ok result⟩)).output.toList := by
  have reported : (analyze showFiles clock ⟨openingEvents tasks ++ events, .ok result⟩).events =
      searchEvent :: openingEvents tasks ++
        (events ++ resultEvents showFiles result (clock.stop - clock.start)) := by
    simp only [analyze, List.cons_append, List.append_assoc]
  rw [finishAudit_output console rfl, String.toList_ofList, reported]
  exact console.writeEvents_prefix (writeEvents_opening console tasks) _

theorem finishAudit_of_agrees {showFiles : Bool} {clock : Clock}
    {left right : Transcript Failure ScanResult} {result : ScanResult}
    (events : left.events = right.events)
    (outcomes : OutcomesAgree ScanResult.Agrees left.outcome right.outcome)
    (done : right.outcome = .ok result) :
    finishAudit console (analyze showFiles clock right) =
      finishAudit console (analyze showFiles clock left) ∧
    ∃ full, finishAudit console.uncut (analyze showFiles clock left) =
        ⟨String.ofList full, 0, none⟩ ∧
      Ends console ⟨String.ofList full, 0, none⟩
        (finishAudit console (analyze showFiles clock left)) := by
  obtain ⟨said, reports⟩ := analyze_agrees showFiles clock events outcomes
  obtain ⟨report, reported⟩ : ∃ report, (analyze showFiles clock right).outcome = .ok report := by
    rw [analyze, done]
    exact ⟨_, rfl⟩
  rw [reported] at reports
  obtain ⟨other, otherReported, _⟩ := reports.exists_value
  refine ⟨?_, finishAudit_of_ok console otherReported⟩
  unfold finishAudit
  rw [reported, otherReported, said]

end Outcome

namespace Surroundings

def Admits (around : Surroundings) (options : ScanOptions) : Prop :=
  around.configuration.problems = [] ∧
  ∃ node, around.disk.lookup (Path.ofString (options.pathIn around)) = .ok node ∧
    node.isDirectory = true

def IsRefused (around : Surroundings) (options : ScanOptions) : Prop :=
  around.disk.RefusesBelow (Path.ofString (options.pathIn around))

/-- All of what comes before the first file is read has been said. -/
def HasBegun (around : Surroundings) (options : ScanOptions) (result : RunResult) : Prop :=
  ∃ tasks : List Task, tasks.map Task.path = filesToRead around options ∧
    (around.console.writeEvents false (searchEvent :: openingEvents tasks)).2 = none ∧
    (around.console.writeEvents false (searchEvent :: openingEvents tasks)).1 <+:
      result.output.toList

def uncut (around : Surroundings) : Surroundings :=
  { around with console := around.console.uncut }

variable {around : Surroundings} {options : ScanOptions}

section Run

variable {Store : Type} (reader : Reader Store) (store : Store) (schedule : List Task → List Task)

theorem runScanReading_of_problems (unsound : around.configuration.problems ≠ []) :
    runScanReading reader store schedule around options =
      (.after (around.console.printAll (configurationHeading ::
        around.configuration.problems.map Configuration.Problem.line)) .aborted, store) := by
  unfold runScanReading
  split
  next sound => exact absurd sound unsound
  next => rfl

variable {parse : Bytes → SyntaxNode} (loads : around.grammar.parse = .ok parse)

include loads

theorem runScanReading_of_no_problems (sound : around.configuration.problems = []) :
    let settings := options.settings around.configuration
    let extractors : Extractors := ⟨standardKeySites, ⟨around.grammar.language, .ok parse⟩⟩
    let path := options.pathIn around
    let scanned := scan settings extractors reader store schedule path (around.disk.enumerate path)
    runScanReading reader store schedule around options =
      (finishAudit around.console (analyze settings.showFiles around.clock scanned.1),
        scanned.2) := by
  have grammar : around.grammar = ⟨around.grammar.language, .ok parse⟩ := by
    rw [← loads]
  simp only [runScanReading, auditReading, sound]
  rw [loads, grammar]

/-- A run without a listing does not depend on how it would have read, and reads nothing. -/
theorem runScanReading_of_unlisted
    (unlisted : ¬ (around.Admits options ∧ ¬ around.IsRefused options)) :
    let recorded := runScanReading reader store schedule around options
    recorded.1 = runScan around options ∧ recorded.1.exitCode = 1 ∧ recorded.2 = store := by
  intro recorded
  by_cases sound : around.configuration.problems = []
  · cases listed : around.disk.enumerate (options.pathIn around) with
    | ok listing =>
        obtain ⟨directory, listable⟩ := Disk.exists_listing_iff.mp ⟨listing, listed⟩
        exact absurd ⟨⟨sound, directory⟩, listable⟩ unlisted
    | error failure =>
        simp only [recorded, runScan, runScanReading_of_no_problems _ _ _ loads sound, listed]
        exact ⟨rfl, finishAudit_of_error around.console rfl, rfl⟩
  · simp only [recorded, runScan, runScanReading_of_problems _ _ _ sound]
    exact ⟨trivial, exitCode_after_of_one (fun _ => rfl) _, trivial⟩

variable {schedule}

/-- Keeping a record of the reads, or making them in another order, changes nothing that is said. -/
theorem runScanReading_of_listing (admits : around.Admits options)
    (listable : ¬ around.IsRefused options)
    (workers : ∃ workers,
      (options.settings around.configuration).maxWorkers = some workers ∧ 1 ≤ workers)
    (laysOver : ∀ path source, around.disk.read path = .ok source → IsUtf8 source →
      LaysOver parse source)
    (complete : IsSchedule schedule) :
    let recorded := runScanReading Disk.reader.recording (around.disk, []) schedule around options
    let result := runScan around options
    let whole := runScan around.uncut options
    recorded.1 = result ∧ whole.exitCode = 0 ∧ whole.crash = none ∧
      Ends around.console whole result ∧ around.HasBegun options result ∧
      recorded.2.2.Perm (filesToRead around options) := by
  intro recorded result whole
  have sound := admits.1
  obtain ⟨listing, listed⟩ := Disk.exists_listing_iff.mpr ⟨admits.2, listable⟩
  have enough : hasWorkers (options.settings around.configuration) = true := by
    obtain ⟨count, given, positive⟩ := workers
    apply hasWorkers_of_positive
    intro other settled
    obtain rfl := Option.some.inj (given.symm.trans settled)
    exact positive
  let extractors : Extractors := ⟨standardKeySites, ⟨around.grammar.language, .ok parse⟩⟩
  obtain ⟨contributions, completed, transcript⟩ :=
    @scan_completes _ (options.settings around.configuration) around.grammar.language parse
      Disk.fileSystem.recording (around.disk, []) enough laysOver schedule (options.pathIn around)
      listing
  obtain ⟨events, outcomes⟩ := scan_recording_agrees (options.settings around.configuration)
    extractors Disk.fileSystem around.disk [] (options.pathIn around) listing complete
  obtain ⟨same, full, said, ends⟩ := finishAudit_of_agrees around.console events outcomes
    (congrArg Transcript.outcome transcript)
  have ran : recorded = _ := runScanReading_of_no_problems _ _ _ loads sound
  have plain : result = _ :=
    congrArg Prod.fst (runScanReading_of_no_problems Disk.reader around.disk id loads sound)
  have uncut : whole = _ := congrArg Prod.fst
    (@runScanReading_of_no_problems around.uncut _ _ Disk.reader around.disk id _ loads sound)
  have unchanged : around.uncut.disk.enumerate (options.pathIn around.uncut) = .ok listing := listed
  rw [listed] at ran plain
  rw [unchanged] at uncut
  have isWhole : whole = ⟨String.ofList full, 0, none⟩ := uncut.trans said
  have isRecorded : recorded.1 = result := by
    rw [ran, plain]
    exact same
  have begun : around.HasBegun options recorded.1 := by
    refine ⟨candidates (options.settings around.configuration)
      (Path.ofString (options.pathIn around)) listing, ?_, writeEvents_opening around.console _, ?_⟩
    · rw [filesToRead, sound, listed]
    · rw [List.append_assoc] at transcript
      rw [ran]
      exact transcript ▸ finishAudit_opening around.console
  refine ⟨isRecorded, by rw [isWhole], by rw [isWhole], ?_, isRecorded ▸ begun, ?_⟩
  · rw [isWhole, plain]
    exact ends
  · have asked := remembered_scan enough Disk.reader.recording_remembers completed
    rw [ran, filesToRead, sound, listed]
    exact asked ▸ (complete _).map Task.path

end Run

end Surroundings

theorem Ends.exitCode_iff {console : Console} {whole result : RunResult}
    (ends : Ends console whole result) (succeeds : whole.exitCode = 0) :
    (result.exitCode = 0 ↔ ∀ c ∈ whole.output.toList, console.charset.encodes c = true) ∧
      (result.exitCode = 0 ∨ result.exitCode = 1) := by
  cases ends with
  | shown taken => exact ⟨iff_of_true succeeds taken, .inl succeeds⟩
  | @cut shown c member refused =>
      refine ⟨iff_of_false Nat.one_ne_zero fun taken => ?_, .inr rfl⟩
      simp [taken c member] at refused

def brokenEntries : List DiskNode :=
  [.file "broken.swift" (encodeUtf8 "show(\"key".toList),
    .directory "en.lproj"
      [.sealed "Main.strings",
        .directory "old"
          [.file "Main.strings" [0xFF],
            .directory "Sources" [.file "main.swift" [0xFF]]]]]

def brokenDisk : Disk :=
  { top := .directory "" [.directory "app" brokenEntries]
    workingDirectory := [] }

def brokenListing : List Path :=
  ["/app/broken.swift", "/app/en.lproj/Main.strings", "/app/en.lproj/old/Main.strings",
    "/app/en.lproj/old/Sources/main.swift"].map Path.ofString

def brokenProject (workers : String) : Surroundings :=
  { environment := [(Environment.workersName, workers)]
    processors := none
    workingDirectory := "/"
    disk := brokenDisk
    clock := ⟨0, 0⟩
    grammar := ⟨Swift.language, .ok Swift.tree⟩ }

def brokenArguments : List String := ["scan", "--path", "/app", "-w", "2"]

def brokenOptions : ScanOptions :=
  { path := some "/app", workers := some 2 }

theorem resolvePath_brokenDisk : brokenDisk.resolvePath (Path.ofString "/app") = .ok ["app"] := by
  have root : (Path.ofString "/app").anchor = .root ∧
      (Path.ofString "/app").components = ["app"] := by decide
  simp [Disk.resolvePath, Disk.resolve, Disk.step, Disk.startOf, root, brokenDisk, DiskNode.at?,
    DiskNode.name]

theorem isOpen_brokenDisk : brokenDisk.top.IsOpen := by
  refine .directory _ (by decide) fun app isApp => ?_
  obtain rfl := List.mem_singleton.mp isApp
  refine .directory _ (by decide) fun entry isEntry => ?_
  simp only [brokenEntries, List.mem_cons, List.not_mem_nil, or_false] at isEntry
  rcases isEntry with rfl | rfl
  · exact .file _ _
  · refine .directory _ (by decide) fun inner isInner => ?_
    simp only [List.mem_cons, List.not_mem_nil, or_false] at isInner
    rcases isInner with rfl | rfl
    · exact .sealed _
    · refine .directory _ (by decide) fun last isLast => ?_
      simp only [List.mem_cons, List.not_mem_nil, or_false] at isLast
      rcases isLast with rfl | rfl
      · exact .file _ _
      · exact .directory _ (by decide) (by simp [DiskNode.IsOpen.file])

def longTarget : String := String.ofList (List.replicate 300 'a')

def linkedProject : Surroundings :=
  { environment := []
    processors := none
    workingDirectory := "/"
    disk := ⟨.directory "" [.link "x.strings" longTarget], []⟩
    clock := ⟨0, 0⟩
    grammar := ⟨Swift.language, .ok Swift.tree⟩ }

theorem resolvePath_linkedProject :
    linkedProject.disk.resolvePath (Path.ofString "/") = .ok [] := by
  have root : (Path.ofString "/").anchor = .root ∧ (Path.ofString "/").components = [] := by decide
  simp [Disk.resolvePath, Disk.resolve, Disk.startOf, root]

theorem isRefused_linkedProject : linkedProject.IsRefused {} := by
  have letters : longTarget.toList = List.replicate 300 'a' := String.toList_ofList
  have unsplit : Disk.linkedNames longTarget = [longTarget] := by
    have one : longTarget.toList.splitOn '/' = [longTarget.toList] := by
      apply List.splitOnP_eq_singleton
      intro c member
      rw [letters] at member
      obtain rfl := (List.mem_replicate.mp member).2
      decide
    rw [Disk.linkedNames, one, List.map_singleton, String.ofList_toList]
  have follows : linkedProject.disk.step [] "x.strings" = .ok (.follow longTarget) := rfl
  have refused : linkedProject.disk.step [] longTarget = .error .nameTooLong := by
    have long : ¬ longTarget.utf8ByteSize ≤ maxNameBytes := by decide +kernel
    have unlike : ∀ name ∈ ["", ".", "..", "x.strings"], name ≠ longTarget := by decide +kernel
    simp only [List.mem_cons, List.not_mem_nil, or_false, forall_eq_or_imp, forall_eq] at unlike
    obtain ⟨notEmpty, notSame, notParent, notOwn⟩ := unlike
    simp [Disk.step, linkedProject, DiskNode.at?, DiskNode.name, long, notEmpty.symm, notSame.symm,
      notParent.symm, notOwn]
  have failed : linkedProject.disk.isRegularFile [] {} (.link "x.strings" longTarget) =
      .error .nameTooLong := by
    simp [Disk.isRegularFile, Disk.maxLinks, Disk.resolve, follows, unsplit, refused, Disk.startOf,
      LookupFault.isAbsence]
  exact ⟨[], _, resolvePath_linkedProject, rfl, .here rfl List.mem_cons_self (by decide) failed⟩

end LocalizationAudit

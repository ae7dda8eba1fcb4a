import LocalizationAudit.Log.Recorder
import LocalizationAudit.Proofs.Scan.Returned
import LocalizationAudit.Proofs.Scan.Scheduling

/-!
What a recorder keeps of a report. The recorded lines, the counters and the difference of defined
keys and used literals say the same, and a root that is not there leaves nothing but the opening.
-/

namespace LocalizationAudit

def LogEvent.record? : LogEvent → Option (RecordKind × String)
  | .progress text => some (.progress, text)
  | .count before number after => some (.progress, countText before number after)
  | .error text => some (.error, text)
  | .warning text => some (.warning, text)
  | .key text => some (.key, text)
  | .startProgress _ _ => none
  | .advance _ => none
  | .finishProgress => none

namespace Recorder

theorem records_log (recorder : Recorder) (event : LogEvent) :
    (recorder.log event).records = recorder.records ++ event.record?.toList := by
  cases event with
  | startProgress | advance | finishProgress => exact (List.append_nil _).symm
  | progress | count | error | warning | key => rfl

theorem records_foldl_log (recorder : Recorder) (events : List LogEvent) :
    (events.foldl log recorder).records =
      recorder.records ++ events.filterMap LogEvent.record? := by
  induction events generalizing recorder with
  | nil => exact (List.append_nil _).symm
  | cons event others ih =>
      rw [List.foldl_cons, ih, records_log, List.append_assoc]
      cases kept : event.record? <;> simp [kept]

theorem records_ofEvents (events : List LogEvent) :
    (ofEvents events).records = events.filterMap LogEvent.record? :=
  records_foldl_log {} events

end Recorder

theorem filterMap_record?_map {α : Type} {say : α → LogEvent} {record : α → RecordKind × String}
    (kept : ∀ x, (say x).record? = some (record x)) (xs : List α) :
    (xs.map say).filterMap LogEvent.record? = xs.map record := by
  have same : LogEvent.record? ∘ say = some ∘ record := funext kept
  rw [List.filterMap_map, same, List.filterMap_eq_map]

def reportedLine (showFiles : Bool) (result : ScanResult) (text : String) : String :=
  if showFiles then text ++ "  (" ++ ", ".intercalate (result.locationsOf text) ++ ")" else text

theorem keyLine_eq_reportedLine {result : ScanResult} {key : LocalizationKey}
    (placed : result.locationsOf key.text ≠ []) (showFiles : Bool) :
    keyLine showFiles result key = reportedLine showFiles result key.text := by
  cases showFiles with
  | false => rfl
  | true => simp [keyLine, reportedLine, placed]

theorem keyEvents_eq_reportedLines {result : ScanResult}
    (placed : ∀ text ∈ result.unusedTexts, result.locationsOf text ≠ []) (showFiles : Bool) :
    keyEvents showFiles result =
      result.unusedTexts.map fun text => .key (reportedLine showFiles result text) := by
  rw [keyEvents, ScanResult.unusedTexts, List.map_map]
  apply List.map_congr_left
  intro key member
  have known := placed key.text (List.mem_map_of_mem member)
  rw [Function.comp_apply, keyLine_eq_reportedLine known]

def recordsBefore (tasks : List Task) (result : ScanResult) : List (RecordKind × String) :=
  [(.progress, "Searching for Localization Keys in .strings files..."),
    (.progress, countText "Found" tasks.length "files to scan.")] ++
  result.failures.map (fun failure => (.warning, failure.warning)) ++
  [(.progress, countText "Total" result.definedKeys.length "localization keys found."),
    (.progress, countText "Total" result.sourceFiles "swift files found."),
    (.progress, "Searching for unused keys...")]

theorem not_key_of_mem_recordsBefore {tasks : List Task} {result : ScanResult}
    {record : RecordKind × String} (member : record ∈ recordsBefore tasks result) :
    record.1 ≠ .key := by
  simp only [recordsBefore, List.mem_append, List.mem_cons, List.mem_map, List.not_mem_nil,
    or_false] at member
  rcases member with ((rfl | rfl) | ⟨failure, _, rfl⟩) | (rfl | rfl | rfl) <;> simp

def recordsOf (showFiles : Bool) (tasks : List Task) (report : Report) :
    List (RecordKind × String) :=
  recordsBefore tasks report.result ++ [(.progress, "Unused Localization Keys:")] ++
  report.result.unusedTexts.map (fun text =>
    (.key, reportedLine showFiles report.result text)) ++
  [(.progress, countText "Total" report.unusedCount "unused localization keys found."),
    (.progress, "Completed in: " ++ tenths report.elapsed ++ "s")]

theorem keys_recordsOf (showFiles : Bool) (tasks : List Task) (report : Report) :
    ((recordsOf showFiles tasks report).filter (·.1 == .key)).map (·.2) =
      report.result.unusedTexts.map (reportedLine showFiles report.result) := by
  have before : (recordsBefore tasks report.result).filter (·.1 == .key) = [] := by
    apply List.filter_eq_nil_iff.mpr
    intro record member
    simpa using not_key_of_mem_recordsBefore member
  simp [recordsOf, before, List.filter_map, Function.comp_def]

theorem records_scanned (tasks : List Task) (contributions : List Contribution)
    {result : ScanResult} (placed : ∀ text ∈ result.unusedTexts, result.locationsOf text ≠ [])
    (showFiles : Bool) (elapsed : Float) :
    (searchEvent :: (openingEvents tasks ++ progressEvents contributions ++
        warningEvents result) ++ resultEvents showFiles result elapsed).filterMap
      LogEvent.record? = recordsOf showFiles tasks ⟨result, result.unusedKeys, elapsed⟩ := by
  have silent : (progressEvents contributions).filterMap LogEvent.record? = [] := by
    simp [progressEvents, LogEvent.record?]
  have warned : (warningEvents result).filterMap LogEvent.record? =
      result.failures.map fun failure => (.warning, failure.warning) :=
    filterMap_record?_map (fun _ => rfl) _
  have keys : (keyEvents showFiles result).filterMap LogEvent.record? =
      result.unusedTexts.map fun text => (.key, reportedLine showFiles result text) := by
    rw [keyEvents_eq_reportedLines placed]
    exact filterMap_record?_map (fun _ => rfl) _
  simp [List.filterMap_cons, searchEvent, openingEvents, resultEvents, LogEvent.record?,
    recordsOf, recordsBefore, Report.unusedCount, silent, warned, keys]

theorem length_unused_add_used (result : ScanResult) :
    result.unusedKeys.length +
        (result.definedKeys.texts.filter fun text => result.usedLiterals.contains text).length =
      result.definedKeys.length := by
  have parts := List.length_eq_length_filter_add (l := result.definedKeys.texts)
    fun text => result.usedLiterals.contains text
  have unused := congrArg List.length result.unusedTexts_eq
  rw [ScanResult.unusedTexts, List.length_map, sortTexts, List.length_mergeSort] at unused
  rw [KeySet.texts, List.length_map] at parts
  rw [KeySet.texts] at unused ⊢
  omega

section Scan

variable {Store : Type} {settings : ScanSettings} {extractors : Extractors}
  {files : FileSystem Store} {store : Store} {schedule : List Task → List Task} {root : String}
  {listing : List Path} {result : ScanResult}

theorem FindsKey.location_ne_empty {path : Path} {read : Except ReadError Bytes}
    {key : LocalizationKey} (found : FindsKey extractors path read key) : key.location ≠ "" := by
  obtain ⟨content, keys, _, parsed, member⟩ := found
  obtain ⟨text, encoding, _, rfl⟩ := keysOfBytes_eq_ok_iff.mp parsed
  obtain ⟨site, _, rfl⟩ := List.mem_map.mp (KeySet.mem_of_mem_ofList member)
  simp [KeySite.key, LocalizationKey.location]

section Returned

variable (returned : (scan settings extractors files.toReader store schedule root
  (.ok listing)).1.outcome = .ok result)

include returned

/-- Every key of a scan has a place, so no place is left out for being empty. -/
theorem mem_locationsOf_of_returned {text location : String} :
    location ∈ result.locationsOf text ↔
      ∃ key ∈ result.keysAt text, key.location = location := by
  rw [ScanResult.locationsOf, mem_sortedDistinct, List.mem_filter, List.mem_map]
  refine and_iff_left_of_imp ?_
  rintro ⟨key, member, rfl⟩
  obtain ⟨contributions, completed, rfl⟩ := completed_of_returned returned
  obtain ⟨contribution, isOne, inside⟩ :=
    ScanResult.exists_contribution_of_mem_keys _ _ (.inr member)
  obtain ⟨task, _, done⟩ := exists_related_of_mem completed.flip isOne
  have found := (mem_keys_of_outcomeOf done key).mp inside
  simpa using found.2.location_ne_empty

theorem locationsOf_ne_nil_of_returned {text : String}
    (defined : text ∈ result.definedKeys.texts) : result.locationsOf text ≠ [] := by
  have occurs : ∃ key, key ∈ result.keysAt text := by
    obtain ⟨contributions, _, rfl⟩ := completed_of_returned returned
    obtain ⟨contribution, isOne, inside⟩ := (ScanResult.mem_texts_ofContributions ..).mp defined
    obtain ⟨key, member, rfl⟩ := List.mem_map.mp ((KeySet.mem_texts_ofList _).mpr inside)
    refine ⟨key, ?_⟩
    rw [ScanResult.keysAt_ofContributions, List.mem_flatMap]
    exact ⟨contribution, isOne, List.mem_filter.mpr ⟨member, beq_self_eq_true _⟩⟩
  obtain ⟨key, member⟩ := occurs
  exact List.ne_nil_of_mem ((mem_locationsOf_of_returned returned).mpr ⟨key, member, rfl⟩)

/-- All that is recorded of a report whose scan has returned. -/
theorem records_of_returned (showFiles : Bool) (clock : Clock) :
    ∃ report,
      (analyze showFiles clock (scan settings extractors files.toReader store schedule root
        (.ok listing)).1).outcome = .ok report ∧
      report.result = result ∧ report.unused = result.unusedKeys ∧
      (Recorder.ofEvents (analyze showFiles clock (scan settings extractors files.toReader store
        schedule root (.ok listing)).1).events).records =
        recordsOf showFiles (candidates settings (Path.ofString root) listing) report := by
  have placed : ∀ text ∈ result.unusedTexts, result.locationsOf text ≠ [] := by
    intro text member
    exact locationsOf_ne_nil_of_returned returned ((ScanResult.mem_unusedTexts _).mp member).1
  rcases scan_cases settings extractors files store schedule root listing with
    ⟨contributions, _, _, transcript⟩ | ⟨_, failure, transcript⟩
  · rw [transcript] at returned ⊢
    obtain rfl := Except.ok.inj returned
    refine ⟨⟨_, _, clock.stop - clock.start⟩, rfl, rfl, rfl, ?_⟩
    rw [Recorder.records_ofEvents]
    exact records_scanned _ contributions placed showFiles _
  · rw [transcript] at returned
    cases returned

end Returned

end Scan

section MissingRoot

variable {Store : Type} (extractors : Extractors)

theorem settle_eq_error {task : Task} {outcome : Except Failure Contribution} {failure : Failure}
    (passed : settle task outcome = .error failure) : outcome = .error failure := by
  unfold settle at passed
  split at passed
  · simp at passed
  · split at passed
    · simp at passed
    · exact passed
  · simp at passed
  · exact passed

theorem contributionOf_ne_rootNotFound (task : Task) (content : Bytes) (name : String) :
    contributionOf extractors task content ≠ .error (.audit (.rootNotFound name)) := by
  cases kind : task.kind with
  | ignored => simp [contributionOf, kind]
  | resource =>
      rw [contributionOf_of_resource kind, keysOfBytes]
      split <;> simp [Except.map, AuditError.undecodableResource]
  | source =>
      rw [contributionOf_of_source kind, Grammar.extractBytes, Grammar.extract]
      split
      next decoded =>
        cases extractors.grammar.parse with
        | error reason => simp [Except.map, AuditError.grammarNotLoaded]
        | ok parse =>
            simp only [literalsOfTree]
            split
            next broken => simp [Except.map, AuditError.unparsableSource]
            next sound => split <;> simp [Except.map]
      next error refused => simp [Except.map, AuditError.undecodableSource]

theorem outcomeOf_ne_rootNotFound (task : Task) (read : Except ReadError Bytes) (name : String) :
    outcomeOf extractors task read ≠ .error (.audit (.rootNotFound name)) := by
  intro failed
  cases read with
  | ok content =>
      have refused := settle_eq_error failed
      exact contributionOf_ne_rootNotFound extractors task content name refused
  | error error => simp [outcomeOf, settle] at failed

theorem processAll_ne_rootNotFound (reader : Reader Store) (store : Store) (tasks : List Task)
    (name : String) :
    (processAll extractors reader store tasks).1 ≠ .error (.audit (.rootNotFound name)) := by
  induction tasks generalizing store with
  | nil => simp [processAll]
  | cons task others ih =>
      have first := outcomeOf_ne_rootNotFound extractors task
        (reader.read store task.path).1 name
      have behind := ih (reader.read store task.path).2
      rw [processAll, processFile_eq]
      cases done : outcomeOf extractors task (reader.read store task.path).1 with
      | error failure => simpa [done] using first
      | ok contribution =>
          cases rest : (processAll extractors reader (reader.read store task.path).2 others).1 with
          | error failure => simpa [rest, Except.map] using behind
          | ok contributions => simp [rest, Except.map]

/-- A scan that has begun never says that its root is missing. -/
theorem scan_ne_rootNotFound (settings : ScanSettings) (reader : Reader Store) (store : Store)
    (schedule : List Task → List Task) (root : String) (listing : List Path) (name : String) :
    (scan settings extractors reader store schedule root (.ok listing)).1.outcome ≠
      .error (.audit (.rootNotFound name)) := by
  have processed := processAll_ne_rootNotFound extractors reader store
    (schedule (candidates settings (Path.ofString root) listing)) name
  rw [scan, scanListing]
  split
  · simp
  · cases finished : (processAll extractors reader store
        (schedule (candidates settings (Path.ofString root) listing))).1 with
    | error failure => simpa [finished] using processed
    | ok contributions => simp [finished]

end MissingRoot

/-- What is recorded, what is counted and what is reported all follow from the result, and of a
root that is missing nothing is said. -/
theorem analyze_consistent {Store : Type} (settings : ScanSettings) (extractors : Extractors)
    (files : FileSystem Store) (store : Store) (schedule : List Task → List Task) (root : String)
    (listing : Except Failure (List Path)) (showFiles : Bool) (clock : Clock) :
    let scanned := (scan settings extractors files.toReader store schedule root listing).1
    let transcript := analyze showFiles clock scanned
    let recorder := Recorder.ofEvents transcript.events
    (∀ result, scanned.outcome = .ok result →
      ∃ paths report, listing = .ok paths ∧ transcript.outcome = .ok report ∧
        report.result = result ∧ report.unused.map (·.text) = result.unusedTexts ∧
        recorder.records =
          recordsOf showFiles (candidates settings (Path.ofString root) paths) report ∧
        recorder.messages .key = result.unusedTexts.map (reportedLine showFiles result) ∧
        result.unusedTexts.Pairwise (· < ·) ∧
        (∀ text, text ∈ result.unusedTexts ↔
          text ∈ result.definedKeys.texts ∧ text ∉ result.usedLiterals) ∧
        (∀ text ∈ result.unusedTexts, result.locationsOf text ≠ [] ∧
          (result.locationsOf text).Pairwise (· < ·) ∧
          ∀ location, location ∈ result.locationsOf text ↔
            ∃ key ∈ result.keysAt text, key.location = location) ∧
        report.unusedCount = (recorder.messages .key).length ∧
        report.unusedCount + (result.definedKeys.texts.filter fun text =>
          result.usedLiterals.contains text).length = result.definedKeys.length) ∧
    ∀ name, scanned.outcome = .error (.audit (.rootNotFound name)) →
      transcript.outcome = .error (.audit (.rootNotFound name)) ∧
      recorder.records =
        [(.progress, "Searching for Localization Keys in .strings files...")] := by
  intro scanned transcript recorder
  cases listing with
  | error failure =>
      constructor
      · intro result impossible
        simp [scanned, scan] at impossible
      · intro name missing
        simp only [scanned, scan, Except.error.injEq] at missing
        subst missing
        exact ⟨rfl, rfl⟩
  | ok paths =>
      refine ⟨?_, fun name missing => (scan_ne_rootNotFound _ _ _ _ _ _ _ name missing).elim⟩
      intro result returned
      obtain ⟨report, reported, rfl, unused, records⟩ :=
        records_of_returned returned showFiles clock
      have keys : recorder.messages .key =
          report.result.unusedTexts.map (reportedLine showFiles report.result) := by
        rw [Recorder.messages, records]
        exact keys_recordsOf showFiles _ report
      have counted : report.unusedCount = report.result.unusedKeys.length := by
        rw [Report.unusedCount, unused]
      refine ⟨paths, report, rfl, reported, rfl, by rw [unused, ScanResult.unusedTexts], records,
        keys, ?_, fun _ => ScanResult.mem_unusedTexts _, ?_, ?_, ?_⟩
      · exact ScanResult.unusedTexts_increasing (nodup_texts_of_returned returned)
      · intro text member
        have defined := ((ScanResult.mem_unusedTexts _).mp member).1
        exact ⟨locationsOf_ne_nil_of_returned returned defined, sortedDistinct_increasing _,
          fun _ => mem_locationsOf_of_returned returned⟩
      · simp [keys, counted, ScanResult.unusedTexts]
      · rw [counted]
        exact length_unused_add_used report.result

def sampleScan (listing : Except Failure (List Path)) : Transcript Failure ScanResult :=
  (scan (.standard none) sampleExtractors MemoryFiles.fileSystem.toReader sampleProject
    List.reverse "/app" listing).1

def sampleReport (listing : Except Failure (List Path)) : Transcript Failure Report :=
  analyze true ⟨0.0, 1.5⟩ (sampleScan listing)

theorem analyze_consistent_samples :
    (sampleScan (.ok sampleListing)).outcome = .ok sampleResult ∧
    (∃ report, (sampleReport (.ok sampleListing)).outcome = .ok report ∧
      report.unused.map (·.text) = ["spare"]) ∧
    (Recorder.ofEvents (sampleReport (.ok sampleListing)).events).messages .key =
      ["spare  (/app/en.lproj/Main.strings:2)"] ∧
    (sampleScan (sampleProject.enumerate "/other")).outcome =
      .error (.audit (.rootNotFound "/other")) ∧
    (Recorder.ofEvents (sampleReport (sampleProject.enumerate "/other")).events).records =
      [(.progress, "Searching for Localization Keys in .strings files...")] := by
  have returned : (sampleScan (.ok sampleListing)).outcome = .ok sampleResult := by decide +kernel
  have missing : (sampleScan (sampleProject.enumerate "/other")).outcome =
      .error (.audit (.rootNotFound "/other")) := by decide +kernel
  have unused : sampleResult.unusedTexts = ["spare"] := by decide +kernel
  have spelled : reportedLine true sampleResult "spare" =
      "spare  (/app/en.lproj/Main.strings:2)" := by decide +kernel
  have consistent := analyze_consistent (.standard none) sampleExtractors MemoryFiles.fileSystem
    sampleProject List.reverse "/app"
  rw [sampleScan] at returned missing
  rw [sampleReport, sampleReport, sampleScan, sampleScan]
  obtain ⟨-, report, -, reported, -, texts, -, keys, -⟩ :=
    (consistent (.ok sampleListing) true ⟨0.0, 1.5⟩).1 sampleResult returned
  rw [unused] at texts keys
  rw [List.map_singleton, spelled] at keys
  have alone := (consistent (sampleProject.enumerate "/other") true ⟨0.0, 1.5⟩).2 "/other" missing
  exact ⟨returned, ⟨report, reported, texts⟩, keys, missing, alone.2⟩

end LocalizationAudit

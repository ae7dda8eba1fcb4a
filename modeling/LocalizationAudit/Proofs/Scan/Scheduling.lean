import LocalizationAudit.Log.Recorder
import LocalizationAudit.Proofs.Scan.Usage
import LocalizationAudit.Report
import Mathlib.Data.List.Perm.Basic

/-!
The order in which files are listed and their tasks completed is not seen in an audit. It decides
which of several equal keys is kept, but all that is said and asked of a result is independent of
that choice.
-/

namespace LocalizationAudit

section Completion

variable {extractors : Extractors} {content : Path → Except ReadError Bytes}
  {scheduled other : List Task} {contributions moved : List Contribution}

theorem completes_rightUnique : Relator.RightUnique (Completes extractors content) := by
  intro task first second isFirst isSecond
  exact Except.ok.inj (isFirst.symm.trans isSecond)

theorem exists_completion_of_perm (perm : other.Perm scheduled)
    (completed : List.Forall₂ (Completes extractors content) scheduled contributions) :
    ∃ moved, List.Forall₂ (Completes extractors content) other moved ∧ moved.Perm contributions :=
  List.perm_comp_forall₂ perm completed

theorem completion_perm (perm : other.Perm scheduled)
    (completed : List.Forall₂ (Completes extractors content) scheduled contributions)
    (completedOther : List.Forall₂ (Completes extractors content) other moved) :
    contributions.Perm moved := by
  obtain ⟨found, again, reordered⟩ := exists_completion_of_perm perm completed
  have same : found = moved := List.right_unique_forall₂' completes_rightUnique again completedOther
  exact same ▸ reordered.symm

end Completion

namespace ScanResult

theorem agrees_ofContributions {tasks others : List Task} {contributions moved : List Contribution}
    (sameTasks : tasks.Perm others) (perm : contributions.Perm moved)
    (distinct : ((contributions.filterMap (·.failure)).map FileFailure.path).Nodup) :
    (ofContributions tasks contributions).Agrees (ofContributions others moved) := by
  constructor
  · refine (List.perm_ext_iff_of_nodup (nodup_texts_ofContributions _ _)
      (nodup_texts_ofContributions _ _)).mpr fun text => ?_
    simp only [mem_texts_ofContributions, perm.mem_iff]
  · refine (List.perm_ext_iff_of_nodup (nodup_usedLiterals_ofContributions _ _)
      (nodup_usedLiterals_ofContributions _ _)).mpr fun text => ?_
    simp only [mem_usedLiterals_ofContributions, perm.mem_iff]
  · intro text
    simp only [keysAt_ofContributions]
    exact perm.flatMap_right _
  · simp only [resourceFiles_ofContributions, countKind]
    exact (sameTasks.filter _).length_eq
  · simp only [sourceFiles_ofContributions, countKind]
    exact (sameTasks.filter _).length_eq
  · simp only [failures_ofContributions]
    refine sortBy_eq_of_perm FileFailure.path ?_ (perm.filterMap _)
    intro failure inFailures other inOthers
    exact List.inj_on_of_nodup_map distinct inFailures inOthers

end ScanResult

inductive OutcomesAgree {α : Type} (agree : α → α → Prop) :
    Except Failure α → Except Failure α → Prop
  | values {left right : α} : agree left right → OutcomesAgree agree (.ok left) (.ok right)
  | failures (left right : Failure) : OutcomesAgree agree (.error left) (.error right)

theorem OutcomesAgree.imp {α : Type} {agree weaker : α → α → Prop}
    (implied : ∀ left right, agree left right → weaker left right)
    {left right : Except Failure α} (outcomes : OutcomesAgree agree left right) :
    OutcomesAgree weaker left right := by
  cases outcomes with
  | values agrees => exact .values (implied _ _ agrees)
  | failures failure other => exact .failures failure other

theorem OutcomesAgree.exists_value {α : Type} {agree : α → α → Prop} {left : Except Failure α}
    {right : α} (outcomes : OutcomesAgree agree left (.ok right)) :
    ∃ value, left = .ok value ∧ agree value right := by
  cases outcomes with
  | values agrees => exact ⟨_, rfl, agrees⟩

theorem openingEvents_eq_of_perm {tasks others : List Task} (perm : tasks.Perm others) :
    openingEvents tasks = openingEvents others := by
  rw [openingEvents, openingEvents, perm.length_eq]

theorem progressEvents_eq_of_perm {contributions moved : List Contribution}
    (perm : contributions.Perm moved) : progressEvents contributions = progressEvents moved := by
  rw [progressEvents, progressEvents, List.map_const', List.map_const', perm.length_eq]

theorem CanComplete.of_perm {settings : ScanSettings} {extractors : Extractors}
    {content : Path → Except ReadError Bytes} {tasks others scheduled moved : List Task}
    (possible : CanComplete settings extractors content tasks scheduled)
    (sameTasks : tasks.Perm others) (perm : moved.Perm scheduled) :
    CanComplete settings extractors content others moved := by
  obtain ⟨start, contributions, completed⟩ := possible
  obtain ⟨again, completedAgain, _⟩ := exists_completion_of_perm perm completed
  refine ⟨?_, again, completedAgain⟩
  rcases start with rfl | workers
  · exact .inl (List.nil_perm.mp sameTasks)
  · exact .inr workers

theorem scan_agrees {Store : Type} (settings : ScanSettings) (extractors : Extractors)
    (files : FileSystem Store) (store : Store) (root : String) {listing other : List Path}
    (same : ∀ path, path ∈ listing ↔ path ∈ other)
    {schedule otherSchedule : List Task → List Task} (complete : IsSchedule schedule)
    (completeOther : IsSchedule otherSchedule) :
    let left := (scan settings extractors files.toReader store schedule root (.ok listing)).1
    let right := (scan settings extractors files.toReader store otherSchedule root (.ok other)).1
    left.events = right.events ∧ OutcomesAgree ScanResult.Agrees left.outcome right.outcome := by
  intro left right
  have perm := candidates_perm settings (Path.ofString root) same
  have distinct := nodup_paths_candidates settings (Path.ofString root) listing
  have scheduled := complete (candidates settings (Path.ofString root) listing)
  have otherScheduled := completeOther (candidates settings (Path.ofString root) other)
  have reordered := (otherScheduled.trans perm.symm).trans scheduled.symm
  rcases scan_cases settings extractors files store schedule root listing with
    ⟨contributions, start, completed, isLeft⟩ | ⟨impossible, failure, isLeft⟩
  -- Neither order can be completed without the other, so two of the four cases cannot occur.
  all_goals rcases scan_cases settings extractors files store otherSchedule root other with
    ⟨moved, otherStart, completedOther, isRight⟩ | ⟨otherImpossible, otherFailure, isRight⟩
  · have moves := completion_perm reordered completed completedOther
    have paths := nodup_failure_paths ((scheduled.map _).nodup_iff.mpr distinct) completed
    have agrees := ScanResult.agrees_ofContributions perm moves paths
    simp only [left, right, isLeft, isRight]
    refine ⟨?_, .values agrees⟩
    rw [openingEvents_eq_of_perm perm, progressEvents_eq_of_perm moves, warningEvents,
      warningEvents, agrees.failures]
  · exact absurd (CanComplete.of_perm ⟨start, _, completed⟩ perm reordered) otherImpossible
  · exact absurd (CanComplete.of_perm ⟨otherStart, _, completedOther⟩ perm.symm reordered.symm)
      impossible
  · simp only [left, right, isLeft, isRight, openingEvents_eq_of_perm perm]
    exact ⟨trivial, .failures _ _⟩

/-- Reports that say the same, although equal keys may have been kept from different places. -/
structure Report.Agrees (left right : Report) : Prop where
  unused : left.unused.map (·.text) = right.unused.map (·.text)
  result : left.result.Agrees right.result
  locations : ∀ text, left.result.locationsOf text = right.result.locationsOf text
  elapsed : left.elapsed = right.elapsed

section Report

variable {left right : ScanResult}

theorem keyLine_eq_of_agrees (agrees : left.Agrees right) (showFiles : Bool)
    {key other : LocalizationKey} (sameText : key.text = other.text) :
    keyLine showFiles left key = keyLine showFiles right other := by
  rw [keyLine, keyLine, sameText, agrees.locationsOf_eq]

theorem keyEvents_eq_of_agrees (agrees : left.Agrees right) (showFiles : Bool) :
    keyEvents showFiles left = keyEvents showFiles right := by
  have textual : ∀ result : ScanResult, keyEvents showFiles result =
      result.unusedTexts.map fun text => .key (keyLine showFiles result { text }) := by
    intro result
    rw [keyEvents, ScanResult.unusedTexts, List.map_map]
    rfl
  simp only [textual, agrees.unusedTexts_eq, keyLine_eq_of_agrees agrees showFiles rfl]

theorem resultEvents_eq_of_agrees (agrees : left.Agrees right) (showFiles : Bool)
    (elapsed : Float) :
    resultEvents showFiles left elapsed = resultEvents showFiles right elapsed := by
  have keys : left.definedKeys.length = right.definedKeys.length := by
    simpa [KeySet.texts] using agrees.texts.length_eq
  have unused : left.unusedKeys.length = right.unusedKeys.length := by
    simpa [ScanResult.unusedTexts] using congrArg List.length agrees.unusedTexts_eq
  simp only [resultEvents, keys, unused, agrees.sourceFiles, keyEvents_eq_of_agrees agrees]

end Report

theorem analyze_agrees (showFiles : Bool) (clock : Clock)
    {left right : Transcript Failure ScanResult} (events : left.events = right.events)
    (outcomes : OutcomesAgree ScanResult.Agrees left.outcome right.outcome) :
    (analyze showFiles clock left).events = (analyze showFiles clock right).events ∧
    OutcomesAgree Report.Agrees (analyze showFiles clock left).outcome
      (analyze showFiles clock right).outcome := by
  obtain ⟨leftEvents, leftOutcome⟩ := left
  obtain ⟨rightEvents, rightOutcome⟩ := right
  cases events
  cases outcomes with
  | values agrees =>
      refine ⟨?_, .values ⟨agrees.unusedTexts_eq, agrees, agrees.locationsOf_eq, rfl⟩⟩
      simp only [analyze, resultEvents_eq_of_agrees agrees]
  | failures failure other => exact ⟨rfl, .failures failure other⟩

theorem analyze_of_any_order {Store : Type} (settings : ScanSettings) (extractors : Extractors)
    (files : FileSystem Store) (store : Store) (showFiles : Bool) (clock : Clock) (root : String)
    {listing other : List Path} (same : ∀ path, path ∈ listing ↔ path ∈ other)
    {schedule otherSchedule : List Task → List Task} (complete : IsSchedule schedule)
    (completeOther : IsSchedule otherSchedule) :
    let left := analyze showFiles clock
      (scan settings extractors files.toReader store schedule root (.ok listing)).1
    let right := analyze showFiles clock
      (scan settings extractors files.toReader store otherSchedule root (.ok other)).1
    (Recorder.ofEvents left.events).records = (Recorder.ofEvents right.events).records ∧
    OutcomesAgree Report.Agrees left.outcome right.outcome := by
  intro left right
  obtain ⟨events, outcomes⟩ :=
    scan_agrees settings extractors files store root same complete completeOther
  obtain ⟨said, reported⟩ := analyze_agrees showFiles clock events outcomes
  exact ⟨by rw [said], reported⟩

def sharedProject : MemoryFiles :=
  MemoryFiles.ofFiles "/app"
    [("a.strings", encodeUtf8 "\"spare\" = \"1\";".toList),
      ("b.strings", encodeUtf8 "\n\"spare\" = \"2\";".toList),
      ("main.swift", encodeUtf8 "show(\"used\")".toList)]

def sharedListing : List Path :=
  ["/app/a.strings", "/app/b.strings", "/app/main.swift"].map Path.ofString

def sharedScan (schedule : List Task → List Task) (listing : List Path) :
    Transcript Failure ScanResult :=
  (scan (.standard none) sampleExtractors MemoryFiles.fileSystem.toReader sharedProject schedule
    "/app" (.ok listing)).1

def sharedReport (schedule : List Task → List Task) (listing : List Path) :
    Transcript Failure Report :=
  analyze true ⟨0.0, 1.5⟩ (sharedScan schedule listing)

def keptKey? (outcome : Except Failure ScanResult) (text : String) : Option LocalizationKey :=
  outcome.toOption.bind fun result => result.definedKeys.withText? text

theorem analyze_of_any_order_shared :
    (∀ path, path ∈ sharedListing ↔ path ∈ sharedListing ++ sharedListing) ∧
    IsSchedule id ∧ IsSchedule List.reverse ∧
    keptKey? (sharedScan id sharedListing).outcome "spare" =
      some ⟨"spare", some "/app/a.strings", some 1⟩ ∧
    keptKey? (sharedScan List.reverse (sharedListing ++ sharedListing)).outcome "spare" =
      some ⟨"spare", some "/app/b.strings", some 2⟩ ∧
    (Recorder.ofEvents (sharedReport id sharedListing).events).records =
      (Recorder.ofEvents
        (sharedReport List.reverse (sharedListing ++ sharedListing)).events).records ∧
    OutcomesAgree Report.Agrees (sharedReport id sharedListing).outcome
      (sharedReport List.reverse (sharedListing ++ sharedListing)).outcome := by
  have same : ∀ path, path ∈ sharedListing ↔ path ∈ sharedListing ++ sharedListing := by simp
  refine ⟨same, isSchedule_id, isSchedule_reverse, by decide +kernel, by decide +kernel, ?_⟩
  exact analyze_of_any_order _ _ _ _ true _ "/app" same isSchedule_id isSchedule_reverse

end LocalizationAudit

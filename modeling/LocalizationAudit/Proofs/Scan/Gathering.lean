import LocalizationAudit.Proofs.Scan.Contribution

/-!
A scan as a whole: which files count, how their tasks are completed one after the other, and what
the result holds of the contributions.
-/

namespace LocalizationAudit

theorem mem_candidates {settings : ScanSettings} {root : Path} {listing : List Path}
    {task : Task} :
    task ∈ candidates settings root listing ↔ task.path ∈ listing ∧
      task.kind = classify settings (some root) task.path ∧ task.kind ≠ .ignored := by
  simp only [candidates, List.mem_filter, List.mem_map, List.mem_eraseDups, bne_iff_ne, ne_eq]
  constructor
  · rintro ⟨⟨path, listed, rfl⟩, counted⟩
    exact ⟨listed, rfl, counted⟩
  · rintro ⟨listed, kind, counted⟩
    exact ⟨⟨task.path, listed, by rw [← kind]⟩, counted⟩

theorem nodup_paths_candidates (settings : ScanSettings) (root : Path) (listing : List Path) :
    ((candidates settings root listing).map Task.path).Nodup := by
  have distinct := nodup_eraseDups listing
  have sublist := (List.filter_sublist (p := fun task : Task => task.kind != .ignored)
    (l := listing.eraseDups.map fun path =>
      (⟨path, classify settings (some root) path⟩ : Task))).map Task.path
  simp only [List.map_map, Function.comp_def, List.map_id'] at sublist
  exact sublist.nodup distinct

theorem candidates_perm {listing other : List Path} (settings : ScanSettings) (root : Path)
    (same : ∀ path, path ∈ listing ↔ path ∈ other) :
    (candidates settings root listing).Perm (candidates settings root other) :=
  ((eraseDups_perm_of_mem_iff same).map _).filter _

def IsSchedule (schedule : List Task → List Task) : Prop :=
  ∀ tasks, (schedule tasks).Perm tasks

theorem isSchedule_id : IsSchedule id :=
  List.Perm.refl

theorem isSchedule_reverse : IsSchedule List.reverse :=
  List.reverse_perm

def Completes (extractors : Extractors) (content : Path → Except ReadError Bytes) (task : Task)
    (contribution : Contribution) : Prop :=
  outcomeOf extractors task (content task.path) = .ok contribution

/-- A resource that cannot be used is a failure of its own and never stops a scan. -/
theorem completes_of_resource {extractors : Extractors}
    {content : Path → Except ReadError Bytes} {task : Task} (kind : task.kind = .resource) :
    ∃ contribution, Completes extractors content task contribution := by
  simp only [Completes]
  cases content task.path with
  | error error => exact ⟨_, rfl⟩
  | ok bytes =>
      simp only [outcomeOf, contributionOf_of_resource kind, keysOfBytes]
      cases decodeText bytes resourceEncodings with
      | ok found => exact ⟨_, rfl⟩
      | error error => exact ⟨_, rfl⟩

theorem processAll_cons_eq_ok_iff {Store : Type} {extractors : Extractors}
    {reader : Reader Store} {store : Store} {task : Task} {others : List Task}
    {contributions : List Contribution} :
    (processAll extractors reader store (task :: others)).1 = .ok contributions ↔
      ∃ contribution rest,
        outcomeOf extractors task (reader.read store task.path).1 = .ok contribution ∧
        (processAll extractors reader (reader.read store task.path).2 others).1 = .ok rest ∧
        contributions = contribution :: rest := by
  rw [processAll, processFile_eq]
  cases outcomeOf extractors task (reader.read store task.path).1 with
  | error failure => simp
  | ok contribution =>
      cases finished :
          (processAll extractors reader (reader.read store task.path).2 others).1 <;>
        simp [finished, Except.map, eq_comm]

theorem processAll_eq_ok_iff {Store : Type} (extractors : Extractors) (files : FileSystem Store)
    (store : Store) (tasks : List Task) (contributions : List Contribution) :
    (processAll extractors files.toReader store tasks).1 = .ok contributions ↔
      List.Forall₂ (Completes extractors (files.content store)) tasks contributions := by
  induction tasks generalizing store contributions with
  | nil => simp [processAll, eq_comm]
  | cons task others ih =>
      simp only [processAll_cons_eq_ok_iff, List.forall₂_cons_left_iff, ih, files.content_read]
      rfl

namespace ScanResult

variable (result : ScanResult) (contribution : Contribution)

theorem definedKeys_addContribution :
    (result.addContribution contribution).definedKeys =
      result.definedKeys.union contribution.keys := by
  simp only [addContribution, definedKeys_addLiterals, definedKeys_addKeys]
  split <;> rfl

theorem keysAt_addContribution (text : String) :
    (result.addContribution contribution).keysAt text =
      result.keysAt text ++ (KeySet.ofList contribution.keys).filter (·.text == text) := by
  simp only [addContribution, keysAt_addLiterals, keysAt_addKeys]
  split <;> rfl

theorem mem_usedLiterals_addContribution {text : String} :
    text ∈ (result.addContribution contribution).usedLiterals ↔
      text ∈ result.usedLiterals ∨ text ∈ contribution.literals := by
  simp only [addContribution, mem_usedLiterals_addLiterals, usedLiterals_addKeys]
  split <;> rfl

theorem failures_addContribution :
    (result.addContribution contribution).failures =
      result.failures ++ contribution.failure.toList := by
  simp only [addContribution, failures_addLiterals, failures_addKeys]
  split
  next failure failed => simp [failed, addFailure]
  next failed => simp [failed]

theorem resourceFiles_addContribution :
    (result.addContribution contribution).resourceFiles = result.resourceFiles := by
  simp only [addContribution, addLiterals, addKeys]
  split <;> rfl

theorem sourceFiles_addContribution :
    (result.addContribution contribution).sourceFiles = result.sourceFiles := by
  simp only [addContribution, addLiterals, addKeys]
  split <;> rfl

section Fold

variable (contributions : List Contribution)

theorem definedKeys_foldl :
    (contributions.foldl addContribution result).definedKeys =
      result.definedKeys.union (contributions.flatMap (·.keys)) := by
  induction contributions generalizing result with
  | nil => rfl
  | cons contribution others ih =>
      rw [List.foldl_cons, ih, definedKeys_addContribution, List.flatMap_cons,
        KeySet.union_append]

theorem keysAt_foldl (text : String) :
    (contributions.foldl addContribution result).keysAt text =
      result.keysAt text ++ contributions.flatMap fun contribution =>
        (KeySet.ofList contribution.keys).filter (·.text == text) := by
  induction contributions generalizing result with
  | nil => simp
  | cons contribution others ih =>
      rw [List.foldl_cons, ih, keysAt_addContribution, List.flatMap_cons, List.append_assoc]

theorem mem_usedLiterals_foldl {text : String} :
    text ∈ (contributions.foldl addContribution result).usedLiterals ↔
      text ∈ result.usedLiterals ∨
        ∃ contribution ∈ contributions, text ∈ contribution.literals := by
  induction contributions generalizing result with
  | nil => simp
  | cons contribution others ih =>
      rw [List.foldl_cons, ih, mem_usedLiterals_addContribution, or_assoc]
      simp

variable {result} in
theorem nodup_usedLiterals_foldl (distinct : result.usedLiterals.Nodup) :
    (contributions.foldl addContribution result).usedLiterals.Nodup := by
  induction contributions generalizing result with
  | nil => exact distinct
  | cons contribution others ih => exact ih (nodup_usedLiterals_addLiterals _ _)

theorem failures_foldl :
    (contributions.foldl addContribution result).failures =
      result.failures ++ contributions.filterMap (·.failure) := by
  induction contributions generalizing result with
  | nil => simp
  | cons contribution others ih =>
      rw [List.foldl_cons, ih, failures_addContribution, List.append_assoc]
      cases failed : contribution.failure <;> simp [failed]

theorem resourceFiles_foldl :
    (contributions.foldl addContribution result).resourceFiles = result.resourceFiles := by
  induction contributions generalizing result with
  | nil => rfl
  | cons contribution others ih => rw [List.foldl_cons, ih, resourceFiles_addContribution]

theorem sourceFiles_foldl :
    (contributions.foldl addContribution result).sourceFiles = result.sourceFiles := by
  induction contributions generalizing result with
  | nil => rfl
  | cons contribution others ih => rw [List.foldl_cons, ih, sourceFiles_addContribution]

end Fold

section OfContributions

variable (tasks : List Task) (contributions : List Contribution)

theorem mem_texts_ofContributions {text : String} :
    text ∈ (ofContributions tasks contributions).definedKeys.texts ↔
      ∃ contribution ∈ contributions, text ∈ KeySet.texts contribution.keys := by
  change text ∈ (contributions.foldl addContribution (ofTasks tasks)).definedKeys.texts ↔ _
  rw [definedKeys_foldl, KeySet.mem_texts_union]
  simp only [KeySet.texts, ofTasks, List.map_nil, List.not_mem_nil, false_or, List.mem_map,
    List.mem_flatMap]
  constructor
  · rintro ⟨key, ⟨contribution, member, inside⟩, rfl⟩
    exact ⟨contribution, member, key, inside, rfl⟩
  · rintro ⟨contribution, member, key, inside, rfl⟩
    exact ⟨key, ⟨contribution, member, inside⟩, rfl⟩

theorem nodup_texts_ofContributions :
    (ofContributions tasks contributions).definedKeys.texts.Nodup := by
  change (contributions.foldl addContribution (ofTasks tasks)).definedKeys.texts.Nodup
  rw [definedKeys_foldl]
  exact KeySet.nodup_texts_union _ (by simp [KeySet.texts, ofTasks])

theorem mem_usedLiterals_ofContributions {text : String} :
    text ∈ (ofContributions tasks contributions).usedLiterals ↔
      ∃ contribution ∈ contributions, text ∈ contribution.literals := by
  change text ∈ (contributions.foldl addContribution (ofTasks tasks)).usedLiterals ↔ _
  rw [mem_usedLiterals_foldl]
  simp [ofTasks]

theorem nodup_usedLiterals_ofContributions :
    (ofContributions tasks contributions).usedLiterals.Nodup :=
  nodup_usedLiterals_foldl contributions List.nodup_nil

theorem keysAt_ofContributions (text : String) :
    (ofContributions tasks contributions).keysAt text = contributions.flatMap fun contribution =>
      (KeySet.ofList contribution.keys).filter (·.text == text) :=
  keysAt_foldl (ofTasks tasks) contributions text

/-- Every key of a result, kept or not, was contributed. -/
theorem exists_contribution_of_mem_keys {text : String} {key : LocalizationKey}
    (member : key ∈ (ofContributions tasks contributions).definedKeys ∨
      key ∈ (ofContributions tasks contributions).keysAt text) :
    ∃ contribution ∈ contributions, key ∈ contribution.keys := by
  rcases member with kept | occurring
  · change key ∈ (contributions.foldl addContribution (ofTasks tasks)).definedKeys at kept
    rw [definedKeys_foldl] at kept
    have added := (KeySet.mem_of_mem_union kept).resolve_left List.not_mem_nil
    exact List.mem_flatMap.mp added
  · rw [keysAt_ofContributions, List.mem_flatMap] at occurring
    obtain ⟨contribution, isOne, inside⟩ := occurring
    exact ⟨contribution, isOne, KeySet.mem_of_mem_ofList (List.mem_of_mem_filter inside)⟩

theorem failures_ofContributions :
    (ofContributions tasks contributions).failures =
      (contributions.filterMap (·.failure)).mergeSort fun left right =>
        decide (left.path ≤ right.path) := by
  rw [ofContributions, sortFailures, failures_foldl]
  rfl

theorem resourceFiles_ofContributions :
    (ofContributions tasks contributions).resourceFiles = countKind .resource tasks :=
  resourceFiles_foldl (ofTasks tasks) contributions

theorem sourceFiles_ofContributions :
    (ofContributions tasks contributions).sourceFiles = countKind .source tasks :=
  sourceFiles_foldl (ofTasks tasks) contributions

end OfContributions

end ScanResult

section Completion

variable {extractors : Extractors} {content : Path → Except ReadError Bytes}
  {tasks scheduled : List Task} {contributions : List Contribution}

theorem exists_completion
    (total : ∀ task ∈ tasks, ∃ contribution, Completes extractors content task contribution) :
    ∃ contributions, List.Forall₂ (Completes extractors content) tasks contributions := by
  induction tasks with
  | nil => exact ⟨[], .nil⟩
  | cons task others ih =>
      obtain ⟨contribution, done⟩ := total task List.mem_cons_self
      obtain ⟨rest, finished⟩ := ih fun other member => total other (List.mem_cons_of_mem _ member)
      exact ⟨contribution :: rest, .cons done finished⟩

theorem failures_sublist
    (completed : List.Forall₂ (Completes extractors content) scheduled contributions) :
    ((contributions.filterMap (·.failure)).map FileFailure.path).Sublist
      (scheduled.map fun task => task.path.text) := by
  induction completed with
  | nil => exact .slnil
  | @cons task contribution tasks contributions done _ ih =>
      cases failed : contribution.failure with
      | none =>
          simp only [List.filterMap_cons, failed, List.map_cons]
          exact ih.cons _
      | some failure =>
          simp only [List.filterMap_cons, failed, List.map_cons,
            failure_path_of_outcomeOf done failed]
          exact ih.cons_cons _

theorem nodup_failure_paths (distinct : (scheduled.map Task.path).Nodup)
    (completed : List.Forall₂ (Completes extractors content) scheduled contributions) :
    ((contributions.filterMap (·.failure)).map FileFailure.path).Nodup := by
  have spelled : (scheduled.map fun task => task.path.text).Nodup := by
    have apart := distinct.map Path.text_injective
    rwa [List.map_map] at apart
  exact (failures_sublist completed).nodup spelled

theorem failure_paths_increasing (distinct : (scheduled.map Task.path).Nodup)
    (completed : List.Forall₂ (Completes extractors content) scheduled contributions) :
    ((ScanResult.ofContributions tasks contributions).failures.map FileFailure.path).Pairwise
      (· < ·) := by
  rw [ScanResult.failures_ofContributions, map_sortBy]
  exact sortTexts_increasing (nodup_failure_paths distinct completed)

end Completion

def CanStart (settings : ScanSettings) (tasks : List Task) : Prop :=
  tasks = [] ∨ hasWorkers settings = true

def CanComplete (settings : ScanSettings) (extractors : Extractors)
    (content : Path → Except ReadError Bytes) (tasks scheduled : List Task) : Prop :=
  CanStart settings tasks ∧
    ∃ contributions, List.Forall₂ (Completes extractors content) scheduled contributions

section Cases

variable {Store : Type} (settings : ScanSettings) (extractors : Extractors)
  (files : FileSystem Store) (store : Store) (schedule : List Task → List Task) (root : String)
  (listing : List Path)

/-- A scan either completes all tasks and reports on them, or ends with the first hard failure. -/
theorem scan_cases :
    let tasks := candidates settings (Path.ofString root) listing
    let transcript := (scan settings extractors files.toReader store schedule root (.ok listing)).1
    (∃ contributions, CanStart settings tasks ∧
      List.Forall₂ (Completes extractors (files.content store)) (schedule tasks) contributions ∧
      transcript =
        ⟨openingEvents tasks ++ progressEvents contributions ++
          warningEvents (.ofContributions tasks contributions),
          .ok (.ofContributions tasks contributions)⟩) ∨
    (¬ CanComplete settings extractors (files.content store) tasks (schedule tasks) ∧
      ∃ failure, transcript = ⟨openingEvents tasks ++ [.finishProgress], .error failure⟩) := by
  intro tasks transcript
  by_cases start : CanStart settings tasks
  · have started : (!tasks.isEmpty && !hasWorkers settings) = false := by
      rcases start with empty | workers
      · simp [empty]
      · simp [workers]
    cases processed : (processAll extractors files.toReader store (schedule tasks)).1 with
    | ok contributions =>
        refine .inl ⟨contributions, start, (processAll_eq_ok_iff ..).mp processed, ?_⟩
        simp only [transcript, scan, scanListing, tasks] at started processed ⊢
        simp [started, processed]
    | error failure =>
        refine .inr ⟨?_, failure, ?_⟩
        · rintro ⟨_, contributions, completed⟩
          rw [(processAll_eq_ok_iff ..).mpr completed] at processed
          simp at processed
        · simp only [transcript, scan, scanListing, tasks] at started processed ⊢
          simp [started, processed]
  · have refused : (!tasks.isEmpty && !hasWorkers settings) = true := by
      simpa [CanStart] using start
    refine .inr ⟨fun possible => start possible.1, .noWorkers, ?_⟩
    simp only [transcript, scan, scanListing, tasks] at refused ⊢
    simp [refused]

end Cases

end LocalizationAudit

import LocalizationAudit.Proofs.Scan.Usage

/-!
What a scan that has returned holds: its keys, literals, places and failures, each traced back to
the listed files they come from. A scan returns whenever all of its tasks can be completed.
-/

namespace LocalizationAudit

def FailsAs (extractors : Extractors) (task : Task) (read : Except ReadError Bytes)
    (failure : FileFailure) : Prop :=
  ∃ contribution, outcomeOf extractors task read = .ok contribution ∧
    contribution.failure = some failure

theorem exists_ok_of_isSome {α : Type} {outcome : Except Failure α}
    (succeeds : outcome.toOption.isSome = true) : ∃ result, outcome = .ok result := by
  cases outcome with
  | ok result => exact ⟨result, rfl⟩
  | error failure => simp [Except.toOption] at succeeds

section Scan

variable {Store : Type} {settings : ScanSettings} {extractors : Extractors}
  {files : FileSystem Store} {store : Store} {schedule : List Task → List Task} {root : String}
  {listing : List Path} {result : ScanResult}

theorem completed_of_returned
    (returned : (scan settings extractors files.toReader store schedule root
      (.ok listing)).1.outcome = .ok result) :
    ∃ contributions,
      List.Forall₂ (Completes extractors (files.content store))
        (schedule (candidates settings (Path.ofString root) listing)) contributions ∧
      result = .ofContributions (candidates settings (Path.ofString root) listing)
        contributions := by
  rcases scan_cases settings extractors files store schedule root listing with
    ⟨contributions, _, completed, transcript⟩ | ⟨_, failure, transcript⟩
  · rw [transcript] at returned
    exact ⟨contributions, completed, (Except.ok.inj returned).symm⟩
  · simp [transcript] at returned

variable (settings extractors files store root listing) in
/-- A scan returns when it can start and every single task can be completed. -/
theorem exists_returned_iff (complete : IsSchedule schedule) :
    (∃ result, (scan settings extractors files.toReader store schedule root
      (.ok listing)).1.outcome = .ok result) ↔
      CanStart settings (candidates settings (Path.ofString root) listing) ∧
      ∀ task ∈ candidates settings (Path.ofString root) listing,
        ∃ contribution, Completes extractors (files.content store) task contribution := by
  have perm := complete (candidates settings (Path.ofString root) listing)
  rcases scan_cases settings extractors files store schedule root listing with
    ⟨contributions, start, completed, transcript⟩ | ⟨impossible, failure, transcript⟩
  · rw [transcript]
    refine ⟨fun _ => ⟨start, fun task member => ?_⟩, fun _ => ⟨_, rfl⟩⟩
    obtain ⟨contribution, _, done⟩ := exists_related_of_mem completed (perm.mem_iff.mpr member)
    exact ⟨contribution, done⟩
  · rw [transcript]
    refine ⟨fun ⟨_, returned⟩ => by simp at returned, ?_⟩
    rintro ⟨start, total⟩
    exact absurd ⟨start, exists_completion fun task member => total task (perm.mem_iff.mp member)⟩
      impossible

variable (complete : IsSchedule schedule)
  (returned : (scan settings extractors files.toReader store schedule root
    (.ok listing)).1.outcome = .ok result)

include complete returned

theorem mem_texts_of_returned (text : String) :
    text ∈ result.definedKeys.texts ↔
      ∃ path ∈ listing, classify settings (some (Path.ofString root)) path = .resource ∧
        DefinesKey extractors path (files.content store path) text := by
  obtain ⟨contributions, completed, rfl⟩ := completed_of_returned returned
  have counted : FileKind.resource ≠ .ignored := by simp
  rw [ScanResult.mem_texts_ofContributions]
  exact (exists_contribution_iff (complete _) completed fun _ _ done =>
    mem_texts_of_outcomeOf done text).trans (exists_candidate_iff counted
      fun path => DefinesKey extractors path (files.content store path) text)

theorem mem_usedLiterals_of_returned (text : String) :
    text ∈ result.usedLiterals ↔
      ∃ path ∈ listing, classify settings (some (Path.ofString root)) path = .source ∧
        UsesLiteral extractors path (files.content store path) text := by
  obtain ⟨contributions, completed, rfl⟩ := completed_of_returned returned
  have counted : FileKind.source ≠ .ignored := by simp
  rw [ScanResult.mem_usedLiterals_ofContributions]
  exact (exists_contribution_iff (complete _) completed fun _ _ done =>
    mem_literals_of_outcomeOf done text).trans (exists_candidate_iff counted
      fun path => UsesLiteral extractors path (files.content store path) text)

theorem mem_keysAt_of_returned (text : String) (key : LocalizationKey) :
    key ∈ result.keysAt text ↔ key.text = text ∧
      ∃ path ∈ listing, classify settings (some (Path.ofString root)) path = .resource ∧
        FindsKey extractors path (files.content store path) key := by
  obtain ⟨contributions, completed, rfl⟩ := completed_of_returned returned
  have counted : FileKind.resource ≠ .ignored := by simp
  have gathered := (exists_contribution_iff (complete _) completed fun _ _ done =>
    mem_keys_of_outcomeOf done key).trans (exists_candidate_iff counted
      fun path => FindsKey extractors path (files.content store path) key)
  rw [ScanResult.keysAt_ofContributions, ← gathered, List.mem_flatMap]
  constructor
  · rintro ⟨contribution, isOne, inside⟩
    obtain ⟨member, same⟩ := List.mem_filter.mp inside
    exact ⟨beq_iff_eq.mp same, contribution, isOne, KeySet.mem_of_mem_ofList member⟩
  · rintro ⟨same, contribution, isOne, member⟩
    obtain ⟨task, _, done⟩ := exists_related_of_mem completed.flip isOne
    refine ⟨contribution, isOne, List.mem_filter.mpr ⟨?_, beq_iff_eq.mpr same⟩⟩
    rwa [KeySet.ofList_of_distinct (nodup_texts_of_outcomeOf done)]

omit complete in
theorem nodup_texts_of_returned : result.definedKeys.texts.Nodup := by
  obtain ⟨contributions, _, rfl⟩ := completed_of_returned returned
  exact ScanResult.nodup_texts_ofContributions _ _

omit complete in
theorem sourceFiles_of_returned :
    result.sourceFiles = countKind .source (candidates settings (Path.ofString root) listing) := by
  obtain ⟨contributions, _, rfl⟩ := completed_of_returned returned
  exact ScanResult.sourceFiles_ofContributions _ _

omit complete in
theorem resourceFiles_of_returned :
    result.resourceFiles =
      countKind .resource (candidates settings (Path.ofString root) listing) := by
  obtain ⟨contributions, _, rfl⟩ := completed_of_returned returned
  exact ScanResult.resourceFiles_ofContributions _ _

theorem failures_increasing : (result.failures.map FileFailure.path).Pairwise (· < ·) := by
  obtain ⟨contributions, completed, rfl⟩ := completed_of_returned returned
  have distinct := nodup_paths_candidates settings (Path.ofString root) listing
  exact failure_paths_increasing (((complete _).map Task.path).nodup_iff.mpr distinct) completed

theorem mem_failures_of_returned (failure : FileFailure) :
    failure ∈ result.failures ↔
      ∃ task ∈ candidates settings (Path.ofString root) listing,
        FailsAs extractors task (files.content store task.path) failure := by
  obtain ⟨contributions, completed, rfl⟩ := completed_of_returned returned
  rw [ScanResult.failures_ofContributions, List.mem_mergeSort, List.mem_filterMap]
  refine exists_contribution_iff (complete _) completed fun task contribution done => ?_
  constructor
  · exact fun failed => ⟨contribution, done, failed⟩
  · rintro ⟨other, again, failed⟩
    obtain rfl := Except.ok.inj (done.symm.trans again)
    exact failed

end Scan

end LocalizationAudit

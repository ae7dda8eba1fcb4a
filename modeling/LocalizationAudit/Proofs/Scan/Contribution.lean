import LocalizationAudit.Proofs.FileSystem
import LocalizationAudit.Proofs.Resource.Keys
import LocalizationAudit.Proofs.ScanResult
import LocalizationAudit.Scan
import Mathlib.Data.List.Forall2

/-!
What one file adds to a scan, as far as it can be read and parsed, and what a scan has gathered
when all files have been added up.
-/

namespace LocalizationAudit

def DefinesKey (extractors : Extractors) (path : Path) (read : Except ReadError Bytes)
    (text : String) : Prop :=
  ∃ content keys, read = .ok content ∧
    keysOfBytes extractors.keySites content (some path.text) = .ok keys ∧ text ∈ keys.texts

def FindsKey (extractors : Extractors) (path : Path) (read : Except ReadError Bytes)
    (key : LocalizationKey) : Prop :=
  ∃ content keys, read = .ok content ∧
    keysOfBytes extractors.keySites content (some path.text) = .ok keys ∧ key ∈ keys

def UsesLiteral (extractors : Extractors) (path : Path) (read : Except ReadError Bytes)
    (text : String) : Prop :=
  ∃ content literals, read = .ok content ∧
    extractors.grammar.extractBytes content path.text = .ok literals ∧ text ∈ literals

def outcomeOf (extractors : Extractors) (task : Task) (read : Except ReadError Bytes) :
    Except Failure Contribution :=
  match read with
  | .ok content => settle task (contributionOf extractors task content)
  | .error error => settle task (.error (.unreadable error))

theorem processFile_eq {Store : Type} (extractors : Extractors) (reader : Reader Store)
    (store : Store) (task : Task) :
    processFile extractors reader store task =
      (outcomeOf extractors task (reader.read store task.path).1,
        (reader.read store task.path).2) := by
  unfold processFile
  obtain ⟨read, after⟩ := reader.read store task.path
  cases read <;> rfl

theorem settle_eq_ok {task : Task} {result : Except Failure Contribution}
    {contribution : Contribution} (settled : settle task result = .ok contribution) :
    result = .ok contribution ∨ (∃ failure, result = .error failure) ∧
      ∃ kind message, contribution = { task, failure := some ⟨task.path.text, kind, message⟩ } := by
  unfold settle at settled
  split at settled
  · exact .inl settled
  · split at settled
    next kind reason _ _ =>
      cases settled
      exact .inr ⟨⟨_, rfl⟩, kind, reason, rfl⟩
    next => simp at settled
  next error =>
    cases settled
    exact .inr ⟨⟨_, rfl⟩, .read, error.message, rfl⟩
  · simp at settled

theorem contributionOf_of_resource {extractors : Extractors} {task : Task}
    (kind : task.kind = .resource) (content : Bytes) :
    contributionOf extractors task content =
      (keysOfBytes extractors.keySites content (some task.path.text)).map fun keys =>
        { task, keys } := by
  rw [contributionOf, kind]
  rfl

theorem contributionOf_of_source {extractors : Extractors} {task : Task}
    (kind : task.kind = .source) (content : Bytes) :
    contributionOf extractors task content =
      (extractors.grammar.extractBytes content task.path.text).map fun literals =>
        { task, literals } := by
  rw [contributionOf, kind]
  rfl

theorem contributionOf_eq_ok_iff {extractors : Extractors} {task : Task} {content : Bytes}
    {contribution : Contribution} :
    contributionOf extractors task content = .ok contribution ↔
      (task.kind = .resource ∧ ∃ keys,
        keysOfBytes extractors.keySites content (some task.path.text) = .ok keys ∧
        contribution = { task, keys }) ∨
      (task.kind = .source ∧ ∃ literals,
        extractors.grammar.extractBytes content task.path.text = .ok literals ∧
        contribution = { task, literals }) ∨
      (task.kind = .ignored ∧ contribution = { task }) := by
  cases kind : task.kind with
  | resource =>
      cases parsed : keysOfBytes extractors.keySites content (some task.path.text) <;>
        simp [contributionOf, kind, parsed, bind, Except.bind, pure, Except.pure, eq_comm]
  | source =>
      cases parsed : extractors.grammar.extractBytes content task.path.text <;>
        simp [contributionOf, kind, parsed, bind, Except.bind, pure, Except.pure, eq_comm]
  | ignored => simp [contributionOf, kind, eq_comm]

section Outcome

variable {extractors : Extractors} {task : Task} {read : Except ReadError Bytes}
  {contribution : Contribution}

/-- Either the file was parsed, or it contributes a failure under its own path and nothing else. -/
theorem outcomeOf_eq_ok (done : outcomeOf extractors task read = .ok contribution) :
    (∃ content, read = .ok content ∧
      contributionOf extractors task content = .ok contribution) ∨
    ((∀ content parsed, read = .ok content →
        contributionOf extractors task content ≠ .ok parsed) ∧
      ∃ kind message,
        contribution = { task, failure := some ⟨task.path.text, kind, message⟩ }) := by
  cases read with
  | error error =>
      change settle task (.error (.unreadable error)) = .ok contribution at done
      rcases settle_eq_ok done with impossible | ⟨_, recorded⟩
      · simp at impossible
      · exact .inr ⟨by simp, recorded⟩
  | ok content =>
      change settle task (contributionOf extractors task content) = .ok contribution at done
      rcases settle_eq_ok done with parsed | ⟨⟨failure, failed⟩, recorded⟩
      · exact .inl ⟨content, rfl, parsed⟩
      · refine .inr ⟨?_, recorded⟩
        rintro _ parsed same
        cases same
        simp [failed]

theorem mem_keys_of_outcomeOf (done : outcomeOf extractors task read = .ok contribution)
    (key : LocalizationKey) :
    key ∈ contribution.keys ↔
      task.kind = .resource ∧ FindsKey extractors task.path read key := by
  rcases outcomeOf_eq_ok done with ⟨content, rfl, parsed⟩ | ⟨unparsed, kind, message, rfl⟩
  · rcases contributionOf_eq_ok_iff.mp parsed with
      ⟨kind, keys, found, rfl⟩ | ⟨kind, literals, _, rfl⟩ | ⟨kind, rfl⟩
    · simp [FindsKey, kind, found]
    · simp [kind]
    · simp [kind]
  · simp only [List.not_mem_nil, false_iff]
    rintro ⟨kind, content, keys, rfl, found, _⟩
    have parsed := contributionOf_eq_ok_iff.mpr (.inl ⟨kind, keys, found, rfl⟩)
    exact unparsed content _ rfl parsed

theorem mem_texts_of_outcomeOf (done : outcomeOf extractors task read = .ok contribution)
    (text : String) :
    text ∈ KeySet.texts contribution.keys ↔
      task.kind = .resource ∧ DefinesKey extractors task.path read text := by
  constructor
  · intro member
    obtain ⟨key, isKey, rfl⟩ := List.mem_map.mp member
    obtain ⟨kind, content, keys, same, found, inside⟩ := (mem_keys_of_outcomeOf done key).mp isKey
    exact ⟨kind, content, keys, same, found, List.mem_map_of_mem inside⟩
  · rintro ⟨kind, content, keys, same, found, defined⟩
    obtain ⟨key, inside, rfl⟩ := List.mem_map.mp defined
    have isKey := (mem_keys_of_outcomeOf done key).mpr ⟨kind, content, keys, same, found, inside⟩
    exact List.mem_map_of_mem isKey

theorem mem_literals_of_outcomeOf (done : outcomeOf extractors task read = .ok contribution)
    (text : String) :
    text ∈ contribution.literals ↔
      task.kind = .source ∧ UsesLiteral extractors task.path read text := by
  rcases outcomeOf_eq_ok done with ⟨content, rfl, parsed⟩ | ⟨unparsed, kind, message, rfl⟩
  · rcases contributionOf_eq_ok_iff.mp parsed with
      ⟨kind, keys, _, rfl⟩ | ⟨kind, literals, found, rfl⟩ | ⟨kind, rfl⟩
    · simp [kind]
    · simp [UsesLiteral, kind, found]
    · simp [kind]
  · simp only [List.not_mem_nil, false_iff]
    rintro ⟨kind, content, literals, rfl, found, _⟩
    have parsed := contributionOf_eq_ok_iff.mpr (.inr (.inl ⟨kind, literals, found, rfl⟩))
    exact unparsed content _ rfl parsed

theorem nodup_texts_of_outcomeOf (done : outcomeOf extractors task read = .ok contribution) :
    (KeySet.texts contribution.keys).Nodup := by
  rcases outcomeOf_eq_ok done with ⟨content, rfl, parsed⟩ | ⟨_, kind, message, rfl⟩
  · rcases contributionOf_eq_ok_iff.mp parsed with
      ⟨_, keys, found, rfl⟩ | ⟨_, _, _, rfl⟩ | ⟨_, rfl⟩
    · obtain ⟨text, _, _, rfl⟩ := keysOfBytes_eq_ok_iff.mp found
      exact KeySet.nodup_texts_ofList _
    · exact List.nodup_nil
    · exact List.nodup_nil
  · exact List.nodup_nil

theorem failure_path_of_outcomeOf (done : outcomeOf extractors task read = .ok contribution)
    {failure : FileFailure} (failed : contribution.failure = some failure) :
    failure.path = task.path.text := by
  rcases outcomeOf_eq_ok done with ⟨content, rfl, parsed⟩ | ⟨_, kind, message, rfl⟩
  · rcases contributionOf_eq_ok_iff.mp parsed with
      ⟨_, _, _, rfl⟩ | ⟨_, _, _, rfl⟩ | ⟨_, rfl⟩ <;> simp at failed
  · cases failed
    rfl

theorem origin_of_key (done : outcomeOf extractors task read = .ok contribution)
    {key : LocalizationKey} (member : key ∈ contribution.keys) :
    task.kind = .resource ∧ contribution.failure = none ∧ key.file = some task.path.text := by
  rcases outcomeOf_eq_ok done with ⟨content, rfl, parsed⟩ | ⟨_, kind, message, rfl⟩
  · rcases contributionOf_eq_ok_iff.mp parsed with
      ⟨kind, keys, found, rfl⟩ | ⟨_, _, _, rfl⟩ | ⟨_, rfl⟩
    · obtain ⟨text, _, _, rfl⟩ := keysOfBytes_eq_ok_iff.mp found
      obtain ⟨site, _, rfl⟩ := List.mem_map.mp (KeySet.mem_of_mem_ofList member)
      exact ⟨kind, rfl, rfl⟩
    · exact absurd member List.not_mem_nil
    · exact absurd member List.not_mem_nil
  · exact absurd member List.not_mem_nil

theorem origin_of_literal (done : outcomeOf extractors task read = .ok contribution)
    {literal : String} (member : literal ∈ contribution.literals) :
    task.kind = .source ∧ contribution.failure = none ∧
      UsesLiteral extractors task.path read literal := by
  obtain ⟨kind, used⟩ := (mem_literals_of_outcomeOf done literal).mp member
  refine ⟨kind, ?_, used⟩
  rcases outcomeOf_eq_ok done with ⟨content, rfl, parsed⟩ | ⟨_, _, _, rfl⟩
  · rcases contributionOf_eq_ok_iff.mp parsed with
      ⟨_, _, _, rfl⟩ | ⟨_, _, _, rfl⟩ | ⟨_, rfl⟩ <;> rfl
  · exact absurd member List.not_mem_nil

end Outcome

end LocalizationAudit

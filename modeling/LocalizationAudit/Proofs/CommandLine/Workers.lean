import LocalizationAudit.CommandLine.Run

/-!
How many workers a scan gets. The command line gives none or at least one, and so does a sound
configuration; so whatever is overridden, there is at least one.
-/

namespace LocalizationAudit

section Except

variable {ε α β : Type}

theorem bind_eq_ok_iff {first : Except ε α} {next : α → Except ε β} {value : β} :
    (first >>= next) = .ok value ↔ ∃ between, first = .ok between ∧ next between = .ok value := by
  cases first <;> simp [bind, Except.bind]

theorem throw_ne_ok {error : ε} {value : α} : (throw error : Except ε α) ≠ .ok value := by
  simp [throw, throwThe, MonadExceptOf.throw]

end Except

theorem readWorkers_positive {value : String} {workers : Int}
    (read : readWorkers value = .ok workers) : 1 ≤ workers := by
  unfold readWorkers at read
  split at read
  · simp at read
  next found =>
    split at read
    · simp at read
    next enough =>
      obtain rfl := Except.ok.inj read
      omega

theorem workersOption_positive {arguments : Arguments} {workers : Int}
    (read : workersOption arguments = .ok (some workers)) : 1 ≤ workers := by
  unfold workersOption at read
  split at read
  · simp at read
  next value _ =>
    obtain ⟨given, found, same⟩ := bind_eq_ok_iff.mp read
    obtain rfl := Option.some.inj (Except.ok.inj same)
    exact readWorkers_positive found

theorem scanRequest_workers {arguments : Arguments} {options : ScanOptions}
    (accepted : scanRequest arguments = .ok (.scan options)) :
    workersOption arguments = .ok options.workers := by
  unfold scanRequest at accepted
  split at accepted
  · simp at accepted
  · obtain ⟨workers, found, rest⟩ := bind_eq_ok_iff.mp accepted
    split at rest
    · obtain rfl := Request.scan.inj (Except.ok.inj rest)
      exact found
    · exact absurd rest throw_ne_ok

theorem groupRequest?_ne_scan (arguments : Arguments) (options : ScanOptions) :
    groupRequest? arguments ≠ some (.scan options) := by
  unfold groupRequest?
  split
  · simp
  · split <;> simp

theorem unknownCommand_ne_scan (name : String) (rest : List String) (options : ScanOptions) :
    unknownCommand name rest ≠ .ok (.scan options) := by
  intro accepted
  obtain ⟨arguments, _, decided⟩ := bind_eq_ok_iff.mp accepted
  split at decided
  next request found =>
    obtain rfl := Except.ok.inj decided
    exact groupRequest?_ne_scan arguments options found
  next => exact throw_ne_ok decided

theorem exists_scanRequest {arguments : List String} {options : ScanOptions}
    (accepted : Request.ofArguments arguments = .ok (.scan options)) :
    ∃ read, scanRequest read = .ok (.scan options) := by
  unfold Request.ofArguments at accepted
  split at accepted
  · simp at accepted
  · obtain ⟨group, _, decided⟩ := bind_eq_ok_iff.mp accepted
    split at decided
    next request _ found =>
      obtain rfl := Except.ok.inj decided
      exact absurd found (groupRequest?_ne_scan group options)
    next => exact absurd decided throw_ne_ok
    next name rest _ _ =>
      split at decided
      · obtain ⟨read, _, asked⟩ := bind_eq_ok_iff.mp decided
        exact ⟨read, asked⟩
      · exact absurd decided (unknownCommand_ne_scan name rest options)

/-- A number of workers is given on the command line only if there is at least one. -/
theorem workers_positive {arguments : List String} {options : ScanOptions}
    (accepted : Request.ofArguments arguments = .ok (.scan options)) {workers : Int}
    (given : options.workers = some workers) : 1 ≤ workers := by
  obtain ⟨read, asked⟩ := exists_scanRequest accepted
  exact workersOption_positive (given ▸ scanRequest_workers asked)

theorem exists_workers_of_no_problems {configuration : Configuration}
    (sound : configuration.problems = []) :
    ∃ workers, configuration.maxWorkers = some workers ∧ 1 ≤ workers := by
  have none : Configuration.workerProblems configuration.maxWorkers = [] := by
    simp only [Configuration.problems, List.append_eq_nil_iff] at sound
    exact sound.1.1
  cases given : configuration.maxWorkers with
  | none => simp [given, Configuration.workerProblems] at none
  | some workers =>
      refine ⟨workers, rfl, ?_⟩
      simp only [given, Configuration.workerProblems] at none
      split at none
      · simp at none
      · omega

/-- Whatever is overridden, a scan has workers if its configuration is sound. -/
theorem exists_settings_workers {arguments : List String} {options : ScanOptions}
    (accepted : Request.ofArguments arguments = .ok (.scan options)) {configuration : Configuration}
    (sound : configuration.problems = []) :
    ∃ workers, (options.settings configuration).maxWorkers = some workers ∧ 1 ≤ workers := by
  cases given : options.workers with
  | some workers =>
      refine ⟨workers, ?_, workers_positive accepted given⟩
      simp [ScanOptions.settings, ScanOptions.overrides, ScanSettings.apply, given]
  | none =>
      obtain ⟨workers, configured, positive⟩ := exists_workers_of_no_problems sound
      refine ⟨workers, ?_, positive⟩
      simp [ScanOptions.settings, ScanOptions.overrides, ScanSettings.apply, given, configured]

end LocalizationAudit

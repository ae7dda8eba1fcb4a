import LocalizationAudit.FileKind
import LocalizationAudit.FileSystem.Reader
import LocalizationAudit.Literal.Extraction
import LocalizationAudit.Log.Event
import LocalizationAudit.Resource.Keys
import LocalizationAudit.ScanResult

/-!
A scan: the files of a listing that count are read and parsed one by one, in any order, and what
each contributes is added up. A file that cannot be used is recorded and does not stop the scan.
-/

namespace LocalizationAudit

structure Extractors where
  keySites : List Char → List KeySite
  grammar : Grammar

structure Task where
  path : Path
  kind : FileKind
  deriving DecidableEq, Repr

structure Contribution where
  task : Task
  keys : KeySet := []
  literals : List String := []
  failure : Option FileFailure := none
  deriving DecidableEq, Repr

def contributionOf (extractors : Extractors) (task : Task) (content : Bytes) :
    Except Failure Contribution :=
  match task.kind with
  | .resource => do
      return { task, keys := ← keysOfBytes extractors.keySites content (some task.path.text) }
  | .source => do
      return { task, literals := ← extractors.grammar.extractBytes content task.path.text }
  | .ignored => .ok { task }

/-- A failure that concerns one file becomes part of its contribution; any other is passed on. -/
def settle (task : Task) : Except Failure Contribution → Except Failure Contribution
  | .ok contribution => .ok contribution
  | .error (.audit error) =>
      match error.failureKind?, error.reason? with
      | some kind, some reason =>
          .ok { task, failure := some ⟨task.path.text, kind, reason⟩ }
      | _, _ => .error (.audit error)
  | .error (.unreadable error) =>
      .ok { task, failure := some ⟨task.path.text, .read, error.message⟩ }
  | .error failure => .error failure

def processFile {Store : Type} (extractors : Extractors) (reader : Reader Store)
    (store : Store) (task : Task) : Except Failure Contribution × Store :=
  let (content, store) := reader.read store task.path
  match content with
  | .ok content => (settle task (contributionOf extractors task content), store)
  | .error error => (settle task (.error (.unreadable error)), store)

def processAll {Store : Type} (extractors : Extractors) (reader : Reader Store)
    (store : Store) : List Task → Except Failure (List Contribution) × Store
  | [] => (.ok [], store)
  | task :: others =>
      let (contribution, store) := processFile extractors reader store task
      match contribution with
      | .error failure => (.error failure, store)
      | .ok contribution =>
          let (contributions, store) := processAll extractors reader store others
          (contributions.map (contribution :: ·), store)

def candidates (settings : ScanSettings) (root : Path) (listing : List Path) : List Task :=
  (listing.eraseDups.map fun path => ⟨path, classify settings (some root) path⟩).filter
    (·.kind != .ignored)

def countKind (kind : FileKind) (tasks : List Task) : Nat :=
  (tasks.filter (·.kind == kind)).length

def ScanResult.ofTasks (tasks : List Task) : ScanResult :=
  { resourceFiles := countKind .resource tasks, sourceFiles := countKind .source tasks }

def ScanResult.addContribution (result : ScanResult) (contribution : Contribution) :
    ScanResult :=
  let result :=
    match contribution.failure with
    | some failure => result.addFailure failure
    | none => result
  (result.addKeys contribution.keys).addLiterals contribution.literals

def ScanResult.sortFailures (result : ScanResult) : ScanResult :=
  { result with
    failures := result.failures.mergeSort fun left right => decide (left.path ≤ right.path) }

def ScanResult.ofContributions (tasks : List Task) (contributions : List Contribution) :
    ScanResult :=
  (contributions.foldl addContribution (ofTasks tasks)).sortFailures

def FileFailure.warning (failure : FileFailure) : String :=
  let verb := if failure.kind == .parse then "parse" else "read"
  "Could not " ++ verb ++ " file: " ++ failure.path ++ " (" ++ failure.message ++ ")"

def openingEvents (tasks : List Task) : List LogEvent :=
  [.count "Found" tasks.length "files to scan.", .startProgress "Scanning files" tasks.length]

def progressEvents (contributions : List Contribution) : List LogEvent :=
  contributions.map (fun _ => .advance 1) ++ [.finishProgress]

def warningEvents (result : ScanResult) : List LogEvent :=
  result.failures.map fun failure => .warning failure.warning

def hasWorkers (settings : ScanSettings) : Bool :=
  match settings.maxWorkers with
  | none => true
  | some workers => 1 ≤ workers

/-- A scan of listed files. The schedule is the order in which the tasks are completed. -/
def scanListing {Store : Type} (settings : ScanSettings) (extractors : Extractors)
    (reader : Reader Store) (store : Store) (schedule : List Task → List Task) (root : Path)
    (listing : List Path) : Transcript Failure ScanResult × Store :=
  let tasks := candidates settings root listing
  let opening := openingEvents tasks
  if !tasks.isEmpty && !hasWorkers settings then
    (⟨opening ++ [.finishProgress], .error .noWorkers⟩, store)
  else
    let (contributions, store) := processAll extractors reader store (schedule tasks)
    match contributions with
    | .error failure => (⟨opening ++ [.finishProgress], .error failure⟩, store)
    | .ok contributions =>
        let result := ScanResult.ofContributions tasks contributions
        (⟨opening ++ progressEvents contributions ++ warningEvents result, .ok result⟩, store)

def scan {Store : Type} (settings : ScanSettings) (extractors : Extractors)
    (reader : Reader Store) (store : Store) (schedule : List Task → List Task) (root : String)
    (listing : Except Failure (List Path)) : Transcript Failure ScanResult × Store :=
  match listing with
  | .error failure => (⟨[], .error failure⟩, store)
  | .ok listing =>
      scanListing settings extractors reader store schedule (Path.ofString root) listing

end LocalizationAudit

import LocalizationAudit.CommandLine.Help
import LocalizationAudit.CommandLine.Request
import LocalizationAudit.Configuration
import LocalizationAudit.Console.Printer
import LocalizationAudit.FileSystem.Disk
import LocalizationAudit.Report

/-!
What the program prints for a command line, and the code with which it exits. Options come before the
configuration, whose problems are printed as markup. A grammar that cannot be loaded ends the audit
before it begins, and what cannot be printed ends it at once.
-/

namespace LocalizationAudit

structure Surroundings where
  environment : Environment
  processors : Option Nat
  workingDirectory : String
  disk : Disk
  clock : Clock
  grammar : Grammar
  console : Console := {}

inductive Crash where
  | printing (error : PrintError)
  | failure (failure : Failure)
  deriving DecidableEq, Repr

structure RunResult where
  output : String
  exitCode : Nat
  crash : Option Crash := none
  deriving DecidableEq, Repr

def RunResult.crashed (output : List Char) (crash : Crash) : RunResult :=
  ⟨String.ofList output, 1, some crash⟩

def RunResult.aborted (output : List Char) : RunResult :=
  ⟨String.ofList output ++ unlines ["Aborted!"], 1, none⟩

def RunResult.after (printed : List Char × Option PrintError)
    (finish : List Char → RunResult) : RunResult :=
  match printed with
  | (output, some error) => .crashed output (.printing error)
  | (output, none) => finish output

def configurationHeading : Message :=
  { markup := tagged .red "Configuration errors:".toList }

def Configuration.Problem.line (problem : Configuration.Problem) : Message :=
  { markup := ("  - " ++ problem.message).toList }

def ScanOptions.overrides (options : ScanOptions) (configuration : Configuration) : Overrides :=
  { excludedComponents := some (configuration.excludedComponents ++ options.excluded)
    lproj := options.lproj
    maxWorkers := options.workers
    showFiles := if options.showFiles then some true else none }

def ScanOptions.settings (options : ScanOptions) (configuration : Configuration) : ScanSettings :=
  configuration.apply (options.overrides configuration)

def Surroundings.configuration (around : Surroundings) : Configuration :=
  .ofEnvironment around.environment around.processors

def ScanOptions.pathIn (options : ScanOptions) (around : Surroundings) : String :=
  options.path.getD around.workingDirectory

def filesToRead (around : Surroundings) (options : ScanOptions) : List Path :=
  let path := options.pathIn around
  match around.configuration.problems, around.disk.enumerate path with
  | [], .ok listing =>
      (candidates (options.settings around.configuration) (Path.ofString path) listing).map
        Task.path
  | _, _ => []

def auditReading {Store : Type} (reader : Reader Store) (store : Store)
    (schedule : List Task → List Task) (around : Surroundings) (settings : ScanSettings)
    (path : String) : Transcript Failure Report × Store :=
  match around.grammar.parse with
  | .error reason =>
      (⟨[], .error (.audit (.grammarNotLoaded around.grammar.language reason))⟩, store)
  | .ok _ =>
      let (scanned, store) := scan settings ⟨standardKeySites, around.grammar⟩ reader store
        schedule path (around.disk.enumerate path)
      (analyze settings.showFiles around.clock scanned, store)

def finishAudit (console : Console) (transcript : Transcript Failure Report) : RunResult :=
  match transcript.outcome with
  | .ok _ =>
      .after (console.writeEvents false transcript.events) fun output =>
        ⟨String.ofList output, 0, none⟩
  | .error (.audit error) =>
      let events := transcript.events ++ [.error ("Error: " ++ error.message)]
      .after (console.writeEvents false events) .aborted
  | .error failure =>
      .after (console.writeEvents false transcript.events) fun output =>
        .crashed output (.failure failure)

/-- The files that the disk lists are read through a reader of their own, in an order of its own. -/
def runScanReading {Store : Type} (reader : Reader Store) (store : Store)
    (schedule : List Task → List Task) (around : Surroundings) (options : ScanOptions) :
    RunResult × Store :=
  match around.configuration.problems with
  | [] =>
      let (transcript, store) := auditReading reader store schedule around
        (options.settings around.configuration) (options.pathIn around)
      (finishAudit around.console transcript, store)
  | problems =>
      let messages := configurationHeading :: problems.map Configuration.Problem.line
      (.after (around.console.printAll messages) .aborted, store)

def runScan (around : Surroundings) (options : ScanOptions) : RunResult :=
  (runScanReading Disk.reader around.disk id around options).1

def runRequest (around : Surroundings) : Request → RunResult
  | .version => ⟨versionLine, 0, none⟩
  | .help command => ⟨command.help, 0, none⟩
  | .scan options => runScan around options

def run (around : Surroundings) (arguments : List String) : RunResult :=
  match Request.ofArguments arguments with
  | .ok request => runRequest around request
  | .error error => ⟨error.report, 2, none⟩

end LocalizationAudit

import LocalizationAudit.CommandLine.Option
import LocalizationAudit.Text.Integer

/-!
What a command line asks for. Help is given before values are looked at, and those before words that
are too many.
-/

namespace LocalizationAudit

structure ScanOptions where
  path : Option String := none
  showFiles : Bool := false
  excluded : List String := []
  lproj : Option String := none
  workers : Option Int := none
  deriving DecidableEq, Repr

inductive Request where
  | version
  | help (command : Command)
  | scan (options : ScanOptions)
  deriving DecidableEq, Repr

namespace Arguments

def values (arguments : Arguments) (option : CommandOption) : List String :=
  (arguments.given.filter (·.option == option)).map GivenOption.value

def has (arguments : Arguments) (option : CommandOption) : Bool :=
  arguments.given.any (·.option == option)

def lastValue? (arguments : Arguments) (option : CommandOption) : Option String :=
  (arguments.values option).getLast?

end Arguments

def readWorkers (value : String) : Except UsageError Int :=
  match integer? value.toList with
  | none => .error (.workersNotAnInteger value)
  | some workers => if workers < 1 then .error (.tooFewWorkers workers) else .ok workers

def workersOption (arguments : Arguments) : Except UsageError (Option Int) :=
  match arguments.lastValue? .workers with
  | none => .ok none
  | some value => do return some (← readWorkers value)

def scanRequest (arguments : Arguments) : Except UsageError Request :=
  if arguments.has .help then .ok (.help .scan)
  else do
    let workers ← workersOption arguments
    if arguments.words.isEmpty then
      return .scan
        { path := arguments.lastValue? .path
          showFiles := arguments.has .showFiles
          excluded := arguments.values .exclude
          lproj := arguments.lastValue? .lproj
          workers }
    else throw (.unexpectedArguments arguments.words)

def groupRequest? (arguments : Arguments) : Option Request :=
  match arguments.given with
  | [] => none
  | given :: _ => some (if given.option == .version then .version else .help .group)

def unknownCommand (name : String) (rest : List String) : Except UsageError Request := do
  match groupRequest? (← readArguments .group (name :: rest)) with
  | some request => return request
  | none => throw (.noSuchCommand name (closeWords name [Command.scanName]))

def Request.ofArguments (arguments : List String) : Except UsageError Request :=
  if arguments.isEmpty then .error .noArguments
  else do
    let read ← readArguments .group arguments
    match groupRequest? read, read.words with
    | some request, _ => return request
    | none, [] => throw .missingCommand
    | none, name :: rest =>
        if name == Command.scanName then scanRequest (← readArguments .scan rest)
        else unknownCommand name rest

end LocalizationAudit

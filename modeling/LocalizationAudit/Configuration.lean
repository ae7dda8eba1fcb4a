import LocalizationAudit.Settings
import LocalizationAudit.Text.Blank
import LocalizationAudit.Text.Integer
import LocalizationAudit.Text.LowerCase

/-! The configuration that the environment gives, and what can be wrong with it. -/

namespace LocalizationAudit

abbrev Environment := List (String × String)

namespace Environment

def resourceExtensionName : String := "UNUSED_L10N_RESOURCE_EXT"

def sourceExtensionName : String := "UNUSED_L10N_SOURCE_EXT"

def excludeName : String := "UNUSED_L10N_EXCLUDE"

def lprojName : String := "UNUSED_L10N_LPROJ"

def workersName : String := "UNUSED_L10N_WORKERS"

def showFilesName : String := "UNUSED_L10N_SHOW_FILES"

def value? (environment : Environment) (name : String) : Option String :=
  environment.lookup name

end Environment

def listItems (text : String) : List String :=
  ((text.toList.splitOn ',').map trim).filter (!·.isEmpty) |>.map String.ofList

def trueWords : List String := ["1", "true", "yes", "on"]

def isTrueWord (text : String) : Bool :=
  trueWords.contains (String.ofList (lower (trim text.toList)))

abbrev Configuration := ScanSettings

namespace Configuration

def workersOf (processors : Option Nat) (text : Option String) : Option Int :=
  match trim (text.getD "").toList with
  | [] => some (defaultWorkers processors)
  | value => integer? value

def lprojOf (text : Option String) : Option String :=
  text.filter (· != "")

def ofEnvironment (environment : Environment) (processors : Option Nat) : Configuration :=
  { resourceExtension :=
      (environment.value? Environment.resourceExtensionName).getD defaultResourceExtension
    sourceExtension :=
      (environment.value? Environment.sourceExtensionName).getD defaultSourceExtension
    excludedComponents :=
      ((environment.value? Environment.excludeName).map listItems).getD
        defaultExcludedComponents
    excludedFiles := defaultExcludedFiles
    lproj := lprojOf (environment.value? Environment.lprojName)
    maxWorkers := workersOf processors (environment.value? Environment.workersName)
    showFiles := ((environment.value? Environment.showFilesName).map isTrueWord).getD false }

inductive Problem where
  | workersNotAnInteger
  | tooFewWorkers
  | notAnExtension (setting value : String)
  deriving DecidableEq, Repr

def Problem.message : Problem → String
  | .workersNotAnInteger => Environment.workersName ++ " must be an integer"
  | .tooFewWorkers => Environment.workersName ++ " must be at least 1"
  | .notAnExtension setting value =>
      setting ++ " must be a file extension like '.strings', got '" ++ value ++ "'"

def isExtension (text : String) : Bool :=
  text.toList.head? == some '.' && 2 ≤ text.length

def workerProblems : Option Int → List Problem
  | none => [.workersNotAnInteger]
  | some workers => if workers < 1 then [.tooFewWorkers] else []

def extensionProblems (setting value : String) : List Problem :=
  if isExtension value then [] else [.notAnExtension setting value]

def problems (configuration : Configuration) : List Problem :=
  workerProblems configuration.maxWorkers ++
    extensionProblems Environment.resourceExtensionName configuration.resourceExtension ++
    extensionProblems Environment.sourceExtensionName configuration.sourceExtension

end Configuration

end LocalizationAudit

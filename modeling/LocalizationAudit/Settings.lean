import LocalizationAudit.Error

/-!
The settings of one scan, and how single ones are overridden. A name that no setting has is refused
only if a value comes with it.
-/

namespace LocalizationAudit

structure ScanSettings where
  resourceExtension : String
  sourceExtension : String
  excludedComponents : List String
  excludedFiles : List String
  lproj : Option String
  maxWorkers : Option Int
  showFiles : Bool
  deriving DecidableEq, Repr

def defaultResourceExtension : String := ".strings"

def defaultSourceExtension : String := ".swift"

def defaultExcludedComponents : List String := ["Pods", "Carthage"]

def defaultExcludedFiles : List String := ["InfoPlist.strings"]

def defaultWorkers (processors : Option Nat) : Int :=
  min 32 (max 1 (processors.getD 1) + 4 : Nat)

def ScanSettings.standard (processors : Option Nat) : ScanSettings :=
  { resourceExtension := defaultResourceExtension
    sourceExtension := defaultSourceExtension
    excludedComponents := defaultExcludedComponents
    excludedFiles := defaultExcludedFiles
    lproj := none
    maxWorkers := some (defaultWorkers processors)
    showFiles := false }

/-- Fields without a value leave the setting alone; `others` are names no setting has. -/
structure Overrides where
  resourceExtension : Option String := none
  sourceExtension : Option String := none
  excludedComponents : Option (List String) := none
  excludedFiles : Option (List String) := none
  lproj : Option String := none
  maxWorkers : Option Int := none
  showFiles : Option Bool := none
  others : List (String × Bool) := []
  deriving DecidableEq, Repr

def ScanSettings.apply (settings : ScanSettings) (overrides : Overrides) : ScanSettings :=
  { resourceExtension := overrides.resourceExtension.getD settings.resourceExtension
    sourceExtension := overrides.sourceExtension.getD settings.sourceExtension
    excludedComponents := overrides.excludedComponents.getD settings.excludedComponents
    excludedFiles := overrides.excludedFiles.getD settings.excludedFiles
    lproj := overrides.lproj <|> settings.lproj
    maxWorkers := overrides.maxWorkers <|> settings.maxWorkers
    showFiles := overrides.showFiles.getD settings.showFiles }

def ScanSettings.override (settings : ScanSettings) (overrides : Overrides) :
    Except Failure ScanSettings :=
  match overrides.others.find? (·.2) with
  | some (name, _) => .error (.unknownSetting name)
  | none => .ok (settings.apply overrides)

end LocalizationAudit

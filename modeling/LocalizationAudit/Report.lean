import LocalizationAudit.Scan
import LocalizationAudit.Text.Tenths

/-! The report on a scan: totals, and every defined key that no literal uses. -/

namespace LocalizationAudit

structure Report where
  result : ScanResult
  unused : List LocalizationKey
  elapsed : Float

def Report.unusedCount (report : Report) : Nat :=
  report.unused.length

structure Clock where
  start : Float
  stop : Float

def keyLine (showFiles : Bool) (result : ScanResult) (key : LocalizationKey) : String :=
  let locations := if showFiles then result.locationsOf key.text else []
  if locations.isEmpty then key.text
  else key.text ++ "  (" ++ ", ".intercalate locations ++ ")"

def searchEvent : LogEvent :=
  .progress "Searching for Localization Keys in .strings files..."

def keyEvents (showFiles : Bool) (result : ScanResult) : List LogEvent :=
  result.unusedKeys.map fun key => .key (keyLine showFiles result key)

def resultEvents (showFiles : Bool) (result : ScanResult) (elapsed : Float) : List LogEvent :=
  [.count "Total" result.definedKeys.length "localization keys found.",
    .count "Total" result.sourceFiles "swift files found.",
    .progress "Searching for unused keys...",
    .progress "Unused Localization Keys:"] ++
  keyEvents showFiles result ++
  [.count "Total" result.unusedKeys.length "unused localization keys found.",
    .progress ("Completed in: " ++ tenths elapsed ++ "s")]

def analyze (showFiles : Bool) (clock : Clock) (scanned : Transcript Failure ScanResult) :
    Transcript Failure Report :=
  match scanned.outcome with
  | .error failure => ⟨searchEvent :: scanned.events, .error failure⟩
  | .ok result =>
      let elapsed := clock.stop - clock.start
      ⟨searchEvent :: scanned.events ++ resultEvents showFiles result elapsed,
        .ok ⟨result, result.unusedKeys, elapsed⟩⟩

end LocalizationAudit

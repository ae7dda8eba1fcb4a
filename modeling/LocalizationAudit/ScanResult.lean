import LocalizationAudit.Error
import LocalizationAudit.Key

/-! What a scan has gathered: defined keys, used literals, and files that were given up. -/

namespace LocalizationAudit

structure FileFailure where
  path : String
  kind : FailureKind
  message : String
  deriving DecidableEq, Repr

/-- Every text of a defined key leads to all keys that were added with it, in order. -/
structure ScanResult where
  definedKeys : KeySet := []
  usedLiterals : List String := []
  occurrences : List (String × List LocalizationKey) := []
  resourceFiles : Nat := 0
  sourceFiles : Nat := 0
  failures : List FileFailure := []
  deriving DecidableEq, Repr

def addOccurrence (occurrences : List (String × List LocalizationKey)) (key : LocalizationKey) :
    List (String × List LocalizationKey) :=
  if occurrences.any (·.1 == key.text) then
    occurrences.map fun (text, keys) =>
      if text == key.text then (text, keys ++ [key]) else (text, keys)
  else occurrences ++ [(key.text, [key])]

namespace ScanResult

def addKeys (result : ScanResult) (keys : List LocalizationKey) : ScanResult :=
  let keys := KeySet.ofList keys
  { result with
    definedKeys := result.definedKeys.union keys
    occurrences := keys.foldl addOccurrence result.occurrences }

def addLiterals (result : ScanResult) (literals : List String) : ScanResult :=
  { result with usedLiterals := (result.usedLiterals ++ literals).eraseDups }

def addFailure (result : ScanResult) (failure : FileFailure) : ScanResult :=
  { result with failures := result.failures ++ [failure] }

def unusedKeys (result : ScanResult) : List LocalizationKey :=
  KeySet.sorted (result.definedKeys.filter fun key => !result.usedLiterals.contains key.text)

def keysAt (result : ScanResult) (text : String) : List LocalizationKey :=
  (result.occurrences.lookup text).getD []

def locationsOf (result : ScanResult) (text : String) : List String :=
  sortedDistinct (((result.keysAt text).map LocalizationKey.location).filter (· != ""))

end ScanResult

end LocalizationAudit

import LocalizationAudit.Text.Order
import LocalizationAudit.Text.Quoted

/-! What can be wrong with a command line, and the wording of each case. -/

namespace LocalizationAudit

inductive Command where
  | group
  | scan
  deriving DecidableEq, Repr

def Command.scanName : String := "scan"

inductive UsageError where
  | noArguments
  | missingCommand
  | noSuchCommand (name : String) (suggestions : List String)
  | noSuchOption (command : Command) (name : String) (suggestions : List String)
  | argumentRequired (option : String)
  | valueRefused (option : String)
  | workersNotAnInteger (value : String)
  | tooFewWorkers (workers : Int)
  | unexpectedArguments (arguments : List String)
  deriving DecidableEq, Repr

def suggestionText (suggestions : List String) : String :=
  match sortTexts suggestions with
  | [] => ""
  | [word] => " Did you mean " ++ quotedString word ++ "?"
  | words => " (Did you mean one of: " ++ ", ".intercalate (words.map quotedString) ++ "?)"

def invalidWorkers : String := "Invalid value for '--workers' / '-w': "

namespace UsageError

def message : UsageError → String
  | noArguments => ""
  | missingCommand => "Missing command."
  | noSuchCommand name suggestions =>
      "No such command " ++ quotedString name ++ "." ++ suggestionText suggestions
  | noSuchOption _ name suggestions =>
      "No such option " ++ quotedString name ++ "." ++ suggestionText suggestions
  | argumentRequired option => "Option " ++ quotedString option ++ " requires an argument."
  | valueRefused option => "Option " ++ quotedString option ++ " does not take a value."
  | workersNotAnInteger value =>
      invalidWorkers ++ quotedString value ++ " is not a valid integer range."
  | tooFewWorkers workers =>
      invalidWorkers ++ toString workers ++ " is not in the range x>=1."
  | unexpectedArguments arguments =>
      "Got unexpected extra argument" ++ (if arguments.length == 1 then "" else "s") ++
        " (" ++ " ".intercalate arguments ++ ")"

def command? : UsageError → Option Command
  | noArguments => none
  | missingCommand => some .group
  | noSuchCommand _ _ => some .group
  | noSuchOption command _ _ => some command
  | argumentRequired _ => none
  | valueRefused _ => none
  | workersNotAnInteger _ => some .scan
  | tooFewWorkers _ => some .scan
  | unexpectedArguments _ => some .scan

end UsageError

end LocalizationAudit

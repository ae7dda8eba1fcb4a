/-! What can be wrong with a pattern that is written as text. -/

namespace LocalizationAudit

inductive PatternError where
  | malformed (explanation : String) (position : Option Nat)
  | repetitionTooLarge
  deriving DecidableEq, Repr

def lineAndColumn (text : List Char) (position : Nat) : Nat × Nat :=
  let before := text.take position
  (before.count '\n' + 1, (before.reverse.takeWhile (· != '\n')).length + 1)

def positionText (text : List Char) (position : Nat) : String :=
  let (line, column) := lineAndColumn text position
  " at position " ++ toString position ++
    (if text.contains '\n' then
      " (line " ++ toString line ++ ", column " ++ toString column ++ ")"
    else "")

def PatternError.message (text : List Char) : PatternError → String
  | malformed explanation (some position) => explanation ++ positionText text position
  | malformed explanation none => explanation
  | repetitionTooLarge => "the repetition number is too large"

end LocalizationAudit

/-! What an audit says while it runs, in the order in which it is said. -/

namespace LocalizationAudit

inductive LogEvent where
  | progress (text : String)
  | count (before : String) (number : Int) (after : String)
  | error (text : String)
  | warning (text : String)
  | key (text : String)
  | startProgress (description : String) (total : Int)
  | advance (amount : Int)
  | finishProgress
  deriving DecidableEq, Repr

structure Transcript (ε α : Type) where
  events : List LogEvent
  outcome : Except ε α

end LocalizationAudit

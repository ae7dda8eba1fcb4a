import LocalizationAudit.Log.Event

/-! A log that keeps its messages and the state of its progress. -/

namespace LocalizationAudit

inductive RecordKind where
  | progress
  | error
  | warning
  | key
  deriving DecidableEq, Repr

def RecordKind.all : List RecordKind := [.progress, .error, .warning, .key]

def RecordKind.name : RecordKind → String
  | .progress => "progress"
  | .error => "error"
  | .warning => "warning"
  | .key => "key"

def RecordKind.ofName? (name : String) : Option RecordKind :=
  RecordKind.all.find? (·.name == name)

structure Recorder where
  records : List (RecordKind × String) := []
  progressTotal : Int := 0
  progressDone : Int := 0
  deriving DecidableEq, Repr

def countText (before : String) (number : Int) (after : String) : String :=
  before ++ " " ++ toString number ++ " " ++ after

namespace Recorder

def add (recorder : Recorder) (kind : RecordKind) (text : String) : Recorder :=
  { recorder with records := recorder.records ++ [(kind, text)] }

def log (recorder : Recorder) : LogEvent → Recorder
  | .progress text => recorder.add .progress text
  | .count before number after => recorder.add .progress (countText before number after)
  | .error text => recorder.add .error text
  | .warning text => recorder.add .warning text
  | .key text => recorder.add .key text
  | .startProgress _ total => { recorder with progressTotal := total, progressDone := 0 }
  | .advance amount => { recorder with progressDone := recorder.progressDone + amount }
  | .finishProgress => recorder

def ofEvents (events : List LogEvent) : Recorder :=
  events.foldl log {}

def messages (recorder : Recorder) (kind : RecordKind) : List String :=
  (recorder.records.filter (·.1 == kind)).map (·.2)

end Recorder

end LocalizationAudit

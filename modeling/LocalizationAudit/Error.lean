import LocalizationAudit.Encoding.Decode
import LocalizationAudit.Text.Quoted

/-! What can go wrong, by cause, and the wording of each case. -/

namespace LocalizationAudit

inductive FailureKind where
  | scan
  | read
  | decode
  | parse
  deriving DecidableEq, Repr

def FailureKind.name : FailureKind → String
  | .scan => "scan"
  | .read => "read"
  | .decode => "decode"
  | .parse => "parse"

inductive AuditError where
  | unspecified (explanation : String)
  | patternUnusable (explanation : String)
  | grammarUnavailable (explanation : String)
  | rootNotFound (path : String)
  | fileUnusable (path reason : String)
  | fileUndecodable (path reason : String)
  | fileUnparsable (path reason : String)
  deriving DecidableEq, Repr

namespace AuditError

def message : AuditError → String
  | unspecified explanation => explanation
  | patternUnusable explanation => explanation
  | grammarUnavailable explanation => explanation
  | rootNotFound path => "Directory not found: " ++ path
  | fileUnusable path reason => path ++ ": " ++ reason
  | fileUndecodable path reason => path ++ ": " ++ reason
  | fileUnparsable path reason => path ++ ": " ++ reason

def path? : AuditError → Option String
  | rootNotFound path => some path
  | fileUnusable path _ => some path
  | fileUndecodable path _ => some path
  | fileUnparsable path _ => some path
  | _ => none

def reason? : AuditError → Option String
  | fileUnusable _ reason => some reason
  | fileUndecodable _ reason => some reason
  | fileUnparsable _ reason => some reason
  | _ => none

def failureKind? : AuditError → Option FailureKind
  | fileUnusable _ _ => some .scan
  | fileUndecodable _ _ => some .decode
  | fileUnparsable _ _ => some .parse
  | _ => none

def grammarNotLoaded (language reason : String) : AuditError :=
  grammarUnavailable ("Could not load the " ++ language ++ " grammar: " ++ reason)

def undecodableResource (path reason : String) : AuditError :=
  fileUndecodable path ("Could not decode file: " ++ reason)

def undecodableSource (path reason : String) : AuditError :=
  fileUndecodable path ("Could not read file: " ++ reason)

def unparsableSource (path : String) (line : Nat) : AuditError :=
  fileUnparsable path ("Syntax error near line " ++ toString line)

end AuditError

inductive ErrorFamily where
  | audit
  | patternUnusable
  | grammarUnavailable
  | rootNotFound
  | fileScan
  | fileUndecodable
  | fileUnparsable
  | fileNotFound
  | invalidValue
  | operatingSystem
  deriving DecidableEq, Repr

def AuditError.families : AuditError → List ErrorFamily
  | .unspecified _ => [.audit]
  | .patternUnusable _ => [.audit, .patternUnusable]
  | .grammarUnavailable _ => [.audit, .grammarUnavailable]
  | .rootNotFound _ => [.audit, .rootNotFound, .fileNotFound, .operatingSystem]
  | .fileUnusable _ _ => [.audit, .fileScan]
  | .fileUndecodable _ _ => [.audit, .fileScan, .fileUndecodable, .invalidValue]
  | .fileUnparsable _ _ => [.audit, .fileScan, .fileUnparsable]

inductive ReadError where
  | notStored (path : String)
  | noSuchFile (path : String)
  | notPermitted (path : String)
  | notADirectory (path : String)
  | isADirectory (path : String)
  | nameTooLong (path : String)
  | tooManyLinks (path : String)
  deriving DecidableEq, Repr

def ReadError.message : ReadError → String
  | notStored path => "File not found: " ++ path
  | noSuchFile path => "[Errno 2] No such file or directory: " ++ quotedString path
  | notPermitted path => "[Errno 13] Permission denied: " ++ quotedString path
  | notADirectory path => "[Errno 20] Not a directory: " ++ quotedString path
  | isADirectory path => "[Errno 21] Is a directory: " ++ quotedString path
  | nameTooLong path => "[Errno 36] File name too long: " ++ quotedString path
  | tooManyLinks path => "[Errno 40] Too many levels of symbolic links: " ++ quotedString path

inductive Failure where
  | audit (error : AuditError)
  | undecodable (error : DecodeError)
  | unreadable (error : ReadError)
  | outsideRoot (path root : String)
  | noWorkers
  | unknownSetting (name : String)
  | repetitionTooLarge
  deriving DecidableEq, Repr

def Failure.message : Failure → String
  | audit error => error.message
  | undecodable error => error.message
  | unreadable error => error.message
  | outsideRoot path root =>
      quotedString path ++ " is not in the subpath of " ++ quotedString root ++
        " OR one path is relative and the other is absolute."
  | noWorkers => "max_workers must be greater than 0"
  | unknownSetting name =>
      "ScanSettings.__init__() got an unexpected keyword argument " ++ quotedString name
  | repetitionTooLarge => "the repetition number is too large"

end LocalizationAudit

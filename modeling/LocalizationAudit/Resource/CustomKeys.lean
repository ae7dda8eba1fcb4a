import LocalizationAudit.Pattern.Matching
import LocalizationAudit.Pattern.Reading
import LocalizationAudit.Resource.Keys

/-! Keys that are found by a pattern of one's own, whose first group is the key. -/

namespace LocalizationAudit

def patternKeySites (pattern : Pattern) (text : List Char) : List KeySite :=
  (pattern.allMatches text).filterMap fun found =>
    (found.stop.captured? 1).map fun key => ⟨key, found.start.before.count '\n'⟩

def patternFailure (text : String) : PatternError → Failure
  | .repetitionTooLarge => .repetitionTooLarge
  | .malformed explanation position =>
      .audit (.patternUnusable ("Regex pattern error: " ++
        (PatternError.malformed explanation position).message text.toList))

def keySitesOfPattern (text : String) : Except Failure (List Char → List KeySite) :=
  match Pattern.read text.toList with
  | .error error => .error (patternFailure text error)
  | .ok (_, 0) => .error (.audit (.patternUnusable "Regex pattern must capture the key in group 1"))
  | .ok (pattern, _ + 1) => .ok (patternKeySites pattern)

end LocalizationAudit

import LocalizationAudit.Literal.Extraction
import LocalizationAudit.Swift.Tree

/-! The grammars that can be asked for by name. -/

namespace LocalizationAudit.Swift

def language : String := "swift"

def grammarFor (name : String) : Grammar :=
  if name == language then ⟨name, .ok tree⟩
  else ⟨name, .error ("Could not find language library for " ++ name)⟩

end LocalizationAudit.Swift

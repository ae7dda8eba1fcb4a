/-! The program's own name and version. -/

namespace LocalizationAudit

def programName : String := "cli"

def programVersion : String := "0.1.0"

end LocalizationAudit

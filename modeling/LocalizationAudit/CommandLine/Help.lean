import LocalizationAudit.CommandLine.Error
import LocalizationAudit.Program

/-! The help texts of the command line. -/

namespace LocalizationAudit

def unlines (lines : List String) : String :=
  String.join (lines.map (· ++ "\n"))

def Command.path : Command → String
  | .group => programName
  | .scan => programName ++ " " ++ Command.scanName

def Command.usage : Command → String
  | .group => "Usage: " ++ Command.group.path ++ " [OPTIONS] COMMAND [ARGS]..."
  | .scan => "Usage: " ++ Command.scan.path ++ " [OPTIONS]"

def groupHelp : String :=
  unlines [
    Command.group.usage,
    "",
    "  Scans all files in the project to detect unused localization keys.",
    "",
    "Options:",
    "  --version  Show the version and exit.",
    "  --help     Show this message and exit.",
    "",
    "Commands:",
    "  scan  Scan a project for localization keys never used in Swift code."]

def scanHelp : String :=
  unlines [
    Command.scan.usage,
    "",
    "  Scan a project for localization keys never used in Swift code.",
    "",
    "Options:",
    "  -p, --path TEXT              Project directory path  [default: (current",
    "                               directory)]",
    "  --show-files                 Show the files and lines each unused key is",
    "                               defined at",
    "  -e, --exclude TEXT           Additional path component whose .strings files",
    "                               are skipped (repeatable, e.g. 'Vendor')",
    "  --lproj TEXT                 Only read .strings files from <LPROJ>.lproj",
    "                               directories (e.g. 'en')",
    "  -w, --workers INTEGER RANGE  Number of files parsed concurrently  [x>=1]",
    "  --help                       Show this message and exit."]

def Command.help : Command → String
  | .group => groupHelp
  | .scan => scanHelp

def versionLine : String :=
  unlines [programName ++ ", version " ++ programVersion]

def Command.reminder (command : Command) : String :=
  unlines [command.usage, "Try '" ++ command.path ++ " --help' for help.", ""]

def UsageError.report (error : UsageError) : String :=
  match error with
  | .noArguments => groupHelp
  | _ => ((error.command?.map Command.reminder).getD "") ++ unlines ["Error: " ++ error.message]

end LocalizationAudit

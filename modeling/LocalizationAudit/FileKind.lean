import LocalizationAudit.Path
import LocalizationAudit.Settings
import LocalizationAudit.Text.LowerCase

/-! Which files take part in a scan, and as what. -/

namespace LocalizationAudit

inductive FileKind where
  | resource
  | source
  | ignored
  deriving DecidableEq, Repr

def FileKind.all : List FileKind := [.resource, .source, .ignored]

def FileKind.name : FileKind → String
  | .resource => "resource"
  | .source => "source"
  | .ignored => "ignored"

def FileKind.ofName? (name : String) : Option FileKind :=
  FileKind.all.find? (·.name == name)

def hasExtension (path : Path) (extension : String) : Bool :=
  lower path.suffix == lower extension.toList

def relativePath (root : Option Path) (path : Path) : Path :=
  match root with
  | some root => (root.below? path).getD path
  | none => path

def matchesLproj (lproj : Option String) (path : Path) : Bool :=
  match lproj with
  | none => true
  | some language => language == "" || path.parent.name == language ++ ".lproj"

def isKeptResource (settings : ScanSettings) (root : Option Path) (path : Path) : Bool :=
  !(relativePath root path).parts.any settings.excludedComponents.contains &&
    !settings.excludedFiles.contains path.name && matchesLproj settings.lproj path

/--
Filters concern resource files only: code anywhere may use the project's keys, but keys defined
by dependencies are not the project's.
-/
def classify (settings : ScanSettings) (root : Option Path) (path : Path) : FileKind :=
  if hasExtension path settings.resourceExtension then
    if isKeptResource settings root path then .resource else .ignored
  else if hasExtension path settings.sourceExtension then .source
  else .ignored

end LocalizationAudit

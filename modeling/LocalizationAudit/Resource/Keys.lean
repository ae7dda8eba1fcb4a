import LocalizationAudit.Error
import LocalizationAudit.Key
import LocalizationAudit.Resource.Entry

/-! The keys of a resource file: one for each text between the quotes, with its first line. -/

namespace LocalizationAudit

structure KeySite where
  text : List Char
  linesBefore : Nat
  deriving DecidableEq, Repr

def PlacedEntry.keySite (placed : PlacedEntry) : KeySite :=
  ⟨placed.entry.key, placed.linesBefore⟩

def KeySite.key (file : Option String) (site : KeySite) : LocalizationKey :=
  ⟨String.ofList site.text, file, some (site.linesBefore + 1)⟩

def keysOfSites (file : Option String) (sites : List KeySite) : KeySet :=
  KeySet.ofList (sites.map (KeySite.key file))

def standardKeySites (text : List Char) : List KeySite :=
  (entries text).map PlacedEntry.keySite

def reportedName (file : Option String) : String :=
  match file with
  | none => "<memory>"
  | some name => if name == "" then "<memory>" else name

def keysOfBytes (keySites : List Char → List KeySite) (bytes : Bytes) (file : Option String) :
    Except Failure KeySet :=
  match decodeText bytes resourceEncodings with
  | .ok (text, _) => .ok (keysOfSites file (keySites text))
  | .error error => .error (.audit (.undecodableResource (reportedName file) error.reason))

end LocalizationAudit

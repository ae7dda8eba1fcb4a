import LocalizationAudit.FileSystem.Reader

/-!
A tree of directories, regular files and symbolic links, and how it is listed and read. A listing
enters no link to a directory, and ends at the first name that it cannot tell to be a file or none.
-/

namespace LocalizationAudit

structure Access where
  listable : Bool := true
  searchable : Bool := true
  deriving DecidableEq, Repr

/-- A sealed file is listed but cannot be read. -/
inductive DiskNode where
  | file (name : String) (content : Bytes)
  | sealed (name : String)
  | directory (name : String) (entries : List DiskNode) (access : Access := {})
  | link (name : String) (target : String)

namespace DiskNode

instance : Inhabited DiskNode := ⟨directory "" []⟩

def name : DiskNode → String
  | file name _ => name
  | sealed name => name
  | directory name _ _ => name
  | link name _ => name

def entries : DiskNode → List DiskNode
  | directory _ entries _ => entries
  | _ => []

def access : DiskNode → Access
  | directory _ _ access => access
  | _ => {}

def isDirectory : DiskNode → Bool
  | directory _ _ _ => true
  | _ => false

def isFile : DiskNode → Bool
  | file _ _ => true
  | sealed _ => true
  | _ => false

def find? (node : DiskNode) (name : String) : Option DiskNode :=
  node.entries.find? (·.name == name)

def at? (node : DiskNode) : List String → Option DiskNode
  | [] => some node
  | name :: names =>
      match node.find? name with
      | some child => child.at? names
      | none => none

end DiskNode

structure Disk where
  top : DiskNode
  workingDirectory : List String

inductive LookupFault where
  | missing
  | notADirectory
  | tooManyLinks
  | nameTooLong
  | notSearchable
  deriving DecidableEq, Repr

namespace LookupFault

def readError (path : String) : LookupFault → ReadError
  | missing => .noSuchFile path
  | notADirectory => .notADirectory path
  | tooManyLinks => .tooManyLinks path
  | nameTooLong => .nameTooLong path
  | notSearchable => .notPermitted path

def isAbsence : LookupFault → Bool
  | missing => true
  | notADirectory => true
  | tooManyLinks => true
  | nameTooLong => false
  | notSearchable => false

end LookupFault

def maxNameBytes : Nat := 255

namespace Disk

def maxLinks : Nat := 40

def startOf (anchor : Anchor) (location : List String) : List String :=
  if anchor == .relative then location else []

def linkedNames (target : String) : List String :=
  (target.toList.splitOn '/').map String.ofList

inductive Step where
  | stand (location : List String)
  | follow (target : String)
  deriving DecidableEq, Repr

/-- Nothing between two slashes, or behind the last one, asks for a directory and stays in it. -/
def step (disk : Disk) (reached : List String) (name : String) : Except LookupFault Step :=
  match disk.top.at? reached with
  | some (.directory _ entries access) =>
      if name == "" then .ok (.stand reached)
      else if !access.searchable then .error .notSearchable
      else if name == "." then .ok (.stand reached)
      else if name == ".." then .ok (.stand reached.dropLast)
      else
        match entries.find? (·.name == name) with
        | none => .error (if name.utf8ByteSize ≤ maxNameBytes then .missing else .nameTooLong)
        | some (.link _ target) => .ok (.follow target)
        | some _ => .ok (.stand (reached ++ [name]))
  | some _ => .error .notADirectory
  | none => .error .missing

def resolve (disk : Disk) (linksLeft : Nat) (reached : List String) (names : List String) :
    Except LookupFault (List String) :=
  match names with
  | [] => .ok reached
  | name :: rest =>
      match disk.step reached name with
      | .error fault => .error fault
      | .ok (.stand location) => resolve disk linksLeft location rest
      | .ok (.follow target) =>
          match linksLeft with
          | 0 => .error .tooManyLinks
          | linksLeft + 1 =>
              resolve disk linksLeft (startOf (Path.anchorOf target.toList) reached)
                (linkedNames target ++ rest)
termination_by (linksLeft, names.length)

def resolvePath (disk : Disk) (path : Path) : Except LookupFault (List String) :=
  disk.resolve maxLinks (startOf path.anchor disk.workingDirectory) path.components

def lookup (disk : Disk) (path : Path) : Except LookupFault DiskNode := do
  let location ← disk.resolvePath path
  match disk.top.at? location with
  | some node => return node
  | none => throw .missing

/-- Only absence makes a name no file; every other fault is passed on. -/
def isRegularFile (disk : Disk) (location : List String) (access : Access) :
    DiskNode → Except LookupFault Bool
  | .directory _ _ _ => .ok false
  | entry =>
      if !access.searchable then .error .notSearchable
      else
        match entry with
        | .link name _ =>
            match disk.resolve maxLinks location [name] with
            | .ok found => .ok ((disk.top.at? found).any DiskNode.isFile)
            | .error fault => if fault.isAbsence then .ok false else .error fault
        | _ => .ok true

def listFile (disk : Disk) (path : Path) (location : List String) (access : Access)
    (entry : DiskNode) : List (Except ReadError Path) :=
  let own := path.child entry.name
  match disk.isRegularFile location access entry with
  | .ok true => [.ok own]
  | .ok false => []
  | .error fault => [.error (fault.readError own.text)]

def listFiles (disk : Disk) (path : Path) (location : List String) (access : Access)
    (entries : List DiskNode) : List (String × List (Except ReadError Path)) :=
  (entries.filter fun entry => !entry.isDirectory && !isHidden entry.name).map fun entry =>
    (entry.name, disk.listFile path location access entry)

def inOrder {α : Type} (named : List (String × List α)) : List α :=
  (named.mergeSort fun left right => decide (left.1 ≤ right.1)).flatMap (·.2)

mutual

def listBelow (disk : Disk) (path : Path) (location : List String) :
    DiskNode → List (Except ReadError Path)
  | .file _ _ => []
  | .sealed _ => []
  | .link _ _ => []
  | .directory _ entries access =>
      if access.listable then
        inOrder (disk.listFiles path location access entries) ++
          if access.searchable then inOrder (listEntries disk path location entries) else []
      else []

def listEntries (disk : Disk) (path : Path) (location : List String) :
    List DiskNode → List (String × List (Except ReadError Path))
  | [] => []
  | entry :: others =>
      let listed := listEntries disk path location others
      if entry.isDirectory && !isHidden entry.name then
        (entry.name, listBelow disk (path.child entry.name) (location ++ [entry.name]) entry) ::
          listed
      else listed

end

def enumerate (disk : Disk) (root : String) : Except Failure (List Path) :=
  let path := Path.ofString root
  match disk.resolvePath path with
  | .error fault =>
      if fault.isAbsence then .error (.audit (.rootNotFound root))
      else .error (.unreadable (fault.readError path.text))
  | .ok location =>
      match disk.top.at? location with
      | some (.directory name entries access) =>
          ((disk.listBelow path location (.directory name entries access)).mapM id).mapError
            .unreadable
      | _ => .error (.audit (.rootNotFound root))

def read (disk : Disk) (path : Path) : Except ReadError Bytes :=
  match disk.lookup path with
  | .ok (.file _ content) => .ok content
  | .ok (.sealed _) => .error (.notPermitted path.text)
  | .ok _ => .error (.isADirectory path.text)
  | .error fault => .error (fault.readError path.text)

def reader : Reader Disk :=
  ⟨fun disk path => (disk.read path, disk)⟩

def insert (node : DiskNode) : List String → List DiskNode → List DiskNode
  | [], entries => entries.filter (·.name != node.name) ++ [node]
  | name :: names, entries =>
      let found := (entries.find? (·.name == name)).getD (.directory name [])
      entries.filter (·.name != name) ++
        [.directory name (insert node names found.entries) found.access]

def insertAt (disk : Disk) (path : String) (make : String → DiskNode) : Disk :=
  let path := Path.ofString path
  let names := startOf path.anchor disk.workingDirectory ++ path.components
  match names.getLast? with
  | none => disk
  | some name =>
      let entries := insert (make name) names.dropLast disk.top.entries
      { disk with top := .directory "" entries disk.top.access }

def write (disk : Disk) (path : String) (content : Bytes) : Disk :=
  disk.insertAt path fun name => .file name content

def makeLink (disk : Disk) (path target : String) : Disk :=
  disk.insertAt path fun name => .link name target

def makeDirectory (disk : Disk) (path : String) : Disk :=
  match disk.lookup (Path.ofString path) with
  | .ok (.directory _ _ _) => disk
  | _ => disk.insertAt path fun name => .directory name []

def empty (workingDirectory : String) : Disk :=
  let names := (Path.ofString workingDirectory).components
  let bare : Disk := ⟨.directory "" [], names⟩
  bare.makeDirectory workingDirectory

end Disk

end LocalizationAudit

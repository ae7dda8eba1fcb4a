import LocalizationAudit.CommandLine.Run
import LocalizationAudit.Swift.Language

/-!
The program: gathers what a run needs of the world, and prints what comes of it. Of a directory
tree first only the names are taken, then the content of the files that will be read.
-/

namespace LocalizationAudit.Main

def settingNames : List String :=
  [Environment.resourceExtensionName, Environment.sourceExtensionName, Environment.excludeName,
    Environment.lprojName, Environment.workersName, Environment.showFilesName]

def environment : IO Environment := do
  let values ← settingNames.mapM fun name => return (name, ← IO.getEnv name)
  return values.filterMap fun (name, value) => value.map (name, ·)

def processors : IO (Option Nat) := do
  try
    let lines := (← IO.FS.lines "/proc/cpuinfo").toList
    return some (lines.filter fun line => line.startsWith "processor").length
  catch _ => return none

def tooManyLinksCode : UInt32 := -40

def isAbsence : IO.Error → Bool
  | .noFileOrDirectory _ _ _ => true
  | .inappropriateType _ _ _ => true
  | .invalidArgument _ code _ => code == tooManyLinksCode
  | _ => false

def hasType (type : IO.FS.FileType) (metadata : IO IO.FS.Metadata) : IO Bool := do
  try
    return (← metadata).type == type
  catch error => if isAbsence error then return false else throw error

mutual

partial def entriesBelow (names : List String) : IO (List DiskNode × Access) := do
  let directory := names.foldl (· / ·) (← IO.currentDir)
  match ← directory.readDir.toBaseIO with
  | .ok found => return (← found.toList.filterMapM (nodeOf? names), {})
  | .error _ => return ([], { listable := false })

partial def nodeOf? (names : List String) (entry : IO.FS.DirEntry) : IO (Option DiskNode) := do
  if isHidden entry.fileName then
    return none
  else if ← hasType .dir entry.path.symlinkMetadata then
    let (entries, access) ← entriesBelow (names ++ [entry.fileName])
    return some (.directory entry.fileName entries access)
  else if ← hasType .file entry.path.metadata then
    return some (.sealed entry.fileName)
  else
    return none

end

def locationOf (workingDirectory : List String) (path : Path) : List String :=
  path.components.foldl
    (fun reached name => if name == ".." then reached.dropLast else reached ++ [name])
    (Disk.startOf path.anchor workingDirectory)

def absoluteText (names : List String) : String :=
  "/" ++ "/".intercalate names

def mount (disk : Disk) (path : String) : IO Disk := do
  let names := locationOf disk.workingDirectory (Path.ofString path)
  let target := (← IO.currentDir) / absoluteText names
  if ← hasType .dir target.metadata then
    let (entries, access) ← entriesBelow [absoluteText names]
    if names.isEmpty then return { disk with top := .directory "" entries access }
    return disk.insertAt (absoluteText names) fun name => .directory name entries access
  else return disk

def load (disk : Disk) (path : Path) : IO Disk := do
  try
    let names := locationOf disk.workingDirectory path
    let content ← IO.FS.readBinFile ((← IO.currentDir) / absoluteText names)
    return disk.write (absoluteText names) content.toList
  catch _ => return disk

def secondsNow : IO Float := do
  return (← IO.monoMsNow).toFloat / 1000

def surroundings : IO Surroundings := do
  let workingDirectory := (← IO.currentDir).toString
  let start ← secondsNow
  return {
    environment := ← environment
    processors := ← processors
    workingDirectory
    disk := Disk.empty workingDirectory
    clock := ⟨start, start⟩
    grammar := Swift.grammarFor Swift.language }

def gather (around : Surroundings) (options : ScanOptions) : IO Surroundings := do
  unless around.configuration.problems.isEmpty do return around
  let named := { around with disk := ← mount around.disk (options.pathIn around) }
  let disk ← (filesToRead named options).foldlM load named.disk
  return { named with disk, clock := ⟨around.clock.start, ← secondsNow⟩ }

def surroundingsFor (request : Except UsageError Request) : IO Surroundings := do
  let around ← surroundings
  match request with
  | .ok (.scan options) => gather around options
  | _ => return around

end LocalizationAudit.Main

def main (arguments : List String) : IO UInt32 := do
  let around ← LocalizationAudit.Main.surroundingsFor
    (LocalizationAudit.Request.ofArguments arguments)
  let result := LocalizationAudit.run around arguments
  IO.print result.output
  return result.exitCode.toUInt32

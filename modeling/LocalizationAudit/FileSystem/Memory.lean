import LocalizationAudit.FileSystem.Reader

/-!
A file system in memory, below a root of its own. It remembers which paths were read, in normal form.
Only the root itself can be listed.
-/

namespace LocalizationAudit

structure MemoryFiles where
  root : Path
  files : List (Path × Bytes)
  reads : List Path
  deriving Repr

namespace MemoryFiles

def put (files : List (Path × Bytes)) (path : Path) (content : Bytes) : List (Path × Bytes) :=
  if files.any (·.1 == path) then
    files.map fun file => if file.1 == path then (path, content) else file
  else files ++ [(path, content)]

def ofFiles (root : String) (files : List (String × Bytes)) : MemoryFiles :=
  let root := Path.ofString root
  { root := root
    files := files.foldl (fun stored (name, content) =>
      put stored (root.join (Path.ofString name)) content) []
    reads := [] }

def withhold (store : MemoryFiles) (names : List String) : MemoryFiles :=
  let paths := names.map fun name => store.root.join (Path.ofString name)
  { store with files := store.files.filter fun file => !paths.contains file.1 }

def isVisible (root path : Path) : Except Failure Bool :=
  match root.below? path with
  | some relative => .ok (!relative.components.any isHidden)
  | none => .error (.outsideRoot path.text root.spelled)

def visiblePaths (root : Path) : List Path → Except Failure (List Path)
  | [] => .ok []
  | path :: others => do
      let visible ← isVisible root path
      let found ← visiblePaths root others
      return if visible then path :: found else found

def enumerate (store : MemoryFiles) (root : String) : Except Failure (List Path) :=
  if Path.ofString root == store.root then
    (visiblePaths store.root (store.files.map (·.1))).map Path.sort
  else .error (.audit (.rootNotFound root))

def read (store : MemoryFiles) (path : String) : Except ReadError Bytes × MemoryFiles :=
  let wanted := Path.ofString path
  let result :=
    match store.files.find? (·.1 == wanted) with
    | some (_, content) => .ok content
    | none => .error (.notStored path)
  (result, { store with reads := store.reads ++ [wanted] })

def reader : Reader MemoryFiles :=
  ⟨fun store path => store.read path.text⟩

end MemoryFiles

end LocalizationAudit

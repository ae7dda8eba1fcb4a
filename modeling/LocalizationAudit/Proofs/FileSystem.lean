import LocalizationAudit.FileSystem.Disk
import LocalizationAudit.FileSystem.Memory
import LocalizationAudit.Proofs.Path

/-!
File systems whose answers do not depend on what was read before. Files in memory and files on
disk are such file systems, although the first keep a record of what was asked of them.
-/

namespace LocalizationAudit

structure FileSystem (Store : Type) extends Reader Store where
  steady : ∀ store path other, (read (read store path).2 other).1 = (read store other).1

def FileSystem.content {Store : Type} (files : FileSystem Store) (store : Store) (path : Path) :
    Except ReadError Bytes :=
  (files.read store path).1

theorem FileSystem.content_read {Store : Type} (files : FileSystem Store) (store : Store)
    (path : Path) : files.content (files.read store path).2 = files.content store := by
  funext other
  exact files.steady store path other

def MemoryFiles.fileSystem : FileSystem MemoryFiles :=
  { toReader := MemoryFiles.reader
    steady := fun _ _ _ => rfl }

def Disk.fileSystem : FileSystem Disk :=
  { toReader := Disk.reader
    steady := fun _ _ _ => rfl }

/-- Writing a path out and reading it again on the way leads to the same stored file. -/
theorem MemoryFiles.content_eq (store : MemoryFiles) (path : Path) :
    MemoryFiles.fileSystem.content store path =
      match store.files.find? (·.1 == path) with
      | some (_, content) => .ok content
      | none => .error (.notStored path.text) := by
  have found : MemoryFiles.fileSystem.content store path =
      match store.files.find? (·.1 == Path.ofString path.text) with
      | some (_, content) => .ok content
      | none => .error (.notStored path.text) := rfl
  rw [found, Path.ofString_text]

end LocalizationAudit

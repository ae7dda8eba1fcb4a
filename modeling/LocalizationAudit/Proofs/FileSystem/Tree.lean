import LocalizationAudit.FileSystem.Disk
import LocalizationAudit.Proofs.Path
import Mathlib.Data.List.Nodup

/-!
Plain trees of directories and regular files: no links, and under every directory distinct names
that a path can hold. The files of such a tree are told apart by the names that lead to them, and
those names lead to nothing else.
-/

namespace LocalizationAudit

def IsEntryName (name : String) : Prop :=
  isComponent name.toList = true ∧ name ≠ ".."

instance (name : String) : Decidable (IsEntryName name) :=
  inferInstanceAs (Decidable (_ ∧ _))

namespace DiskNode

inductive IsPlain : DiskNode → Prop
  | file (name : String) (content : Bytes) : IsPlain (.file name content)
  | directory (name : String) {entries : List DiskNode}
      (distinct : (entries.map DiskNode.name).Nodup)
      (named : ∀ entry ∈ entries, IsEntryName entry.name)
      (inside : ∀ entry ∈ entries, IsPlain entry) : IsPlain (.directory name entries)

mutual

def filesBelow : DiskNode → List (List String × Bytes)
  | .file _ content => [([], content)]
  | .directory _ entries _ => filesAmong entries
  | .sealed _ => []
  | .link _ _ => []

def filesAmong : List DiskNode → List (List String × Bytes)
  | [] => []
  | entry :: others =>
      entry.filesBelow.map (fun file => (entry.name :: file.1, file.2)) ++ filesAmong others

end

def filesUnder (entry : DiskNode) : List (List String × Bytes) :=
  entry.filesBelow.map fun file => (entry.name :: file.1, file.2)

def spelledFiles (node : DiskNode) : List (String × Bytes) :=
  node.filesBelow.map fun file => ("/".intercalate file.1, file.2)

theorem filesAmong_eq (entries : List DiskNode) :
    filesAmong entries = entries.flatMap filesUnder := by
  induction entries with
  | nil => rfl
  | cons entry others ih => rw [filesAmong, ih, List.flatMap_cons, filesUnder]

theorem filesBelow_directory (name : String) (entries : List DiskNode) (access : Access) :
    (directory name entries access).filesBelow = entries.flatMap filesUnder := by
  rw [filesBelow, filesAmong_eq]

theorem mem_filesUnder {entry : DiskNode} {names : List String} {content : Bytes} :
    (names, content) ∈ entry.filesUnder ↔
      ∃ rest, names = entry.name :: rest ∧ (rest, content) ∈ entry.filesBelow := by
  simp only [filesUnder, List.mem_map, Prod.mk.injEq, Prod.exists]
  constructor
  · rintro ⟨rest, _, member, rfl, rfl⟩
    exact ⟨rest, rfl, member⟩
  · rintro ⟨rest, rfl, member⟩
    exact ⟨rest, content, member, rfl, rfl⟩

theorem find?_eq_some_iff {name other : String} {entries : List DiskNode} {access : Access}
    {entry : DiskNode} (distinct : (entries.map DiskNode.name).Nodup) :
    (directory name entries access).find? other = some entry ↔
      entry ∈ entries ∧ entry.name = other := by
  change entries.find? (·.name == other) = some entry ↔ _
  constructor
  · intro found
    exact ⟨List.mem_of_find?_eq_some found, by simpa using List.find?_some found⟩
  · rintro ⟨member, rfl⟩
    induction entries with
    | nil => simp at member
    | cons first others ih =>
        rw [List.map_cons, List.nodup_cons] at distinct
        rcases List.mem_cons.mp member with rfl | later
        · simp
        · have different : first.name ≠ entry.name := by
            intro same
            exact distinct.1 (same ▸ List.mem_map_of_mem later)
          rw [List.find?_cons_of_neg (by simpa using different)]
          exact ih distinct.2 later

theorem at?_append (node : DiskNode) (names others : List String) :
    node.at? (names ++ others) = (node.at? names).bind (·.at? others) := by
  induction names generalizing node with
  | nil => rfl
  | cons name names ih =>
      rw [List.cons_append, at?, at?]
      cases node.find? name with
      | none => rfl
      | some child => exact ih child

theorem mem_filesBelow_of_at? {node : DiskNode} {names : List String} {name : String}
    {content : Bytes} (found : node.at? names = some (.file name content)) :
    (names, content) ∈ node.filesBelow := by
  induction names generalizing node with
  | nil =>
      obtain rfl := Option.some.inj found
      simp [filesBelow]
  | cons first rest ih =>
      rw [at?] at found
      split at found
      next child located =>
        cases node with
        | directory name entries access =>
            have member : child ∈ entries := List.mem_of_find?_eq_some located
            have named : child.name = first := by simpa using List.find?_some located
            rw [filesBelow_directory, List.mem_flatMap]
            exact ⟨child, member, mem_filesUnder.mpr ⟨rest, by rw [named], ih found⟩⟩
        | file | sealed | link => simp [find?, entries] at located
      next => simp at found

namespace IsPlain

variable {node : DiskNode} {names : List String} {content : Bytes}

/-- The files listed for a tree are those that are found when names are followed through it. -/
theorem mem_filesBelow_iff (plain : node.IsPlain) :
    (names, content) ∈ node.filesBelow ↔ ∃ name, node.at? names = some (.file name content) := by
  constructor
  · intro member
    induction plain generalizing names with
    | file name other =>
        obtain ⟨rfl, rfl⟩ : names = [] ∧ content = other := by simpa [filesBelow] using member
        exact ⟨name, rfl⟩
    | directory name distinct named inside ih =>
        rw [filesBelow_directory, List.mem_flatMap] at member
        obtain ⟨entry, isEntry, under⟩ := member
        obtain ⟨rest, rfl, below⟩ := mem_filesUnder.mp under
        obtain ⟨last, found⟩ := ih entry isEntry below
        refine ⟨last, ?_⟩
        rw [at?, (find?_eq_some_iff distinct).mpr ⟨isEntry, rfl⟩]
        exact found
  · rintro ⟨name, found⟩
    exact mem_filesBelow_of_at? found

theorem isComponent_of_mem_filesBelow (plain : node.IsPlain)
    (member : (names, content) ∈ node.filesBelow) :
    ∀ name ∈ names, isComponent name.toList = true := by
  induction plain generalizing names with
  | file => simp_all [filesBelow]
  | directory name distinct named inside ih =>
      rw [filesBelow_directory, List.mem_flatMap] at member
      obtain ⟨entry, isEntry, under⟩ := member
      obtain ⟨rest, rfl, below⟩ := mem_filesUnder.mp under
      intro other led
      rcases List.mem_cons.mp led with rfl | later
      · exact (named entry isEntry).1
      · exact ih entry isEntry below other later

theorem nodup_names_filesBelow (plain : node.IsPlain) :
    (node.filesBelow.map Prod.fst).Nodup := by
  induction plain with
  | file => simp [filesBelow]
  | @directory name entries distinct named inside ih =>
      have under : ∀ entry ∈ entries, (entry.filesUnder.map Prod.fst).Nodup := by
        intro entry member
        have longer := (ih entry member).map (List.cons_injective (a := entry.name))
        simpa [filesUnder, Function.comp_def] using longer
      rw [filesBelow_directory, List.map_flatMap, List.nodup_flatMap]
      refine ⟨under, ?_⟩
      rw [List.Nodup, List.pairwise_map] at distinct
      refine distinct.imp fun different => ?_
      -- Names that lead below different entries differ in the first of them.
      apply List.disjoint_left.mpr
      intro led first second
      simp only [filesUnder, List.map_map, List.mem_map, Function.comp_apply] at first second
      obtain ⟨_, _, rfl⟩ := first
      obtain ⟨_, _, same⟩ := second
      exact different (List.cons.inj same).1.symm

theorem content_eq_of_mem_filesBelow (plain : node.IsPlain) {other : Bytes}
    (member : (names, content) ∈ node.filesBelow) (isOther : (names, other) ∈ node.filesBelow) :
    content = other := by
  obtain ⟨_, found⟩ := plain.mem_filesBelow_iff.mp member
  obtain ⟨_, again⟩ := plain.mem_filesBelow_iff.mp isOther
  simp_all

end IsPlain

end DiskNode

end LocalizationAudit

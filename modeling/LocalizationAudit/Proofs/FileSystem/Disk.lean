import LocalizationAudit.Proofs.FileSystem.Tree
import LocalizationAudit.Proofs.Text.Order
import Mathlib.Data.List.Perm.Basic

/-!
A plain directory on disk, listed and read. The listing prunes hidden directories on the way down;
what is left are the files that no hidden name leads to, each once, and all of them can be read.
-/

namespace LocalizationAudit

namespace DiskNode

def shownBelow (node : DiskNode) : List (List String) :=
  (node.filesBelow.map Prod.fst).filter fun names => !names.any isHidden

theorem mem_shownBelow {node : DiskNode} {names : List String} :
    names ∈ node.shownBelow ↔
      (∃ content, (names, content) ∈ node.filesBelow) ∧ ∀ name ∈ names, isHidden name = false := by
  simp [shownBelow]

theorem shownBelow_directory (name : String) (entries : List DiskNode) :
    (directory name entries).shownBelow = entries.flatMap fun entry =>
      if isHidden entry.name then [] else entry.shownBelow.map (entry.name :: ·) := by
  rw [shownBelow, filesBelow_directory, List.map_flatMap, List.filter_flatMap]
  congr 1
  funext entry
  simp only [filesUnder, List.map_map, Function.comp_def, shownBelow, List.filter_map]
  cases hidden : isHidden entry.name <;> simp [hidden]

end DiskNode

theorem mapM_id_eq_ok_iff {ε α : Type} {items : List (Except ε α)} {values : List α} :
    items.mapM id = .ok values ↔ items = values.map .ok := by
  induction items generalizing values with
  | nil => simp [pure, Except.pure, eq_comm]
  | cons item others ih =>
      rw [List.mapM_cons]
      cases item with
      | error error => cases values <;> simp [bind, Except.bind]
      | ok value =>
          cases read : others.mapM id with
          | error error =>
              have unread : ∀ rest : List α, others ≠ rest.map .ok := by
                intro rest same
                simp [ih.mpr same] at read
              cases values <;> simp [bind, Except.bind, unread]
          | ok rest =>
              obtain rfl := ih.mp read
              have injective : Function.Injective (Except.ok : α → Except ε α) :=
                fun _ _ => Except.ok.inj
              cases values <;>
                simp [bind, Except.bind, pure, Except.pure, injective.list_map.eq_iff]

theorem mapError_eq_ok_iff {ε ε' α : Type} {change : ε → ε'} {result : Except ε α} {value : α} :
    result.mapError change = .ok value ↔ result = .ok value := by
  cases result <;> simp [Except.mapError]

namespace Disk

theorem inOrder_perm {α : Type} (named : List (String × List α)) :
    (inOrder named).Perm (named.flatMap (·.2)) :=
  (List.mergeSort_perm _ _).flatMap_right _

variable (disk : Disk)

theorem listEntries_eq (path : Path) (location : List String) (entries : List DiskNode) :
    disk.listEntries path location entries =
      (entries.filter fun entry => entry.isDirectory && !isHidden entry.name).map fun entry =>
        (entry.name, disk.listBelow (path.child entry.name) (location ++ [entry.name]) entry) := by
  induction entries with
  | nil => rfl
  | cons entry others ih =>
      rw [listEntries, ih, List.filter_cons]
      split <;> rfl

section Listing

theorem listFile_of_isPlain {entry : DiskNode} (plain : entry.IsPlain) (path : Path)
    (location : List String) :
    disk.listFile path location {} entry =
      if entry.isDirectory then [] else [.ok (path.child entry.name)] := by
  cases plain <;> rfl

def listUnder (path : Path) (location : List String) (entry : DiskNode) :
    List (Except ReadError Path) :=
  if isHidden entry.name then []
  else if entry.isDirectory then
    disk.listBelow (path.child entry.name) (location ++ [entry.name]) entry
  else [.ok (path.child entry.name)]

theorem listBelow_perm_listUnder (path : Path) (location : List String) (name : String)
    {entries : List DiskNode} (plain : ∀ entry ∈ entries, entry.IsPlain) :
    (disk.listBelow path location (.directory name entries)).Perm
      (entries.flatMap (disk.listUnder path location)) := by
  rw [listBelow, if_pos rfl, if_pos rfl]
  refine ((inOrder_perm _).append (inOrder_perm _)).trans ?_
  rw [listEntries_eq, listFiles]
  induction entries with
  | nil => exact .nil
  | cons entry others ih =>
      have later := ih fun other member => plain other (List.mem_cons_of_mem _ member)
      have own := disk.listFile_of_isPlain (plain entry List.mem_cons_self) path location
      rw [List.flatMap_cons, listUnder]
      cases hidden : isHidden entry.name with
      | true => simpa [hidden] using later
      | false =>
          cases isDirectory : entry.isDirectory with
          | false => simpa [hidden, isDirectory, own] using later
          | true =>
              have moved := (List.perm_append_comm_assoc _ _ _).trans (later.append_left
                (disk.listBelow (path.child entry.name) (location ++ [entry.name]) entry))
              simpa [hidden, isDirectory, own] using moved

/-- Pruning loses exactly the files that a hidden name leads to, and no name is refused. -/
theorem listBelow_perm {node : DiskNode} (plain : node.IsPlain)
    (isDirectory : node.isDirectory = true) (path : Path) (location : List String) :
    (disk.listBelow path location node).Perm ((node.shownBelow.map path.descend).map .ok) := by
  induction plain generalizing path location with
  | file => simp [DiskNode.isDirectory] at isDirectory
  | directory name distinct named inside ih =>
      refine (disk.listBelow_perm_listUnder path location name inside).trans ?_
      rw [DiskNode.shownBelow_directory, List.map_flatMap, List.map_flatMap]
      refine List.Perm.flatMap_left _ fun entry member => ?_
      rw [listUnder]
      split
      next => exact .nil
      next shown =>
        split
        next entered =>
          have below := ih entry member entered (path.child entry.name) (location ++ [entry.name])
          rw [List.map_map] at below ⊢
          rwa [List.map_map]
        next single =>
          cases inside entry member with
          | file => simp [DiskNode.shownBelow, DiskNode.filesBelow, Path.descend]
          | directory => simp [DiskNode.isDirectory] at single

theorem nodup_descend_shownBelow {node : DiskNode} (plain : node.IsPlain) (path : Path) :
    (node.shownBelow.map path.descend).Nodup := by
  refine List.Nodup.map_on ?_ (plain.nodup_names_filesBelow.filter _)
  have component : ∀ names ∈ node.shownBelow, ∀ name ∈ names, isComponent name.toList = true := by
    intro names shown
    obtain ⟨⟨content, member⟩, _⟩ := DiskNode.mem_shownBelow.mp shown
    exact plain.isComponent_of_mem_filesBelow member
  intro left isLeft right isRight same
  exact path.descend_inj (component left isLeft) (component right isRight) same

/-- So there is a listing, and it has every such file once. -/
theorem exists_listing_of_isPlain {node : DiskNode} (plain : node.IsPlain)
    (isDirectory : node.isDirectory = true) (path : Path) (location : List String) :
    ∃ listed, (disk.listBelow path location node).mapM id = .ok listed ∧
      listed.Perm (node.shownBelow.map path.descend) := by
  have complete := disk.listBelow_perm plain isDirectory path location
  obtain ⟨listed, found, same⟩ :=
    (congrFun (congrFun (List.eq_map_comp_perm Except.ok) _) _).mpr complete
  exact ⟨listed, mapM_id_eq_ok_iff.mpr found, same⟩

end Listing

section Reading

/-- How far names lead, and how many links that costs, does not depend on what comes after them. -/
theorem resolve_append {links : Nat} {reached names location : List String}
    (found : disk.resolve links reached names = .ok location) :
    ∃ left, ∀ others, disk.resolve links reached (names ++ others) =
      disk.resolve left location others := by
  fun_induction resolve disk links reached names with
  | case1 links reached =>
      obtain rfl := Except.ok.inj found
      exact ⟨links, fun others => rfl⟩
  | case3 links reached name rest place stands ih =>
      obtain ⟨left, continued⟩ := ih found
      refine ⟨left, fun others => ?_⟩
      rw [← continued, List.cons_append, resolve, stands]
  | case5 reached name rest target follows links ih =>
      obtain ⟨left, continued⟩ := ih found
      refine ⟨left, fun others => ?_⟩
      rw [← continued, List.cons_append, List.append_assoc, resolve, follows]
  | case2 | case4 => simp at found

theorem step_of_isPlain {reached : List String} {name other : String} {entries : List DiskNode}
    {entry : DiskNode} (here : disk.top.at? reached = some (.directory name entries))
    (located : (DiskNode.directory name entries).find? other = some entry)
    (plain : entry.IsPlain) (named : IsEntryName other) :
    disk.step reached other = .ok (.stand (reached ++ [other])) := by
  change entries.find? (·.name == other) = some entry at located
  obtain ⟨component, ordinary⟩ := named
  have isNot : ∀ special : String, isComponent special.toList = false →
      (other == special) = false := by
    intro special noComponent
    rw [beq_eq_false_iff_ne]
    rintro rfl
    simp [component] at noComponent
  have notParent : (other == "..") = false := beq_eq_false_iff_ne.mpr ordinary
  rw [step]
  simp only [here, isNot "" rfl, isNot "." rfl, notParent, located]
  cases plain <;> rfl

theorem resolve_of_mem_filesBelow {node : DiskNode} (plain : node.IsPlain) {names : List String}
    {content : Bytes} (member : (names, content) ∈ node.filesBelow) (links : Nat)
    {reached : List String} (here : disk.top.at? reached = some node) :
    disk.resolve links reached names = .ok (reached ++ names) := by
  induction plain generalizing names reached with
  | file =>
      obtain ⟨rfl, _⟩ : names = [] ∧ content = _ := by simpa [DiskNode.filesBelow] using member
      simp [resolve]
  | directory name distinct named inside ih =>
      rw [DiskNode.filesBelow_directory, List.mem_flatMap] at member
      obtain ⟨entry, isEntry, under⟩ := member
      obtain ⟨rest, rfl, below⟩ := DiskNode.mem_filesUnder.mp under
      have located : (DiskNode.directory name _).find? entry.name = some entry :=
        (DiskNode.find?_eq_some_iff distinct).mpr ⟨isEntry, rfl⟩
      have there : disk.top.at? (reached ++ [entry.name]) = some entry := by
        rw [DiskNode.at?_append, here, Option.bind_some, DiskNode.at?, located]
        rfl
      have stands := disk.step_of_isPlain here located (inside entry isEntry) (named entry isEntry)
      rw [resolve, stands]
      exact (ih entry isEntry below there).trans (by rw [List.append_assoc, List.singleton_append])

theorem lookup_eq_ok_iff {path : Path} {node : DiskNode} :
    disk.lookup path = .ok node ↔
      ∃ location, disk.resolvePath path = .ok location ∧ disk.top.at? location = some node := by
  rw [lookup]
  cases disk.resolvePath path with
  | error fault => simp [bind, Except.bind]
  | ok location =>
      cases found : disk.top.at? location with
      | none => simp [bind, Except.bind, found, throw, throwThe, MonadExceptOf.throw]
      | some other => simp [bind, Except.bind, found, pure, Except.pure]

theorem read_descend {root : Path} {tree : DiskNode} (found : disk.lookup root = .ok tree)
    (plain : tree.IsPlain) {names : List String} {content : Bytes}
    (member : (names, content) ∈ tree.filesBelow) :
    disk.read (root.descend names) = .ok content := by
  obtain ⟨location, resolved, here⟩ := disk.lookup_eq_ok_iff.mp found
  obtain ⟨left, continued⟩ := disk.resolve_append resolved
  have component := plain.isComponent_of_mem_filesBelow member
  have there : disk.resolvePath (root.descend names) = .ok (location ++ names) := by
    rw [resolvePath, root.anchor_descend component, root.components_descend component, continued]
    exact disk.resolve_of_mem_filesBelow plain member left here
  obtain ⟨name, file⟩ := plain.mem_filesBelow_iff.mp member
  have looked : disk.lookup (root.descend names) = .ok (.file name content) := by
    refine disk.lookup_eq_ok_iff.mpr ⟨_, there, ?_⟩
    rw [DiskNode.at?_append, here]
    exact file
  rw [read, looked]

/-- What can be read is what some file in the tree holds. -/
theorem exists_file_of_read {path : Path} {content : Bytes} (read : disk.read path = .ok content) :
    ∃ names, (names, content) ∈ disk.top.filesBelow := by
  unfold Disk.read at read
  split at read
  next looked =>
    obtain rfl := Except.ok.inj read
    obtain ⟨location, _, found⟩ := disk.lookup_eq_ok_iff.mp looked
    exact ⟨location, DiskNode.mem_filesBelow_of_at? found⟩
  all_goals simp at read

end Reading

theorem enumerate_of_lookup {root name : String} {entries : List DiskNode}
    (found : disk.lookup (Path.ofString root) = .ok (.directory name entries))
    (plain : (DiskNode.directory name entries).IsPlain) :
    ∃ listed, disk.enumerate root = .ok listed ∧ listed.Nodup ∧
      ∀ path, path ∈ listed ↔
        ∃ file ∈ (DiskNode.directory name entries).filesBelow,
          (∀ name ∈ file.1, isHidden name = false) ∧
            path = (Path.ofString root).descend file.1 := by
  obtain ⟨location, resolved, here⟩ := disk.lookup_eq_ok_iff.mp found
  obtain ⟨listed, collected, complete⟩ :=
    disk.exists_listing_of_isPlain plain rfl (Path.ofString root) location
  refine ⟨listed, ?_, complete.nodup_iff.mpr (nodup_descend_shownBelow plain _), fun path => ?_⟩
  · rw [enumerate]
    simp only [resolved, here, collected]
    rfl
  · rw [complete.mem_iff, List.mem_map]
    simp only [DiskNode.mem_shownBelow, Prod.exists]
    constructor
    · rintro ⟨names, ⟨⟨content, member⟩, shown⟩, rfl⟩
      exact ⟨names, content, member, shown, rfl⟩
    · rintro ⟨names, content, member, shown, rfl⟩
      exact ⟨names, ⟨⟨content, member⟩, shown⟩, rfl⟩

end Disk

end LocalizationAudit

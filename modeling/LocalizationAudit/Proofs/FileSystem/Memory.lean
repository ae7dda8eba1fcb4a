import LocalizationAudit.Proofs.FileSystem

/-!
Files in memory whose names are relative lie below the root they are stored under. Listing that
root then never fails, and it finds every stored path that no hidden name leads to.
-/

namespace LocalizationAudit

theorem Path.below?_join (root : Path) {path : Path} (relative : path.anchor = .relative) :
    root.below? (root.join path) = some path := by
  have joined : root.join path =
      { anchor := root.anchor
        components := root.components ++ path.components
        components_plain := fun name member =>
          (List.mem_append.mp member).elim (root.components_plain name)
            (path.components_plain name) } := by
    rw [join, if_pos (by simp [relative])]
  rw [joined, below?, if_pos (by simp)]
  exact congrArg some (eq_of_parts relative.symm (by simp))

namespace MemoryFiles

def IsShown (root path : Path) : Prop :=
  ∃ relative, root.below? path = some relative ∧
    ∀ name ∈ relative.components, isHidden name = false

instance (root path : Path) : Decidable (IsShown root path) :=
  match below : root.below? path with
  | none => .isFalse fun ⟨_, found, _⟩ => by simp [below] at found
  | some relative =>
      decidable_of_iff (∀ name ∈ relative.components, isHidden name = false)
        (by simp [IsShown, below])

theorem isVisible_of_below? {root path relative : Path} (below : root.below? path = some relative) :
    ∃ visible, isVisible root path = .ok visible ∧ (visible = true ↔ IsShown root path) := by
  refine ⟨!relative.components.any isHidden, by rw [isVisible, below], ?_⟩
  simp [IsShown, below]

theorem visiblePaths_total {root : Path} {paths : List Path}
    (below : ∀ path ∈ paths, ∃ relative, root.below? path = some relative) :
    ∃ found, visiblePaths root paths = .ok found ∧
      ∀ path, path ∈ found ↔ path ∈ paths ∧ IsShown root path := by
  induction paths with
  | nil => exact ⟨[], rfl, by simp⟩
  | cons first others ih =>
      obtain ⟨relative, belowFirst⟩ := below first List.mem_cons_self
      obtain ⟨visible, decided, shown⟩ := isVisible_of_below? belowFirst
      obtain ⟨found, listed, exact⟩ := ih fun path member => below path (List.mem_cons_of_mem _ member)
      refine ⟨if visible then first :: found else found, ?_, fun path => ?_⟩
      · simp only [visiblePaths, decided, listed, bind, Except.bind, pure, Except.pure]
      · by_cases here : path = first
        · subst here
          cases visible <;> simp_all
        · cases visible <;> simp [exact, here]

section Stored

variable {files : List (Path × Bytes)} {path : Path} {content : Bytes}

theorem mem_of_mem_put {file : Path × Bytes} (member : file ∈ put files path content) :
    file ∈ files ∨ file = (path, content) := by
  unfold put at member
  split at member
  · obtain ⟨old, isOld, rfl⟩ := List.mem_map.mp member
    split
    · exact .inr rfl
    · exact .inl isOld
  · simpa using member

theorem mem_paths_put {other : Path} :
    other ∈ (put files path content).map (·.1) ↔ other ∈ files.map (·.1) ∨ other = path := by
  unfold put
  split
  next known =>
    have samePaths : (files.map fun file => if file.1 == path then (path, content) else file).map
        (·.1) = files.map (·.1) := by
      rw [List.map_map]
      refine List.map_congr_left fun file _ => ?_
      by_cases same : file.1 = path <;> simp [same]
    obtain ⟨file, member, same⟩ := List.any_eq_true.mp known
    rw [samePaths]
    refine ⟨.inl, ?_⟩
    rintro (stored | rfl)
    · exact stored
    · exact List.mem_map.mpr ⟨file, member, beq_iff_eq.mp same⟩
  next => simp

end Stored

section Project

variable {root : String} {files : List (String × Bytes)}

def placeOf (root name : String) : Path :=
  (Path.ofString root).join (Path.ofString name)

theorem mem_paths_foldl_put (stored : List (Path × Bytes)) {path : Path} :
    path ∈ (files.foldl (fun stored file => put stored (placeOf root file.1) file.2) stored).map
      (·.1) ↔ path ∈ stored.map (·.1) ∨ ∃ file ∈ files, path = placeOf root file.1 := by
  induction files generalizing stored with
  | nil => simp
  | cons file others ih =>
      rw [List.foldl_cons, ih, mem_paths_put, or_assoc]
      simp

theorem mem_paths_ofFiles {path : Path} :
    path ∈ (ofFiles root files).files.map (·.1) ↔ ∃ file ∈ files, path = placeOf root file.1 := by
  refine (mem_paths_foldl_put []).trans ?_
  simp

theorem given_of_mem_foldl_put (stored : List (Path × Bytes)) {file : Path × Bytes}
    (member : file ∈ files.foldl (fun stored file => put stored (placeOf root file.1) file.2)
      stored) : file ∈ stored ∨ ∃ given ∈ files, file = (placeOf root given.1, given.2) := by
  induction files generalizing stored with
  | nil => exact .inl member
  | cons given others ih =>
      rcases ih _ member with earlier | ⟨other, isOther, same⟩
      · rcases mem_of_mem_put earlier with old | rfl
        · exact .inl old
        · exact .inr ⟨given, List.mem_cons_self, rfl⟩
      · exact .inr ⟨other, List.mem_cons_of_mem _ isOther, same⟩

theorem given_of_mem_ofFiles {file : Path × Bytes} (member : file ∈ (ofFiles root files).files) :
    ∃ given ∈ files, file = (placeOf root given.1, given.2) :=
  (given_of_mem_foldl_put [] member).resolve_left List.not_mem_nil

theorem content_of_mem_ofFiles {file : Path × Bytes} (member : file ∈ (ofFiles root files).files) :
    ∃ given ∈ files, given.2 = file.2 := by
  obtain ⟨given, isGiven, rfl⟩ := given_of_mem_ofFiles member
  exact ⟨given, isGiven, rfl⟩

/-- Of several files given for one place the last is stored; where they agree, any of them is. -/
theorem content_placeOf {given : String × Bytes} (member : given ∈ files)
    (agree : ∀ other ∈ files, placeOf root other.1 = placeOf root given.1 → other.2 = given.2) :
    fileSystem.content (ofFiles root files) (placeOf root given.1) = .ok given.2 := by
  have stored : placeOf root given.1 ∈ (ofFiles root files).files.map (·.1) :=
    mem_paths_ofFiles.mpr ⟨given, member, rfl⟩
  obtain ⟨file, isFile, same⟩ := List.mem_map.mp stored
  have found : ((ofFiles root files).files.find? (·.1 == placeOf root given.1)).isSome = true :=
    List.find?_isSome.mpr ⟨file, isFile, by simp [same]⟩
  obtain ⟨⟨path, content⟩, located⟩ := Option.isSome_iff_exists.mp found
  obtain ⟨other, isOther, spelled⟩ := given_of_mem_ofFiles (List.mem_of_find?_eq_some located)
  have here : path = placeOf root given.1 := by simpa using List.find?_some located
  obtain ⟨there, rfl⟩ := Prod.mk.inj spelled
  rw [content_eq, located]
  exact congrArg Except.ok (agree other isOther (there.symm.trans here))

theorem enumerate_ofFiles (relative : ∀ file ∈ files, (Path.ofString file.1).anchor = .relative)
    {scanRoot : String} (matching : Path.ofString scanRoot = Path.ofString root) :
    ∃ listed, (ofFiles root files).enumerate scanRoot = .ok listed ∧
      ∀ path, path ∈ listed ↔
        (∃ file ∈ files, path = placeOf root file.1) ∧ IsShown (Path.ofString root) path := by
  have below : ∀ path ∈ (ofFiles root files).files.map (·.1),
      ∃ relative, (Path.ofString root).below? path = some relative := by
    intro path member
    obtain ⟨file, isFile, rfl⟩ := mem_paths_ofFiles.mp member
    exact ⟨_, Path.below?_join _ (relative file isFile)⟩
  obtain ⟨found, visible, exact⟩ := visiblePaths_total below
  refine ⟨Path.sort found, ?_, fun path => ?_⟩
  · have rooted : (ofFiles root files).root = Path.ofString root := rfl
    rw [enumerate, if_pos (by simp [rooted, matching]), rooted, visible]
    rfl
  · rw [Path.sort, List.mem_mergeSort, exact, mem_paths_ofFiles]

theorem content_of_read {store : MemoryFiles} {path : Path} {content : Bytes}
    (found : fileSystem.content store path = .ok content) : (path, content) ∈ store.files := by
  rw [content_eq] at found
  split at found
  next stored _ located =>
    obtain rfl := Except.ok.inj found
    have same := List.find?_some located
    have member := List.mem_of_find?_eq_some located
    exact beq_iff_eq.mp same ▸ member
  next => simp at found

end Project

end MemoryFiles

end LocalizationAudit

import LocalizationAudit.Proofs.FileSystem.Disk
import LocalizationAudit.Proofs.FileSystem.Memory
import LocalizationAudit.Proofs.Scan.Scheduling

/-!
Files in memory stand in for a plain directory on disk: the same files are listed, in an order of
their own, the same bytes are read, and a scan cannot tell the two apart.
-/

namespace LocalizationAudit

section Mirror

variable {root : String} {tree : DiskNode} {files : List (String × Bytes)} {names : List String}
  {content : Bytes}

theorem DiskNode.IsPlain.placeOf_intercalate (plain : tree.IsPlain)
    (member : (names, content) ∈ tree.filesBelow) :
    MemoryFiles.placeOf root ("/".intercalate names) = (Path.ofString root).descend names := by
  have component := plain.isComponent_of_mem_filesBelow member
  rw [MemoryFiles.placeOf, Path.ofString_intercalate component, Path.descend_eq_join _ component]

theorem DiskNode.IsPlain.isShown_descend_iff (plain : tree.IsPlain)
    (member : (names, content) ∈ tree.filesBelow) (base : Path) :
    MemoryFiles.IsShown base (base.descend names) ↔ ∀ name ∈ names, isHidden name = false := by
  have component := plain.isComponent_of_mem_filesBelow member
  rw [MemoryFiles.IsShown, Path.descend_eq_join base component, Path.below?_join base rfl]
  simp

namespace MemoryFiles

variable (plain : tree.IsPlain) (same : ∀ file, file ∈ files ↔ file ∈ tree.spelledFiles)

include plain same

theorem mem_places_iff {path : Path} :
    (∃ file ∈ files, path = placeOf root file.1) ↔
      ∃ file ∈ tree.filesBelow, path = (Path.ofString root).descend file.1 := by
  constructor
  · rintro ⟨file, isFile, rfl⟩
    obtain ⟨⟨names, content⟩, member, rfl⟩ := List.mem_map.mp ((same file).mp isFile)
    exact ⟨_, member, plain.placeOf_intercalate member⟩
  · rintro ⟨⟨names, content⟩, member, rfl⟩
    refine ⟨("/".intercalate names, content), (same _).mpr ?_, ?_⟩
    · exact List.mem_map.mpr ⟨_, member, rfl⟩
    · exact (plain.placeOf_intercalate member).symm

variable (root) in
theorem enumerate_of_tree :
    ∃ listed, (ofFiles root files).enumerate root = .ok listed ∧
      ∀ path, path ∈ listed ↔
        ∃ file ∈ tree.filesBelow, (∀ name ∈ file.1, isHidden name = false) ∧
          path = (Path.ofString root).descend file.1 := by
  have relative : ∀ file ∈ files, (Path.ofString file.1).anchor = .relative := by
    intro file isFile
    obtain ⟨⟨names, content⟩, member, rfl⟩ := List.mem_map.mp ((same file).mp isFile)
    have component := plain.isComponent_of_mem_filesBelow member
    exact congrArg Path.anchor (Path.ofString_intercalate component)
  obtain ⟨listed, enumerated, exact⟩ := enumerate_ofFiles relative rfl
  refine ⟨listed, enumerated, fun path => ?_⟩
  rw [exact, mem_places_iff plain same]
  constructor
  · rintro ⟨⟨file, member, rfl⟩, shown⟩
    exact ⟨file, member, (plain.isShown_descend_iff member _).mp shown, rfl⟩
  · rintro ⟨file, member, shown, rfl⟩
    exact ⟨⟨file, member, rfl⟩, (plain.isShown_descend_iff member _).mpr shown⟩

theorem content_descend (member : (names, content) ∈ tree.filesBelow) :
    fileSystem.content (ofFiles root files) ((Path.ofString root).descend names) = .ok content := by
  have given : ("/".intercalate names, content) ∈ files :=
    (same _).mpr (List.mem_map.mpr ⟨(names, content), member, rfl⟩)
  have agree : ∀ other ∈ files,
      placeOf root other.1 = placeOf root ("/".intercalate names) → other.2 = content := by
    intro other isOther place
    obtain ⟨⟨others, otherContent⟩, found, rfl⟩ := List.mem_map.mp ((same other).mp isOther)
    rw [plain.placeOf_intercalate member, plain.placeOf_intercalate found] at place
    obtain rfl := Path.descend_inj _ (plain.isComponent_of_mem_filesBelow found)
      (plain.isComponent_of_mem_filesBelow member) place
    exact plain.content_eq_of_mem_filesBelow found member
  have stored := content_placeOf given agree
  rwa [plain.placeOf_intercalate member] at stored

end MemoryFiles

end Mirror

section Scan

variable {Store OtherStore : Type} {files : FileSystem Store} {store : Store}
  {otherFiles : FileSystem OtherStore} {otherStore : OtherStore} (extractors : Extractors)

theorem processAll_congr {tasks : List Task}
    (same : ∀ task ∈ tasks,
      files.content store task.path = otherFiles.content otherStore task.path) :
    (processAll extractors files.toReader store tasks).1 =
      (processAll extractors otherFiles.toReader otherStore tasks).1 := by
  induction tasks generalizing store otherStore with
  | nil => rfl
  | cons task others ih =>
      have first : (files.read store task.path).1 = (otherFiles.read otherStore task.path).1 :=
        same task List.mem_cons_self
      have later : (processAll extractors files.toReader (files.read store task.path).2 others).1 =
          (processAll extractors otherFiles.toReader (otherFiles.read otherStore task.path).2
            others).1 := by
        refine ih fun other member => ?_
        rw [files.content_read, otherFiles.content_read]
        exact same other (List.mem_cons_of_mem _ member)
      rw [processAll, processAll, processFile_eq, processFile_eq, ← first]
      cases outcomeOf extractors task (files.read store task.path).1 with
      | error failure => rfl
      | ok contribution => simp only [later]

/-- Of a file system a scan sees no more than what the listed files hold. -/
theorem scan_congr (settings : ScanSettings) {schedule : List Task → List Task}
    (complete : IsSchedule schedule) (root : String) {listing : List Path}
    (same : ∀ path ∈ listing, files.content store path = otherFiles.content otherStore path) :
    (scan settings extractors files.toReader store schedule root (.ok listing)).1 =
      (scan settings extractors otherFiles.toReader otherStore schedule root (.ok listing)).1 := by
  have seen : ∀ task ∈ schedule (candidates settings (Path.ofString root) listing),
      files.content store task.path = otherFiles.content otherStore task.path := by
    intro task member
    have candidate := mem_candidates.mp ((complete _).mem_iff.mp member)
    exact same task.path candidate.1
  have processed := processAll_congr extractors seen
  simp only [scan, scanListing]
  split
  next => rfl
  next =>
    rw [processed]
    split <;> rfl

end Scan

theorem memory_mirrors_disk (settings : ScanSettings) (extractors : Extractors) (disk : Disk)
    {root name : String} {entries : List DiskNode}
    (found : disk.lookup (Path.ofString root) = .ok (.directory name entries))
    (plain : (DiskNode.directory name entries).IsPlain) {files : List (String × Bytes)}
    (same : ∀ file, file ∈ files ↔ file ∈ (DiskNode.directory name entries).spelledFiles)
    {schedule otherSchedule : List Task → List Task} (complete : IsSchedule schedule)
    (completeOther : IsSchedule otherSchedule) :
    let project := (DiskNode.directory name entries).filesBelow
    let store := MemoryFiles.ofFiles root files
    let placeOf := (Path.ofString root).descend
    let onDisk := (scan settings extractors Disk.fileSystem.toReader disk schedule root
      (disk.enumerate root)).1
    let inMemory := (scan settings extractors MemoryFiles.fileSystem.toReader store otherSchedule
      root (store.enumerate root)).1
    (∃ listed others, disk.enumerate root = .ok listed ∧ store.enumerate root = .ok others ∧
      listed.Nodup ∧ (∀ path, path ∈ listed ↔ path ∈ others) ∧
      ∀ path, path ∈ listed ↔ ∃ file ∈ project, (∀ name ∈ file.1, isHidden name = false) ∧
        path = placeOf file.1) ∧
    (∀ file ∈ project, Disk.fileSystem.content disk (placeOf file.1) = .ok file.2 ∧
      MemoryFiles.fileSystem.content store (placeOf file.1) = .ok file.2) ∧
    onDisk.events = inMemory.events ∧
    OutcomesAgree (fun left right => left.Agrees right ∧ left.unusedTexts = right.unusedTexts)
      onDisk.outcome inMemory.outcome := by
  intro project store placeOf onDisk inMemory
  obtain ⟨listed, enumerated, distinct, exact⟩ := disk.enumerate_of_lookup found plain
  obtain ⟨others, enumeratedToo, exactToo⟩ := MemoryFiles.enumerate_of_tree root plain same
  have sameListing : ∀ path, path ∈ listed ↔ path ∈ others := fun path =>
    (exact path).trans (exactToo path).symm
  have contents : ∀ file ∈ project, Disk.fileSystem.content disk (placeOf file.1) = .ok file.2 ∧
      MemoryFiles.fileSystem.content store (placeOf file.1) = .ok file.2 := by
    intro file member
    exact ⟨disk.read_descend found plain member, MemoryFiles.content_descend plain same member⟩
  have mirrored : ∀ path ∈ listed, Disk.fileSystem.content disk path =
      MemoryFiles.fileSystem.content store path := by
    intro path member
    obtain ⟨file, isFile, _, rfl⟩ := (exact path).mp member
    rw [(contents file isFile).1, (contents file isFile).2]
  refine ⟨⟨listed, others, enumerated, enumeratedToo, distinct, sameListing, exact⟩, contents, ?_⟩
  -- First the file system is exchanged under one listing, then the listing and the schedule.
  have exchanged := scan_congr extractors settings complete root mirrored
  obtain ⟨events, outcomes⟩ := scan_agrees settings extractors MemoryFiles.fileSystem store root
    sameListing complete completeOther
  simp only [onDisk, inMemory, enumerated, enumeratedToo, store, exchanged] at events outcomes ⊢
  exact ⟨events, outcomes.imp fun left right agrees => ⟨agrees, agrees.unusedTexts_eq⟩⟩

def storedProject : DiskNode :=
  .directory "app"
    [.file "main.swift" (encodeUtf8 "show(\"used\")".toList),
      .directory "Views"
        [.file "b.strings" (encodeUtf8 "\"used\" = \"1\"; \"spare\" = \"2\";".toList),
          .file ".DS_Store" [0]],
      .directory ".git" [.file "config.strings" (encodeUtf8 "\"hidden\" = \"3\";".toList)]]

def storedDisk : Disk :=
  { top := .directory "" [.directory ".home" [storedProject], .link "work" ".home"]
    workingDirectory := [] }

def storedCopy : MemoryFiles :=
  MemoryFiles.ofFiles "/work/app" storedProject.spelledFiles.reverse

def storedListing : List Path :=
  ["/work/app/main.swift", "/work/app/Views/b.strings"].map Path.ofString

theorem resolvePath_storedDisk :
    storedDisk.resolvePath (Path.ofString "/work/app") = .ok [".home", "app"] := by
  have root : (Path.ofString "/work/app").anchor = .root ∧
      (Path.ofString "/work/app").components = ["work", "app"] := by decide
  have target : Path.anchorOf ".home".toList = .relative ∧
      Disk.linkedNames ".home" = [".home"] := by decide
  simp [Disk.resolvePath, Disk.resolve, Disk.step, Disk.startOf, Disk.maxLinks, root, target,
    storedDisk, storedProject, DiskNode.at?, DiskNode.find?, DiskNode.entries, DiskNode.name]

theorem isPlain_storedProject : storedProject.IsPlain := by
  refine .directory _ (by decide) (by decide) fun entry member => ?_
  simp only [List.mem_cons, List.not_mem_nil, or_false] at member
  rcases member with rfl | rfl | rfl
  · exact .file _ _
  · exact .directory _ (by decide) (by decide) (by simp [DiskNode.IsPlain.file])
  · exact .directory _ (by decide) (by decide) (by simp [DiskNode.IsPlain.file])

theorem enumerate_storedDisk : storedDisk.enumerate "/work/app" = .ok storedListing := by
  have listed : (storedDisk.listBelow (Path.ofString "/work/app") [".home", "app"]
      storedProject).mapM id = .ok storedListing := by
    have named : storedDisk.listBelow (Path.ofString "/work/app") [".home", "app"]
        storedProject = storedListing.map .ok := by
      decide +kernel
    exact mapM_id_eq_ok_iff.mpr named
  rw [Disk.enumerate]
  simp only [resolvePath_storedDisk]
  exact mapError_eq_ok_iff.mpr listed

theorem enumerate_storedCopy :
    storedCopy.enumerate "/work/app" = .ok storedListing.reverse := by
  have visible : MemoryFiles.visiblePaths storedCopy.root (storedCopy.files.map (·.1)) =
      .ok storedListing.reverse := by
    decide +kernel
  have sorted : Path.sort storedListing.reverse = storedListing.reverse :=
    List.mergeSort_of_pairwise (by decide)
  have rooted : (Path.ofString "/work/app" == storedCopy.root) = true := by decide
  rw [MemoryFiles.enumerate, if_pos rooted, visible]
  exact congrArg Except.ok sorted

theorem memory_mirrors_disk_stored :
    storedDisk.lookup (Path.ofString "/work/app") = .ok storedProject ∧
    storedProject.IsPlain ∧
    (∀ file, file ∈ storedProject.spelledFiles.reverse ↔ file ∈ storedProject.spelledFiles) ∧
    IsSchedule id ∧ IsSchedule List.reverse ∧
    storedDisk.enumerate "/work/app" = .ok storedListing ∧
    storedCopy.enumerate "/work/app" = .ok storedListing.reverse ∧
    ∃ result, (scan (.standard none) sampleExtractors Disk.fileSystem.toReader storedDisk id
      "/work/app" (storedDisk.enumerate "/work/app")).1.outcome = .ok result ∧
      result.unusedTexts = ["spare"] := by
  have found : storedDisk.lookup (Path.ofString "/work/app") = .ok storedProject :=
    storedDisk.lookup_eq_ok_iff.mpr ⟨_, resolvePath_storedDisk, rfl⟩
  have same : ∀ file, file ∈ storedProject.spelledFiles.reverse ↔
      file ∈ storedProject.spelledFiles := fun file => List.mem_reverse
  refine ⟨found, isPlain_storedProject, same, isSchedule_id, isSchedule_reverse,
    enumerate_storedDisk, enumerate_storedCopy, ?_⟩
  have unused : (scan (.standard none) sampleExtractors MemoryFiles.fileSystem.toReader storedCopy
      List.reverse "/work/app" (.ok storedListing.reverse)).1.outcome.toOption.map
        ScanResult.unusedTexts = some ["spare"] := by
    decide +kernel
  obtain ⟨_, _, _, outcomes⟩ := memory_mirrors_disk (.standard none) sampleExtractors storedDisk
    found isPlain_storedProject same isSchedule_id isSchedule_reverse
  rw [← storedCopy, enumerate_storedCopy] at outcomes
  cases inMemory : (scan (.standard none) sampleExtractors MemoryFiles.fileSystem.toReader
    storedCopy List.reverse "/work/app" (.ok storedListing.reverse)).1.outcome with
  | error failure => simp [inMemory, Except.toOption] at unused
  | ok expected =>
      rw [inMemory] at outcomes unused
      obtain ⟨result, returned, _, sameUnused⟩ := outcomes.exists_value
      exact ⟨result, returned, sameUnused.trans (Option.some.inj unused)⟩

end LocalizationAudit

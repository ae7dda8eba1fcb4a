import LocalizationAudit.Proofs.Scan.Mirroring
import LocalizationAudit.Proofs.Scan.Returned

/-!
A project may stand anywhere. What a file counts as depends on its path below the root; only a
filter by language looks at the directory above a file, and so sees the root from a file that lies
directly inside it. Hence a project that is moved defines, uses and leaves unused the same texts.
-/

namespace LocalizationAudit

section Names

variable (root : Path) {path : Path}

namespace Path

theorem components_join (relative : path.anchor = .relative) :
    (root.join path).components = root.components ++ path.components := by
  rw [join, if_pos (by simp [relative])]

theorem name_join (relative : path.anchor = .relative) (nonempty : path.components ≠ []) :
    (root.join path).name = path.name := by
  rw [name, name, root.components_join relative, List.getLast?_append_of_ne_nil _ nonempty]

theorem name_parent_join (relative : path.anchor = .relative)
    (deep : 2 ≤ path.components.length) :
    (root.join path).parent.name = path.parent.name := by
  have nonempty : path.components ≠ [] := List.ne_nil_of_length_pos (by omega)
  have above : path.components.dropLast ≠ [] :=
    List.ne_nil_of_length_pos (by rw [List.length_dropLast]; omega)
  simp only [name, parent, root.components_join relative]
  rw [List.dropLast_append_of_ne_nil nonempty, List.getLast?_append_of_ne_nil _ above]

end Path

def ScanSettings.FiltersByLanguage (settings : ScanSettings) : Prop :=
  settings.lproj.getD "" ≠ ""

instance (settings : ScanSettings) : Decidable settings.FiltersByLanguage :=
  inferInstanceAs (Decidable (_ ≠ _))

variable {settings : ScanSettings} (relative : path.anchor = .relative)
  (nonempty : path.components ≠ [])

include relative nonempty

theorem hasExtension_join (extension : String) :
    hasExtension (root.join path) extension = hasExtension path extension := by
  rw [hasExtension, hasExtension, Path.suffix, Path.suffix, root.name_join relative nonempty]

omit nonempty in
theorem matchesLproj_join
    (unseen : ¬ settings.FiltersByLanguage ∨ 2 ≤ path.components.length) :
    matchesLproj settings.lproj (root.join path) = matchesLproj settings.lproj path := by
  cases filter : settings.lproj with
  | none => rfl
  | some language =>
      rcases unseen with unfiltered | deep
      · have empty : language = "" := by
          simpa [ScanSettings.FiltersByLanguage, filter] using unfiltered
        simp [matchesLproj, empty]
      · rw [matchesLproj, matchesLproj, root.name_parent_join relative deep]

theorem isKeptResource_join
    (unseen : ¬ settings.FiltersByLanguage ∨ 2 ≤ path.components.length) :
    isKeptResource settings (some root) (root.join path) = isKeptResource settings none path := by
  have below : relativePath (some root) (root.join path) = path := by
    rw [relativePath, root.below?_join relative, Option.getD_some]
  rw [isKeptResource, isKeptResource, below, root.name_join relative nonempty,
    matchesLproj_join root relative unseen]
  rfl

theorem classify_join (unseen : ¬ settings.FiltersByLanguage ∨ 2 ≤ path.components.length) :
    classify settings (some root) (root.join path) = classify settings none path := by
  simp only [classify, hasExtension_join root relative nonempty,
    isKeptResource_join root relative nonempty unseen]

/-- Where the filter might see the roots, it is enough that neither root makes a resource. -/
theorem classify_join_eq (other : Path)
    (nested : settings.FiltersByLanguage →
      classify settings (some root) (root.join path) = .resource ∨
        classify settings (some other) (other.join path) = .resource →
      2 ≤ path.components.length) :
    classify settings (some root) (root.join path) =
      classify settings (some other) (other.join path) := by
  by_cases unseen : ¬ settings.FiltersByLanguage ∨ 2 ≤ path.components.length
  · rw [classify_join root relative nonempty unseen, classify_join other relative nonempty unseen]
  · obtain ⟨filters, shallow⟩ := not_or.mp unseen
    have neither := mt (nested (not_not.mp filters)) shallow
    obtain ⟨notHere, notThere⟩ := not_or.mp neither
    simp only [classify, hasExtension_join _ relative nonempty] at notHere notThere ⊢
    by_cases resource : hasExtension path settings.resourceExtension = true
    · simp only [resource, ↓reduceIte] at notHere notThere ⊢
      split at notHere <;> split at notThere <;> simp_all
    · simp only [resource]
      rfl

end Names

/-- The same files with the same bytes at two places; errors may name the different paths. -/
structure Relocation (root : Path) (listing : List Path) (content : Path → Except ReadError Bytes)
    (otherRoot : Path) (otherListing : List Path) (otherContent : Path → Except ReadError Bytes)
    (names : List Path) : Prop where
  named : ∀ name ∈ names, name.anchor = .relative ∧ name.components ≠ []
  listed : ∀ path, path ∈ listing ↔ ∃ name ∈ names, path = root.join name
  listedOther : ∀ path, path ∈ otherListing ↔ ∃ name ∈ names, path = otherRoot.join name
  sameBytes : ∀ name ∈ names, ∀ bytes,
    content (root.join name) = .ok bytes ↔ otherContent (otherRoot.join name) = .ok bytes

def NestsResources (settings : ScanSettings) (root otherRoot : Path) (names : List Path) : Prop :=
  settings.FiltersByLanguage → ∀ name ∈ names,
    classify settings (some root) (root.join name) = .resource ∨
      classify settings (some otherRoot) (otherRoot.join name) = .resource →
    2 ≤ name.components.length

instance (settings : ScanSettings) (root otherRoot : Path) (names : List Path) :
    Decidable (NestsResources settings root otherRoot names) :=
  inferInstanceAs (Decidable (settings.FiltersByLanguage → ∀ name ∈ names, _ → _))

structure SameFindings (left right : ScanResult) : Prop where
  defined : ∀ text, text ∈ left.definedKeys.texts ↔ text ∈ right.definedKeys.texts
  literals : ∀ text, text ∈ left.usedLiterals ↔ text ∈ right.usedLiterals
  unused : left.unusedTexts = right.unusedTexts

section Extraction

theorem texts_keysOfSites (file other : Option String) (sites : List KeySite) :
    (keysOfSites file sites).texts = (keysOfSites other sites).texts := by
  have moved : (keysOfSites file sites).map ({ · with file := other }) =
      keysOfSites other sites := by
    have kept := KeySet.map_ofList (sites.map (KeySite.key file)) ({ · with file := other })
      fun _ _ => Iff.rfl
    rw [List.map_map] at kept
    exact kept
  rw [← moved, KeySet.texts, KeySet.texts, List.map_map]
  rfl

/-- The name of a file is seen in the errors that concern this file only. -/
theorem extractBytes_moved (grammar : Grammar) (bytes : Bytes) (file other : String) :
    grammar.extractBytes bytes file = grammar.extractBytes bytes other ∨
    ∃ error otherError, grammar.extractBytes bytes file = .error (.audit error) ∧
      grammar.extractBytes bytes other = .error (.audit otherError) ∧
      error.failureKind?.isSome = true ∧ otherError.failureKind?.isSome = true := by
  simp only [Grammar.extractBytes, Grammar.extract]
  split
  next =>
    split
    next parse _ =>
      simp only [literalsOfTree]
      split
      next => exact .inr ⟨_, _, rfl, rfl, rfl, rfl⟩
      next => exact .inl rfl
    next => exact .inl rfl
  next => exact .inr ⟨_, _, rfl, rfl, rfl, rfl⟩

theorem settle_of_failureKind {error : AuditError} (concerned : error.failureKind?.isSome = true)
    (task : Task) : ∃ contribution, settle task (.error (.audit error)) = .ok contribution := by
  cases error <;> first | exact ⟨_, rfl⟩ | simp [AuditError.failureKind?] at concerned

theorem settle_error_moved {task : Task} {failure : Failure} {contribution : Contribution}
    (settled : settle task (.error failure) = .ok contribution) (other : Task) :
    ∃ moved, settle other (.error failure) = .ok moved := by
  cases failure with
  | audit error =>
      simp only [settle] at settled ⊢
      split at settled
      next => exact ⟨_, rfl⟩
      next => simp at settled
  | unreadable error => exact ⟨_, rfl⟩
  | _ => simp [settle] at settled

variable {extractors : Extractors} {read otherRead : Except ReadError Bytes}
  (same : ∀ bytes, read = .ok bytes ↔ otherRead = .ok bytes)

include same

theorem DefinesKey.moved {path : Path} {text : String}
    (defines : DefinesKey extractors path read text) (other : Path) :
    DefinesKey extractors other otherRead text := by
  obtain ⟨content, keys, isRead, found, member⟩ := defines
  obtain ⟨decoded, encoding, isDecoded, rfl⟩ := keysOfBytes_eq_ok_iff.mp found
  rw [texts_keysOfSites _ (some other.text)] at member
  exact ⟨content, _, (same content).mp isRead, keysOfBytes_of_decodeText isDecoded _, member⟩

theorem UsesLiteral.moved {path : Path} {text : String}
    (uses : UsesLiteral extractors path read text) (other : Path) :
    UsesLiteral extractors other otherRead text := by
  obtain ⟨content, literals, isRead, found, member⟩ := uses
  rcases extractBytes_moved extractors.grammar content path.text other.text with
    unmoved | ⟨_, _, failed, _⟩
  · exact ⟨content, literals, (same content).mp isRead, unmoved ▸ found, member⟩
  · simp [failed] at found

theorem exists_outcomeOf_moved {path : Path} {kind : FileKind} {contribution : Contribution}
    (done : outcomeOf extractors ⟨path, kind⟩ read = .ok contribution) (other : Path) :
    ∃ moved, outcomeOf extractors ⟨other, kind⟩ otherRead = .ok moved := by
  cases isRead : otherRead with
  | error error => exact ⟨_, rfl⟩
  | ok content =>
      have isReadHere := (same content).mpr isRead
      subst isReadHere
      cases kind with
      | resource => exact @completes_of_resource extractors (fun _ => .ok content) ⟨other, .resource⟩ rfl
      | ignored => exact ⟨_, rfl⟩
      | source =>
          simp only [outcomeOf, contributionOf_of_source] at done ⊢
          rcases extractBytes_moved extractors.grammar content path.text other.text with
            unmoved | ⟨_, error, _, failed, _, concerned⟩
          · rw [← unmoved]
            cases found : extractors.grammar.extractBytes content path.text with
            | ok literals => exact ⟨_, rfl⟩
            | error failure =>
                rw [found] at done
                exact settle_error_moved done _
          · rw [failed]
            exact settle_of_failureKind concerned _

end Extraction

namespace Relocation

variable {root otherRoot : Path} {listing otherListing names : List Path}
  {content otherContent : Path → Except ReadError Bytes} {settings : ScanSettings}

theorem symm
    (moved : Relocation root listing content otherRoot otherListing otherContent names) :
    Relocation otherRoot otherListing otherContent root listing content names :=
  ⟨moved.named, moved.listedOther, moved.listed,
    fun name member bytes => (moved.sameBytes name member bytes).symm⟩

variable (moved : Relocation root listing content otherRoot otherListing otherContent names)

include moved

theorem exists_listed_iff (holds : Path → Prop) :
    (∃ path ∈ listing, holds path) ↔ ∃ name ∈ names, holds (root.join name) := by
  simp only [moved.listed]
  constructor
  · rintro ⟨_, ⟨name, member, rfl⟩, met⟩
    exact ⟨name, member, met⟩
  · rintro ⟨name, member, met⟩
    exact ⟨_, ⟨name, member, rfl⟩, met⟩

variable (nested : NestsResources settings root otherRoot names)

include nested

theorem classify_eq {name : Path} (member : name ∈ names) :
    classify settings (some root) (root.join name) =
      classify settings (some otherRoot) (otherRoot.join name) :=
  classify_join_eq root (moved.named name member).1 (moved.named name member).2 otherRoot
    fun filters => nested filters name member

theorem exists_candidate {task : Task}
    (candidate : task ∈ candidates settings otherRoot otherListing) :
    ∃ name ∈ names, task.path = otherRoot.join name ∧
      ⟨root.join name, task.kind⟩ ∈ candidates settings root listing := by
  obtain ⟨listed, classified, counted⟩ := mem_candidates.mp candidate
  obtain ⟨name, member, place⟩ := (moved.listedOther task.path).mp listed
  rw [place, ← moved.classify_eq nested member] at classified
  exact ⟨name, member, place, mem_candidates.mpr
    ⟨(moved.listed _).mpr ⟨name, member, rfl⟩, classified, counted⟩⟩

end Relocation

theorem NestsResources.symm {settings : ScanSettings} {root otherRoot : Path} {names : List Path}
    (nested : NestsResources settings root otherRoot names) :
    NestsResources settings otherRoot root names :=
  fun filters name member either => nested filters name member either.symm

section Scan

variable {Store OtherStore : Type} {settings : ScanSettings} {extractors : Extractors}
  {files : FileSystem Store} {store : Store} {otherFiles : FileSystem OtherStore}
  {otherStore : OtherStore} {root otherRoot : String} {listing otherListing names : List Path}
  (moved : Relocation (Path.ofString root) listing (files.content store)
    (Path.ofString otherRoot) otherListing (otherFiles.content otherStore) names)
  (nested : NestsResources settings (Path.ofString root) (Path.ofString otherRoot) names)
  {schedule otherSchedule : List Task → List Task} (complete : IsSchedule schedule)
  (completeOther : IsSchedule otherSchedule)

include moved nested complete completeOther

theorem returns_of_relocation {result : ScanResult}
    (returned : (scan settings extractors files.toReader store schedule root
      (.ok listing)).1.outcome = .ok result) :
    ∃ other, (scan settings extractors otherFiles.toReader otherStore otherSchedule otherRoot
      (.ok otherListing)).1.outcome = .ok other := by
  obtain ⟨start, total⟩ :=
    (exists_returned_iff settings extractors files store root listing complete).mp ⟨_, returned⟩
  refine (exists_returned_iff settings extractors otherFiles otherStore otherRoot otherListing
    completeOther).mpr ⟨?_, fun task candidate => ?_⟩
  · refine start.imp_left fun nothing => ?_
    refine List.eq_nil_iff_forall_not_mem.mpr fun task candidate => ?_
    obtain ⟨_, _, _, here⟩ := moved.exists_candidate nested candidate
    exact List.not_mem_nil (nothing ▸ here)
  · obtain ⟨name, member, place, here⟩ := moved.exists_candidate nested candidate
    obtain ⟨contribution, done⟩ := total _ here
    obtain ⟨path, kind⟩ := task
    subst place
    exact exists_outcomeOf_moved (moved.sameBytes name member) done _

theorem sameFindings_of_relocation {result other : ScanResult}
    (returned : (scan settings extractors files.toReader store schedule root
      (.ok listing)).1.outcome = .ok result)
    (returnedOther : (scan settings extractors otherFiles.toReader otherStore otherSchedule
      otherRoot (.ok otherListing)).1.outcome = .ok other) :
    SameFindings result other := by
  have defined : ∀ text, text ∈ result.definedKeys.texts ↔ text ∈ other.definedKeys.texts := by
    intro text
    rw [mem_texts_of_returned complete returned, mem_texts_of_returned completeOther returnedOther,
      moved.exists_listed_iff, moved.symm.exists_listed_iff]
    refine exists_congr fun name => and_congr_right fun member => ?_
    rw [moved.classify_eq nested member]
    exact and_congr_right fun _ =>
      ⟨fun defines => defines.moved (moved.sameBytes name member) _,
        fun defines => defines.moved (moved.symm.sameBytes name member) _⟩
  have literals : ∀ text, text ∈ result.usedLiterals ↔ text ∈ other.usedLiterals := by
    intro text
    rw [mem_usedLiterals_of_returned complete returned,
      mem_usedLiterals_of_returned completeOther returnedOther, moved.exists_listed_iff,
      moved.symm.exists_listed_iff]
    refine exists_congr fun name => and_congr_right fun member => ?_
    rw [moved.classify_eq nested member]
    exact and_congr_right fun _ =>
      ⟨fun uses => uses.moved (moved.sameBytes name member) _,
        fun uses => uses.moved (moved.symm.sameBytes name member) _⟩
  refine ⟨defined, literals, ?_⟩
  have distinct := nodup_texts_of_returned returned
  have distinctOther := nodup_texts_of_returned returnedOther
  refine eq_of_increasing id ?_ ?_ fun text => ?_
  · simpa using ScanResult.unusedTexts_increasing distinct
  · simpa using ScanResult.unusedTexts_increasing distinctOther
  · rw [ScanResult.mem_unusedTexts, ScanResult.mem_unusedTexts, defined, literals]

theorem scan_of_relocation :
    OutcomesAgree SameFindings
      (scan settings extractors files.toReader store schedule root (.ok listing)).1.outcome
      (scan settings extractors otherFiles.toReader otherStore otherSchedule otherRoot
        (.ok otherListing)).1.outcome := by
  cases here : (scan settings extractors files.toReader store schedule root
      (.ok listing)).1.outcome with
  | ok result =>
      obtain ⟨other, there⟩ := returns_of_relocation moved nested complete completeOther here
      rw [there]
      exact .values (sameFindings_of_relocation moved nested complete completeOther here there)
  | error failure =>
      cases there : (scan settings extractors otherFiles.toReader otherStore otherSchedule
          otherRoot (.ok otherListing)).1.outcome with
      | ok other =>
          obtain ⟨result, again⟩ :=
            returns_of_relocation moved.symm nested.symm completeOther complete there
          simp [here] at again
      | error otherFailure => exact .failures failure otherFailure

end Scan

section Tree

def DiskNode.shownPaths (node : DiskNode) : List Path :=
  node.shownBelow.map fun names => Path.ofString ("/".intercalate names)

section Plain

variable {node : DiskNode} (plain : node.IsPlain)

include plain

theorem DiskNode.IsPlain.mem_shownPaths {path : Path} :
    path ∈ node.shownPaths ↔
      ∃ file ∈ node.filesBelow, (∀ name ∈ file.1, isHidden name = false) ∧
        path.anchor = .relative ∧ path.components = file.1 := by
  simp only [shownPaths, List.mem_map, mem_shownBelow]
  constructor
  · rintro ⟨names, ⟨⟨content, member⟩, shown⟩, rfl⟩
    rw [Path.ofString_intercalate (plain.isComponent_of_mem_filesBelow member)]
    exact ⟨_, member, shown, rfl, rfl⟩
  · rintro ⟨⟨names, content⟩, member, shown, relative, components⟩
    refine ⟨names, ⟨⟨content, member⟩, shown⟩, ?_⟩
    rw [Path.ofString_intercalate (plain.isComponent_of_mem_filesBelow member)]
    exact Path.eq_of_parts relative.symm components.symm

theorem DiskNode.IsPlain.join_eq_descend (base : Path) {path : Path} {file : List String × Bytes}
    (member : file ∈ node.filesBelow) (relative : path.anchor = .relative)
    (components : path.components = file.1) : base.join path = base.descend file.1 := by
  rw [Path.descend_eq_join base (plain.isComponent_of_mem_filesBelow member)]
  exact congrArg base.join (Path.eq_of_parts relative components)

theorem DiskNode.IsPlain.exists_shown_iff (base path : Path) :
    (∃ file ∈ node.filesBelow, (∀ name ∈ file.1, isHidden name = false) ∧
        path = base.descend file.1) ↔
      ∃ own ∈ node.shownPaths, path = base.join own := by
  constructor
  · rintro ⟨file, member, shown, rfl⟩
    have component : ∀ name ∈ file.1, isComponent name.toList = true :=
      plain.isComponent_of_mem_filesBelow member
    exact ⟨⟨.relative, file.1, component⟩,
      plain.mem_shownPaths.mpr ⟨file, member, shown, rfl, rfl⟩,
      (plain.join_eq_descend base member rfl rfl).symm⟩
  · rintro ⟨own, isShown, rfl⟩
    obtain ⟨file, member, shown, relative, components⟩ := plain.mem_shownPaths.mp isShown
    exact ⟨file, member, shown, plain.join_eq_descend base member relative components⟩

end Plain

theorem Relocation.ofDisk {disk otherDisk : Disk} {root otherRoot name otherName : String}
    {entries : List DiskNode}
    (found : disk.lookup (Path.ofString root) = .ok (.directory name entries))
    (foundOther : otherDisk.lookup (Path.ofString otherRoot) = .ok (.directory otherName entries))
    (plain : (DiskNode.directory name entries).IsPlain) :
    ∃ listing otherListing, disk.enumerate root = .ok listing ∧
      otherDisk.enumerate otherRoot = .ok otherListing ∧
      Relocation (Path.ofString root) listing (Disk.fileSystem.content disk)
        (Path.ofString otherRoot) otherListing (Disk.fileSystem.content otherDisk)
        (DiskNode.directory name entries).shownPaths := by
  have plainOther : (DiskNode.directory otherName entries).IsPlain := by
    cases plain with
    | directory _ distinct named inside => exact .directory _ distinct named inside
  have sameFiles : (DiskNode.directory otherName entries).filesBelow =
      (DiskNode.directory name entries).filesBelow := by
    rw [DiskNode.filesBelow_directory, DiskNode.filesBelow_directory]
  obtain ⟨listing, listed, _, exact⟩ := disk.enumerate_of_lookup found plain
  obtain ⟨otherListing, listedOther, _, exactOther⟩ :=
    otherDisk.enumerate_of_lookup foundOther plainOther
  rw [sameFiles] at exactOther
  refine ⟨listing, otherListing, listed, listedOther, ?_, ?_, ?_, ?_⟩
  · -- The directory itself is no file, so at least one name leads to each file.
    intro own isShown
    obtain ⟨file, member, _, relative, components⟩ := plain.mem_shownPaths.mp isShown
    rw [DiskNode.filesBelow_directory, List.mem_flatMap] at member
    obtain ⟨entry, _, under⟩ := member
    obtain ⟨rest, names, _⟩ := DiskNode.mem_filesUnder.mp under
    exact ⟨relative, by simp [components, names]⟩
  · exact fun path => (exact path).trans (plain.exists_shown_iff _ path)
  · exact fun path => (exactOther path).trans (plain.exists_shown_iff _ path)
  · intro own isShown bytes
    obtain ⟨file, member, _, relative, components⟩ := plain.mem_shownPaths.mp isShown
    have here := disk.read_descend found plain member
    have there := otherDisk.read_descend foundOther plainOther (sameFiles ▸ member)
    rw [← plain.join_eq_descend _ member relative components] at here there
    change disk.read _ = _ ↔ otherDisk.read _ = _
    rw [here, there]

end Tree

theorem project_may_stand_anywhere (settings : ScanSettings) (extractors : Extractors) :
    (∀ root otherRoot name : Path, name.anchor = .relative → name.components ≠ [] →
      ¬ settings.FiltersByLanguage ∨ 2 ≤ name.components.length →
      classify settings (some root) (root.join name) =
          classify settings (some otherRoot) (otherRoot.join name) ∧
        classify settings (some otherRoot) (otherRoot.join name) =
          classify settings none name) ∧
    (∀ {Store OtherStore : Type} (files : FileSystem Store) (store : Store)
      (otherFiles : FileSystem OtherStore) (otherStore : OtherStore) (root otherRoot : String)
      (listing otherListing names : List Path) (schedule otherSchedule : List Task → List Task),
      Relocation (Path.ofString root) listing (files.content store) (Path.ofString otherRoot)
        otherListing (otherFiles.content otherStore) names →
      NestsResources settings (Path.ofString root) (Path.ofString otherRoot) names →
      IsSchedule schedule → IsSchedule otherSchedule →
      OutcomesAgree SameFindings
        (scan settings extractors files.toReader store schedule root (.ok listing)).1.outcome
        (scan settings extractors otherFiles.toReader otherStore otherSchedule otherRoot
          (.ok otherListing)).1.outcome) ∧
    ∀ (disk otherDisk : Disk) (root otherRoot name otherName : String) (entries : List DiskNode)
      (schedule otherSchedule : List Task → List Task),
      disk.lookup (Path.ofString root) = .ok (.directory name entries) →
      otherDisk.lookup (Path.ofString otherRoot) = .ok (.directory otherName entries) →
      (DiskNode.directory name entries).IsPlain →
      NestsResources settings (Path.ofString root) (Path.ofString otherRoot)
        (DiskNode.directory name entries).shownPaths →
      IsSchedule schedule → IsSchedule otherSchedule →
      OutcomesAgree SameFindings
        (scan settings extractors Disk.fileSystem.toReader disk schedule root
          (disk.enumerate root)).1.outcome
        (scan settings extractors Disk.fileSystem.toReader otherDisk otherSchedule otherRoot
          (otherDisk.enumerate otherRoot)).1.outcome := by
  refine ⟨?_, ?_, ?_⟩
  · intro root otherRoot name relative nonempty unseen
    rw [classify_join root relative nonempty unseen, classify_join otherRoot relative nonempty unseen]
    exact ⟨rfl, rfl⟩
  · intro Store OtherStore files store otherFiles otherStore root otherRoot listing otherListing
      names schedule otherSchedule moved nested complete completeOther
    exact scan_of_relocation moved nested complete completeOther
  · intro disk otherDisk root otherRoot name otherName entries schedule otherSchedule found
      foundOther plain nested complete completeOther
    obtain ⟨listing, otherListing, listed, listedOther, moved⟩ :=
      Relocation.ofDisk found foundOther plain
    rw [listed, listedOther]
    exact scan_of_relocation moved nested complete completeOther

def movedEntries : List DiskNode :=
  [.file "main.swift" (encodeUtf8 "show(\"used\")".toList),
    .directory "en.lproj"
      [.file "Main.strings" (encodeUtf8 "\"used\" = \"1\"; \"spare\" = \"2\";".toList)]]

def movedDisk : Disk :=
  { top := .directory ""
      [.directory "Pods" [.directory "app" movedEntries],
        .directory "home" [.directory "copy" movedEntries]]
    workingDirectory := ["home"] }

def movedSettings : ScanSettings :=
  { ScanSettings.standard none with lproj := some "en" }

def movedListing : List Path :=
  ["/Pods/app/main.swift", "/Pods/app/en.lproj/Main.strings"].map Path.ofString

theorem resolvePath_movedDisk :
    movedDisk.resolvePath (Path.ofString "/Pods/app") = .ok ["Pods", "app"] ∧
    movedDisk.resolvePath (Path.ofString "./copy") = .ok ["home", "copy"] := by
  have root : (Path.ofString "/Pods/app").anchor = .root ∧
      (Path.ofString "/Pods/app").components = ["Pods", "app"] := by decide
  have otherRoot : (Path.ofString "./copy").anchor = .relative ∧
      (Path.ofString "./copy").components = ["copy"] := by decide
  constructor
  · simp [Disk.resolvePath, Disk.resolve, Disk.step, Disk.startOf, root, movedDisk,
      DiskNode.at?, DiskNode.find?, DiskNode.entries, DiskNode.name]
  · simp [Disk.resolvePath, Disk.resolve, Disk.step, Disk.startOf, otherRoot, movedDisk,
      DiskNode.at?, DiskNode.find?, DiskNode.entries, DiskNode.name]

theorem enumerate_movedDisk :
    movedDisk.enumerate "/Pods/app" = .ok movedListing := by
  have listed : (movedDisk.listBelow (Path.ofString "/Pods/app") ["Pods", "app"]
      (.directory "app" movedEntries)).mapM id = .ok movedListing := by
    have named : movedDisk.listBelow (Path.ofString "/Pods/app") ["Pods", "app"]
        (.directory "app" movedEntries) = movedListing.map .ok := by
      decide +kernel
    exact mapM_id_eq_ok_iff.mpr named
  rw [Disk.enumerate]
  simp only [resolvePath_movedDisk]
  exact mapError_eq_ok_iff.mpr listed

theorem isPlain_movedEntries : (DiskNode.directory "app" movedEntries).IsPlain := by
  refine .directory _ (by decide) (by decide) fun entry member => ?_
  simp only [movedEntries, List.mem_cons, List.not_mem_nil, or_false] at member
  rcases member with rfl | rfl
  · exact .file _ _
  · exact .directory _ (by decide) (by decide) (by simp [DiskNode.IsPlain.file])

theorem lookup_movedDisk :
    movedDisk.lookup (Path.ofString "/Pods/app") = .ok (.directory "app" movedEntries) ∧
    movedDisk.lookup (Path.ofString "./copy") = .ok (.directory "copy" movedEntries) :=
  ⟨movedDisk.lookup_eq_ok_iff.mpr ⟨_, resolvePath_movedDisk.1, rfl⟩,
    movedDisk.lookup_eq_ok_iff.mpr ⟨_, resolvePath_movedDisk.2, rfl⟩⟩

/-- What the scan of the disk finds is evaluated on the same files in memory. -/
theorem unusedTexts_movedDisk :
    ∃ result, (scan movedSettings sampleExtractors Disk.fileSystem.toReader movedDisk id
      "/Pods/app" (.ok movedListing)).1.outcome = .ok result ∧
      result.unusedTexts = ["spare"] := by
  let stored := (DiskNode.directory "app" movedEntries).spelledFiles
  have mirrored : ∀ path ∈ movedListing,
      Disk.fileSystem.content movedDisk path =
        MemoryFiles.fileSystem.content (MemoryFiles.ofFiles "/Pods/app" stored) path := by
    obtain ⟨listed, enumerated, _, exact⟩ :=
      movedDisk.enumerate_of_lookup lookup_movedDisk.1 isPlain_movedEntries
    rw [enumerate_movedDisk] at enumerated
    obtain rfl := Except.ok.inj enumerated
    intro path member
    obtain ⟨file, isFile, _, rfl⟩ := (exact path).mp member
    rw [MemoryFiles.content_descend isPlain_movedEntries (fun _ => Iff.rfl) isFile]
    exact movedDisk.read_descend lookup_movedDisk.1 isPlain_movedEntries isFile
  have unused : (scan movedSettings sampleExtractors MemoryFiles.fileSystem.toReader
      (MemoryFiles.ofFiles "/Pods/app" stored) id "/Pods/app"
      (.ok movedListing)).1.outcome.toOption.map ScanResult.unusedTexts =
        some ["spare"] := by
    decide +kernel
  rw [scan_congr sampleExtractors movedSettings isSchedule_id "/Pods/app" mirrored]
  generalize (scan movedSettings sampleExtractors MemoryFiles.fileSystem.toReader _ id _
    _).1.outcome = outcome at unused ⊢
  cases outcome with
  | error failure => simp [Except.toOption] at unused
  | ok result => exact ⟨result, rfl, Option.some.inj unused⟩

theorem project_may_stand_anywhere_in_pods :
    movedSettings.FiltersByLanguage ∧
    movedSettings.excludedComponents = ["Pods", "Carthage"] ∧
    NestsResources movedSettings (Path.ofString "/Pods/app") (Path.ofString "./copy")
      (DiskNode.directory "app" movedEntries).shownPaths ∧
    classify movedSettings (some (Path.ofString "/Pods/app"))
      ((Path.ofString "/Pods/app").join (Path.ofString "en.lproj/Main.strings")) = .resource ∧
    ∃ other,
      (scan movedSettings sampleExtractors Disk.fileSystem.toReader movedDisk List.reverse
        "./copy" (movedDisk.enumerate "./copy")).1.outcome = .ok other ∧
      other.unusedTexts = ["spare"] := by
  have nested : NestsResources movedSettings (Path.ofString "/Pods/app") (Path.ofString "./copy")
      (DiskNode.directory "app" movedEntries).shownPaths := by
    decide +kernel
  obtain ⟨classified, _, moved⟩ := project_may_stand_anywhere movedSettings sampleExtractors
  have kinds := classified (Path.ofString "/Pods/app") (Path.ofString "./copy")
    (Path.ofString "en.lproj/Main.strings") (by decide) (by decide) (.inr (by decide))
  have outcomes := moved movedDisk movedDisk "/Pods/app" "./copy" "app" "copy" movedEntries id
    List.reverse lookup_movedDisk.1 lookup_movedDisk.2 isPlain_movedEntries nested isSchedule_id
    isSchedule_reverse
  refine ⟨by decide, rfl, nested, (kinds.1.trans kinds.2).trans (by decide +kernel), ?_⟩
  obtain ⟨result, returned, unused⟩ := unusedTexts_movedDisk
  rw [enumerate_movedDisk, returned] at outcomes
  generalize (scan movedSettings sampleExtractors Disk.fileSystem.toReader movedDisk List.reverse
    "./copy" (movedDisk.enumerate "./copy")).1.outcome = there at outcomes ⊢
  cases outcomes with
  | values same => exact ⟨_, rfl, same.unused ▸ unused⟩

end LocalizationAudit

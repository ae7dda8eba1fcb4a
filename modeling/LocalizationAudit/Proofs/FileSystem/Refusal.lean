import LocalizationAudit.Proofs.FileSystem.Disk

/-!
Names that a listing comes to and cannot tell whether they are files. One of them ends the listing
with an error. There are none where every directory is open and no name is too long, not even in
the text of a link.
-/

namespace LocalizationAudit

namespace Disk

variable {disk : Disk} {location : List String} {node entry : DiskNode} {root : String}

/-- Somewhere below a directory, and behind no hidden name, stands a name that is refused. -/
inductive Refuses (disk : Disk) : List String → DiskNode → Prop
  | here {location : List String} {name : String} {entries : List DiskNode} {access : Access}
      {entry : DiskNode} {fault : LookupFault} :
      access.listable = true → entry ∈ entries → isHidden entry.name = false →
      disk.isRegularFile location access entry = .error fault →
      Refuses disk location (.directory name entries access)
  | deeper {location : List String} {name : String} {entries : List DiskNode} {access : Access}
      {entry : DiskNode} :
      access.listable = true → access.searchable = true → entry ∈ entries →
      isHidden entry.name = false → entry.isDirectory = true →
      Refuses disk (location ++ [entry.name]) entry →
      Refuses disk location (.directory name entries access)

section Listing

theorem mem_inOrder {α : Type} {named : List (String × List α)} {item : α} :
    item ∈ inOrder named ↔ ∃ listed ∈ named, item ∈ listed.2 := by
  rw [(inOrder_perm named).mem_iff, List.mem_flatMap]

theorem error_mem_listFile_iff {path : Path} {access : Access} {error : ReadError} :
    .error error ∈ disk.listFile path location access entry ↔
      ∃ fault, disk.isRegularFile location access entry = .error fault ∧
        error = fault.readError (path.child entry.name).text := by
  unfold listFile
  cases tested : disk.isRegularFile location access entry with
  | ok isFile => cases isFile <;> simp
  | error fault => simp

theorem isDirectory_of_refused {access : Access} {fault : LookupFault}
    (refused : disk.isRegularFile location access entry = .error fault) :
    entry.isDirectory = false := by
  cases entry with
  | directory => simp [isRegularFile] at refused
  | file | sealed | link => rfl

theorem refuses_of_error_mem {path : Path} {location : List String} {node : DiskNode}
    {error : ReadError} (member : .error error ∈ disk.listBelow path location node) :
    disk.Refuses location node := by
  match node with
  | .directory name entries access =>
      rw [listBelow] at member
      split at member
      next listable =>
        rcases List.mem_append.mp member with amongFiles | inside
        · obtain ⟨_, listed, own⟩ := mem_inOrder.mp amongFiles
          obtain ⟨entry, shown, rfl⟩ := List.mem_map.mp listed
          obtain ⟨isEntry, both⟩ := List.mem_filter.mp shown
          obtain ⟨_, visible⟩ := (Bool.and_eq_true _ _).mp both
          obtain ⟨fault, refused, _⟩ := error_mem_listFile_iff.mp own
          exact .here listable isEntry (by simpa using visible) refused
        · split at inside
          next searchable =>
            obtain ⟨_, listed, own⟩ := mem_inOrder.mp inside
            rw [listEntries_eq] at listed
            obtain ⟨entry, entered, rfl⟩ := List.mem_map.mp listed
            obtain ⟨isEntry, both⟩ := List.mem_filter.mp entered
            obtain ⟨isDirectory, visible⟩ := (Bool.and_eq_true _ _).mp both
            have smaller := List.sizeOf_lt_of_mem isEntry
            exact .deeper listable searchable isEntry (by simpa using visible) isDirectory
              (refuses_of_error_mem own)
          next => simp at inside
      next => simp at member
  | .file _ _ | .sealed _ | .link _ _ => simp [listBelow] at member
termination_by sizeOf node
decreasing_by
  subst_vars
  simp only [DiskNode.directory.sizeOf_spec]
  omega

theorem exists_error_mem_of_refuses (refuses : disk.Refuses location node) (path : Path) :
    ∃ error, .error error ∈ disk.listBelow path location node := by
  induction refuses generalizing path with
  | @here location name entries access entry fault listable isEntry visible refused =>
      refine ⟨fault.readError (path.child entry.name).text, ?_⟩
      rw [listBelow, if_pos listable]
      have own : .error (fault.readError (path.child entry.name).text) ∈
          disk.listFile path location access entry :=
        error_mem_listFile_iff.mpr ⟨fault, refused, rfl⟩
      have noDirectory : entry.isDirectory = false := isDirectory_of_refused refused
      have listed : (entry.name, disk.listFile path location access entry) ∈
          disk.listFiles path location access entries :=
        List.mem_map.mpr
          ⟨entry, List.mem_filter.mpr ⟨isEntry, by simp [visible, noDirectory]⟩, rfl⟩
      exact List.mem_append_left _ (mem_inOrder.mpr ⟨_, listed, own⟩)
  | @deeper location name entries access entry listable searchable isEntry visible isDirectory _ ih =>
      obtain ⟨error, inside⟩ := ih (path.child entry.name)
      refine ⟨error, ?_⟩
      rw [listBelow, if_pos listable, if_pos searchable, listEntries_eq]
      refine List.mem_append_right _ (mem_inOrder.mpr ⟨(entry.name, _), ?_, inside⟩)
      exact List.mem_map.mpr
        ⟨entry, List.mem_filter.mpr ⟨isEntry, by simp [isDirectory, visible]⟩, rfl⟩

theorem refuses_iff (path : Path) :
    disk.Refuses location node ↔ ∃ error, .error error ∈ disk.listBelow path location node :=
  ⟨fun refuses => exists_error_mem_of_refuses refuses path,
    fun ⟨_, member⟩ => refuses_of_error_mem member⟩

theorem exists_mapM_id_iff {ε α : Type} {items : List (Except ε α)} :
    (∃ values, items.mapM id = .ok values) ↔ ∀ error, .error error ∉ items := by
  simp only [mapM_id_eq_ok_iff]
  constructor
  · rintro ⟨values, rfl⟩ error member
    obtain ⟨_, _, same⟩ := List.mem_map.mp member
    exact absurd same (by simp)
  · intro clean
    induction items with
    | nil => exact ⟨[], rfl⟩
    | cons item others ih =>
        obtain ⟨values, rfl⟩ := ih fun error member => clean error (List.mem_cons_of_mem _ member)
        cases item with
        | error error => exact absurd List.mem_cons_self (clean error)
        | ok value => exact ⟨value :: values, rfl⟩

def RefusesBelow (disk : Disk) (path : Path) : Prop :=
  ∃ location node, disk.resolvePath path = .ok location ∧ disk.top.at? location = some node ∧
    disk.Refuses location node

theorem exists_listing_iff :
    (∃ listing, disk.enumerate root = .ok listing) ↔
      (∃ node, disk.lookup (Path.ofString root) = .ok node ∧ node.isDirectory = true) ∧
        ¬ disk.RefusesBelow (Path.ofString root) := by
  rw [enumerate, RefusesBelow]
  simp only [disk.lookup_eq_ok_iff]
  cases resolved : disk.resolvePath (Path.ofString root) with
  | error fault => cases absent : fault.isAbsence <;> simp [absent]
  | ok location =>
      cases found : disk.top.at? location with
      | none => simp [found]
      | some node =>
          cases node with
          | file | sealed | link => simp [found, DiskNode.isDirectory]
          | directory name entries access =>
              have collected := @exists_mapM_id_iff _ _
                (disk.listBelow (Path.ofString root) location (.directory name entries access))
              rw [← not_exists, ← refuses_iff] at collected
              simp [found, mapError_eq_ok_iff, collected, DiskNode.isDirectory]

end Listing

end Disk

section Open

def IsShortName (name : String) : Prop :=
  name.utf8ByteSize ≤ maxNameBytes

instance : DecidablePred IsShortName :=
  fun name => inferInstanceAs (Decidable (name.utf8ByteSize ≤ maxNameBytes))

/-- Every directory can be listed and searched, and no name is too long. -/
inductive DiskNode.IsOpen : DiskNode → Prop
  | file (name : String) (content : Bytes) : IsOpen (.file name content)
  | sealed (name : String) : IsOpen (.sealed name)
  | directory (name : String) {entries : List DiskNode}
      (short : ∀ entry ∈ entries, IsShortName entry.name)
      (inside : ∀ entry ∈ entries, IsOpen entry) : IsOpen (.directory name entries)
  | link (name : String) {target : String}
      (short : ∀ step ∈ Disk.linkedNames target, IsShortName step) : IsOpen (.link name target)

namespace Disk

variable {disk : Disk} {location names : List String} {node entry : DiskNode}

theorem isOpen_at? {node found : DiskNode} (isOpen : node.IsOpen) {names : List String}
    (located : node.at? names = some found) : found.IsOpen := by
  induction names generalizing node with
  | nil => exact Option.some.inj located ▸ isOpen
  | cons name names ih =>
      rw [DiskNode.at?] at located
      split at located
      next child isChild =>
        cases isOpen with
        | directory _ _ inside => exact ih (inside child (List.mem_of_find?_eq_some isChild)) located
        | file | sealed | link => simp [DiskNode.find?, DiskNode.entries] at isChild
      next => simp at located

inductive StepTaken (disk : Disk) (location : List String) (name : String) : Prop
  | stands (place : List String) (same : disk.step location name = .ok (.stand place))
  | follows {own linkName target : String} {entries : List DiskNode} {access : Access}
      (here : disk.top.at? location = some (.directory own entries access))
      (member : .link linkName target ∈ entries)
      (same : disk.step location name = .ok (.follow target))
  | closed {own : String} {entries : List DiskNode} {access : Access}
      (here : disk.top.at? location = some (.directory own entries access))
      (unsearchable : access.searchable = false)
      (same : disk.step location name = .error .notSearchable)
  | unknown (same : disk.step location name =
      .error (if name.utf8ByteSize ≤ maxNameBytes then .missing else .nameTooLong))
  | nowhere {fault : LookupFault} (same : disk.step location name = .error fault)
      (absent : fault.isAbsence = true)

theorem step_taken (disk : Disk) (location : List String) (name : String) :
    StepTaken disk location name := by
  cases here : disk.top.at? location with
  | none => exact .nowhere (by rw [step, here]) rfl
  | some node =>
      cases node with
      | file | sealed | link => exact .nowhere (by rw [step, here]) rfl
      | directory own entries access =>
          by_cases same : name = ""
          · exact .stands location (by simp [step, here, same])
          by_cases searchable : access.searchable = true
          · by_cases stays : name = "."
            · exact .stands location (by simp [step, here, searchable, stays])
            by_cases isParent : name = ".."
            · exact .stands location.dropLast (by simp [step, here, searchable, isParent])
            cases found : entries.find? (·.name == name) with
            | none =>
                exact .unknown (by
                  simp [step, here, same, searchable, stays, isParent, found])
            | some entry =>
                have member := List.mem_of_find?_eq_some found
                cases entry with
                | link linkName target =>
                    exact .follows here member (by
                      simp [step, here, same, searchable, stays, isParent, found])
                | file | sealed | directory =>
                    exact .stands (location ++ [name]) (by
                      simp [step, here, same, searchable, stays, isParent, found])
          · have closed : access.searchable = false := by simpa using searchable
            exact .closed here closed (by simp [step, here, same, closed])

variable (isOpen : disk.top.IsOpen)

include isOpen

theorem isAbsence_of_step {name : String} (short : IsShortName name) {fault : LookupFault}
    (refused : disk.step location name = .error fault) : fault.isAbsence = true := by
  cases step_taken disk location name with
  | stands place same => simp [same] at refused
  | follows _ _ same => simp [same] at refused
  | closed here unsearchable =>
      cases isOpen_at? isOpen here
      simp at unsearchable
  | unknown same =>
      rw [if_pos (show name.utf8ByteSize ≤ maxNameBytes from short)] at same
      obtain rfl := Except.error.inj (same.symm.trans refused)
      rfl
  | nowhere same absent =>
      obtain rfl := Except.error.inj (same.symm.trans refused)
      exact absent

theorem short_of_step {name target : String}
    (follows : disk.step location name = .ok (.follow target)) :
    ∀ step ∈ linkedNames target, IsShortName step := by
  cases step_taken disk location name with
  | follows here member same =>
      obtain rfl := Step.follow.inj (Except.ok.inj (same.symm.trans follows))
      cases isOpen_at? isOpen here with
      | directory _ _ inside =>
          cases inside _ member with
          | link _ short => exact short
  | stands place same => simp [same] at follows
  | closed _ _ same => simp [same] at follows
  | unknown same => simp [same] at follows
  | nowhere same => simp [same] at follows

theorem isAbsence_of_resolve {links : Nat} (short : ∀ name ∈ names, IsShortName name)
    {fault : LookupFault} (refused : disk.resolve links location names = .error fault) :
    fault.isAbsence = true := by
  fun_induction resolve disk links location names with
  | case1 => simp at refused
  | case2 links location name rest own here =>
      obtain rfl := Except.error.inj refused
      exact isAbsence_of_step isOpen (short name List.mem_cons_self) here
  | case3 links location name rest place stands ih =>
      exact ih (fun other member => short other (List.mem_cons_of_mem _ member)) refused
  | case4 =>
      obtain rfl := Except.error.inj refused
      rfl
  | case5 location name rest target follows links ih =>
      refine ih (fun other member => ?_) refused
      rcases List.mem_append.mp member with linked | later
      · exact short_of_step isOpen follows other linked
      · exact short other (List.mem_cons_of_mem _ later)

theorem isRegularFile_ne_error (short : IsShortName entry.name) (fault : LookupFault) :
    disk.isRegularFile location {} entry ≠ .error fault := by
  cases entry with
  | directory | file | sealed => simp [isRegularFile]
  | link name target =>
      have single : ∀ other ∈ [name], IsShortName other := by
        intro other member
        obtain rfl := List.mem_singleton.mp member
        exact short
      cases resolved : disk.resolve maxLinks location [name] with
      | ok found => simp [isRegularFile, resolved]
      | error own => simp [isRegularFile, resolved, isAbsence_of_resolve isOpen single resolved]

/-- An open disk refuses nothing, wherever its links lead. -/
theorem not_refuses_of_isOpen (openNode : node.IsOpen) : ¬ disk.Refuses location node := by
  intro refuses
  induction refuses with
  | @here location name entries access entry fault _ isEntry _ refused =>
      cases openNode with
      | directory _ short _ => exact isRegularFile_ne_error isOpen (short entry isEntry) fault refused
  | @deeper location name entries access entry _ _ isEntry _ _ _ ih =>
      cases openNode with
      | directory _ _ inside => exact ih (inside entry isEntry)

theorem not_refusesBelow_of_isOpen {path : Path} : ¬ disk.RefusesBelow path := by
  rintro ⟨location, node, _, found, refuses⟩
  exact not_refuses_of_isOpen isOpen (isOpen_at? isOpen found) refuses

end Disk

end Open

end LocalizationAudit

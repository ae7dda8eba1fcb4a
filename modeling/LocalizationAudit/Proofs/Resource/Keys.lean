import LocalizationAudit.Proofs.Key
import LocalizationAudit.Proofs.Resource.Search
import LocalizationAudit.Resource.Keys

/-!
The keys of a resource text. They come from its leftmost entries, one key for each text between the
quotes, with the line on which the first entry with that text begins.
-/

namespace LocalizationAudit

theorem keysOfBytes_eq_ok_iff {keySites : List Char → List KeySite} {bytes : Bytes}
    {file : Option String} {keys : KeySet} :
    keysOfBytes keySites bytes file = .ok keys ↔
      ∃ text encoding, decodeText bytes resourceEncodings = .ok (text, encoding) ∧
        keys = keysOfSites file (keySites text) := by
  rw [keysOfBytes]
  cases decodeText bytes resourceEncodings with
  | ok found =>
      obtain ⟨text, encoding⟩ := found
      simp [eq_comm]
  | error error => simp

theorem keysOfBytes_of_decodeText {keySites : List Char → List KeySite} {bytes : Bytes}
    {text : List Char} {encoding : Encoding}
    (decoded : decodeText bytes resourceEncodings = .ok (text, encoding)) (file : Option String) :
    keysOfBytes keySites bytes file = .ok (keysOfSites file (keySites text)) :=
  keysOfBytes_eq_ok_iff.mpr ⟨text, encoding, decoded, rfl⟩

structure KeysOfEntries (file : Option String) (text : List Char) (found : List PlacedEntry)
    (keys : KeySet) : Prop where
  distinct : keys.texts.Nodup
  covering : ∀ placed ∈ found, String.ofList placed.entry.key ∈ keys.texts
  first : ∀ key ∈ keys, ∃ placed ∈ found,
    (∀ other ∈ found, other.entry.key = placed.entry.key → placed.start ≤ other.start) ∧
    key = ⟨String.ofList placed.entry.key, file, some (1 + newlines (text.take placed.start))⟩

theorem start_le_of_find? {found : List PlacedEntry}
    (apart : found.Pairwise fun earlier later => earlier.stop ≤ later.start)
    {test : PlacedEntry → Bool} {placed : PlacedEntry} (first : found.find? test = some placed) :
    ∀ other ∈ found, test other = true → placed.start ≤ other.start := by
  obtain ⟨_, earlier, later, rfl, failed⟩ := List.find?_eq_some_iff_append.mp first
  intro other member passed
  rcases List.mem_append.mp member with before | here
  · exact absurd passed (by simpa using failed other before)
  · rcases List.mem_cons.mp here with rfl | after
    · exact Nat.le_refl _
    · have behind := (List.pairwise_append.mp apart).2.1
      have bound := List.rel_of_pairwise_cons behind after
      exact Nat.le_trans (Nat.le_add_right _ _) bound

theorem keysOfSites_standard (file : Option String) (text : List Char) :
    keysOfSites file (standardKeySites text) =
      KeySet.ofList ((entries text).map fun placed => placed.keySite.key file) := by
  simp [keysOfSites, standardKeySites, Function.comp_def]

theorem keysOfEntries_entries (file : Option String) (text : List Char) :
    KeysOfEntries file text (entries text) (keysOfSites file (standardKeySites text)) := by
  rw [keysOfSites_standard]
  constructor
  · exact KeySet.nodup_texts_ofList _
  · intro placed member
    rw [KeySet.mem_texts_ofList]
    exact List.mem_map.mpr ⟨_, List.mem_map.mpr ⟨placed, member, rfl⟩, rfl⟩
  · intro key member
    have kept := KeySet.withText?_eq_some_of_mem (KeySet.nodup_texts_ofList _) member
    rw [KeySet.withText?_ofList, KeySet.withText?, List.find?_map, Option.map_eq_some_iff] at kept
    obtain ⟨placed, found, rfl⟩ := kept
    have inside := List.mem_of_find?_eq_some found
    refine ⟨placed, inside, ?_, ?_⟩
    · intro other listed same
      apply start_le_of_find? (search_entries text).apart found other listed
      simp [PlacedEntry.keySite, KeySite.key, same]
    · have lines := (search_entries text).linesBefore_eq placed inside
      simp [PlacedEntry.keySite, KeySite.key, lines, Int.add_comm]

theorem standardKeySites_exact (file : Option String) (text : List Char) :
    (∀ position first second, EntryAt text position first → EntryAt text position second →
      first = second) ∧
    LeftmostEntries text (entries text) ∧
    KeysOfEntries file text (entries text) (keysOfSites file (standardKeySites text)) :=
  ⟨fun _ _ _ => EntryAt.unique, leftmostEntries_entries text, keysOfEntries_entries file text⟩

end LocalizationAudit

import LocalizationAudit.Proofs.Resource.ByteOrderMark
import LocalizationAudit.Proofs.Scan.Returned

/-!
Where a key is said to be defined. Of the entries of one file that share a key only the first gives
a place; places of different files never look alike, so each file with the key is named once.
-/

namespace LocalizationAudit

def PlacedEntry.line (text : List Char) (placed : PlacedEntry) : Nat :=
  1 + newlines (text.take placed.start)

def siteText (path : Path) (line : Nat) : String :=
  path.text ++ ":" ++ toString line

theorem eq_of_append_colon {front back : List Char} {left right : List Char}
    (unmarkedLeft : ':' ∉ left) (unmarkedRight : ':' ∉ right)
    (same : front ++ ':' :: left = back ++ ':' :: right) : front = back ∧ left = right := by
  rcases List.append_eq_append_iff.mp same with ⟨between, rfl, split⟩ | ⟨between, rfl, split⟩
  · cases between with
    | nil => simpa using split
    | cons c between =>
        obtain ⟨_, rfl⟩ := List.cons.inj split
        exact absurd (by simp) unmarkedLeft
  · cases between with
    | nil => simpa [eq_comm] using split
    | cons c between =>
        obtain ⟨_, rfl⟩ := List.cons.inj split
        exact absurd (by simp) unmarkedRight

theorem colon_not_mem_toString (line : Nat) : ':' ∉ (toString line).toList := by
  intro member
  rw [Nat.toString_eq_repr, Nat.toList_repr] at member
  have digit := Nat.isDigit_of_mem_toDigits (by decide) (by decide) member
  exact absurd digit (by decide)

theorem toString_line_injective : Function.Injective (toString : Nat → String) := by
  intro line other same
  have digits := congrArg String.toList same
  simp only [Nat.toString_eq_repr, Nat.toList_repr] at digits
  have value := congrArg (Nat.ofDigitChars 10 · 0) digits
  simpa using value

/-- A path may hold a colon, but the line behind the last one cannot. -/
theorem siteText_inj {path other : Path} {line otherLine : Nat} :
    siteText path line = siteText other otherLine ↔ path = other ∧ line = otherLine := by
  constructor
  · intro same
    have spelled := congrArg String.toList same
    simp only [siteText, String.toList_append, List.append_assoc] at spelled
    obtain ⟨paths, lines⟩ := eq_of_append_colon (colon_not_mem_toString line)
      (colon_not_mem_toString otherLine) spelled
    exact ⟨Path.text_injective (String.toList_injective paths),
      toString_line_injective (String.toList_injective lines)⟩
  · rintro ⟨rfl, rfl⟩
    rfl

theorem siteText_ne_empty (path : Path) (line : Nat) : siteText path line ≠ "" := by
  simp [siteText]

structure IsFirstEntry (text key : List Char) (placed : PlacedEntry) : Prop where
  found : placed ∈ entries text
  spelled : placed.entry.key = key
  first : ∀ other ∈ entries text, other.entry.key = key → placed.start ≤ other.start

theorem IsFirstEntry.start_eq {text key : List Char} {placed other : PlacedEntry}
    (isFirst : IsFirstEntry text key placed) (again : IsFirstEntry text key other) :
    placed.start = other.start :=
  Nat.le_antisymm (isFirst.first other again.found again.spelled)
    (again.first placed isFirst.found isFirst.spelled)

def firstEntryKey (path : Path) (text : List Char) (placed : PlacedEntry) : LocalizationKey :=
  ⟨String.ofList placed.entry.key, some path.text, some (placed.line text)⟩

theorem location_firstEntryKey (path : Path) (text : List Char) (placed : PlacedEntry) :
    (firstEntryKey path text placed).location = siteText path (placed.line text) :=
  rfl

theorem mem_keys_iff_isFirstEntry {path : Path} {text : List Char} {key : LocalizationKey} :
    key ∈ keysOfSites (some path.text) (standardKeySites text) ↔
      ∃ placed, IsFirstEntry text placed.entry.key placed ∧
        key = firstEntryKey path text placed := by
  have keys := keysOfEntries_entries (some path.text) text
  constructor
  · intro member
    obtain ⟨placed, found, first, rfl⟩ := keys.first key member
    refine ⟨placed, ⟨found, rfl, first⟩, ?_⟩
    simp [firstEntryKey, PlacedEntry.line]
  · rintro ⟨placed, isFirst, rfl⟩
    -- The key with this text that is kept comes from a first entry too, hence from this one.
    obtain ⟨kept, member, sameText⟩ := List.mem_map.mp (keys.covering placed isFirst.found)
    obtain ⟨other, found, first, rfl⟩ := keys.first kept member
    have sameKey : other.entry.key = placed.entry.key := String.ofList_injective sameText
    have sameStart := isFirst.start_eq ⟨found, sameKey, fun third listed spelled =>
      first third listed (spelled.trans sameKey.symm)⟩
    simpa [firstEntryKey, PlacedEntry.line, sameKey, sameStart] using member

section Scan

variable (settings : ScanSettings) (content : Path → Except ReadError Bytes) (root : Path)
  (listing : List Path)

structure IsParsedResource (path : Path) (text : List Char) : Prop where
  listed : path ∈ listing
  classified : classify settings (some root) path = .resource
  decoded : ∃ bytes encoding, content path = .ok bytes ∧
    decodeText bytes resourceEncodings = .ok (text, encoding)

variable {settings content root listing}

theorem IsParsedResource.unique {path : Path} {text other : List Char}
    (parsed : IsParsedResource settings content root listing path text)
    (again : IsParsedResource settings content root listing path other) : text = other := by
  obtain ⟨bytes, encoding, read, decoded⟩ := parsed.decoded
  obtain ⟨bytes', encoding', read', decoded'⟩ := again.decoded
  obtain rfl := Except.ok.inj (read.symm.trans read')
  exact congrArg Prod.fst (Except.ok.inj (decoded.symm.trans decoded'))

end Scan

section Returned

variable {Store : Type} {settings : ScanSettings} {grammar : Grammar} {files : FileSystem Store}
  {store : Store} {schedule : List Task → List Task} {root : String} {listing : List Path}
  {result : ScanResult} (complete : IsSchedule schedule)
  (returned : (scan settings ⟨standardKeySites, grammar⟩ files.toReader store schedule root
    (.ok listing)).1.outcome = .ok result)

include complete returned

theorem mem_keysAt_iff_isFirstEntry (key : List Char) (found : LocalizationKey) :
    found ∈ result.keysAt (String.ofList key) ↔
      ∃ path text placed,
        IsParsedResource settings (files.content store) (Path.ofString root) listing path text ∧
        IsFirstEntry text key placed ∧ found = firstEntryKey path text placed := by
  rw [mem_keysAt_of_returned complete returned]
  constructor
  · rintro ⟨sameText, path, listed, kind, bytes, keys, read, parsed, member⟩
    obtain ⟨text, encoding, decoded, rfl⟩ := keysOfBytes_eq_ok_iff.mp parsed
    obtain ⟨placed, isFirst, rfl⟩ := mem_keys_iff_isFirstEntry.mp member
    have sameKey : placed.entry.key = key := String.ofList_injective sameText
    exact ⟨path, text, placed, ⟨listed, kind, bytes, encoding, read, decoded⟩,
      sameKey ▸ isFirst, rfl⟩
  · rintro ⟨path, text, placed, ⟨listed, kind, bytes, encoding, read, decoded⟩, isFirst, rfl⟩
    have spelled := isFirst.spelled
    subst spelled
    exact ⟨rfl, path, listed, kind, bytes, _, read, keysOfBytes_of_decodeText decoded _,
      mem_keys_iff_isFirstEntry.mpr ⟨placed, isFirst, rfl⟩⟩

theorem mem_locationsOf_iff (key : List Char) (location : String) :
    location ∈ result.locationsOf (String.ofList key) ↔
      ∃ path text placed,
        IsParsedResource settings (files.content store) (Path.ofString root) listing path text ∧
        IsFirstEntry text key placed ∧ location = siteText path (placed.line text) := by
  rw [ScanResult.locationsOf, mem_sortedDistinct, List.mem_filter, List.mem_map]
  constructor
  · rintro ⟨⟨found, member, rfl⟩, _⟩
    obtain ⟨path, text, placed, parsed, isFirst, rfl⟩ :=
      (mem_keysAt_iff_isFirstEntry complete returned key found).mp member
    exact ⟨path, text, placed, parsed, isFirst, location_firstEntryKey path text placed⟩
  · rintro ⟨path, text, placed, parsed, isFirst, rfl⟩
    refine ⟨⟨firstEntryKey path text placed, ?_, location_firstEntryKey path text placed⟩, ?_⟩
    · exact (mem_keysAt_iff_isFirstEntry complete returned key _).mpr
        ⟨path, text, placed, parsed, isFirst, rfl⟩
    · simpa using siteText_ne_empty path (placed.line text)

end Returned

theorem locationsOf_exact {Store : Type} (settings : ScanSettings) (grammar : Grammar)
    (files : FileSystem Store) (store : Store) (schedule : List Task → List Task)
    (complete : IsSchedule schedule) (root : String) (listing : List Path) (result : ScanResult)
    (returned : (scan settings ⟨standardKeySites, grammar⟩ files.toReader store schedule root
      (.ok listing)).1.outcome = .ok result) (key : List Char) :
    let isParsed := IsParsedResource settings (files.content store) (Path.ofString root) listing
    let locations := result.locationsOf (String.ofList key)
    (∀ location, location ∈ locations ↔ ∃ path text placed, isParsed path text ∧
      IsFirstEntry text key placed ∧ location = siteText path (placed.line text)) ∧
    (∀ path text, isParsed path text → ∀ placed ∈ entries text, placed.entry.key = key →
      (siteText path (placed.line text) ∈ locations ↔
        ∃ first, IsFirstEntry text key first ∧ first.line text = placed.line text)) ∧
    locations.Pairwise (· < ·) := by
  intro isParsed locations
  have exact := mem_locationsOf_iff complete returned key
  refine ⟨exact, ?_, sortedDistinct_increasing _⟩
  intro path text parsed placed found spelled
  rw [exact]
  constructor
  · rintro ⟨other, otherText, first, otherParsed, isFirst, same⟩
    obtain ⟨rfl, line⟩ := siteText_inj.mp same
    obtain rfl := parsed.unique otherParsed
    exact ⟨first, isFirst, line.symm⟩
  · rintro ⟨first, isFirst, line⟩
    exact ⟨path, text, first, parsed, isFirst, by rw [line]⟩

def repeatedText : List Char :=
  "\"k\" = \"1\";\n\"k\" = \"2\";".toList

def repeatedProject : MemoryFiles :=
  MemoryFiles.ofFiles "/app"
    [("a.strings", encodeUtf8 repeatedText), ("b.strings", encodeUtf8 ('\n' :: repeatedText))]

def repeatedListing : List Path :=
  ["/app/a.strings", "/app/b.strings"].map Path.ofString

def repeatedScan : Transcript Failure ScanResult :=
  (scan (.standard none) ⟨standardKeySites, Swift.grammarFor Swift.language⟩
    MemoryFiles.fileSystem.toReader repeatedProject List.reverse "/app" (.ok repeatedListing)).1

def repeatedEntry (start linesBefore : Nat) (value : Char) : PlacedEntry :=
  ⟨start, linesBefore, ⟨['k'], [' '], [' '], [value], []⟩⟩

theorem locationsOf_exact_repeated :
    IsSchedule List.reverse ∧
    repeatedEntry 11 1 '2' ∈ entries repeatedText ∧
    ∃ result, repeatedScan.outcome = .ok result ∧
      siteText (Path.ofString "/app/a.strings") 1 ∈ result.locationsOf (String.ofList ['k']) ∧
      siteText (Path.ofString "/app/a.strings") 2 ∉ result.locationsOf (String.ofList ['k']) ∧
      siteText (Path.ofString "/app/b.strings") 2 ∈ result.locationsOf (String.ofList ['k']) ∧
      (result.locationsOf (String.ofList ['k'])).Pairwise (· < ·) := by
  have succeeds : repeatedScan.outcome.toOption.isSome = true := by decide +kernel
  obtain ⟨result, returned⟩ := exists_ok_of_isSome succeeds
  have twice : entries repeatedText = [repeatedEntry 0 0 '1', repeatedEntry 11 1 '2'] := by
    decide +kernel
  have twiceLater : entries ('\n' :: repeatedText) =
      [repeatedEntry 1 1 '1', repeatedEntry 12 2 '2'] := by
    decide +kernel
  have parsed : ∀ path text, path ∈ repeatedListing ∧
      classify (.standard none) (some (Path.ofString "/app")) path = .resource ∧
      MemoryFiles.fileSystem.content repeatedProject path = .ok (encodeUtf8 text) →
      IsParsedResource (.standard none) (MemoryFiles.fileSystem.content repeatedProject)
        (Path.ofString "/app") repeatedListing path text := by
    rintro path text ⟨listed, classified, read⟩
    exact ⟨listed, classified, _, .utf8, read, decodeText_encodeUtf8 text⟩
  have here := parsed (Path.ofString "/app/a.strings") repeatedText (by decide +kernel)
  have there := parsed (Path.ofString "/app/b.strings") ('\n' :: repeatedText) (by decide +kernel)
  have isFirst : IsFirstEntry repeatedText ['k'] (repeatedEntry 0 0 '1') := by
    refine ⟨by simp [twice], rfl, fun other _ _ => Nat.zero_le _⟩
  have isFirstLater : IsFirstEntry ('\n' :: repeatedText) ['k'] (repeatedEntry 1 1 '1') := by
    refine ⟨by simp [twiceLater], rfl, ?_⟩
    rw [twiceLater]
    decide
  refine ⟨isSchedule_reverse, by simp [twice], result, returned, ?_⟩
  rw [repeatedScan] at returned
  obtain ⟨exact, listed, increasing⟩ :=
    locationsOf_exact _ _ _ _ _ isSchedule_reverse _ _ _ returned ['k']
  refine ⟨?_, ?_, ?_, increasing⟩
  · exact (exact _).mpr ⟨_, _, _, here, isFirst, by decide +kernel⟩
  · intro second
    have line : (repeatedEntry 11 1 '2').line repeatedText = 2 := by decide +kernel
    rw [← line] at second
    obtain ⟨first, again, sameLine⟩ :=
      (listed _ _ here (repeatedEntry 11 1 '2') (by simp [twice]) rfl).mp second
    have start : first.start = 0 := again.start_eq isFirst
    rw [PlacedEntry.line, start, line] at sameLine
    exact absurd sameLine (by decide)
  · exact (exact _).mpr ⟨_, _, _, there, isFirstLater, by decide +kernel⟩

end LocalizationAudit

import LocalizationAudit.Proofs.Encoding.ByteOrderMark
import LocalizationAudit.Proofs.Resource.Resynchronisation

/-!
Resource files with a byte order mark, and UTF-8 without one. The same text gives the same keys on
the same lines in each of these forms: one mark is taken off where it chooses the byte order, and
where it is kept as a character no entry can begin with it.
-/

namespace LocalizationAudit

/-- A character before a text that is no part of any entry and ends no line. -/
theorem standardKeySites_cons {c : Char} (notQuote : c ≠ quoteMark) (notBackslash : c ≠ backslash)
    (notNewline : c ≠ '\n') (text : List Char) :
    standardKeySites (c :: text) = standardKeySites text := by
  have free : [c].getLast? ≠ some backslash := by simpa using notBackslash
  have behind := (search_entries text).behind free
  have passed : Search [] (c :: text) ((entries text).map (PlacedEntry.behind [c])) :=
    .skipped notQuote behind
  have sameLines : newlines [c] = 0 := List.count_eq_zero.mpr (by simpa using notNewline.symm)
  rw [standardKeySites, (search_entries (c :: text)).unique passed, List.map_map, standardKeySites]
  refine List.map_congr_left fun placed _ => ?_
  simp [PlacedEntry.behind, PlacedEntry.keySite, sameLines]

theorem keysOfBytes_of_any_mark (text : List Char) (file : Option String) :
    let keys := keysOfSites file (standardKeySites text)
    keysOfBytes standardKeySites (encodeUtf8 text) file = .ok keys ∧
    keysOfBytes standardKeySites (markedUtf8 text) file = .ok keys ∧
    keysOfBytes standardKeySites (markedUtf16 .little text) file = .ok keys ∧
    keysOfBytes standardKeySites (markedUtf16 .big text) file = .ok keys := by
  intro keys
  have unmarked := standardKeySites_cons (c := byteOrderMark) (by decide) (by decide) (by decide) text
  have marked : keysOfBytes standardKeySites (encodeUtf8 (byteOrderMark :: text)) file =
      .ok (keysOfSites file (standardKeySites (byteOrderMark :: text))) :=
    keysOfBytes_of_decodeText (decodeText_encodeUtf8 _) file
  rw [← markedUtf8_eq, unmarked] at marked
  exact ⟨keysOfBytes_of_decodeText (decodeText_encodeUtf8 text) file, marked,
    keysOfBytes_of_decodeText (decodeText_markedUtf16 .little text) file,
    keysOfBytes_of_decodeText (decodeText_markedUtf16 .big text) file⟩

end LocalizationAudit

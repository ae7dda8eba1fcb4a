import LocalizationAudit.Proofs.Resource.ByteOrderMark
import Mathlib.Data.List.Chain

/-!
Resource files in UTF-16 without a byte order mark. Whether such a file is read as the text it
spells depends on what else its bytes spell: UTF-8 is tried first, and the form with a mark takes
bytes without one for little-endian. A file of ASCII characters is UTF-8 in either byte order, and
no key is found in it.
-/

namespace LocalizationAudit

def swappedMark : Char := '\uFFFE'

theorem encodeUtf16Char_first (order : ByteOrder) (c : Char) :
    ∃ first second more, encodeUtf16Char order c = first :: second :: more ∧
      (codeUnit order first second = c.toNat ∨
        isHighSurrogate (codeUnit order first second) = true) := by
  have valid := isValidChar_toNat c
  simp only [Nat.isValidChar] at valid
  by_cases small : c.toNat < 0x10000
  · obtain ⟨first, second, spelled, unit⟩ := exists_unitBytes order small
    exact ⟨first, second, [], by rw [encodeUtf16Char, if_pos small, spelled], .inl unit⟩
  · have bound : 0xD800 + (c.toNat - 0x10000) / 0x400 < 0x10000 := by omega
    obtain ⟨first, second, spelled, unit⟩ := exists_unitBytes order bound
    refine ⟨first, second, _, by rw [encodeUtf16Char, if_neg small, spelled]; rfl, .inr ?_⟩
    rw [unit, isHighSurrogate_iff]
    omega

theorem decodeText_of_not_utf8 {bytes : Bytes} (refused : ¬ IsUtf8 bytes) :
    decodeText bytes resourceEncodings = decodeText bytes [.utf16, .utf16be, .utf16le] := by
  cases decoded : Encoding.decode bytes .utf8 with
  | ok text => exact absurd (isUtf8_iff.mpr ⟨text, decoded⟩) refused
  | error failure =>
      rw [decodeText, resourceEncodings, decodeAfter, decoded, decodeText]
      rfl

section Unmarked

variable {text : List Char} (unmarked : text.head? ≠ some byteOrderMark)
  (unswapped : text.head? ≠ some swappedMark)

include unmarked unswapped

theorem decode_unmarked (order : ByteOrder) :
    Encoding.decode (encodeUtf16 order text) .utf16 =
      Encoding.decode (encodeUtf16 order text) .utf16le := by
  cases text with
  | nil => rfl
  | cons c rest =>
      obtain ⟨first, second, more, spelled, unit⟩ := encodeUtf16Char_first order c
      have notMark : codeUnit order first second ≠ 0xFEFF ∧ codeUnit order first second ≠ 0xFFFE := by
        rcases unit with same | surrogate
        · rw [same]
          constructor
          · rintro isMark
            exact unmarked (by simp [byteOrderMark, ← Char.toNat_inj, isMark])
          · rintro isMark
            exact unswapped (by simp [swappedMark, ← Char.toNat_inj, isMark])
        · rw [isHighSurrogate_iff] at surrogate
          omega
      have bytes : encodeUtf16 order (c :: rest) =
          first :: second :: (more ++ encodeUtf16 order rest) := by
        rw [encodeUtf16, List.flatMap_cons, spelled]
        rfl
      rw [bytes]
      refine decode_of_no_mark fun mark starts => ?_
      cases mark <;> obtain ⟨_, ⟨⟩⟩ := starts <;> cases order <;> simp [codeUnit] at notMark

theorem decodeText_unmarked_little (refused : ¬ IsUtf8 (encodeUtf16 .little text)) :
    decodeText (encodeUtf16 .little text) resourceEncodings = .ok (text, .utf16) := by
  have decoded : Encoding.decode (encodeUtf16 .little text) .utf16 = .ok text := by
    rw [decode_unmarked unmarked unswapped]
    exact decodeWith_utf16 .little .utf16le 0 text
  rw [decodeText_of_not_utf8 refused, decodeText, decodeAfter, decoded]

/-- Bytes that spell a text in the other byte order as well are taken for that text. -/
theorem decodeText_unmarked_swapped (refused : ¬ IsUtf8 (encodeUtf16 .big text))
    {other : List Char} (same : encodeUtf16 .big text = encodeUtf16 .little other) :
    decodeText (encodeUtf16 .big text) resourceEncodings = .ok (other, .utf16) := by
  have decoded : Encoding.decode (encodeUtf16 .big text) .utf16 = .ok other := by
    rw [decode_unmarked unmarked unswapped, same]
    exact decodeWith_utf16 .little .utf16le 0 other
  rw [decodeText_of_not_utf8 refused, decodeText, decodeAfter, decoded]

theorem decodeText_unmarked_big (refused : ¬ IsUtf8 (encodeUtf16 .big text))
    (different : ¬ ∃ other, encodeUtf16 .big text = encodeUtf16 .little other) :
    decodeText (encodeUtf16 .big text) resourceEncodings = .ok (text, .utf16be) := by
  have decoded : Encoding.decode (encodeUtf16 .big text) .utf16be = .ok text :=
    decodeWith_utf16 .big .utf16be 0 text
  rw [decodeText_of_not_utf8 refused, decodeText, decodeAfter,
    decode_unmarked unmarked unswapped]
  cases swapped : Encoding.decode (encodeUtf16 .big text) .utf16le with
  | ok other =>
      exact absurd ⟨other, (reads_utf16 .little).flatMap_of_decodeWith swapped⟩ different
  | error failure =>
      simp only
      rw [decodeAfter, decoded]

end Unmarked

section Padding

def padChar (order : ByteOrder) (c : Char) : List Char :=
  match order with
  | .little => [c, '\x00']
  | .big => ['\x00', c]

def padded (order : ByteOrder) (text : List Char) : List Char :=
  text.flatMap (padChar order)

theorem encodeUtf16Char_of_ascii (order : ByteOrder) {c : Char} (ascii : c.toNat < 0x80) :
    encodeUtf16Char order c = encodeUtf8 (padChar order c) := by
  have nul : String.utf8EncodeChar '\x00' = [0] := by decide
  have byte : (UInt8.ofNat c.toNat).toNat = c.toNat :=
    UInt8.toNat_ofNat_of_lt' (by simp only [UInt8.size]; omega)
  have single : String.utf8EncodeChar c = [UInt8.ofNat c.toNat] :=
    utf8EncodeChar_of_sequence (.one byte ascii)
  have low : c.toNat % 256 = c.toNat := Nat.mod_eq_of_lt (by omega)
  have high : c.toNat / 256 = 0 := Nat.div_eq_of_lt (by omega)
  rw [encodeUtf16Char, if_pos (by omega)]
  cases order <;> simp [unitBytes, padChar, encodeUtf8, low, high, nul, single]

theorem encodeUtf16_of_ascii (order : ByteOrder) {text : List Char}
    (ascii : ∀ c ∈ text, c.toNat < 0x80) :
    encodeUtf16 order text = encodeUtf8 (padded order text) := by
  rw [encodeUtf8, padded, List.flatMap_assoc, encodeUtf16]
  exact List.flatMap_congr fun c member => encodeUtf16Char_of_ascii order (ascii c member)

theorem isChain_padded (order : ByteOrder) (text : List Char) :
    (padded order text).IsChain fun c next => c = '\x00' ∨ next = '\x00' := by
  cases order with
  | little =>
      suffices behind : (('\x00' : Char) :: padded .little text).IsChain
          fun c next => c = '\x00' ∨ next = '\x00' from behind.tail
      induction text with
      | nil => exact .singleton _
      | cons c rest ih => exact .cons_cons (.inl rfl) (.cons_cons (.inr rfl) ih)
  | big =>
      suffices behind : ∀ first, (first :: padded .big text).IsChain
          fun c next => c = '\x00' ∨ next = '\x00' from (behind '\x00').tail
      induction text with
      | nil => exact fun first => .singleton first
      | cons c rest ih => exact fun first => .cons_cons (.inr rfl) (.cons_cons (.inl rfl) (ih c))

/-- Behind the quote that closes a key stands white space or an equals sign. -/
theorem Entry.WellFormed.exists_after_key {entry : Entry} (wellFormed : entry.WellFormed) :
    ∃ next rest, (isBlank next = true ∨ next = '=') ∧
      entry.spelling = quoteMark :: entry.key ++ quoteMark :: next :: rest := by
  cases gap : entry.beforeEquals with
  | nil => exact ⟨'=', _, .inr rfl, by rw [Entry.spelling, gap]; rfl⟩
  | cons next others =>
      have blank := wellFormed.beforeEquals next (by simp [gap])
      exact ⟨next, _, .inl blank, by rw [Entry.spelling, gap]; rfl⟩

theorem entries_padded (order : ByteOrder) (text : List Char) :
    entries (padded order text) = [] := by
  rw [List.eq_nil_iff_forall_not_mem]
  intro placed member
  obtain ⟨wellFormed, before, after, whole, _⟩ :=
    (leftmostEntries_entries _).stands placed member
  obtain ⟨next, rest, opens, spelled⟩ := wellFormed.exists_after_key
  have chain := isChain_padded order text
  rw [whole, spelled, List.append_assoc, ← List.append_assoc, List.cons_append, List.cons_append,
    List.isChain_append_cons_cons] at chain
  have nul : next = '\x00' := chain.2.1.resolve_left (by decide)
  subst nul
  revert opens
  decide

end Padding

theorem keysOfBytes_of_unmarked_utf16 (file : Option String) {text : List Char}
    (unmarked : text.head? ≠ some byteOrderMark) (unswapped : text.head? ≠ some swappedMark) :
    let keys := fun text => keysOfSites file (standardKeySites text)
    let parsed := fun order => keysOfBytes standardKeySites (encodeUtf16 order text) file
    (∀ order other, encodeUtf16 order text = encodeUtf8 other → parsed order = .ok (keys other)) ∧
    (¬ IsUtf8 (encodeUtf16 .little text) → parsed .little = .ok (keys text)) ∧
    (¬ IsUtf8 (encodeUtf16 .big text) →
      (∀ other, encodeUtf16 .big text = encodeUtf16 .little other →
        parsed .big = .ok (keys other)) ∧
      ((¬ ∃ other, encodeUtf16 .big text = encodeUtf16 .little other) →
        parsed .big = .ok (keys text))) ∧
    ((∀ c ∈ text, c.toNat < 0x80) → ∀ order, parsed order = .ok []) := by
  intro keys parsed
  have fromUtf8 : ∀ order other, encodeUtf16 order text = encodeUtf8 other →
      parsed order = .ok (keys other) := by
    intro order other same
    have decoded := decodeText_encodeUtf8 other
    rw [← same] at decoded
    exact keysOfBytes_of_decodeText decoded file
  refine ⟨fromUtf8, ?_, ?_, ?_⟩
  · intro refused
    exact keysOfBytes_of_decodeText (decodeText_unmarked_little unmarked unswapped refused) file
  · intro refused
    constructor
    · intro other same
      exact keysOfBytes_of_decodeText
        (decodeText_unmarked_swapped unmarked unswapped refused same) file
    · intro different
      exact keysOfBytes_of_decodeText
        (decodeText_unmarked_big unmarked unswapped refused different) file
  · intro ascii order
    have nothing : keys (padded order text) = [] := by
      change keysOfSites file ((entries (padded order text)).map PlacedEntry.keySite) = []
      rw [entries_padded]
      rfl
    rw [fromUtf8 order _ (encodeUtf16_of_ascii order ascii), nothing]

def asciiText : List Char :=
  "\"k\" = \"v\";".toList

def acuteText : List Char :=
  "\"é\" = \"v\";".toList

def swappedAcuteText : List Char :=
  acuteText.map fun c => Char.ofNat (256 * c.toNat)

def strokeText : List Char :=
  "\"Ø\" = \"v\";".toList

theorem keysOfBytes_of_unmarked_utf16_samples :
    (asciiText.head? ≠ some byteOrderMark ∧ asciiText.head? ≠ some swappedMark) ∧
    keysOfSites none (standardKeySites asciiText) = [⟨"k", none, some 1⟩] ∧
    (∀ order, keysOfBytes standardKeySites (encodeUtf16 order asciiText) none = .ok []) ∧
    keysOfSites none (standardKeySites acuteText) = [⟨"é", none, some 1⟩] ∧
    keysOfBytes standardKeySites (encodeUtf16 .little acuteText) none =
      .ok [⟨"é", none, some 1⟩] ∧
    keysOfBytes standardKeySites (encodeUtf16 .big acuteText) none = .ok [] ∧
    keysOfBytes standardKeySites (encodeUtf16 .big strokeText) none =
      .ok [⟨"Ø", none, some 1⟩] := by
  have unmarked : ∀ text ∈ [asciiText, acuteText, strokeText],
      text.head? ≠ some byteOrderMark ∧ text.head? ≠ some swappedMark := by
    decide +kernel
  have refused : ¬ IsUtf8 (encodeUtf16 .little acuteText) ∧
      ¬ IsUtf8 (encodeUtf16 .big acuteText) ∧ ¬ IsUtf8 (encodeUtf16 .big strokeText) := by
    decide +kernel
  have swapped : encodeUtf16 .big acuteText = encodeUtf16 .little swappedAcuteText := by
    decide +kernel
  have different : ¬ ∃ other, encodeUtf16 .big strokeText = encodeUtf16 .little other := by
    rintro ⟨other, same⟩
    have decoded := decodeWith_utf16 .little .utf16le 0 other
    rw [← same] at decoded
    have refused : (decodeWith .utf16le (readUtf16 .little) 0
        (encodeUtf16 .big strokeText)).toOption = none := by
      decide +kernel
    rw [decoded] at refused
    simp [Except.toOption] at refused
  have acuteKeys : keysOfSites none (standardKeySites acuteText) = [⟨"é", none, some 1⟩] := by
    decide +kernel
  have swappedKeys : keysOfSites none (standardKeySites swappedAcuteText) = [] := by
    decide +kernel
  have strokeKeys : keysOfSites none (standardKeySites strokeText) = [⟨"Ø", none, some 1⟩] := by
    decide +kernel
  have low : asciiText.all (fun c => decide (c.toNat < 0x80)) = true := by decide +kernel
  have ascii := unmarked asciiText (by simp)
  have acute := unmarked acuteText (by simp)
  have stroke := unmarked strokeText (by simp)
  obtain ⟨_, _, _, lost⟩ := keysOfBytes_of_unmarked_utf16 none ascii.1 ascii.2
  obtain ⟨_, littleRead, bigRead, _⟩ := keysOfBytes_of_unmarked_utf16 none acute.1 acute.2
  obtain ⟨_, _, strokeRead, _⟩ := keysOfBytes_of_unmarked_utf16 none stroke.1 stroke.2
  refine ⟨ascii, by decide +kernel, lost (by simpa using low), acuteKeys, ?_, ?_, ?_⟩
  · exact (littleRead refused.1).trans (congrArg Except.ok acuteKeys)
  · exact ((bigRead refused.2.1).1 _ swapped).trans (congrArg Except.ok swappedKeys)
  · exact ((strokeRead refused.2.2).2 different).trans (congrArg Except.ok strokeKeys)

end LocalizationAudit

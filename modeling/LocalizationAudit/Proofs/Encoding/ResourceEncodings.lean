import LocalizationAudit.Proofs.Encoding.FirstFit

/-!
The encodings tried for resource files. Of the two byte orders of UTF-16 without a mark one never
comes into play, and the first two bytes say which: it accepts what the form with a mark accepts,
and that form is tried before it. Bytes of odd length are UTF-8 or nothing.
-/

namespace LocalizationAudit

variable {bytes : Bytes} {order : ByteOrder}

/-- A mark read in its own order is a character, so what follows it decides in both forms. -/
theorem rejects_marked_iff (marked : order.mark <+: bytes) :
    Encoding.utf16.Rejects bytes ↔ order.encoding.Rejects bytes := by
  obtain ⟨rest, rfl⟩ := marked
  rw [Encoding.Rejects, Encoding.Rejects, decode_keeping_mark]
  cases Encoding.decode (order.mark ++ rest) .utf16 <;> simp [Except.map]

theorem rejects_little_iff (notBig : ¬ ByteOrder.big.mark <+: bytes) :
    Encoding.utf16.Rejects bytes ↔ Encoding.utf16le.Rejects bytes := by
  by_cases marked : ByteOrder.little.mark <+: bytes
  · exact rejects_marked_iff marked
  · have unmarked : ∀ order : ByteOrder, ¬ order.mark <+: bytes := by
      rintro (_ | _)
      · exact marked
      · exact notBig
    rw [Encoding.Rejects, Encoding.Rejects, decode_of_no_mark unmarked]

/-- Both orders without a mark stand behind the form with one. -/
theorem utf16_rejects_of_behind {text : List Char} (order : ByteOrder)
    (decoded : decodeText bytes resourceEncodings = .ok (text, order.encoding)) :
    Encoding.utf16.Rejects bytes := by
  obtain ⟨before, after, listed, rejected, _⟩ := decodeText_eq_ok_iff.mp decoded
  refine rejected .utf16 ?_
  cases order <;> rcases before with _ | ⟨first, _ | ⟨second, before⟩⟩ <;>
    simp_all [resourceEncodings, ByteOrder.encoding]

theorem decodeText_ne_of_rejects_iff {text : List Char}
    (same : Encoding.utf16.Rejects bytes ↔ order.encoding.Rejects bytes) :
    decodeText bytes resourceEncodings ≠ .ok (text, order.encoding) := by
  intro decoded
  obtain ⟨_, _, _, _, spelled⟩ := decodeText_eq_ok_iff.mp decoded
  exact rejects_iff.mp (same.mp (utf16_rejects_of_behind order decoded)) text spelled

theorem rejects_utf8_of_marked (marked : order.mark <+: bytes) : Encoding.utf8.Rejects bytes := by
  obtain ⟨rest, rfl⟩ := marked
  cases order with
  | little => exact decode_utf8_of_high_lead (by decide) _
  | big => exact decode_utf8_of_high_lead (by decide) _

theorem even_length_encodeUtf16 (order : ByteOrder) (text : List Char) :
    2 ∣ (encodeUtf16 order text).length := by
  induction text with
  | nil => exact Nat.dvd_zero 2
  | cons c text ih =>
      have own : 2 ∣ (encodeUtf16Char order c).length := by
        rw [encodeUtf16Char]
        split <;> cases order <;> simp [unitBytes]
      rw [encodeUtf16, List.flatMap_cons, List.length_append]
      exact Nat.dvd_add own ih

theorem even_length_of_spells {encoding : Encoding} {text : List Char}
    (listed : encoding ∈ resourceEncodings) (other : encoding ≠ .utf8)
    (spelled : encoding.Spells bytes text) : 2 ∣ bytes.length := by
  cases encoding with
  | utf8 => exact absurd rfl other
  | utf16 =>
      rcases spelled with ⟨order, rfl⟩ | ⟨_, rfl⟩
      · have two : order.mark.length = 2 := by cases order <;> rfl
        rw [markedUtf16_eq, List.length_append, two]
        exact Nat.dvd_add (Nat.dvd_refl 2) (even_length_encodeUtf16 order text)
      · exact even_length_encodeUtf16 .little text
  | utf16be =>
      obtain rfl := spelled
      exact even_length_encodeUtf16 .big text
  | utf16le =>
      obtain rfl := spelled
      exact even_length_encodeUtf16 .little text
  | ascii => simp [resourceEncodings] at listed
  | latin1 => simp [resourceEncodings] at listed

theorem decodeText_odd_eq_ok_iff (odd : bytes.length % 2 = 1) {text : List Char}
    {encoding : Encoding} :
    decodeText bytes resourceEncodings = .ok (text, encoding) ↔
      encoding = .utf8 ∧ bytes = encodeUtf8 text := by
  constructor
  · intro decoded
    obtain ⟨before, after, listed, _, spelled⟩ := decodeText_eq_ok_iff.mp decoded
    by_cases isUtf8 : encoding = .utf8
    · subst isUtf8
      exact ⟨rfl, spelled⟩
    · have even := even_length_of_spells (by simp [listed]) isUtf8 spelled
      omega
  · rintro ⟨rfl, rfl⟩
    exact decodeText_encodeUtf8 text

/-- The first two bytes say which of the encodings of a resource file cannot be the one taken. -/
theorem resourceEncoding_of_first_bytes (bytes : Bytes) :
    (ByteOrder.big.mark <+: bytes →
      (∀ text, decodeText bytes resourceEncodings ≠ .ok (text, .utf16be)) ∧
      (Encoding.utf16.Rejects bytes ↔ Encoding.utf16be.Rejects bytes)) ∧
    (¬ ByteOrder.big.mark <+: bytes →
      (∀ text, decodeText bytes resourceEncodings ≠ .ok (text, .utf16le)) ∧
      (Encoding.utf16.Rejects bytes ↔ Encoding.utf16le.Rejects bytes)) ∧
    (ByteOrder.little.mark <+: bytes ∨ ByteOrder.big.mark <+: bytes →
      ∀ text, decodeText bytes resourceEncodings ≠ .ok (text, .utf8)) ∧
    (bytes.length % 2 = 1 → ∀ text encoding,
      decodeText bytes resourceEncodings = .ok (text, encoding) ↔
        encoding = .utf8 ∧ bytes = encodeUtf8 text) := by
  refine ⟨fun big => ?_, fun notBig => ?_, fun marked text decoded => ?_,
    fun odd text encoding => ?_⟩
  · have same := rejects_marked_iff big
    exact ⟨fun text => decodeText_ne_of_rejects_iff same, same⟩
  · have same := rejects_little_iff notBig
    exact ⟨fun text => @decodeText_ne_of_rejects_iff bytes .little text same, same⟩
  · have rejected : Encoding.utf8.Rejects bytes :=
      marked.elim rejects_utf8_of_marked rejects_utf8_of_marked
    obtain ⟨_, _, _, _, spelled⟩ := decodeText_eq_ok_iff.mp decoded
    exact rejects_iff.mp rejected text spelled
  · exact decodeText_odd_eq_ok_iff odd

/-- Each condition is met: the excluded encoding loses to the other order, or to UTF-8. -/
theorem resourceEncoding_of_first_bytes_samples :
    (Encoding.utf16be.Rejects [0xFE, 0xFF, 0xD8, 0x00] ∧
      decodeText [0xFE, 0xFF, 0xD8, 0x00] resourceEncodings = .ok (['\ufffe', 'Ø'], .utf16le)) ∧
    (Encoding.utf16le.Rejects [0xA0, 0xD8] ∧
      decodeText [0xA0, 0xD8] resourceEncodings = .ok (['\ua0d8'], .utf16be)) ∧
    (∀ text, decodeText [0xFF, 0xFE] resourceEncodings ≠ .ok (text, .utf8)) ∧
    decodeText [0xC3, 0x98, 0x61] resourceEncodings = .ok (['Ø', 'a'], .utf8) := by
  obtain ⟨big, _⟩ := resourceEncoding_of_first_bytes [0xFE, 0xFF, 0xD8, 0x00]
  obtain ⟨_, notBig, _⟩ := resourceEncoding_of_first_bytes [0xA0, 0xD8]
  obtain ⟨_, _, marked, _⟩ := resourceEncoding_of_first_bytes [0xFF, 0xFE]
  obtain ⟨_, _, _, odd⟩ := resourceEncoding_of_first_bytes [0xC3, 0x98, 0x61]
  have loneBig : Encoding.utf16.Rejects [0xFE, 0xFF, 0xD8, 0x00] :=
    ⟨⟨.utf16be, 2, 4, .unexpectedEnd, 0xD8⟩, by cbv⟩
  have loneLittle : Encoding.utf16.Rejects [0xA0, 0xD8] :=
    ⟨⟨.utf16le, 0, 2, .unexpectedEnd, 0xA0⟩, by cbv⟩
  have notLead : Encoding.utf8.Rejects [0xA0, 0xD8] :=
    ⟨⟨.utf8, 0, 1, .invalidStartByte, 0xA0⟩, by cbv⟩
  have keepsMark := (big (by decide)).2.mp loneBig
  refine ⟨⟨keepsMark, ?_⟩, ⟨(notBig (by decide)).2.mp loneLittle, ?_⟩, marked (.inl (by decide)),
    (odd rfl _ _).mpr ⟨rfl, rfl⟩⟩
  · have notUtf8 := @rejects_utf8_of_marked [0xFE, 0xFF, 0xD8, 0x00] .big (by decide)
    exact decodeText_eq_ok_iff.mpr
      ⟨[.utf8, .utf16, .utf16be], [], rfl, by simp [notUtf8, loneBig, keepsMark], rfl⟩
  · exact decodeText_eq_ok_iff.mpr
      ⟨[.utf8, .utf16], [.utf16le], rfl, by simp [notLead, loneLittle], rfl⟩

end LocalizationAudit

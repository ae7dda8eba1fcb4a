import LocalizationAudit.Proofs.Encoding.Utf16

/-!
Byte order marks. UTF-16 behind a mark is decoded in the order the mark stands for, and no mark of
UTF-16 can begin a text in UTF-8, which keeps its own mark as a character.
-/

namespace LocalizationAudit

def byteOrderMark : Char := '\uFEFF'

def markedUtf8 (text : List Char) : Bytes :=
  [0xEF, 0xBB, 0xBF] ++ encodeUtf8 text

def markedUtf16 (order : ByteOrder) (text : List Char) : Bytes :=
  match order with
  | .little => [0xFF, 0xFE] ++ encodeUtf16 .little text
  | .big => [0xFE, 0xFF] ++ encodeUtf16 .big text

theorem markedUtf8_eq (text : List Char) :
    markedUtf8 text = encodeUtf8 (byteOrderMark :: text) := by
  have mark : String.utf8EncodeChar byteOrderMark = [0xEF, 0xBB, 0xBF] := by decide
  rw [encodeUtf8, List.flatMap_cons, mark]
  rfl

theorem decodeText_encodeUtf8 (text : List Char) :
    decodeText (encodeUtf8 text) resourceEncodings = .ok (text, .utf8) := by
  rw [decodeText, resourceEncodings, decodeAfter, decode_encodeUtf8]

/-- No byte from 0xF5 on can begin a character in UTF-8. -/
theorem decode_utf8_of_high_lead {first : UInt8} (high : 0xF5 ≤ first) (rest : Bytes) :
    ∃ failure, Encoding.decode (first :: rest) .utf8 = .error failure := by
  simp only [UInt8.le_iff_toNat_le, UInt8.reduceToNat] at high
  have refused : readUtf8 first rest = .fault .invalidStartByte 0 := by
    simp only [readUtf8, UInt8.lt_iff_toNat_lt, UInt8.reduceToNat]
    rw [if_neg (by omega), if_neg (by omega), if_neg (by omega), if_neg (by omega),
      if_neg (by omega)]
  rw [Encoding.decode, decodeWith, refused]
  exact ⟨_, rfl⟩

theorem decode_markedUtf16 (order : ByteOrder) (text : List Char) :
    Encoding.decode (markedUtf16 order text) .utf16 = .ok text := by
  cases order with
  | little => exact decodeWith_utf16 .little .utf16le 2 text
  | big => exact decodeWith_utf16 .big .utf16be 2 text

theorem decodeText_markedUtf16 (order : ByteOrder) (text : List Char) :
    decodeText (markedUtf16 order text) resourceEncodings = .ok (text, .utf16) := by
  have refused : ∃ failure, Encoding.decode (markedUtf16 order text) .utf8 = .error failure := by
    cases order with
    | little => exact decode_utf8_of_high_lead (by decide) _
    | big => exact decode_utf8_of_high_lead (by decide) _
  obtain ⟨failure, refused⟩ := refused
  rw [decodeText, resourceEncodings, decodeAfter, refused]
  simp only
  rw [decodeAfter, decode_markedUtf16]

section Marks

variable (order : ByteOrder)

def ByteOrder.mark : ByteOrder → Bytes
  | .little => [0xFF, 0xFE]
  | .big => [0xFE, 0xFF]

def ByteOrder.encoding : ByteOrder → Encoding
  | .little => .utf16le
  | .big => .utf16be

theorem markedUtf16_eq (text : List Char) :
    markedUtf16 order text = order.mark ++ encodeUtf16 order text := by
  cases order <;> rfl

theorem ByteOrder.eq_of_marks {other : ByteOrder} {bytes : Bytes} (starts : order.mark <+: bytes)
    (alsoStarts : other.mark <+: bytes) : order = other := by
  obtain ⟨rest, rfl⟩ := starts
  cases order <;> cases other <;> simp [mark] at alsoStarts ⊢

theorem decode_behind_mark (rest : Bytes) :
    Encoding.decode (order.mark ++ rest) .utf16 =
      decodeWith order.encoding (readUtf16 order) 2 rest := by
  cases order <;> rfl

theorem decode_order (bytes : Bytes) :
    Encoding.decode bytes order.encoding = decodeWith order.encoding (readUtf16 order) 0 bytes := by
  cases order <;> rfl

theorem readUtf16_mark (rest : Bytes) : ∃ first second, order.mark = [first, second] ∧
    readUtf16 order first (second :: rest) = .scalar byteOrderMark 1 := by
  cases order with
  | little => exact ⟨_, _, rfl, rfl⟩
  | big => exact ⟨_, _, rfl, rfl⟩

/-- Behind its own mark an order accepts the same bytes, whether the mark is kept or not. -/
theorem decode_keeping_mark (rest : Bytes) :
    Encoding.decode (order.mark ++ rest) order.encoding =
      (Encoding.decode (order.mark ++ rest) .utf16).map (byteOrderMark :: ·) := by
  obtain ⟨first, second, isMark, found⟩ := readUtf16_mark order rest
  rw [decode_behind_mark, decode_order, isMark, List.cons_append, List.singleton_append, decodeWith,
    found]
  cases later : decodeWith order.encoding (readUtf16 order) 2 rest <;> simp [later, Except.map]

theorem decode_of_no_mark {bytes : Bytes} (unmarked : ∀ order : ByteOrder, ¬ order.mark <+: bytes) :
    Encoding.decode bytes .utf16 = Encoding.decode bytes .utf16le := by
  rw [Encoding.decode, Encoding.decode, decodeMarked]
  · rintro rest rfl
    exact unmarked .little (List.prefix_append _ rest)
  · rintro rest rfl
    exact unmarked .big (List.prefix_append _ rest)

end Marks

end LocalizationAudit

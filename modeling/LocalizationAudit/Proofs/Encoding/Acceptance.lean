import LocalizationAudit.Proofs.Encoding.ByteOrderMark

/-!
What each encoding accepts. Bytes are accepted as a text exactly when they spell it, so the text and
the encoding give the bytes back.
-/

namespace LocalizationAudit

def SpellsBytewise (limit : Nat) (bytes : Bytes) (text : List Char) : Prop :=
  (∀ c ∈ text, c.toNat < limit) ∧ bytes = text.map fun c => UInt8.ofNat c.toNat

/-- UTF-16 without a mark is little-endian, unless it begins with what would be taken for a mark. -/
def Encoding.Spells (bytes : Bytes) (text : List Char) : Encoding → Prop
  | .utf8 => bytes = encodeUtf8 text
  | .utf16 => (∃ order, bytes = markedUtf16 order text) ∨
      (∀ order : ByteOrder, ¬ order.mark <+: bytes) ∧ bytes = encodeUtf16 .little text
  | .utf16be => bytes = encodeUtf16 .big text
  | .utf16le => bytes = encodeUtf16 .little text
  | .ascii => SpellsBytewise 0x80 bytes text
  | .latin1 => SpellsBytewise 0x100 bytes text

def Encoding.Rejects (encoding : Encoding) (bytes : Bytes) : Prop :=
  ∃ failure, encoding.decode bytes = .error failure

section Bytewise

structure IsBytewise (limit : Nat) (read : UInt8 → Bytes → Reading) : Prop where
  takes : ∀ first rest, first.toNat < limit → read first rest = .scalar (Char.ofNat first.toNat) 0
  refuses : ∀ first rest, ¬ first.toNat < limit → ∃ reason, read first rest = .fault reason 0

theorem isBytewise_ascii : IsBytewise 0x80 readAscii := by
  constructor
  · intro first rest small
    exact if_pos (UInt8.lt_iff_toNat_lt.mpr small)
  · intro first rest large
    exact ⟨_, if_neg (mt UInt8.lt_iff_toNat_lt.mp large)⟩

theorem isBytewise_latin1 : IsBytewise 0x100 readLatin1 := by
  constructor
  · intro first rest _
    rfl
  · intro first rest large
    exact absurd first.toNat_lt large

theorem toNat_ofNat_byte (byte : UInt8) : (Char.ofNat byte.toNat).toNat = byte.toNat :=
  toNat_ofNat_of_valid (.inl (by have := byte.toNat_lt; omega))

namespace IsBytewise

variable {limit : Nat} {read : UInt8 → Bytes → Reading} {encoding : Encoding} {position : Nat}
  {bytes : Bytes} {text : List Char}

theorem spells_of_decodeWith (bytewise : IsBytewise limit read)
    (decoded : decodeWith encoding read position bytes = .ok text) :
    SpellsBytewise limit bytes text := by
  fun_induction decodeWith encoding read position bytes generalizing text with
  | case1 =>
      cases decoded
      exact ⟨by simp, rfl⟩
  | case2 position first rest c extra found text' later ih =>
      cases decoded
      by_cases small : first.toNat < limit
      · rw [bytewise.takes first rest small] at found
        obtain ⟨rfl, rfl⟩ := Reading.scalar.inj found
        obtain ⟨below, spelled⟩ := ih later
        rw [List.drop_zero] at spelled
        refine ⟨?_, ?_⟩
        · rw [List.forall_mem_cons, toNat_ofNat_byte]
          exact ⟨small, below⟩
        · rw [List.map_cons, toNat_ofNat_byte, UInt8.ofNat_toNat, ← spelled]
      · obtain ⟨reason, refused⟩ := bytewise.refuses first rest small
        simp [refused] at found
  | case3 => simp at decoded
  | case4 => simp at decoded

theorem decodeWith_map (bytewise : IsBytewise limit read) (fits : limit ≤ 0x100)
    (below : ∀ c ∈ text, c.toNat < limit) :
    decodeWith encoding read position (text.map fun c => UInt8.ofNat c.toNat) = .ok text := by
  induction text generalizing position with
  | nil => rw [List.map_nil, decodeWith]
  | cons c text ih =>
      obtain ⟨small, others⟩ := List.forall_mem_cons.mp below
      have byte : (UInt8.ofNat c.toNat).toNat = c.toNat :=
        UInt8.toNat_ofNat_of_lt' (by simp only [UInt8.size]; omega)
      have found := bytewise.takes (UInt8.ofNat c.toNat) (text.map fun c => UInt8.ofNat c.toNat)
        (by rwa [byte])
      rw [byte, Char.ofNat_toNat] at found
      rw [List.map_cons, decodeWith, found]
      simp [ih others]

theorem decodeWith_eq_ok_iff (bytewise : IsBytewise limit read) (fits : limit ≤ 0x100) :
    decodeWith encoding read position bytes = .ok text ↔ SpellsBytewise limit bytes text := by
  constructor
  · exact bytewise.spells_of_decodeWith
  · rintro ⟨below, rfl⟩
    exact bytewise.decodeWith_map fits below

end IsBytewise

end Bytewise

section Acceptance

variable {encoding : Encoding} {bytes : Bytes} {text : List Char}

theorem decode_utf16_eq_ok_iff :
    Encoding.decode bytes .utf16 = .ok text ↔ Encoding.utf16.Spells bytes text := by
  rw [Encoding.Spells]
  by_cases marked : ∃ order : ByteOrder, order.mark <+: bytes
  · obtain ⟨order, rest, rfl⟩ := marked
    rw [decode_behind_mark, (reads_utf16 order).decodeWith_eq_ok_iff]
    constructor
    · rintro rfl
      exact .inl ⟨order, (markedUtf16_eq order text).symm⟩
    · rintro (⟨other, spelled⟩ | ⟨unmarked, _⟩)
      · rw [markedUtf16_eq] at spelled
        have starts : other.mark <+: order.mark ++ rest := ⟨_, spelled.symm⟩
        obtain rfl := order.eq_of_marks (List.prefix_append _ rest) starts
        exact List.append_cancel_left spelled
      · exact absurd (List.prefix_append _ rest) (unmarked order)
  · rw [not_exists] at marked
    rw [decode_of_no_mark marked, Encoding.decode, (reads_utf16 .little).decodeWith_eq_ok_iff]
    constructor
    · rintro spelled
      exact .inr ⟨marked, spelled⟩
    · rintro (⟨order, spelled⟩ | ⟨_, spelled⟩)
      · rw [markedUtf16_eq] at spelled
        exact absurd ⟨_, spelled.symm⟩ (marked order)
      · exact spelled

/-- Nothing is lost: what is accepted spells the text it is read as, and no other bytes do. -/
theorem decode_eq_ok_iff : encoding.decode bytes = .ok text ↔ encoding.Spells bytes text := by
  cases encoding with
  | utf8 => exact decode_utf8_eq_ok_iff
  | utf16 => exact decode_utf16_eq_ok_iff
  | utf16be => exact (reads_utf16 .big).decodeWith_eq_ok_iff
  | utf16le => exact (reads_utf16 .little).decodeWith_eq_ok_iff
  | ascii => exact isBytewise_ascii.decodeWith_eq_ok_iff (by decide)
  | latin1 => exact isBytewise_latin1.decodeWith_eq_ok_iff (Nat.le_refl _)

theorem rejects_iff : encoding.Rejects bytes ↔ ∀ text, ¬ encoding.Spells bytes text := by
  simp only [Encoding.Rejects, ← decode_eq_ok_iff]
  cases encoding.decode bytes <;> simp

end Acceptance

end LocalizationAudit

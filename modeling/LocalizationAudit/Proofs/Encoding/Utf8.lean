import LocalizationAudit.Encoding.Decode
import LocalizationAudit.Proofs.Encoding.Reading

/-!
UTF-8: decoding accepts exactly the spellings of texts. Overlong forms, surrogates and values past
the last code point are refused because the second byte shows them.
-/

namespace LocalizationAudit

theorem toNat_ofNat_of_valid {value : Nat} (valid : value.isValidChar) :
    (Char.ofNat value).toNat = value := by
  rw [Char.ofNat, dif_pos valid]
  rfl

theorem isValidChar_toNat (c : Char) : c.toNat.isValidChar :=
  c.valid

theorem appendBits_eq (value : Nat) (byte : UInt8) :
    appendBits value byte = value * 64 + (byte.toNat - 0x80) :=
  rfl

theorem isContinuation_iff {byte : UInt8} :
    isContinuation byte = true ↔ 0x80 ≤ byte.toNat ∧ byte.toNat < 0xC0 := by
  simp [isContinuation, UInt8.le_iff_toNat_le, UInt8.lt_iff_toNat_lt]

theorem secondByteFits_iff {first second : UInt8} :
    secondByteFits first second = true ↔
      0x80 ≤ second.toNat ∧ second.toNat < 0xC0 ∧
      (first.toNat = 0xE0 → 0xA0 ≤ second.toNat) ∧ (first.toNat = 0xED → second.toNat < 0xA0) ∧
      (first.toNat = 0xF0 → 0x90 ≤ second.toNat) ∧ (first.toNat = 0xF4 → second.toNat < 0x90) := by
  simp only [secondByteFits, Bool.and_eq_true, isContinuation_iff, Bool.or_eq_true, bne_iff_ne,
    ne_eq, decide_eq_true_eq, UInt8.le_iff_toNat_le, UInt8.lt_iff_toNat_lt, ← UInt8.toNat_inj,
    UInt8.reduceToNat]
  omega

/-- The bytes of one character given by its number: a lead byte and what must follow it. -/
inductive Utf8Sequence : UInt8 → Bytes → Nat → Prop
  | one {first} {value : Nat} : first.toNat = value → value < 0x80 → Utf8Sequence first [] value
  | two {first second} {value : Nat} : first.toNat = 0xC0 + value / 64 →
      second.toNat = 0x80 + value % 64 → 0x80 ≤ value → value < 0x800 →
      Utf8Sequence first [second] value
  | three {first second third} {value : Nat} : first.toNat = 0xE0 + value / 4096 →
      second.toNat = 0x80 + value / 64 % 64 → third.toNat = 0x80 + value % 64 →
      0x800 ≤ value → value < 0x10000 → value.isValidChar →
      Utf8Sequence first [second, third] value
  | four {first second third fourth} {value : Nat} : first.toNat = 0xF0 + value / 262144 →
      second.toNat = 0x80 + value / 4096 % 64 → third.toNat = 0x80 + value / 64 % 64 →
      fourth.toNat = 0x80 + value % 64 → 0x10000 ≤ value → value < 0x110000 →
      Utf8Sequence first [second, third, fourth] value

theorem Utf8Sequence.isValidChar {first : UInt8} {more : Bytes} {value : Nat}
    (sequence : Utf8Sequence first more value) : value.isValidChar := by
  cases sequence with
  | one _ small => exact .inl (by omega)
  | two _ _ _ high => exact .inl (by omega)
  | three _ _ _ _ _ valid => exact valid
  | four _ _ _ _ low high => exact .inr (by omega)

section Reading

variable {first : UInt8} {rest : Bytes} {c : Char} {extra : Nat}

def TakesSequence (first : UInt8) (rest : Bytes) (c : Char) (extra : Nat) : Prop :=
  ∃ more after value, rest = more ++ after ∧ more.length = extra ∧
    Utf8Sequence first more value ∧ Char.ofNat value = c

theorem readTwo_sound (lead : 0xC2 ≤ first.toNat) (bound : first.toNat < 0xE0)
    (found : readTwo first rest = .scalar c extra) : TakesSequence first rest c extra := by
  unfold readTwo at found
  split at found
  · simp at found
  next second after =>
    split at found
    next continued =>
      obtain ⟨same, length⟩ := Reading.scalar.inj found
      have inner := isContinuation_iff.mp continued
      refine ⟨[second], after, _, rfl, length, ?_, same⟩
      rw [appendBits_eq]
      exact .two (by omega) (by omega) (by omega) (by omega)
    next => simp at found

theorem readThree_sound (lead : 0xE0 ≤ first.toNat) (bound : first.toNat < 0xF0)
    (found : readThree first rest = .scalar c extra) : TakesSequence first rest c extra := by
  unfold readThree at found
  repeat' split at found
  all_goals try simp only [reduceCtorEq] at found
  next second fits _ third after continued =>
    obtain ⟨same, length⟩ := Reading.scalar.inj found
    have inner := secondByteFits_iff.mp fits
    have last := isContinuation_iff.mp continued
    refine ⟨[second, third], after, _, rfl, length, ?_, same⟩
    rw [appendBits_eq, appendBits_eq]
    refine .three (by omega) (by omega) (by omega) (by omega) (by omega) ?_
    simp only [Nat.isValidChar]
    omega

theorem readFour_sound (lead : 0xF0 ≤ first.toNat) (bound : first.toNat < 0xF5)
    (found : readFour first rest = .scalar c extra) : TakesSequence first rest c extra := by
  unfold readFour at found
  repeat' split at found
  all_goals try simp only [reduceCtorEq] at found
  next second fits _ third continued _ fourth after final =>
    obtain ⟨same, length⟩ := Reading.scalar.inj found
    have inner := secondByteFits_iff.mp fits
    have middle := isContinuation_iff.mp continued
    have last := isContinuation_iff.mp final
    refine ⟨[second, third, fourth], after, _, rfl, length, ?_, same⟩
    rw [appendBits_eq, appendBits_eq, appendBits_eq]
    exact .four (by omega) (by omega) (by omega) (by omega) (by omega) (by omega)

theorem readUtf8_sound (found : readUtf8 first rest = .scalar c extra) :
    TakesSequence first rest c extra := by
  unfold readUtf8 at found
  simp only [UInt8.lt_iff_toNat_lt, UInt8.reduceToNat] at found
  split at found
  next small =>
    obtain ⟨same, length⟩ := Reading.scalar.inj found
    exact ⟨[], rest, _, rfl, length, .one rfl small, same⟩
  repeat' split at found
  · simp at found
  · exact readTwo_sound (by omega) ‹_› found
  · exact readThree_sound (by omega) ‹_› found
  · exact readFour_sound (by omega) ‹_› found
  · simp at found

theorem readUtf8_complete {more : Bytes} {value : Nat} (sequence : Utf8Sequence first more value) :
    readUtf8 first (more ++ rest) = .scalar (Char.ofNat value) more.length := by
  simp only [readUtf8, UInt8.lt_iff_toNat_lt, UInt8.reduceToNat]
  cases sequence with
  | one lead small =>
      rw [if_pos (by omega), lead]
      rfl
  | @two second value lead tail low high =>
      have continued : isContinuation second = true := isContinuation_iff.mpr (by omega)
      have whole : appendBits (first.toNat - 0xC0) second = value := by
        rw [appendBits_eq]
        omega
      rw [if_neg (by omega), if_neg (by omega), if_pos (by omega)]
      simp [readTwo, continued, whole]
  | @three second third value lead middle tail low high valid =>
      simp only [Nat.isValidChar] at valid
      have fits : secondByteFits first second = true := secondByteFits_iff.mpr (by omega)
      have continued : isContinuation third = true := isContinuation_iff.mpr (by omega)
      have whole : appendBits (appendBits (first.toNat - 0xE0) second) third = value := by
        rw [appendBits_eq, appendBits_eq]
        omega
      rw [if_neg (by omega), if_neg (by omega), if_neg (by omega), if_pos (by omega)]
      simp [readThree, fits, continued, whole]
  | @four second third fourth value lead middle middle' tail low high =>
      have fits : secondByteFits first second = true := secondByteFits_iff.mpr (by omega)
      have continued : isContinuation third = true := isContinuation_iff.mpr (by omega)
      have final : isContinuation fourth = true := isContinuation_iff.mpr (by omega)
      have whole : appendBits (appendBits (appendBits (first.toNat - 0xF0) second) third) fourth =
          value := by
        rw [appendBits_eq, appendBits_eq, appendBits_eq]
        omega
      rw [if_neg (by omega), if_neg (by omega), if_neg (by omega), if_neg (by omega),
        if_pos (by omega)]
      simp [readFour, fits, continued, final, whole]

end Reading

theorem ofNat_eq_byte (byte : UInt8) {value : Nat} (same : byte.toNat = value) :
    UInt8.ofNat value = byte := by
  rw [← same, UInt8.ofNat_toNat]

theorem exists_utf8Sequence {value : Nat} (valid : value.isValidChar) :
    ∃ first more, Utf8Sequence first more value := by
  have byte : ∀ n, n < 256 → (UInt8.ofNat n).toNat = n := fun n => UInt8.toNat_ofNat_of_lt'
  have bound : value < 0x110000 := by
    simp only [Nat.isValidChar] at valid
    omega
  by_cases ascii : value < 0x80
  · exact ⟨UInt8.ofNat value, [], .one (byte _ (by omega)) ascii⟩
  by_cases double : value < 0x800
  · exact ⟨UInt8.ofNat (0xC0 + value / 64), [UInt8.ofNat (0x80 + value % 64)],
      .two (byte _ (by omega)) (byte _ (by omega)) (by omega) double⟩
  by_cases triple : value < 0x10000
  · exact ⟨UInt8.ofNat (0xE0 + value / 4096),
      [UInt8.ofNat (0x80 + value / 64 % 64), UInt8.ofNat (0x80 + value % 64)],
      .three (byte _ (by omega)) (byte _ (by omega)) (byte _ (by omega)) (by omega) triple valid⟩
  · exact ⟨UInt8.ofNat (0xF0 + value / 262144),
      [UInt8.ofNat (0x80 + value / 4096 % 64), UInt8.ofNat (0x80 + value / 64 % 64),
        UInt8.ofNat (0x80 + value % 64)],
      .four (byte _ (by omega)) (byte _ (by omega)) (byte _ (by omega)) (byte _ (by omega))
        (by omega) bound⟩

theorem utf8EncodeChar_of_sequence {c : Char} {first : UInt8} {more : Bytes}
    (sequence : Utf8Sequence first more c.toNat) : String.utf8EncodeChar c = first :: more := by
  have number : c.val.toNat = c.toNat := rfl
  simp only [String.utf8EncodeChar, number]
  generalize c.toNat = value at sequence
  cases sequence with
  | one lead small => rw [if_pos (by omega), ofNat_eq_byte first lead]
  | @two second _ lead tail low high =>
      rw [if_neg (by omega), if_pos (by omega), ofNat_eq_byte first (by omega),
        ofNat_eq_byte second (by omega)]
  | @three second third _ lead middle tail low high valid =>
      rw [if_neg (by omega), if_neg (by omega), if_pos (by omega), ofNat_eq_byte first (by omega),
        ofNat_eq_byte second (by omega), ofNat_eq_byte third (by omega)]
  | @four second third fourth _ lead middle middle' tail low high =>
      rw [if_neg (by omega), if_neg (by omega), if_neg (by omega),
        ofNat_eq_byte first (by omega), ofNat_eq_byte second (by omega),
        ofNat_eq_byte third (by omega), ofNat_eq_byte fourth (by omega)]

theorem reads_utf8 : Reads readUtf8 String.utf8EncodeChar := by
  constructor
  · intro c rest
    obtain ⟨first, more, sequence⟩ := exists_utf8Sequence c.valid
    refine ⟨first, more, utf8EncodeChar_of_sequence sequence, ?_⟩
    rw [readUtf8_complete sequence]
    exact congrArg (Reading.scalar · _) (Char.ofNat_toNat c)
  · intro first rest c extra found
    obtain ⟨more, after, value, rfl, length, sequence, rfl⟩ := readUtf8_sound found
    refine ⟨more, after, rfl, length, utf8EncodeChar_of_sequence ?_⟩
    rwa [toNat_ofNat_of_valid sequence.isValidChar]

def IsUtf8 (bytes : Bytes) : Prop :=
  ∃ text, bytes = encodeUtf8 text

theorem decode_utf8_eq_ok_iff {bytes : Bytes} {text : List Char} :
    Encoding.decode bytes .utf8 = .ok text ↔ bytes = encodeUtf8 text :=
  reads_utf8.decodeWith_eq_ok_iff

theorem decode_encodeUtf8 (text : List Char) : Encoding.decode (encodeUtf8 text) .utf8 = .ok text :=
  decode_utf8_eq_ok_iff.mpr rfl

theorem isUtf8_iff {bytes : Bytes} :
    IsUtf8 bytes ↔ ∃ text, Encoding.decode bytes .utf8 = .ok text := by
  simp only [IsUtf8, decode_utf8_eq_ok_iff]

instance : DecidablePred IsUtf8 := fun bytes =>
  decidable_of_iff ((Encoding.decode bytes .utf8).toOption.isSome = true) <| by
    rw [isUtf8_iff]
    cases Encoding.decode bytes .utf8 <;> simp [Except.toOption]

theorem encodeUtf8_append (first second : List Char) :
    encodeUtf8 (first ++ second) = encodeUtf8 first ++ encodeUtf8 second :=
  List.flatMap_append

theorem encodeUtf8_injective : Function.Injective encodeUtf8 := by
  intro first second same
  have decoded := decode_encodeUtf8 first
  rw [same, decode_encodeUtf8] at decoded
  exact (Except.ok.inj decoded).symm

/-- A text whose spelling begins with that of another text begins with that text. -/
theorem encodeUtf8_prefix {before text : List Char} {rest : Bytes}
    (same : encodeUtf8 before ++ rest = encodeUtf8 text) :
    ∃ after, text = before ++ after ∧ rest = encodeUtf8 after :=
  reads_utf8.flatMap_prefix same

end LocalizationAudit

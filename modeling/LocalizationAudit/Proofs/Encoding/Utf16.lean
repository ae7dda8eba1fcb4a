import LocalizationAudit.Proofs.Encoding.Utf8

/-!
UTF-16 in either byte order: decoding accepts exactly the spellings of texts. A character beyond
the first plane is a pair of surrogates, and no other character looks like one of them.
-/

namespace LocalizationAudit

variable (order : ByteOrder)

theorem exists_unitBytes {unit : Nat} (bound : unit < 0x10000) :
    ∃ first second, unitBytes order unit = [first, second] ∧ codeUnit order first second = unit := by
  have low : (UInt8.ofNat (unit % 256)).toNat = unit % 256 :=
    UInt8.toNat_ofNat_of_lt' (Nat.mod_lt _ (by decide))
  have high : (UInt8.ofNat (unit / 256)).toNat = unit / 256 :=
    UInt8.toNat_ofNat_of_lt' (by simp only [UInt8.size]; omega)
  cases order with
  | little =>
      refine ⟨_, _, rfl, ?_⟩
      rw [codeUnit, low, high]
      omega
  | big =>
      refine ⟨_, _, rfl, ?_⟩
      rw [codeUnit, low, high]
      omega

theorem unitBytes_codeUnit (first second : UInt8) :
    unitBytes order (codeUnit order first second) = [first, second] := by
  have := first.toNat_lt
  have := second.toNat_lt
  cases order with
  | little =>
      rw [codeUnit, unitBytes, ofNat_eq_byte first (by omega), ofNat_eq_byte second (by omega)]
  | big =>
      rw [codeUnit, unitBytes, ofNat_eq_byte first (by omega), ofNat_eq_byte second (by omega)]

theorem codeUnit_lt (first second : UInt8) : codeUnit order first second < 0x10000 := by
  have := first.toNat_lt
  have := second.toNat_lt
  cases order <;> simp only [codeUnit] <;> omega

theorem isHighSurrogate_iff {unit : Nat} :
    isHighSurrogate unit = true ↔ 0xD800 ≤ unit ∧ unit < 0xDC00 := by
  simp [isHighSurrogate]

theorem isLowSurrogate_iff {unit : Nat} :
    isLowSurrogate unit = true ↔ 0xDC00 ≤ unit ∧ unit < 0xE000 := by
  simp [isLowSurrogate]

theorem encodeUtf16Char_ofNat_unit {unit : Nat} (bound : unit < 0x10000)
    (valid : unit.isValidChar) : encodeUtf16Char order (Char.ofNat unit) = unitBytes order unit := by
  rw [encodeUtf16Char, toNat_ofNat_of_valid valid, if_pos bound]

/-- A pair of surrogates stands for the number that their ten low bits each make up. -/
theorem encodeUtf16Char_ofNat_pair {high low value : Nat} (isHigh : isHighSurrogate high = true)
    (isLow : isLowSurrogate low = true)
    (whole : value = 0x10000 + (high - 0xD800) * 0x400 + (low - 0xDC00)) :
    encodeUtf16Char order (Char.ofNat value) = unitBytes order high ++ unitBytes order low := by
  rw [isHighSurrogate_iff] at isHigh
  rw [isLowSurrogate_iff] at isLow
  have valid : value.isValidChar := .inr (by omega)
  have highPart : 0xD800 + (value - 0x10000) / 0x400 = high := by omega
  have lowPart : 0xDC00 + (value - 0x10000) % 0x400 = low := by omega
  rw [encodeUtf16Char, toNat_ofNat_of_valid valid, if_neg (by omega), highPart, lowPart]

theorem readUtf16_spelled (c : Char) (rest : Bytes) :
    ∃ first more, encodeUtf16Char order c = first :: more ∧
      readUtf16 order first (more ++ rest) = .scalar c more.length := by
  have valid := isValidChar_toNat c
  simp only [Nat.isValidChar] at valid
  by_cases small : c.toNat < 0x10000
  · obtain ⟨first, second, spelled, unit⟩ := exists_unitBytes order small
    have notHigh : isHighSurrogate c.toNat = false := by
      rw [← Bool.not_eq_true, isHighSurrogate_iff]
      omega
    have notLow : isLowSurrogate c.toNat = false := by
      rw [← Bool.not_eq_true, isLowSurrogate_iff]
      omega
    refine ⟨first, [second], by rw [encodeUtf16Char, if_pos small, spelled], ?_⟩
    simp [readUtf16, unit, notHigh, notLow]
  · have highBound : 0xD800 + (c.toNat - 0x10000) / 0x400 < 0x10000 := by omega
    have lowBound : 0xDC00 + (c.toNat - 0x10000) % 0x400 < 0x10000 := by omega
    obtain ⟨first, second, spelledHigh, high⟩ := exists_unitBytes order highBound
    obtain ⟨third, fourth, spelledLow, low⟩ := exists_unitBytes order lowBound
    have isHigh : isHighSurrogate (codeUnit order first second) = true := by
      rw [high, isHighSurrogate_iff]
      omega
    have isLow : isLowSurrogate (codeUnit order third fourth) = true := by
      rw [low, isLowSurrogate_iff]
      omega
    have whole : 0x10000 + (codeUnit order first second - 0xD800) * 0x400 +
        (codeUnit order third fourth - 0xDC00) = c.toNat := by
      rw [high, low]
      omega
    refine ⟨first, [second, third, fourth], ?_, ?_⟩
    · rw [encodeUtf16Char, if_neg small, spelledHigh, spelledLow]
      rfl
    · have joined := congrArg Char.ofNat whole
      rw [Char.ofNat_toNat] at joined
      simp [readUtf16, isHigh, isLow, joined]

theorem readUtf16_spells {first : UInt8} {rest : Bytes} {c : Char} {extra : Nat}
    (found : readUtf16 order first rest = .scalar c extra) :
    ∃ more after, rest = more ++ after ∧ more.length = extra ∧
      encodeUtf16Char order c = first :: more := by
  unfold readUtf16 at found
  split at found
  · simp at found
  next second rest =>
    have bound := codeUnit_lt order first second
    have spelled := unitBytes_codeUnit order first second
    simp only at found
    split at found
    next isHigh =>
      split at found
      next third fourth after =>
        split at found
        next isLow =>
          obtain ⟨rfl, rfl⟩ := Reading.scalar.inj found
          refine ⟨[second, third, fourth], after, rfl, rfl, ?_⟩
          have joined := encodeUtf16Char_ofNat_pair order isHigh isLow rfl
          rwa [spelled, unitBytes_codeUnit] at joined
        next => simp at found
      next => simp at found
    next notHigh =>
      split at found
      next => simp at found
      next notLow =>
        obtain ⟨rfl, rfl⟩ := Reading.scalar.inj found
        rw [isHighSurrogate_iff] at notHigh
        rw [isLowSurrogate_iff] at notLow
        have valid : (codeUnit order first second).isValidChar := by
          simp only [Nat.isValidChar]
          omega
        exact ⟨[second], rest, rfl, rfl, by
          rw [encodeUtf16Char_ofNat_unit order bound valid, spelled]⟩

theorem reads_utf16 : Reads (readUtf16 order) (encodeUtf16Char order) :=
  ⟨readUtf16_spelled order, readUtf16_spells order⟩

theorem decodeWith_utf16 (encoding : Encoding) (position : Nat) (text : List Char) :
    decodeWith encoding (readUtf16 order) position (encodeUtf16 order text) = .ok text :=
  (reads_utf16 order).decodeWith_flatMap encoding position text

end LocalizationAudit

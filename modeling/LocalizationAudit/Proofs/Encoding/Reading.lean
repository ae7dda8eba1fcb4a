import LocalizationAudit.Encoding.Codec

/-!
An encoding as a reader of one character beside the bytes that spell a character. Where the two
agree, decoding accepts exactly the bytes that spell a text and gives that text back, and no
spelling is the beginning of another one.
-/

namespace LocalizationAudit

/-- The reader recognises the spelling of a character before anything, and recognises nothing else. -/
structure Reads (read : UInt8 → Bytes → Reading) (write : Char → Bytes) : Prop where
  spelled : ∀ c rest, ∃ first more, write c = first :: more ∧
    read first (more ++ rest) = .scalar c more.length
  spells : ∀ {first rest c extra}, read first rest = .scalar c extra →
    ∃ more after, rest = more ++ after ∧ more.length = extra ∧ write c = first :: more

namespace Reads

variable {read : UInt8 → Bytes → Reading} {write : Char → Bytes}

theorem decodeWith_flatMap (reads : Reads read write) (encoding : Encoding) (position : Nat)
    (text : List Char) : decodeWith encoding read position (text.flatMap write) = .ok text := by
  induction text generalizing position with
  | nil => rw [List.flatMap_nil, decodeWith]
  | cons c text ih =>
      obtain ⟨first, more, spelled, found⟩ := reads.spelled c (text.flatMap write)
      rw [List.flatMap_cons, spelled, List.cons_append, decodeWith, found]
      simp [ih]

theorem flatMap_of_decodeWith (reads : Reads read write) {encoding : Encoding} {position : Nat}
    {bytes : Bytes} {text : List Char}
    (decoded : decodeWith encoding read position bytes = .ok text) :
    bytes = text.flatMap write := by
  fun_induction decodeWith encoding read position bytes generalizing text with
  | case1 =>
      cases decoded
      rfl
  | case2 position first rest c extra found text' later ih =>
      cases decoded
      obtain ⟨more, after, rfl, rfl, spelled⟩ := reads.spells found
      rw [List.drop_left] at ih later
      rw [List.flatMap_cons, spelled, List.cons_append, ← ih later]
  | case3 => simp at decoded
  | case4 => simp at decoded

theorem decodeWith_eq_ok_iff (reads : Reads read write) {encoding : Encoding} {position : Nat}
    {bytes : Bytes} {text : List Char} :
    decodeWith encoding read position bytes = .ok text ↔ bytes = text.flatMap write := by
  constructor
  · exact reads.flatMap_of_decodeWith
  · rintro rfl
    exact reads.decodeWith_flatMap encoding position text

theorem write_append_inj (reads : Reads read write) {c d : Char} {rest after : Bytes}
    (same : write c ++ rest = write d ++ after) : c = d ∧ rest = after := by
  obtain ⟨first, more, spelled, found⟩ := reads.spelled c rest
  obtain ⟨first', more', spelled', found'⟩ := reads.spelled d after
  have sameBytes := same
  rw [spelled, spelled', List.cons_append, List.cons_append, List.cons.injEq] at sameBytes
  rw [sameBytes.1, sameBytes.2, found'] at found
  obtain ⟨rfl, _⟩ := Reading.scalar.inj found
  exact ⟨rfl, List.append_cancel_left same⟩

theorem flatMap_prefix (reads : Reads read write) {before text : List Char} {rest : Bytes}
    (same : before.flatMap write ++ rest = text.flatMap write) :
    ∃ after, text = before ++ after ∧ rest = after.flatMap write := by
  induction before generalizing text with
  | nil => exact ⟨text, rfl, same⟩
  | cons c before ih =>
      cases text with
      | nil =>
          obtain ⟨first, more, spelled, _⟩ := reads.spelled c []
          simp [spelled] at same
      | cons d text =>
          rw [List.flatMap_cons, List.flatMap_cons, List.append_assoc] at same
          obtain ⟨rfl, later⟩ := reads.write_append_inj same
          obtain ⟨after, rfl, spelled⟩ := ih later
          exact ⟨after, rfl, spelled⟩

end Reads

end LocalizationAudit

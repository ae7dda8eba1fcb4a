import LocalizationAudit.Proofs.Encoding.Refusal

/-!
Decoding with a list of encodings: the first one that accepts the bytes is taken, the text it gives
keeps all of them, and where none accepts them the failure is that of the last one.
-/

namespace LocalizationAudit

variable {bytes : Bytes} {encodings : List Encoding}

theorem decodeAfter_eq_ok_iff {lastError : DecodeError} {text : List Char} {encoding : Encoding} :
    decodeAfter lastError bytes encodings = .ok (text, encoding) ↔
      ∃ before after, encodings = before ++ encoding :: after ∧
        (∀ earlier ∈ before, earlier.Rejects bytes) ∧ encoding.decode bytes = .ok text := by
  induction encodings generalizing lastError with
  | nil => simp [decodeAfter]
  | cons first others ih =>
      rw [decodeAfter]
      constructor
      · intro decoded
        cases attempt : first.decode bytes with
        | ok found =>
            rw [attempt] at decoded
            obtain ⟨rfl, rfl⟩ := Prod.mk.inj (Except.ok.inj decoded)
            exact ⟨[], others, rfl, by simp, attempt⟩
        | error failure =>
            rw [attempt] at decoded
            obtain ⟨before, after, rfl, rejected, accepted⟩ := ih.mp decoded
            refine ⟨first :: before, after, rfl, ?_, accepted⟩
            rw [List.forall_mem_cons]
            exact ⟨⟨failure, attempt⟩, rejected⟩
      · rintro ⟨before, after, listed, rejected, accepted⟩
        cases before with
        | nil =>
            obtain ⟨rfl, rfl⟩ := List.cons.inj listed
            rw [accepted]
        | cons earlier before =>
            obtain ⟨rfl, rfl⟩ := List.cons.inj listed
            obtain ⟨⟨failure, refused⟩, later⟩ := List.forall_mem_cons.mp rejected
            rw [refused]
            exact ih.mpr ⟨before, after, rfl, later, accepted⟩

theorem decodeText_eq_ok_iff {text : List Char} {encoding : Encoding} :
    decodeText bytes encodings = .ok (text, encoding) ↔
      ∃ before after, encodings = before ++ encoding :: after ∧
        (∀ earlier ∈ before, earlier.Rejects bytes) ∧ encoding.Spells bytes text := by
  rw [decodeText, decodeAfter_eq_ok_iff]
  simp only [decode_eq_ok_iff]

/-- Each attempt replaces the error of the one before it. -/
theorem decodeAfter_of_rejects {lastError : DecodeError}
    (rejected : ∀ encoding ∈ encodings, encoding.Rejects bytes) :
    (encodings = [] ∧ decodeAfter lastError bytes encodings = .error lastError) ∨
    ∃ last failure, encodings.getLast? = some last ∧ last.decode bytes = .error failure ∧
      decodeAfter lastError bytes encodings = .error (.rejected failure) := by
  induction encodings generalizing lastError with
  | nil => exact .inl ⟨rfl, rfl⟩
  | cons first others ih =>
      obtain ⟨⟨failure, refused⟩, later⟩ := List.forall_mem_cons.mp rejected
      right
      rw [decodeAfter, refused]
      rcases @ih (.rejected failure) later with
        ⟨rfl, outcome⟩ | ⟨last, final, isLast, failed, outcome⟩
      · exact ⟨first, failure, rfl, refused, outcome⟩
      · refine ⟨last, final, ?_, failed, outcome⟩
        rw [List.getLast?_cons, isLast, Option.getD_some]

theorem rejects_of_decodeAfter_eq_error {lastError error : DecodeError}
    (failed : decodeAfter lastError bytes encodings = .error error) :
    ∀ encoding ∈ encodings, encoding.Rejects bytes := by
  induction encodings generalizing lastError with
  | nil => simp
  | cons first others ih =>
      rw [decodeAfter] at failed
      cases attempt : first.decode bytes with
      | ok found => simp [attempt] at failed
      | error failure =>
          rw [attempt] at failed
          exact List.forall_mem_cons.mpr ⟨⟨failure, attempt⟩, ih failed⟩

theorem decodeText_eq_rejected_iff {failure : DecodeFailure} :
    decodeText bytes encodings = .error (.rejected failure) ↔
      (∀ encoding ∈ encodings, encoding.Rejects bytes) ∧
        ∃ last ∈ encodings.getLast?, last.decode bytes = .error failure := by
  constructor
  · intro failed
    have rejected := rejects_of_decodeAfter_eq_error failed
    refine ⟨rejected, ?_⟩
    rw [decodeText] at failed
    rcases @decodeAfter_of_rejects _ _ .noEncodings rejected with
      ⟨_, outcome⟩ | ⟨last, final, isLast, refused, outcome⟩
    · rw [outcome] at failed
      simp at failed
    · rw [outcome] at failed
      obtain rfl := DecodeError.rejected.inj (Except.error.inj failed)
      exact ⟨last, isLast, refused⟩
  · rintro ⟨rejected, last, isLast, refused⟩
    rcases @decodeAfter_of_rejects _ _ .noEncodings rejected with
      ⟨rfl, _⟩ | ⟨other, final, isOther, refused', outcome⟩
    · simp at isLast
    · obtain rfl := Option.some.inj (isOther.symm.trans isLast)
      obtain rfl := Except.error.inj (refused'.symm.trans refused)
      exact outcome

theorem decodeText_eq_noEncodings_iff :
    decodeText bytes encodings = .error .noEncodings ↔ encodings = [] := by
  constructor
  · intro failed
    have rejected := rejects_of_decodeAfter_eq_error failed
    rw [decodeText] at failed
    rcases @decodeAfter_of_rejects _ _ .noEncodings rejected with ⟨empty, _⟩ | ⟨_, _, _, _, outcome⟩
    · exact empty
    · rw [outcome] at failed
      simp at failed
  · rintro rfl
    rfl

/--
A text comes from the first encoding that accepts the bytes, and spells them in it. Failing means
that none accepts them; the place reported is the first one that the last encoding cannot read.
-/
theorem decodeText_first_fit (bytes : Bytes) (encodings : List Encoding) :
    (∀ text encoding, decodeText bytes encodings = .ok (text, encoding) ↔
      ∃ before after, encodings = before ++ encoding :: after ∧
        (∀ earlier ∈ before, earlier.Rejects bytes) ∧ encoding.Spells bytes text) ∧
    (∀ failure, decodeText bytes encodings = .error (.rejected failure) ↔
      (∀ encoding ∈ encodings, encoding.Rejects bytes) ∧
        ∃ last ∈ encodings.getLast?, last.decode bytes = .error failure ∧
          failure.IsFirstIn last bytes) ∧
    (decodeText bytes encodings = .error .noEncodings ↔ encodings = []) ∧
    DecodeError.noEncodings.message = "No encodings given" := by
  refine ⟨fun text encoding => decodeText_eq_ok_iff, fun failure => ?_,
    decodeText_eq_noEncodings_iff, rfl⟩
  rw [decodeText_eq_rejected_iff]
  constructor
  · rintro ⟨rejected, last, isLast, refused⟩
    exact ⟨rejected, last, isLast, refused, isFirstIn_of_decode refused⟩
  · rintro ⟨rejected, last, isLast, refused, _⟩
    exact ⟨rejected, last, isLast, refused⟩

/-- An odd byte behind a mark: the place counts the mark. -/
example : decodeText [0xFF, 0xFE, 0x61, 0x00, 0x62] [.utf8, .utf16] =
    .error (.rejected ⟨.utf16le, 4, 5, .truncated, 0x62⟩) := by
  cbv

end LocalizationAudit

import LocalizationAudit.Proofs.Encoding.Acceptance

/-!
Where decoding stops. Refused bytes have a first place at which no character can be read: what
stands before it is accepted by the same encoding, and the place lies inside the bytes. A mark that
was taken off and a last odd byte are counted.
-/

namespace LocalizationAudit

section Reader

variable {read : UInt8 → Bytes → Reading} {first : UInt8} {rest : Bytes} {c : Char}
  {reason : DecodeReason} {extra : Nat}

structure IsLocal (read : UInt8 → Bytes → Reading) : Prop where
  stable : ∀ {first rest c extra}, read first rest = .scalar c extra →
    ∃ more after, rest = more ++ after ∧ more.length = extra ∧
      ∀ other, read first (more ++ other) = .scalar c extra
  inside : ∀ {first rest reason extra}, read first rest = .fault reason extra → extra ≤ rest.length

theorem Reads.stable {write : Char → Bytes} (reads : Reads read write)
    (found : read first rest = .scalar c extra) :
    ∃ more after, rest = more ++ after ∧ more.length = extra ∧
      ∀ other, read first (more ++ other) = .scalar c extra := by
  obtain ⟨more, after, rfl, rfl, spelled⟩ := reads.spells found
  refine ⟨more, after, rfl, rfl, fun other => ?_⟩
  obtain ⟨first', more', spelled', again⟩ := reads.spelled c other
  rw [spelled] at spelled'
  cases spelled'
  exact again

theorem readUtf8_fault_le (found : readUtf8 first rest = .fault reason extra) :
    extra ≤ rest.length := by
  unfold readUtf8 readTwo readThree readFour at found
  grind

theorem readUtf16_fault_le {order : ByteOrder}
    (found : readUtf16 order first rest = .fault reason extra) : extra ≤ rest.length := by
  unfold readUtf16 at found
  grind

theorem isLocal_utf8 : IsLocal readUtf8 :=
  ⟨reads_utf8.stable, readUtf8_fault_le⟩

theorem isLocal_utf16 (order : ByteOrder) : IsLocal (readUtf16 order) :=
  ⟨(reads_utf16 order).stable, readUtf16_fault_le⟩

theorem IsBytewise.isLocal {limit : Nat} (bytewise : IsBytewise limit read) : IsLocal read := by
  constructor
  · intro first rest c extra found
    by_cases small : first.toNat < limit
    · rw [bytewise.takes first rest small] at found
      obtain ⟨rfl, rfl⟩ := Reading.scalar.inj found
      exact ⟨[], rest, rfl, rfl, fun other => bytewise.takes first other small⟩
    · obtain ⟨reason, refused⟩ := bytewise.refuses first rest small
      simp [refused] at found
  · intro first rest reason extra found
    by_cases small : first.toNat < limit
    · simp [bytewise.takes first rest small] at found
    · obtain ⟨other, refused⟩ := bytewise.refuses first rest small
      rw [refused] at found
      obtain ⟨_, rfl⟩ := Reading.fault.inj found
      exact Nat.zero_le _

/-- Reading from some position on, a failure splits the bytes into what is accepted and the rest. -/
theorem IsLocal.exists_split (isLocal : IsLocal read) {encoding : Encoding} {position : Nat}
    {bytes : Bytes} {failure : DecodeFailure}
    (failed : decodeWith encoding read position bytes = .error failure) :
    ∃ front back text, bytes = front ++ failure.firstByte :: back ∧
      failure.start = position + front.length ∧ failure.start < failure.stop ∧
      failure.stop ≤ position + bytes.length ∧
      ∀ start, decodeWith encoding read start front = .ok text := by
  fun_induction decodeWith encoding read position bytes with
  | case1 => simp at failed
  | case2 => simp at failed
  | case3 position first rest c extra found failure' later ih =>
      obtain rfl := Except.error.inj failed
      obtain ⟨more, after, rfl, rfl, stable⟩ := isLocal.stable found
      rw [List.drop_left] at ih later
      obtain ⟨front, back, text, rfl, start, forward, inside, accepted⟩ := ih later
      refine ⟨first :: (more ++ front), back, c :: text, by simp, ?_, forward, ?_, fun start => ?_⟩
      · simp only [List.length_cons, List.length_append]
        omega
      · simp only [List.length_cons, List.length_append] at inside ⊢
        omega
      · rw [decodeWith, stable front]
        simp [accepted]
  | case4 position first rest reason extra found =>
      obtain rfl := Except.error.inj failed
      have inside := isLocal.inside found
      refine ⟨[], rest, [], rfl, rfl, ?_, ?_, fun start => by rw [decodeWith]⟩
      · simp only
        omega
      · simp only [List.length_cons]
        omega

end Reader

structure DecodeFailure.IsFirstIn (failure : DecodeFailure) (encoding : Encoding) (bytes : Bytes) :
    Prop where
  start_lt_stop : failure.start < failure.stop
  stop_le_length : failure.stop ≤ bytes.length
  firstByte : bytes[failure.start]? = some failure.firstByte
  accepted : ∃ text, encoding.decode (bytes.take failure.start) = .ok text

section Placement

variable {encoding : Encoding} {bytes : Bytes} {failure : DecodeFailure}

theorem isFirstIn_of_split {front back : Bytes} {text : List Char}
    (whole : bytes = front ++ failure.firstByte :: back) (start : failure.start = front.length)
    (forward : failure.start < failure.stop) (inside : failure.stop ≤ bytes.length)
    (accepted : encoding.decode front = .ok text) : failure.IsFirstIn encoding bytes := by
  refine ⟨forward, inside, ?_, text, ?_⟩
  · rw [whole, start]
    simp
  · rwa [whole, start, List.take_left]

theorem IsLocal.isFirstIn {read : UInt8 → Bytes → Reading} (isLocal : IsLocal read)
    (decodes : ∀ bytes, encoding.decode bytes = decodeWith encoding read 0 bytes)
    (failed : encoding.decode bytes = .error failure) : failure.IsFirstIn encoding bytes := by
  rw [decodes] at failed
  obtain ⟨front, back, text, whole, start, forward, inside, accepted⟩ := isLocal.exists_split failed
  rw [Nat.zero_add] at start inside
  exact isFirstIn_of_split whole start forward inside ((decodes front).trans (accepted 0))

theorem isFirstIn_of_decode_utf16 (failed : Encoding.decode bytes .utf16 = .error failure) :
    failure.IsFirstIn .utf16 bytes := by
  by_cases marked : ∃ order : ByteOrder, order.mark <+: bytes
  · obtain ⟨order, rest, rfl⟩ := marked
    have two : order.mark.length = 2 := by cases order <;> rfl
    rw [decode_behind_mark] at failed
    obtain ⟨front, back, text, rfl, start, forward, inside, accepted⟩ :=
      (isLocal_utf16 order).exists_split failed
    refine isFirstIn_of_split (List.append_assoc _ _ _).symm ?_ forward ?_
      ((decode_behind_mark order front).trans (accepted 2))
    · rw [List.length_append, two, start]
    · rwa [List.length_append, two]
  · rw [not_exists] at marked
    rw [decode_of_no_mark marked] at failed
    obtain ⟨front, back, text, rfl, start, forward, inside, accepted⟩ :=
      (isLocal_utf16 .little).exists_split failed
    rw [Nat.zero_add] at start inside
    have unmarked : ∀ order : ByteOrder, ¬ order.mark <+: front :=
      fun order starts => marked order (starts.trans (List.prefix_append _ _))
    exact isFirstIn_of_split rfl start forward inside
      ((decode_of_no_mark unmarked).trans (accepted 0))

theorem isFirstIn_of_decode (failed : encoding.decode bytes = .error failure) :
    failure.IsFirstIn encoding bytes := by
  cases encoding with
  | utf8 => exact isLocal_utf8.isFirstIn (fun _ => rfl) failed
  | utf16 => exact isFirstIn_of_decode_utf16 failed
  | utf16be => exact (isLocal_utf16 .big).isFirstIn (fun _ => rfl) failed
  | utf16le => exact (isLocal_utf16 .little).isFirstIn (fun _ => rfl) failed
  | ascii => exact isBytewise_ascii.isLocal.isFirstIn (fun _ => rfl) failed
  | latin1 => exact isBytewise_latin1.isLocal.isFirstIn (fun _ => rfl) failed

end Placement

end LocalizationAudit

import LocalizationAudit.Resource.Entry

/-!
The grammar of entries, said without reading a text from left to right, and that reading an entry
finds exactly what the grammar allows. At each place of a text at most one entry starts.
-/

namespace LocalizationAudit

/-- Between two quotes, a quote or a backslash stands only behind a backslash. -/
inductive IsBody : List Char → Prop
  | empty : IsBody []
  | plain {c rest} : c ≠ quoteMark → c ≠ backslash → IsBody rest → IsBody (c :: rest)
  | escaped {c rest} : IsBody rest → IsBody (backslash :: c :: rest)

def IsGap (text : List Char) : Prop :=
  ∀ c ∈ text, isBlank c = true

structure Entry.WellFormed (entry : Entry) : Prop where
  key : IsBody entry.key
  beforeEquals : IsGap entry.beforeEquals
  afterEquals : IsGap entry.afterEquals
  value : IsBody entry.value
  beforeEnd : IsGap entry.beforeEnd

def EntryAt (text : List Char) (position : Nat) (entry : Entry) : Prop :=
  entry.WellFormed ∧ ∃ before after, text = before ++ (entry.spelling ++ after) ∧
    before.length = position ∧ before.getLast? ≠ some backslash

theorem splitBody_quote (after : List Char) :
    splitBody (quoteMark :: after) = some ([], after) := by
  rw [splitBody.eq_def]
  simp

theorem splitBody_plain {c : Char} (notQuote : c ≠ quoteMark) (notBackslash : c ≠ backslash)
    (rest : List Char) : splitBody (c :: rest) = (splitBody rest).map (Prod.map (c :: ·) id) := by
  rw [splitBody.eq_def (c :: rest)]
  simp only [beq_eq_false_iff_ne.mpr notQuote, beq_eq_false_iff_ne.mpr notBackslash,
    Bool.false_eq_true, ↓reduceIte]
  cases splitBody rest <;> rfl

theorem splitBody_escaped (c : Char) (rest : List Char) :
    splitBody (backslash :: c :: rest) =
      (splitBody rest).map (Prod.map (backslash :: c :: ·) id) := by
  have different : (backslash == quoteMark) = false := by decide
  rw [splitBody.eq_def (backslash :: c :: rest)]
  simp only [different, beq_self_eq_true, Bool.false_eq_true, ↓reduceIte]
  cases splitBody rest <;> rfl

/-- Where the text is split does not depend on what of the body has been read already. -/
theorem splitBody_behind {front : List Char} (allowed : IsBody front) (rest : List Char) :
    splitBody (front ++ rest) = (splitBody rest).map (Prod.map (front ++ ·) id) := by
  induction allowed with
  | empty => exact (congrFun Option.map_id _).symm
  | plain notQuote notBackslash _ ih =>
      rw [List.cons_append, splitBody_plain notQuote notBackslash, ih, Option.map_map]
      rfl
  | escaped _ ih =>
      rw [List.cons_append, List.cons_append, splitBody_escaped, ih, Option.map_map]
      rfl

theorem splitBody_append {body : List Char} (allowed : IsBody body) (after : List Char) :
    splitBody (body ++ quoteMark :: after) = some (body, after) := by
  rw [splitBody_behind allowed, splitBody_quote]
  simp

theorem splitBody_eq_some_iff {text body after : List Char} :
    splitBody text = some (body, after) ↔ IsBody body ∧ text = body ++ quoteMark :: after := by
  constructor
  · intro found
    fun_induction splitBody text generalizing body after with
    | case1 => simp at found
    | case2 c rest quote =>
        simp only [Option.some.injEq, Prod.mk.injEq] at found
        obtain ⟨rfl, rfl⟩ := found
        exact ⟨.empty, by simpa using quote⟩
    | case3 => simp at found
    | case4 c _ isBackslash escaped rest body' after' split ih =>
        simp only [Option.some.injEq, Prod.mk.injEq] at found
        obtain ⟨rfl, rfl⟩ := found
        obtain ⟨allowed, rfl⟩ := ih split
        have same : c = backslash := by simpa using isBackslash
        exact ⟨same ▸ .escaped allowed, rfl⟩
    | case5 => simp at found
    | case6 c rest notQuote notBackslash body' after' split ih =>
        simp only [Option.some.injEq, Prod.mk.injEq] at found
        obtain ⟨rfl, rfl⟩ := found
        obtain ⟨allowed, rfl⟩ := ih split
        exact ⟨.plain (by simpa using notQuote) (by simpa using notBackslash) allowed, rfl⟩
    | case7 => simp at found
  · rintro ⟨allowed, rfl⟩
    exact splitBody_append allowed after

theorem dropWhile_gap {gap : List Char} {mark : Char} (blanks : IsGap gap)
    (solid : isBlank mark = false) (after : List Char) :
    (gap ++ mark :: after).dropWhile isBlank = mark :: after := by
  rw [List.dropWhile_append_of_pos blanks, List.dropWhile_cons_of_neg (by simp [solid])]

theorem splitGap_behind {gap : List Char} (blanks : IsGap gap) (mark : Char) (rest : List Char) :
    splitGap mark (gap ++ rest) = (splitGap mark rest).map (Prod.map (gap ++ ·) id) := by
  rw [splitGap, splitGap, List.dropWhile_append_of_pos blanks,
    List.takeWhile_append_of_pos blanks]
  cases rest.dropWhile isBlank with
  | nil => rfl
  | cons c after => by_cases same : c = mark <;> simp [same]

theorem splitGap_solid {c : Char} (solid : isBlank c = false) (mark : Char) (rest : List Char) :
    splitGap mark (c :: rest) = if c == mark then some ([], rest) else none := by
  have notBlank : ¬ isBlank c = true := by simp [solid]
  rw [splitGap, List.dropWhile_cons_of_neg notBlank, List.takeWhile_cons_of_neg notBlank]

theorem splitGap_eq_some_iff {mark : Char} (solid : isBlank mark = false)
    {text gap after : List Char} :
    splitGap mark text = some (gap, after) ↔ IsGap gap ∧ text = gap ++ mark :: after := by
  constructor
  · intro found
    have whole := List.takeWhile_append_dropWhile (p := isBlank) (l := text)
    unfold splitGap at found
    split at found
    next => simp at found
    next c rest dropped =>
      split at found
      next same =>
        simp only [Option.some.injEq, Prod.mk.injEq] at found
        obtain ⟨rfl, rfl⟩ := found
        refine ⟨List.all_eq_true.mp List.all_takeWhile, ?_⟩
        rw [← beq_iff_eq.mp same, ← dropped, whole]
      next => simp at found
  · rintro ⟨blanks, rfl⟩
    rw [splitGap_behind blanks, splitGap_solid solid]
    simp

theorem isBlank_equalsSign : isBlank '=' = false := by
  decide

theorem isBlank_semicolon : isBlank ';' = false := by
  decide

theorem isBlank_quoteMark : isBlank quoteMark = false := by
  decide

theorem splitEntry_eq_some_iff {text after : List Char} {entry : Entry} :
    splitEntry text = some (entry, after) ↔
      entry.WellFormed ∧ quoteMark :: text = entry.spelling ++ after := by
  simp only [splitEntry, Option.bind_eq_bind, Option.bind_eq_some_iff, Option.pure_def,
    Option.some.injEq, Prod.mk.injEq, Prod.exists, splitBody_eq_some_iff,
    splitGap_eq_some_iff isBlank_equalsSign, splitGap_eq_some_iff isBlank_quoteMark,
    splitGap_eq_some_iff isBlank_semicolon]
  constructor
  · rintro ⟨key, _, ⟨isKey, rfl⟩, beforeEquals, _, ⟨isBeforeEquals, rfl⟩, afterEquals, _,
      ⟨isAfterEquals, rfl⟩, value, _, ⟨isValue, rfl⟩, beforeEnd, _, ⟨isBeforeEnd, rfl⟩, rfl, rfl⟩
    exact ⟨⟨isKey, isBeforeEquals, isAfterEquals, isValue, isBeforeEnd⟩, by simp [Entry.spelling]⟩
  · rintro ⟨wellFormed, spelled⟩
    refine ⟨entry.key, _, ⟨wellFormed.key, ?_⟩, entry.beforeEquals, _,
      ⟨wellFormed.beforeEquals, rfl⟩, entry.afterEquals, _, ⟨wellFormed.afterEquals, rfl⟩,
      entry.value, _, ⟨wellFormed.value, rfl⟩, entry.beforeEnd, after,
      ⟨wellFormed.beforeEnd, rfl⟩, rfl, rfl⟩
    simpa [Entry.spelling] using spelled

theorem entryAt?_eq_some_iff {previous : Option Char} {text after : List Char} {entry : Entry} :
    entryAt? previous text = some (entry, after) ↔
      entry.WellFormed ∧ previous ≠ some backslash ∧ text = entry.spelling ++ after := by
  cases text with
  | nil => simp [entryAt?, Entry.spelling]
  | cons c rest =>
      rw [entryAt?]
      by_cases opens : c = quoteMark ∧ previous ≠ some backslash
      · obtain ⟨rfl, free⟩ := opens
        simp [free, splitEntry_eq_some_iff]
      · have refused : (c == quoteMark && previous != some backslash) = false := by
          simpa using opens
        simp only [refused, Bool.false_eq_true, ↓reduceIte, reduceCtorEq, false_iff]
        rintro ⟨_, free, spelled⟩
        refine opens ⟨?_, free⟩
        rw [Entry.spelling, List.cons_append] at spelled
        exact (List.cons.inj spelled).1

theorem Entry.spelling_append_inj {first second : Entry} {after after' : List Char}
    (isFirst : first.WellFormed) (isSecond : second.WellFormed)
    (same : first.spelling ++ after = second.spelling ++ after') :
    first = second ∧ after = after' := by
  have foundFirst : entryAt? none (first.spelling ++ after) = some (first, after) :=
    entryAt?_eq_some_iff.mpr ⟨isFirst, by simp, rfl⟩
  have foundSecond : entryAt? none (first.spelling ++ after) = some (second, after') :=
    entryAt?_eq_some_iff.mpr ⟨isSecond, by simp, same⟩
  simpa [foundFirst] using foundSecond

theorem EntryAt.unique {text : List Char} {position : Nat} {first second : Entry}
    (isFirst : EntryAt text position first) (isSecond : EntryAt text position second) :
    first = second := by
  obtain ⟨wellFirst, before, after, rfl, rfl, _⟩ := isFirst
  obtain ⟨wellSecond, before', after', same, length, _⟩ := isSecond
  obtain ⟨rfl, rest⟩ := List.append_inj same length.symm
  exact (Entry.spelling_append_inj wellFirst wellSecond rest).1

end LocalizationAudit

import LocalizationAudit.Text.LowerCase

/-! Lower-casing leaves characters before the letters alone, and no letter becomes one of them. -/

namespace LocalizationAudit

def IsBelowLetters (c : Char) : Prop :=
  0 < c.toNat ∧ c.toNat < 'A'.toNat

instance : DecidablePred IsBelowLetters :=
  fun c => inferInstanceAs (Decidable (0 < c.toNat ∧ c.toNat < 'A'.toNat))

theorem caseRuns_of_letters :
    ∀ run ∈ caseRuns, 'A'.toNat ≤ run.1 ∧ ('a'.toNat : Int) ≤ run.1 + run.2.2.2 := by
  decide +kernel

theorem toNat_ofNat_eq_zero_or (code : Nat) :
    (Char.ofNat code).toNat = 0 ∨ (Char.ofNat code).toNat = code := by
  by_cases valid : code.isValidChar
  · rw [Char.ofNat, dif_pos valid]
    exact .inr rfl
  · rw [Char.ofNat, dif_neg valid]
    exact .inl rfl

theorem simpleLower_eq_iff {mark : Char} (below : IsBelowLetters mark) {c : Char} :
    simpleLower c = mark ↔ c = mark := by
  obtain ⟨positive, small⟩ := below
  unfold simpleLower
  split
  next first last step distance found =>
    have member := List.mem_of_find?_eq_some found
    have inRun := List.find?_some found
    obtain ⟨capital, lowered⟩ := caseRuns_of_letters _ member
    simp only [Bool.and_eq_true, decide_eq_true_eq] at inRun capital lowered
    have order : 'A'.toNat < 'a'.toNat := by decide
    constructor
    · rintro rfl
      rcases toNat_ofNat_eq_zero_or (c.toNat + distance).toNat with zero | same <;> omega
    · rintro rfl
      omega
  next => exact Iff.rfl

theorem mem_lowerFrom_iff {mark : Char} (below : IsBelowLetters mark) (before text : List Char) :
    mark ∈ lowerFrom before text ↔ mark ∈ text := by
  induction text generalizing before with
  | nil => rfl
  | cons c rest ih =>
      have notLetter : ∀ letter : Char, 'A'.toNat ≤ letter.toNat → mark ≠ letter := by
        rintro letter high rfl
        exact absurd below.2 (by omega)
      have here : mark ∈ (if c == 'Σ' then [lowerSigma before rest]
          else if c == 'İ' then ['i', Char.ofNat 0x307] else [simpleLower c]) ↔ mark = c := by
        split
        next isSigma =>
          obtain rfl := beq_iff_eq.mp isSigma
          have high : 'A'.toNat ≤ (lowerSigma before rest).toNat := by
            rw [lowerSigma]
            split <;> decide
          simp [notLetter _ high, notLetter 'Σ' (by decide)]
        next =>
          split
          next isDotted =>
            obtain rfl := beq_iff_eq.mp isDotted
            simp [notLetter 'i' (by decide), notLetter (Char.ofNat 0x307) (by decide),
              notLetter 'İ' (by decide)]
          next => rw [List.mem_singleton, eq_comm, simpleLower_eq_iff below, eq_comm]
      rw [lowerFrom, List.mem_append, here, ih, List.mem_cons]

theorem lowerFrom_of_below {mark : Char} (below : IsBelowLetters mark) (before text : List Char) :
    lowerFrom before (mark :: text) = mark :: lowerFrom (mark :: before) text := by
  have notLetter : ∀ letter : Char, 'A'.toNat ≤ letter.toNat → (mark == letter) = false := by
    intro letter high
    rw [beq_eq_false_iff_ne]
    rintro rfl
    exact absurd below.2 (by omega)
  rw [lowerFrom, notLetter 'Σ' (by decide), notLetter 'İ' (by decide),
    (simpleLower_eq_iff below).mpr rfl]
  rfl

end LocalizationAudit

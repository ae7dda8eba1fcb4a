import LocalizationAudit.Proofs.Resource.Grammar

/-!
The search for entries as a relation: an entry is taken where one starts, and one character is
passed where none does. What is found are the leftmost entries that do not overlap.
-/

namespace LocalizationAudit

inductive Search : List Char → List Char → List PlacedEntry → Prop
  | done {before} : Search before [] []
  | found {before after rest} {entry : Entry} : entry.WellFormed →
      before.getLast? ≠ some backslash → Search (before ++ entry.spelling) after rest →
      Search before (entry.spelling ++ after) (⟨before.length, newlines before, entry⟩ :: rest)
  | passed {before c after found} :
      (∀ entry : Entry, entry.WellFormed → before.getLast? ≠ some backslash →
        ¬ entry.spelling <+: c :: after) →
      Search (before ++ [c]) after found → Search before (c :: after) found

/-- Only a quote opens an entry. -/
theorem Search.skipped {before after : List Char} {c : Char} {found : List PlacedEntry}
    (notQuote : c ≠ quoteMark) (later : Search (before ++ [c]) after found) :
    Search before (c :: after) found := by
  refine .passed ?_ later
  rintro entry _ _ ⟨rest, spelled⟩
  rw [Entry.spelling, List.cons_append, List.cons.injEq] at spelled
  exact notQuote spelled.1.symm

theorem newlines_append (first second : List Char) :
    newlines (first ++ second) = newlines first + newlines second :=
  List.count_append

theorem Entry.getLast?_append_spelling (before : List Char) (entry : Entry) :
    (before ++ entry.spelling).getLast? = some ';' := by
  simp [Entry.spelling, List.getLast?_append, List.getLast?_cons]

theorem Entry.length_spelling_pos (entry : Entry) : 0 < entry.spelling.length := by
  simp [Entry.spelling]

theorem search_entriesFrom (before text : List Char) :
    Search before text (entriesFrom before.length (newlines before) before.getLast? text) := by
  -- By induction on what is left: the counters always describe the part that has been passed.
  generalize size : text.length = count
  induction count using Nat.strongRecOn generalizing before text with
  | ind count ih =>
      rw [entriesFrom]
      split
      next entry after here =>
        have shorter := entryAt?_length here
        obtain ⟨wellFormed, free, rfl⟩ := entryAt?_eq_some_iff.mp here
        have later := ih after.length (by omega) (before ++ entry.spelling) after rfl
        rw [entry.getLast?_append_spelling, List.length_append, newlines_append] at later
        exact .found wellFormed free later
      next nothing =>
        cases text with
        | nil => exact .done
        | cons c after =>
          have later := ih after.length (by simp at size; omega) (before ++ [c]) after rfl
          rw [List.getLast?_append, List.length_append, newlines_append] at later
          refine .passed ?_ later
          rintro entry wellFormed free ⟨rest, spelled⟩
          rw [entryAt?_eq_some_iff.mpr ⟨wellFormed, free, spelled.symm⟩] at nothing
          simp at nothing

theorem search_entries (text : List Char) : Search [] text (entries text) :=
  search_entriesFrom [] text

theorem Search.unique {before text : List Char} {first second : List PlacedEntry}
    (searched : Search before text first) (again : Search before text second) : first = second := by
  induction searched generalizing second with
  | done =>
      generalize ended : ([] : List Char) = text at again
      cases again with
      | done => rfl
      | found => simp [Entry.spelling] at ended
      | passed => simp at ended
  | @found before after rest entry wellFormed free _ ih =>
      generalize spelled : entry.spelling ++ after = text at again
      cases again with
      | done => simp [Entry.spelling] at spelled
      | found wellFormed' _ later =>
          obtain ⟨rfl, rfl⟩ := Entry.spelling_append_inj wellFormed wellFormed' spelled
          rw [ih later]
      | passed nothing _ => exact absurd ⟨after, spelled⟩ (nothing entry wellFormed free)
  | @passed before c after found nothing _ ih =>
      generalize spelled : c :: after = text at again
      cases again with
      | done => simp at spelled
      | found wellFormed free _ =>
          exact absurd ⟨_, spelled.symm⟩ (nothing _ wellFormed free)
      | passed _ later =>
          obtain ⟨rfl, rfl⟩ := List.cons.inj spelled
          exact ih later

def PlacedEntry.stop (placed : PlacedEntry) : Nat :=
  placed.start + placed.entry.spelling.length

/-- The leftmost entries of a text that do not overlap: none starts outside of them. -/
structure LeftmostEntries (text : List Char) (found : List PlacedEntry) : Prop where
  stands : ∀ placed ∈ found, EntryAt text placed.start placed.entry
  apart : found.Pairwise fun earlier later => earlier.stop ≤ later.start
  complete : ∀ position entry, EntryAt text position entry →
    ∃ placed ∈ found, placed.start ≤ position ∧ position < placed.stop

theorem Search.start_le {before text : List Char} {found : List PlacedEntry}
    (searched : Search before text found) :
    ∀ placed ∈ found, before.length ≤ placed.start := by
  induction searched with
  | done => simp
  | found _ _ _ ih =>
      intro placed member
      rcases List.mem_cons.mp member with rfl | later
      · exact Nat.le_refl _
      · have behind := ih placed later
        simp only [List.length_append] at behind
        omega
  | passed _ _ ih =>
      intro placed member
      have behind := ih placed member
      simp only [List.length_append] at behind
      omega

theorem Search.stands {before text : List Char} {found : List PlacedEntry}
    (searched : Search before text found) :
    ∀ placed ∈ found, EntryAt (before ++ text) placed.start placed.entry := by
  induction searched with
  | done => simp
  | @found before after rest entry wellFormed free _ ih =>
      intro placed member
      rcases List.mem_cons.mp member with rfl | later
      · exact ⟨wellFormed, before, after, rfl, rfl, free⟩
      · simpa using ih placed later
  | passed _ _ ih =>
      intro placed member
      simpa using ih placed member

theorem Search.linesBefore_eq {before text : List Char} {found : List PlacedEntry}
    (searched : Search before text found) :
    ∀ placed ∈ found, placed.linesBefore = newlines ((before ++ text).take placed.start) := by
  induction searched with
  | done => simp
  | found _ _ _ ih =>
      intro placed member
      rcases List.mem_cons.mp member with rfl | later
      · simp
      · simpa using ih placed later
  | passed _ _ ih =>
      intro placed member
      simpa using ih placed member

theorem Search.apart {before text : List Char} {found : List PlacedEntry}
    (searched : Search before text found) :
    found.Pairwise fun earlier later => earlier.stop ≤ later.start := by
  induction searched with
  | done => exact .nil
  | found _ _ later ih =>
      refine .cons (fun placed member => ?_) ih
      simpa [PlacedEntry.stop] using later.start_le placed member
  | passed _ _ ih => exact ih

theorem Search.complete {before text : List Char} {found : List PlacedEntry}
    (searched : Search before text found) {position : Nat} {entry : Entry}
    (stands : EntryAt (before ++ text) position entry) (behind : before.length ≤ position) :
    ∃ placed ∈ found, placed.start ≤ position ∧ position < placed.stop := by
  induction searched with
  | @done before =>
      obtain ⟨_, front, after, split, rfl, _⟩ := stands
      have bound := congrArg List.length split
      have positive := entry.length_spelling_pos
      simp only [List.append_nil, List.length_append] at bound
      omega
  | @found before after rest first wellFormed free _ ih =>
      by_cases inside : position < before.length + first.spelling.length
      · exact ⟨_, List.mem_cons_self, behind, inside⟩
      · have later := ih (by simpa using stands) (by simp only [List.length_append]; omega)
        obtain ⟨placed, member, covers⟩ := later
        exact ⟨placed, List.mem_cons_of_mem _ member, covers⟩
  | @passed before c after found nothing _ ih =>
      by_cases here : position = before.length
      · obtain ⟨wellFormed, front, rest, split, length, free⟩ := stands
        obtain ⟨rfl, spelled⟩ := List.append_inj split (by omega)
        exact absurd ⟨rest, spelled.symm⟩ (nothing entry wellFormed free)
      · have later : (before ++ [c]).length ≤ position := by
          simp only [List.length_append, List.length_singleton]
          omega
        exact ih (by simpa using stands) later

theorem leftmostEntries_entries (text : List Char) : LeftmostEntries text (entries text) :=
  { stands := (search_entries text).stands
    apart := (search_entries text).apart
    complete := fun _ _ stands => (search_entries text).complete stands (Nat.zero_le _) }

end LocalizationAudit

import LocalizationAudit.Proofs.Resource.Keys
import LocalizationAudit.Proofs.Text.LineEnds

/-!
A resource file saved with the other line ends has the same entries on the same lines. Each part of
an entry is read from the respelled text exactly where it was read before, so the search takes and
passes the same places.
-/

namespace LocalizationAudit

theorem IsBody.append {first second : List Char} (isBody : IsBody first)
    (isBodyToo : IsBody second) : IsBody (first ++ second) := by
  induction isBody with
  | empty => exact isBodyToo
  | plain notQuote notBackslash _ ih => exact .plain notQuote notBackslash ih
  | escaped _ ih => exact .escaped ih

theorem isBody_lineEnd : IsBody ['\r', '\n'] :=
  .plain (by decide) (by decide) (.plain (by decide) (by decide) .empty)

theorem IsBody.lfToCrlf {body : List Char} (allowed : IsBody body) :
    IsBody (lfToCrlf body) := by
  induction allowed with
  | empty => exact .empty
  | @plain c rest notQuote notBackslash _ ih =>
      by_cases ends : c = '\n'
      · subst ends
        exact isBody_lineEnd.append ih
      · rw [lfToCrlf_cons ends]
        exact .plain notQuote notBackslash ih
  | @escaped c rest _ ih =>
      rw [lfToCrlf_cons (by decide)]
      by_cases ends : c = '\n'
      · -- The backslash escapes the carriage return now, and the line feed stands for itself.
        subst ends
        exact .escaped (.plain (by decide) (by decide) ih)
      · rw [lfToCrlf_cons ends]
        exact .escaped ih

theorem IsGap.lfToCrlf {gap : List Char} (blanks : IsGap gap) : IsGap (lfToCrlf gap) := by
  induction gap with
  | nil => exact blanks
  | cons c rest ih =>
      obtain ⟨blank, later⟩ := List.forall_mem_cons.mp blanks
      by_cases ends : c = '\n'
      · rw [ends, lfToCrlf_newline]
        exact List.forall_mem_cons.mpr ⟨by decide, List.forall_mem_cons.mpr ⟨by decide, ih later⟩⟩
      · rw [lfToCrlf_cons ends]
        exact List.forall_mem_cons.mpr ⟨blank, ih later⟩

def crlfParts : List Char × List Char → List Char × List Char :=
  Prod.map lfToCrlf lfToCrlf

theorem map_crlfParts (front : List Char) (read : Option (List Char × List Char)) :
    (read.map (Prod.map (front ++ ·) id)).map crlfParts =
      (read.map crlfParts).map (Prod.map (lfToCrlf front ++ ·) id) := by
  cases read with
  | none => rfl
  | some parts => simp [crlfParts, Prod.map, lfToCrlf_append]

theorem splitBody_behind_lfToCrlf {front rest : List Char} (allowed : IsBody front)
    (same : splitBody (lfToCrlf rest) = (splitBody rest).map crlfParts) :
    splitBody (lfToCrlf (front ++ rest)) = (splitBody (front ++ rest)).map crlfParts := by
  rw [lfToCrlf_append, splitBody_behind allowed.lfToCrlf, same, splitBody_behind allowed,
    map_crlfParts]

theorem splitBody_lfToCrlf (text : List Char) :
    splitBody (lfToCrlf text) = (splitBody text).map crlfParts := by
  match text with
  | [] => rfl
  | c :: rest =>
      by_cases isQuote : c = quoteMark
      · rw [isQuote, lfToCrlf_cons (by decide), splitBody_quote, splitBody_quote]
        rfl
      by_cases isBackslash : c = backslash
      · subst isBackslash
        match rest with
        | [] => decide
        | escaped :: after =>
            exact splitBody_behind_lfToCrlf (.escaped .empty) (splitBody_lfToCrlf after)
      · exact splitBody_behind_lfToCrlf (.plain isQuote isBackslash .empty)
          (splitBody_lfToCrlf rest)

theorem splitGap_lfToCrlf (mark : Char) (text : List Char) :
    splitGap mark (lfToCrlf text) = (splitGap mark text).map crlfParts := by
  induction text with
  | nil => rfl
  | cons c rest ih =>
      by_cases blank : isBlank c = true
      · have blanks : IsGap [c] := by simpa [IsGap] using blank
        rw [← List.singleton_append, lfToCrlf_append, splitGap_behind blanks.lfToCrlf, ih,
          splitGap_behind blanks, map_crlfParts]
      · have inLine : c ≠ '\n' := by
          rintro rfl
          exact blank (by decide)
        have solid : isBlank c = false := by simpa using blank
        rw [lfToCrlf_cons inLine, splitGap_solid solid, splitGap_solid solid]
        by_cases same : c = mark <;> simp [same, crlfParts]

def Entry.crlf (entry : Entry) : Entry :=
  ⟨lfToCrlf entry.key, lfToCrlf entry.beforeEquals, lfToCrlf entry.afterEquals,
    lfToCrlf entry.value, lfToCrlf entry.beforeEnd⟩

theorem Entry.spelling_crlf (entry : Entry) : entry.crlf.spelling = lfToCrlf entry.spelling := by
  have quote : ∀ rest, lfToCrlf (quoteMark :: rest) = quoteMark :: lfToCrlf rest :=
    lfToCrlf_cons (by decide)
  have equals : ∀ rest, lfToCrlf ('=' :: rest) = '=' :: lfToCrlf rest := lfToCrlf_cons (by decide)
  have semicolon : lfToCrlf [';'] = [';'] := by decide
  simp only [Entry.spelling, Entry.crlf, quote, equals, semicolon, lfToCrlf_append]

theorem Entry.WellFormed.crlf {entry : Entry} (wellFormed : entry.WellFormed) :
    entry.crlf.WellFormed :=
  ⟨wellFormed.key.lfToCrlf, wellFormed.beforeEquals.lfToCrlf, wellFormed.afterEquals.lfToCrlf,
    wellFormed.value.lfToCrlf, wellFormed.beforeEnd.lfToCrlf⟩

theorem splitEntry_lfToCrlf (text : List Char) :
    splitEntry (lfToCrlf text) = (splitEntry text).map (Prod.map Entry.crlf lfToCrlf) := by
  -- Each reading goes on in what the one before it has left, respelled.
  simp only [splitEntry, Option.bind_eq_bind, splitBody_lfToCrlf]
  cases splitBody text with
  | none => rfl
  | some key =>
  simp only [Option.map_some, Option.bind_some, crlfParts, Prod.map, splitGap_lfToCrlf]
  cases splitGap '=' key.2 with
  | none => rfl
  | some equals =>
  simp only [Option.map_some, Option.bind_some, crlfParts, Prod.map, splitGap_lfToCrlf]
  cases splitGap quoteMark equals.2 with
  | none => rfl
  | some opening =>
  simp only [Option.map_some, Option.bind_some, crlfParts, Prod.map, splitBody_lfToCrlf]
  cases splitBody opening.2 with
  | none => rfl
  | some value =>
  simp only [Option.map_some, Option.bind_some, crlfParts, Prod.map, splitGap_lfToCrlf]
  cases splitGap ';' value.2 <;> rfl

theorem entryAt?_lfToCrlf (previous : Option Char) (text : List Char) :
    entryAt? previous (lfToCrlf text) =
      (entryAt? previous text).map (Prod.map Entry.crlf lfToCrlf) := by
  cases text with
  | nil => rfl
  | cons c rest =>
      by_cases ends : c = '\n'
      · subst ends
        rfl
      · rw [lfToCrlf_cons ends, entryAt?, entryAt?]
        by_cases opens : (c == quoteMark && previous != some backslash) = true
        · rw [if_pos opens, if_pos opens, splitEntry_lfToCrlf]
        · rw [if_neg opens, if_neg opens]
          rfl

/-- No entry starts in the respelled text where none started before. -/
theorem not_prefix_lfToCrlf {before text : List Char}
    (nothing : ∀ entry : Entry, entry.WellFormed → before.getLast? ≠ some backslash →
      ¬ entry.spelling <+: text) :
    ∀ entry : Entry, entry.WellFormed → (lfToCrlf before).getLast? ≠ some backslash →
      ¬ entry.spelling <+: lfToCrlf text := by
  rintro entry wellFormed free ⟨rest, spelled⟩
  have found := entryAt?_eq_some_iff.mpr ⟨wellFormed, free, spelled.symm⟩
  rw [entryAt?_lfToCrlf, getLast?_lfToCrlf, Option.map_eq_some_iff] at found
  obtain ⟨⟨earlier, after⟩, foundEarlier, _⟩ := found
  obtain ⟨wellFormedEarlier, freeEarlier, split⟩ := entryAt?_eq_some_iff.mp foundEarlier
  exact nothing earlier wellFormedEarlier freeEarlier ⟨after, split.symm⟩

theorem newlines_lfToCrlf (text : List Char) : newlines (lfToCrlf text) = newlines text := by
  induction text with
  | nil => rfl
  | cons c rest ih =>
      by_cases ends : c = '\n'
      · subst ends
        simpa [newlines, lfToCrlf_newline] using ih
      · rw [lfToCrlf_cons ends]
        simpa [newlines, List.count_cons] using ih

def PlacedEntry.crlf (text : List Char) (placed : PlacedEntry) : PlacedEntry :=
  ⟨(lfToCrlf (text.take placed.start)).length, placed.linesBefore, placed.entry.crlf⟩

theorem Search.lfToCrlf {before text : List Char} {found : List PlacedEntry}
    (searched : Search before text found) :
    Search (lfToCrlf before) (lfToCrlf text)
      (found.map (PlacedEntry.crlf (before ++ text))) := by
  induction searched with
  | done => exact .done
  | @found before after rest entry wellFormed free _ ih =>
      have freeToo : (LocalizationAudit.lfToCrlf before).getLast? ≠ some backslash := by
        rwa [getLast?_lfToCrlf]
      rw [lfToCrlf_append, ← entry.spelling_crlf, List.append_assoc] at ih
      have taken := Search.found wellFormed.crlf freeToo ih
      rw [newlines_lfToCrlf] at taken
      rw [lfToCrlf_append, ← entry.spelling_crlf, List.map_cons, PlacedEntry.crlf]
      simpa using taken
  | @passed before c after found nothing _ ih =>
      rw [lfToCrlf_append, List.append_assoc, List.singleton_append] at ih
      have nothingToo := not_prefix_lfToCrlf nothing
      by_cases ends : c = '\n'
      · subst ends
        refine .skipped (by decide) (.skipped (by decide) ?_)
        rwa [List.append_assoc, List.singleton_append]
      · rw [lfToCrlf_cons ends] at nothingToo ih ⊢
        exact .passed nothingToo ih

theorem entries_lfToCrlf (text : List Char) :
    entries (lfToCrlf text) = (entries text).map (PlacedEntry.crlf text) :=
  (search_entries _).unique (search_entries text).lfToCrlf

def KeySite.crlf (site : KeySite) : KeySite :=
  ⟨lfToCrlf site.text, site.linesBefore⟩

def LocalizationKey.crlf (key : LocalizationKey) : LocalizationKey :=
  { key with text := String.ofList (lfToCrlf key.text.toList) }

theorem LocalizationKey.text_crlf_inj (key other : LocalizationKey) :
    key.crlf.text = other.crlf.text ↔ key.text = other.text := by
  rw [crlf, crlf, String.ofList_inj, lfToCrlf_injective.eq_iff, String.toList_inj]

theorem keySites_lfToCrlf (text : List Char) :
    standardKeySites (lfToCrlf text) = (standardKeySites text).map KeySite.crlf := by
  rw [standardKeySites, entries_lfToCrlf, List.map_map, standardKeySites, List.map_map]
  rfl

theorem keysOfSites_crlf (file : Option String) (sites : List KeySite) :
    keysOfSites file (sites.map KeySite.crlf) =
      (keysOfSites file sites).map LocalizationKey.crlf := by
  have each : (KeySite.key file) ∘ KeySite.crlf = LocalizationKey.crlf ∘ KeySite.key file := by
    funext site
    simp [KeySite.key, KeySite.crlf, LocalizationKey.crlf]
  rw [keysOfSites, List.map_map, each, ← List.map_map, keysOfSites]
  exact (KeySet.map_ofList _ _ LocalizationKey.text_crlf_inj).symm

theorem keysOfSites_lfToCrlf (file : Option String) (text : List Char) :
    entries (lfToCrlf text) = (entries text).map (PlacedEntry.crlf text) ∧
    standardKeySites (lfToCrlf text) = (standardKeySites text).map KeySite.crlf ∧
    keysOfSites file (standardKeySites (lfToCrlf text)) =
      (keysOfSites file (standardKeySites text)).map LocalizationKey.crlf ∧
    ∀ key other : LocalizationKey, key.crlf.text = other.crlf.text ↔ key.text = other.text := by
  refine ⟨entries_lfToCrlf text, keySites_lfToCrlf text, ?_, LocalizationKey.text_crlf_inj⟩
  rw [keySites_lfToCrlf, keysOfSites_crlf]

/-- In the first key a backslash stands right before the line feed. -/
example :
    keysOfSites none
      (standardKeySites (lfToCrlf "\"a\\\nb\" = \"1\";\n\"c\"\n= \"2\";".toList)) =
      [⟨"a\\\r\nb", none, some 1⟩, ⟨"c", none, some 3⟩] := by
  decide +kernel

end LocalizationAudit

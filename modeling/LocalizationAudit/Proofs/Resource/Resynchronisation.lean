import LocalizationAudit.Proofs.Resource.Keys

/-!
Malformed text has no effect on an entry next to it. Whatever stands before an entry, an entry that
begins earlier cannot use the opening quote of the later one as a quote of its own, so the search
arrives there and goes on behind it as if the text began anew.
-/

namespace LocalizationAudit

def ContinuesEntry (text : List Char) : Prop :=
  ∃ gap rest, IsGap gap ∧ (text = gap ++ '=' :: rest ∨ text = gap ++ ';' :: rest)

theorem continuesEntry_iff {text : List Char} :
    ContinuesEntry text ↔
      (splitGap '=' text).isSome = true ∨ (splitGap ';' text).isSome = true := by
  simp only [ContinuesEntry, Option.isSome_iff_exists, Prod.exists,
    splitGap_eq_some_iff isBlank_equalsSign, splitGap_eq_some_iff isBlank_semicolon]
  constructor
  · rintro ⟨gap, rest, blanks, split | split⟩
    · exact .inl ⟨gap, rest, blanks, split⟩
    · exact .inr ⟨gap, rest, blanks, split⟩
  · rintro (⟨gap, rest, blanks, split⟩ | ⟨gap, rest, blanks, split⟩)
    · exact ⟨gap, rest, blanks, .inl split⟩
    · exact ⟨gap, rest, blanks, .inr split⟩

instance : DecidablePred ContinuesEntry :=
  fun _ => decidable_of_iff' _ continuesEntry_iff

/-- What stands behind a quote that an entry uses, other than the one that opens it. -/
inductive FollowsInnerQuote : List Char → Prop
  | keyEnd {gap rest} : IsGap gap → FollowsInnerQuote (gap ++ '=' :: rest)
  | valueStart {value gap rest} : IsBody value → IsGap gap →
      FollowsInnerQuote (value ++ quoteMark :: (gap ++ ';' :: rest))
  | valueEnd {gap rest} : IsGap gap → FollowsInnerQuote (gap ++ ';' :: rest)

theorem free_of_append (front : List Char) {tail : List Char}
    (free : (front ++ tail).getLast? ≠ some backslash) : tail.getLast? ≠ some backslash := by
  intro last
  exact free (by rw [List.getLast?_append, last, Option.some_or])

theorem IsBody.quote_cases {body after front tail : List Char} (allowed : IsBody body)
    (free : front.getLast? ≠ some backslash)
    (same : body ++ quoteMark :: after = front ++ quoteMark :: tail) :
    after = tail ∨
    ∃ more, front = body ++ quoteMark :: more ∧ after = more ++ quoteMark :: tail := by
  induction allowed generalizing front with
  | empty =>
      cases front with
      | nil => exact .inl (List.cons.inj same).2
      | cons c front =>
          obtain ⟨rfl, rest⟩ := List.cons.inj same
          exact .inr ⟨front, rfl, rest⟩
  | plain notQuote _ _ ih =>
      cases front with
      | nil => exact absurd (List.cons.inj same).1 notQuote
      | cons c front =>
          obtain ⟨rfl, rest⟩ := List.cons.inj same
          rcases ih (free_of_append [_] free) rest with rfl | ⟨more, rfl, rfl⟩
          · exact .inl rfl
          · exact .inr ⟨more, rfl, rfl⟩
  | escaped _ ih =>
      match front, same with
      | [], same => exact absurd (List.cons.inj same).1 (by decide)
      | [c], same =>
          -- The quote is escaped itself, so a backslash stands right before it.
          obtain ⟨rfl, _⟩ := List.cons.inj same
          exact absurd rfl free
      | c :: d :: front, same =>
          simp only [List.cons_append, List.cons.injEq] at same
          obtain ⟨rfl, rfl, rest⟩ := same
          rcases ih (free_of_append [_, _] free) rest with rfl | ⟨more, rfl, rfl⟩
          · exact .inl rfl
          · exact .inr ⟨more, rfl, rfl⟩

theorem IsGap.quote_cases {gap after front tail : List Char} {mark : Char} (blanks : IsGap gap)
    (same : gap ++ mark :: after = front ++ quoteMark :: tail) :
    (mark = quoteMark ∧ after = tail) ∨
    ∃ more, front = gap ++ mark :: more ∧ after = more ++ quoteMark :: tail := by
  induction gap generalizing front with
  | nil =>
      cases front with
      | nil => exact .inl (List.cons.inj same)
      | cons c front =>
          obtain ⟨rfl, rest⟩ := List.cons.inj same
          exact .inr ⟨front, rfl, rest⟩
  | cons c gap ih =>
      cases front with
      | nil =>
          obtain ⟨rfl, _⟩ := List.cons.inj same
          have blank : isBlank quoteMark = true := blanks quoteMark List.mem_cons_self
          simp [isBlank_quoteMark] at blank
      | cons d front =>
          obtain ⟨rfl, rest⟩ := List.cons.inj same
          have later : IsGap gap := fun x member => blanks x (List.mem_cons_of_mem _ member)
          rcases ih later rest with ⟨rfl, rfl⟩ | ⟨more, rfl, rfl⟩
          · exact .inl ⟨rfl, rfl⟩
          · exact .inr ⟨more, rfl, rfl⟩

theorem Entry.WellFormed.quote_cases {entry : Entry} (wellFormed : entry.WellFormed)
    {after front tail : List Char} (nonempty : front ≠ []) (free : front.getLast? ≠ some backslash)
    (same : entry.spelling ++ after = front ++ quoteMark :: tail) :
    FollowsInnerQuote tail ∨ entry.spelling <+: front := by
  obtain ⟨c, front, rfl⟩ := List.exists_cons_of_ne_nil nonempty
  simp only [Entry.spelling, List.cons_append, List.append_assoc, List.cons.injEq] at same
  obtain ⟨rfl, spelled⟩ := same
  have freeKey : front.getLast? ≠ some backslash := free_of_append [_] free
  -- Part by part, the quote either ends the part or lies behind all of it.
  rcases wellFormed.key.quote_cases freeKey spelled with rfl | ⟨behindKey, rfl, rest⟩
  · exact .inl (.keyEnd wellFormed.beforeEquals)
  rcases wellFormed.beforeEquals.quote_cases rest with ⟨isQuote, _⟩ | ⟨behindEquals, rfl, further⟩
  · exact absurd isQuote (by decide)
  rcases wellFormed.afterEquals.quote_cases further with ⟨_, rfl⟩ | ⟨inValue, rfl, last⟩
  · exact .inl (.valueStart wellFormed.value wellFormed.beforeEnd)
  have freeValue : inValue.getLast? ≠ some backslash := by
    refine free_of_append (entry.key ++ quoteMark :: (entry.beforeEquals ++ '=' ::
      (entry.afterEquals ++ [quoteMark]))) ?_
    simpa using freeKey
  rcases wellFormed.value.quote_cases freeValue last with rfl | ⟨behindValue, rfl, ending⟩
  · exact .inl (.valueEnd wellFormed.beforeEnd)
  rcases wellFormed.beforeEnd.quote_cases ending with ⟨isQuote, _⟩ | ⟨behindEnd, rfl, _⟩
  · exact absurd isQuote (by decide)
  · exact .inr ⟨behindEnd, by simp [Entry.spelling]⟩

/-- The quote that opens an entry ends no key, and opens and ends no value, of an earlier one. -/
theorem Entry.WellFormed.not_followsInnerQuote {entry : Entry} (wellFormed : entry.WellFormed)
    (guarded : ¬ ContinuesEntry entry.key) (after : List Char) :
    ¬ FollowsInnerQuote (entry.key ++ quoteMark :: (entry.beforeEquals ++ '=' :: after)) := by
  intro follows
  generalize spelled : entry.key ++ quoteMark :: (entry.beforeEquals ++ '=' :: after) = text
    at follows
  cases follows with
  | @keyEnd gap rest blanks =>
      rcases blanks.quote_cases spelled.symm with ⟨isQuote, _⟩ | ⟨more, split, _⟩
      · exact absurd isQuote (by decide)
      · exact guarded ⟨gap, more, blanks, .inl split⟩
  | @valueStart value gap rest allowed blanks =>
      have body := splitBody_append wellFormed.key (entry.beforeEquals ++ '=' :: after)
      rw [spelled, splitBody_append allowed] at body
      obtain ⟨_, rest⟩ := Prod.mk.inj (Option.some.inj body)
      have marks := congrArg (List.dropWhile isBlank) rest
      rw [dropWhile_gap blanks isBlank_semicolon,
        dropWhile_gap wellFormed.beforeEquals isBlank_equalsSign] at marks
      exact absurd (List.cons.inj marks).1 (by decide)
  | @valueEnd gap rest blanks =>
      rcases blanks.quote_cases spelled.symm with ⟨isQuote, _⟩ | ⟨more, split, _⟩
      · exact absurd isQuote (by decide)
      · exact guarded ⟨gap, more, blanks, .inr split⟩

theorem Entry.WellFormed.spelling_prefix {first entry : Entry} (isFirst : first.WellFormed)
    (wellFormed : entry.WellFormed) (guarded : ¬ ContinuesEntry entry.key)
    {front after : List Char} (nonempty : front ≠ []) (free : front.getLast? ≠ some backslash)
    (begins : first.spelling <+: front ++ (entry.spelling ++ after)) :
    first.spelling <+: front := by
  obtain ⟨rest, same⟩ := begins
  rw [Entry.spelling, List.cons_append] at same
  rcases isFirst.quote_cases nonempty free same with follows | inside
  · refine absurd follows ?_
    simpa using wellFormed.not_followsInnerQuote guarded
      (entry.afterEquals ++ quoteMark :: (entry.value ++ quoteMark ::
        (entry.beforeEnd ++ ';' :: after)))
  · exact inside

theorem Search.append {before text rest : List Char} {found more : List PlacedEntry}
    (searched : Search before text found)
    (uncrossed : ∀ tail, tail <:+ text → tail ≠ [] → ∀ entry : Entry, entry.WellFormed →
      entry.spelling <+: tail ++ rest → entry.spelling <+: tail)
    (behind : Search (before ++ text) rest more) :
    Search before (text ++ rest) (found ++ more) := by
  induction searched with
  | done => simpa using behind
  | @found before after found entry wellFormed free _ ih =>
      rw [List.append_assoc]
      refine .found wellFormed free (ih ?_ (by simpa using behind))
      intro tail suffix
      exact uncrossed tail (suffix.trans (List.suffix_append _ _))
  | @passed before c after found nothing _ ih =>
      refine .passed ?_ (ih ?_ (by simpa using behind))
      · intro entry wellFormed free begins
        have inside := uncrossed (c :: after) List.suffix_rfl (by simp) entry wellFormed begins
        exact nothing entry wellFormed free inside
      · intro tail suffix
        exact uncrossed tail (suffix.trans (List.suffix_cons _ _))

def PlacedEntry.behind (front : List Char) (placed : PlacedEntry) : PlacedEntry :=
  ⟨front.length + placed.start, newlines front + placed.linesBefore, placed.entry⟩

theorem Search.behind {front before text : List Char} {found : List PlacedEntry}
    (searched : Search before text found) (free : front.getLast? ≠ some backslash) :
    Search (front ++ before) text (found.map (PlacedEntry.behind front)) := by
  induction searched with
  | done => exact .done
  | @found before after found entry wellFormed freeBefore _ ih =>
      rw [← List.append_assoc] at ih
      have joined : (front ++ before).getLast? ≠ some backslash := by
        rw [List.getLast?_append]
        cases last : before.getLast? with
        | none => simpa using free
        | some c => simpa [last] using freeBefore
      have taken := Search.found wellFormed joined ih
      rwa [List.length_append, newlines_append] at taken
  | @passed before c after found nothing _ ih =>
      rw [← List.append_assoc] at ih
      refine .passed ?_ ih
      intro entry wellFormed freeJoined
      exact nothing entry wellFormed (free_of_append front freeJoined)

theorem entries_append {before after : List Char} {entry : Entry}
    (free : before.getLast? ≠ some backslash) (wellFormed : entry.WellFormed)
    (guarded : ¬ ContinuesEntry entry.key) :
    entries (before ++ (entry.spelling ++ after)) =
      entries before ++ ⟨before.length, newlines before, entry⟩ ::
        (entries after).map (PlacedEntry.behind (before ++ entry.spelling)) := by
  have ends : (before ++ entry.spelling).getLast? ≠ some backslash := by
    rw [entry.getLast?_append_spelling]
    decide
  have later := (search_entries after).behind ends
  rw [List.append_nil] at later
  have here := Search.found wellFormed free later
  refine (search_entries _).unique ((search_entries before).append ?_ here)
  rintro tail ⟨start, rfl⟩ nonempty first isFirst begins
  exact isFirst.spelling_prefix wellFormed guarded nonempty (free_of_append start free) begins

def LocalizationKey.moveDown (lines : Nat) (key : LocalizationKey) : LocalizationKey :=
  { key with line := key.line.map (· + lines) }

theorem PlacedEntry.key_behind (file : Option String) (front : List Char) (placed : PlacedEntry) :
    (placed.behind front).keySite.key file =
      (placed.keySite.key file).moveDown (newlines front) := by
  simp only [behind, keySite, KeySite.key, LocalizationKey.moveDown, Option.map_some]
  congr 2
  omega

theorem keysOfSites_append (file : Option String) {before after : List Char} {entry : Entry}
    (free : before.getLast? ≠ some backslash) (wellFormed : entry.WellFormed)
    (guarded : ¬ ContinuesEntry entry.key) :
    keysOfSites file (standardKeySites (before ++ (entry.spelling ++ after))) =
      ((keysOfSites file (standardKeySites before)).insert
        ⟨String.ofList entry.key, file, some (1 + newlines before)⟩).union
      ((keysOfSites file (standardKeySites after)).map
        (LocalizationKey.moveDown (newlines (before ++ entry.spelling)))) := by
  have here : (PlacedEntry.keySite ⟨before.length, newlines before, entry⟩).key file =
      ⟨String.ofList entry.key, file, some (1 + newlines before)⟩ := by
    simp [PlacedEntry.keySite, KeySite.key, Int.add_comm]
  have moved : ((entries after).map (PlacedEntry.behind (before ++ entry.spelling))).map
        (fun placed => placed.keySite.key file) =
      ((entries after).map fun placed => placed.keySite.key file).map
        (LocalizationKey.moveDown (newlines (before ++ entry.spelling))) := by
    simp [PlacedEntry.key_behind]
  simp only [keysOfSites_standard, entries_append free wellFormed guarded, List.map_append,
    List.map_cons, here, moved]
  rw [KeySet.ofList_append, KeySet.union_cons,
    KeySet.map_ofList _ (LocalizationKey.moveDown _) fun _ _ => Iff.rfl, KeySet.union_ofList]

theorem entry_resynchronises (file : Option String) {before after : List Char} {entry : Entry}
    (free : before.getLast? ≠ some backslash) (wellFormed : entry.WellFormed)
    (guarded : ¬ ContinuesEntry entry.key) :
    entries (before ++ (entry.spelling ++ after)) =
      entries before ++ ⟨before.length, newlines before, entry⟩ ::
        (entries after).map (PlacedEntry.behind (before ++ entry.spelling)) ∧
    keysOfSites file (standardKeySites (before ++ (entry.spelling ++ after))) =
      ((keysOfSites file (standardKeySites before)).insert
        ⟨String.ofList entry.key, file, some (1 + newlines before)⟩).union
      ((keysOfSites file (standardKeySites after)).map
        (LocalizationKey.moveDown (newlines (before ++ entry.spelling)))) :=
  ⟨entries_append free wellFormed guarded, keysOfSites_append file free wellFormed guarded⟩

def sampleEntry : Entry :=
  ⟨['k'], [' '], [' '], ['v'], []⟩

def brokenText : List Char :=
  "\"lost\" = \"v;\n".toList

def followingText : List Char :=
  "\n\"k\" = \"again\"; \"next\" = \"v\";".toList

theorem entry_resynchronises_sample :
    brokenText.getLast? ≠ some backslash ∧ sampleEntry.WellFormed ∧
    ¬ ContinuesEntry sampleEntry.key ∧
    keysOfSites none (standardKeySites (brokenText ++ (sampleEntry.spelling ++ followingText))) =
      [⟨"k", none, some 2⟩, ⟨"next", none, some 3⟩] := by
  have free : brokenText.getLast? ≠ some backslash := by decide
  have wellFormed : sampleEntry.WellFormed := by
    have whole : entryAt? none sampleEntry.spelling = some (sampleEntry, []) := by decide
    exact (entryAt?_eq_some_iff.mp whole).1
  have guarded : ¬ ContinuesEntry sampleEntry.key := by decide
  refine ⟨free, wellFormed, guarded, ?_⟩
  rw [(entry_resynchronises none free wellFormed guarded).2]
  decide +kernel

end LocalizationAudit

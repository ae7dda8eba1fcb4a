import LocalizationAudit.Text.Blank

/-!
Entries of a resource file: a quoted key, an equals sign, a quoted value and a semicolon, with
white space between them. Everything else in a file is skipped.
-/

namespace LocalizationAudit

structure Entry where
  key : List Char
  beforeEquals : List Char
  afterEquals : List Char
  value : List Char
  beforeEnd : List Char
  deriving DecidableEq, Repr

def quoteMark : Char := '"'

def backslash : Char := '\\'

def Entry.spelling (entry : Entry) : List Char :=
  quoteMark :: (entry.key ++ quoteMark :: (entry.beforeEquals ++ '=' :: (entry.afterEquals ++
    quoteMark :: (entry.value ++ quoteMark :: (entry.beforeEnd ++ [';'])))))

def splitBody : List Char → Option (List Char × List Char)
  | [] => none
  | c :: rest =>
      if c == quoteMark then some ([], rest)
      else if c == backslash then
        match rest with
        | [] => none
        | escaped :: rest =>
            match splitBody rest with
            | some (body, after) => some (c :: escaped :: body, after)
            | none => none
      else
        match splitBody rest with
        | some (body, after) => some (c :: body, after)
        | none => none

def splitGap (mark : Char) (text : List Char) : Option (List Char × List Char) :=
  match text.dropWhile isBlank with
  | [] => none
  | c :: rest => if c == mark then some (text.takeWhile isBlank, rest) else none

def splitEntry (text : List Char) : Option (Entry × List Char) := do
  let (key, text) ← splitBody text
  let (beforeEquals, text) ← splitGap '=' text
  let (afterEquals, text) ← splitGap quoteMark text
  let (value, text) ← splitBody text
  let (beforeEnd, text) ← splitGap ';' text
  return (⟨key, beforeEquals, afterEquals, value, beforeEnd⟩, text)

def entryAt? (previous : Option Char) : List Char → Option (Entry × List Char)
  | [] => none
  | c :: rest =>
      if c == quoteMark && previous != some backslash then splitEntry rest else none

theorem splitBody_length {text body after : List Char}
    (found : splitBody text = some (body, after)) : after.length < text.length := by
  fun_induction splitBody text generalizing body after <;> grind

theorem splitGap_length {mark : Char} {text gap after : List Char}
    (found : splitGap mark text = some (gap, after)) : after.length < text.length := by
  have shorter := (List.dropWhile_sublist isBlank (l := text)).length_le
  unfold splitGap at found
  split at found <;> grind

theorem entryAt?_length {previous : Option Char} {text after : List Char} {entry : Entry}
    (found : entryAt? previous text = some (entry, after)) : after.length < text.length := by
  unfold entryAt? at found
  split at found
  · simp at found
  · split at found
    · simp only [splitEntry, Option.bind_eq_bind, Option.bind_eq_some_iff, Option.pure_def,
        Option.some.injEq, Prod.mk.injEq] at found
      obtain ⟨_, key, _, equals, _, opening, _, value, _, ending, _, rfl⟩ := found
      have := splitBody_length key
      have := splitGap_length equals
      have := splitGap_length opening
      have := splitBody_length value
      have := splitGap_length ending
      simp only [List.length_cons]
      omega
    · simp at found

def newlines (text : List Char) : Nat :=
  text.count '\n'

/-- An entry with the offset of its opening quote and the number of line ends before it. -/
structure PlacedEntry where
  start : Nat
  linesBefore : Nat
  entry : Entry
  deriving DecidableEq, Repr

/--
The entries from some place on: the search goes on behind an entry, and one character further
where none starts.
-/
def entriesFrom (start linesBefore : Nat) (previous : Option Char) (text : List Char) :
    List PlacedEntry :=
  match _ : entryAt? previous text with
  | some (entry, after) =>
      ⟨start, linesBefore, entry⟩ ::
        entriesFrom (start + entry.spelling.length) (linesBefore + newlines entry.spelling)
          (some ';') after
  | none =>
      match text with
      | [] => []
      | c :: rest => entriesFrom (start + 1) (linesBefore + newlines [c]) (some c) rest
termination_by text.length
decreasing_by
  · exact entryAt?_length ‹_›
  · simp

def entries (text : List Char) : List PlacedEntry :=
  entriesFrom 0 0 none text

end LocalizationAudit

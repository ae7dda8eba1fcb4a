import LocalizationAudit.Proofs.Literal.RawDelimiters
import LocalizationAudit.Proofs.Path

/-!
Multi-line literals whose closing delimiter is indented. Every line is written behind that
indentation, and stripping takes exactly this indentation away again, whatever stands in the lines.
-/

namespace LocalizationAudit

section Lines

variable {indent : List Char}

def indentLines (indent : List Char) : List Char → List Char
  | [] => []
  | c :: text => (if c = '\n' then c :: indent else [c]) ++ indentLines indent text

theorem indentLines_eq_nil_iff {text : List Char} : indentLines indent text = [] ↔ text = [] := by
  cases text with
  | nil => simp [indentLines]
  | cons c text =>
      rw [indentLines]
      split <;> simp

theorem splitOn_append_of_plain {mark : Char} {piece : List Char} (plain : mark ∉ piece)
    (rest : List Char) :
    (piece ++ rest).splitOn mark = (rest.splitOn mark).modifyHead (piece ++ ·) := by
  induction piece with
  | nil => exact (LiteralItem.modifyHead_nil_append _).symm
  | cons c piece ih =>
      obtain ⟨different, others⟩ : mark ≠ c ∧ mark ∉ piece := by simpa using plain
      rw [List.cons_append, List.splitOn_cons_eq_if_modifyHead, if_neg (by simpa using different.symm),
        ih others, List.modifyHead_modifyHead]
      rfl

theorem splitOn_indentLines (plain : '\n' ∉ indent) (text : List Char) {first : List Char}
    {others : List (List Char)} (pieces : text.splitOn '\n' = first :: others) :
    (indentLines indent text).splitOn '\n' = first :: others.map (indent ++ ·) := by
  induction text generalizing first others with
  | nil =>
      obtain ⟨rfl, rfl⟩ : first = [] ∧ others = [] := by simpa [eq_comm] using pieces
      rfl
  | cons c text ih =>
      obtain ⟨next, more, rest⟩ := List.exists_cons_of_ne_nil (List.splitOn_ne_nil '\n' text)
      have found := ih rest
      rw [List.splitOn_cons_eq_if_modifyHead, rest] at pieces
      rw [indentLines]
      by_cases isNewline : c = '\n'
      · subst isNewline
        obtain ⟨rfl, rfl⟩ : first = [] ∧ others = next :: more := by
          simpa [eq_comm] using pieces
        rw [if_pos rfl, List.cons_append, List.splitOn_cons_eq_if_modifyHead, if_pos (by simp),
          splitOn_append_of_plain plain, found]
        rfl
      · rw [if_neg (by simpa using isNewline), List.modifyHead_cons] at pieces
        obtain ⟨rfl, rfl⟩ := List.cons.inj pieces
        rw [if_neg isNewline, List.singleton_append, List.splitOn_cons_eq_if_modifyHead,
          if_neg (by simpa using isNewline), found]
        rfl

theorem dropIndent_append (line : List Char) : dropIndent indent (indent ++ line) = line := by
  rw [dropIndent, if_pos (by simp), List.drop_left]

theorem dedent_indentLines (plain : '\n' ∉ indent) (text : List Char) :
    dedent indent false (indentLines indent text) = text := by
  obtain ⟨first, others, pieces⟩ := List.exists_cons_of_ne_nil (List.splitOn_ne_nil '\n' text)
  have kept : (dropIndent indent ∘ (indent ++ ·)) = id := funext dropIndent_append
  rw [dedent, splitOn_indentLines plain text pieces]
  simp only [Bool.false_eq_true, if_false, List.map_map, kept, List.map_id]
  rw [← pieces, List.intercalate_splitOn]

theorem dedent_indented (plain : '\n' ∉ indent) (text : List Char) :
    dedent indent true (indent ++ indentLines indent text) = text := by
  obtain ⟨first, others, pieces⟩ := List.exists_cons_of_ne_nil (List.splitOn_ne_nil '\n' text)
  have kept : (dropIndent indent ∘ (indent ++ ·)) = id := funext dropIndent_append
  rw [dedent, splitOn_append_of_plain plain, splitOn_indentLines plain text pieces,
    List.modifyHead_cons]
  simp only [if_true, dropIndent_append, List.map_map, kept, List.map_id]
  rw [← pieces, List.intercalate_splitOn]

end Lines

section Stripping

variable {indent : List Char}

theorem splitBlankLine_append (blank : ∀ c ∈ indent, isIndent c = true) (text : List Char) :
    splitBlankLine (indent.reverse ++ '\n' :: text.reverse) = some (text, indent) := by
  have reversedBlank : ∀ c ∈ indent.reverse, isIndent c = true := by simpa using blank
  have newline : isIndent '\n' = false := rfl
  rw [splitBlankLine, List.dropWhile_append_of_pos reversedBlank,
    List.takeWhile_append_of_pos reversedBlank]
  simp [newline]

theorem splitClosingLine_append (indented : indent ≠ []) (blank : ∀ c ∈ indent, isIndent c = true)
    (text : List Char) : splitClosingLine (text ++ '\n' :: indent) = some (text, indent) := by
  have split := splitBlankLine_append blank text
  obtain ⟨c, others, start⟩ :=
    List.exists_cons_of_ne_nil (mt List.reverse_eq_nil_iff.mp indented)
  have notNewline : c ≠ '\n' := by
    rintro rfl
    have isBlank := blank '\n' (List.mem_reverse.mp (by simp [start]))
    exact absurd isBlank (by decide)
  rw [splitClosingLine, List.reverse_append, List.reverse_cons, List.append_assoc,
    List.singleton_append]
  rw [start, List.cons_append] at split ⊢
  split
  next same => exact absurd (List.cons.inj same).1 notNewline
  next => exact split

def indentParts (indent : List Char) (parts : List (List Char)) : List (List Char) :=
  List.modifyLast (· ++ '\n' :: indent)
    ((parts.map (indentLines indent)).modifyHead ('\n' :: indent ++ ·))

theorem stripMultiLine_indentParts (indented : indent ≠ [])
    (blank : ∀ c ∈ indent, isIndent c = true) {parts : List (List Char)} (nonempty : parts ≠ []) :
    stripMultiLine true true (indentParts indent parts) = parts := by
  have plain : '\n' ∉ indent := fun member => absurd (blank '\n' member) (by decide)
  generalize isWritten : (parts.map (indentLines indent)).modifyHead ('\n' :: indent ++ ·) = written
  have opened : written.modifyHead dropLeadingNewline =
      (parts.map (indentLines indent)).modifyHead (indent ++ ·) := by
    rw [← isWritten]
    cases parts <;> rfl
  have dedented : dedentAll indent true
      ((parts.map (indentLines indent)).modifyHead (indent ++ ·)) = parts := by
    have inner : (dedent indent false ∘ indentLines indent) = id :=
      funext (dedent_indentLines plain)
    cases parts with
    | nil => rfl
    | cons first others => simp [dedentAll, dedent_indented plain, inner]
  obtain ⟨lead, last, rfl⟩ : ∃ lead last, written = lead ++ [last] := by
    have some : written ≠ [] := by
      rw [← isWritten]
      cases parts with
      | nil => exact absurd rfl nonempty
      | cons first others => simp
    obtain ⟨lead, last, whole⟩ := (List.eq_nil_or_concat written).resolve_left some
    exact ⟨lead, last, by rw [whole, List.concat_eq_append]⟩
  rw [indentParts, isWritten, List.modifyLast_concat, stripMultiLine]
  simp only [if_true, List.getLast?_concat, Option.bind_some, splitClosingLine_append indented blank,
    List.dropLast_concat, opened]
  rw [if_neg (by simp [indented]), dedented]

/-- What stands behind the opening and before the closing delimiter of a raw literal stays. -/
theorem stripDelimiters_raw (more : Nat) (opened closed : List Char) (texts : List (List Char)) :
    stripDelimiters .raw true true true
      (List.modifyLast (· ++ (closed ++ '"' :: '"' :: '"' :: List.replicate (more + 1) '#'))
        (texts.modifyHead (List.replicate (more + 1) '#' ++ '"' :: '"' :: '"' :: opened ++ ·))) =
      stripMultiLine true true
        (List.modifyLast (· ++ closed) (texts.modifyHead (opened ++ ·))) := by
  have opening : ∀ text,
      stripRawOpening (List.replicate (more + 1) '#' ++ '"' :: '"' :: '"' :: opened ++ text) =
        opened ++ text := by
    intro text
    simpa [dropTwoQuotes] using stripRawOpening_append more ('"' :: '"' :: (opened ++ text))
  have closing : ∀ text, stripRawClosing
      (text ++ (closed ++ '"' :: '"' :: '"' :: List.replicate (more + 1) '#')) = text ++ closed := by
    intro text
    simpa [dropTwoQuotes] using stripRawClosing_append more (text ++ closed ++ ['"', '"'])
  simp only [stripDelimiters, if_true, beq_self_eq_true, reverse_modifyHead_reverse]
  rw [modifyHead_append_behind opening, modifyLast_append_before closing]

end Stripping

namespace LiteralItem

variable {indent : List Char} {items : List LiteralItem}

/-- The lines of a literal, each behind the indentation that the closing delimiter has as well. -/
def indentedLines (indent : List Char) (lines : List (List LiteralItem)) : List LiteralItem :=
  .char '\n' :: (lines.flatMap fun line => ofText indent ++ line ++ [.char '\n']) ++ ofText indent

def content (lines : List (List LiteralItem)) : List LiteralItem :=
  [.char '\n'].intercalate lines

def indentItems (indent : List Char) : List LiteralItem → List LiteralItem
  | [] => []
  | .char c :: items =>
      (if c = '\n' then ofText (c :: indent) else [.char c]) ++ indentItems indent items
  | .interpolation spelling :: items => .interpolation spelling :: indentItems indent items

theorem indentItems_line_append {line : List LiteralItem} (single : .char '\n' ∉ line)
    (items : List LiteralItem) :
    indentItems indent (line ++ items) = line ++ indentItems indent items := by
  induction line with
  | nil => rfl
  | cons item line ih =>
      obtain ⟨different, others⟩ : .char '\n' ≠ item ∧ .char '\n' ∉ line := by simpa using single
      cases item with
      | char c =>
          have notNewline : c ≠ '\n' := by
            rintro rfl
            exact different rfl
          rw [List.cons_append, indentItems, if_neg notNewline, ih others]
          rfl
      | interpolation spelling => rw [List.cons_append, indentItems, ih others, List.cons_append]

theorem indentedLines_eq {lines : List (List LiteralItem)} (nonempty : lines ≠ [])
    (single : ∀ line ∈ lines, .char '\n' ∉ line) :
    indentedLines indent lines =
      ofText ('\n' :: indent) ++ indentItems indent (content lines) ++ ofText ('\n' :: indent) := by
  have behind : (lines.flatMap fun line => ofText indent ++ line ++ [.char '\n']) ++ ofText indent =
      ofText indent ++ indentItems indent (content lines) ++ ofText ('\n' :: indent) := by
    induction lines with
    | nil => exact absurd rfl nonempty
    | cons line others ih =>
        have own : .char '\n' ∉ line := single line List.mem_cons_self
        cases others with
        | nil =>
            have alone := @indentItems_line_append indent line own []
            rw [List.append_nil] at alone
            simp [content, alone, indentItems, ofText]
        | cons next others =>
            have tail := ih (by simp) fun other member => single other (List.mem_cons_of_mem _ member)
            have joined : content (line :: next :: others) =
                line ++ .char '\n' :: content (next :: others) := by
              simp [content, List.intercalate_cons_cons]
            rw [List.flatMap_cons, List.append_assoc, tail, joined, indentItems_line_append own]
            simp [indentItems, ofText]
  rw [indentedLines, List.cons_append, behind]
  rfl

theorem staticParts_indentItems :
    staticParts (indentItems indent items) = (staticParts items).map (indentLines indent) := by
  induction items with
  | nil => rfl
  | cons item items ih =>
      obtain ⟨part, others, parts⟩ := List.exists_cons_of_ne_nil (staticParts_ne_nil items)
      cases item with
      | char c =>
          rw [indentItems, staticParts, parts, List.modifyHead_cons, List.map_cons, indentLines]
          split
          · rw [staticParts_ofText_append, ih, parts]
            rfl
          · rw [List.singleton_append, staticParts, ih, parts]
            rfl
      | interpolation spelling =>
          rw [indentItems, staticParts, ih]
          rfl

theorem keptParts_map_indentLines (parts : List (List Char)) :
    keptParts (parts.map (indentLines indent)) = (keptParts parts).map (indentLines indent) := by
  have behind : ∀ parts : List (List Char), keptBehind (parts.map (indentLines indent)) =
      (keptBehind parts).map (indentLines indent) := by
    intro parts
    fun_induction keptBehind parts with
    | case1 => rfl
    | case2 last => rfl
    | case3 next others ih => simpa [keptBehind, indentLines] using ih
    | case4 part next others nonempty ih =>
        simpa [keptBehind, indentLines_eq_nil_iff, nonempty] using ih
  cases parts with
  | nil => rfl
  | cons first others => simp [keptParts, behind]

def rawLines (hashes : Nat) (items : List LiteralItem) : List LiteralItem :=
  ofText (List.replicate hashes '#' ++ ['"', '"', '"']) ++ items ++
    ofText (['"', '"', '"'] ++ List.replicate hashes '#')

theorem filter_staticParts_between {opening closing : List Char} (opens : opening ≠ [])
    (closes : closing ≠ []) :
    (staticParts (ofText opening ++ indentItems indent items ++ ofText closing)).filter (!·.isEmpty) =
      List.modifyLast (· ++ closing)
        (((keptParts (staticParts items)).map (indentLines indent)).modifyHead (opening ++ ·)) := by
  rw [staticParts_append_ofText, staticParts_ofText_append, staticParts_indentItems,
    filter_written_eq opens closes, keptParts_map_indentLines]

end LiteralItem

namespace SyntaxNode

open LiteralItem

variable {source : Bytes} {node : SyntaxNode} {indent : List Char}
  {lines : List (List LiteralItem)}

/--
Taking the delimiters and the indentation off a literal gives the lines back that were written into
it, cut where it is interpolated.
-/
theorem segments_of_indented_lines (indented : indent ≠ []) (blank : ∀ c ∈ indent, isIndent c = true)
    (nonempty : lines ≠ []) (single : ∀ line ∈ lines, .char '\n' ∉ line)
    (written : node.IsWritten source .multiLine (indentedLines indent lines) ∨
      ∃ hashes, 1 ≤ hashes ∧
        node.IsWritten source .raw (rawLines hashes (indentedLines indent lines))) :
    node.segments source = .ok (keptParts (staticParts (content lines))) := by
  have stripped := stripMultiLine_indentParts indented blank (keptParts_ne_nil (content lines))
  rcases written with multiLine | ⟨hashes, positive, raw⟩
  · rw [indentedLines_eq nonempty single] at multiLine
    obtain ⟨last, isLast⟩ := exists_last_char
      (ofText ('\n' :: indent) ++ indentItems indent (content lines)) (List.cons_ne_nil '\n' indent)
    rw [multiLine.segments_eq rfl isLast, filter_staticParts_between (by simp) (by simp)]
    exact congrArg Except.ok stripped
  · obtain ⟨more, rfl⟩ := Nat.exists_eq_add_of_le' positive
    have whole : rawLines (more + 1) (indentedLines indent lines) =
        ofText (List.replicate (more + 1) '#' ++ '"' :: '"' :: '"' :: '\n' :: indent) ++
          indentItems indent (content lines) ++
          ofText ('\n' :: indent ++ '"' :: '"' :: '"' :: List.replicate (more + 1) '#') := by
      rw [rawLines, indentedLines_eq nonempty single]
      simp [ofText]
    rw [whole] at raw
    obtain ⟨last, isLast⟩ := exists_last_char
      (ofText (List.replicate (more + 1) '#' ++ '"' :: '"' :: '"' :: '\n' :: indent) ++
        indentItems indent (content lines))
      (by simp : '\n' :: indent ++ '"' :: '"' :: '"' :: List.replicate (more + 1) '#' ≠ [])
    have spans : node.spansLines source .raw = true := by
      refine raw.spansLines_raw more ?_
      rw [spell_append, spell_append, spell_ofText, List.append_assoc, List.append_assoc]
      exact ⟨_, List.append_assoc _ _ _⟩
    rw [raw.segments_eq rfl isLast, filter_staticParts_between (by simp) (by simp), spans,
      stripDelimiters_raw]
    exact congrArg Except.ok stripped

def indentedSample (spelling : List Char) : List (List LiteralItem) :=
  [[.char 'a', .interpolation spelling], [], [.char ' ', .char 'é']]

def multiLineSource : Bytes :=
  encodeUtf8 "\"\"\"\n a\\(b)\n \n  é\n \"\"\"".toList

def multiLineSample : SyntaxNode :=
  .mk (.literal .multiLine) ⟨0, 22⟩ .sound
    [Swift.leaf .other ⟨0, 3⟩, Swift.leaf .text ⟨3, 6⟩, Swift.leaf .interpolation ⟨6, 8⟩,
      Swift.leaf .interpolation ⟨8, 9⟩, Swift.leaf .other ⟨9, 10⟩, Swift.leaf .text ⟨10, 12⟩,
      Swift.leaf .text ⟨12, 19⟩, Swift.leaf .other ⟨19, 22⟩]

def rawSource : Bytes :=
  encodeUtf8 "#\"\"\"\n a\\#(b)\n \n  é\n \"\"\"#".toList

def rawSample : SyntaxNode :=
  .mk (.literal .raw) ⟨0, 25⟩ .sound
    [Swift.leaf .text ⟨0, 7⟩, Swift.leaf .interpolation ⟨7, 12⟩, Swift.leaf .text ⟨12, 25⟩]

theorem isWritten_multiLineSample :
    multiLineSample.IsWritten multiLineSource .multiLine
      (indentedLines [' '] (indentedSample ['\\', '(', 'b', ')'])) := by
  refine ⟨rfl, ⟨3, 19⟩, multiLineSample.children.tail.dropLast,
    @encloses_region multiLineSample .multiLine (fun _ => by decide), by decide +kernel, ?_⟩
  refine @Laid.text 19 3 ['\n', ' ', 'a'] _ _ _ rfl (by simp) rfl ?_
  refine @Laid.interpolation 19 6 ['\\', '(', 'b', ')'] _ _ _
    [Swift.leaf .interpolation ⟨6, 8⟩, Swift.leaf .interpolation ⟨8, 9⟩, Swift.leaf .other ⟨9, 10⟩]
    _ (by decide) rfl rfl rfl rfl ?_
  refine @Laid.text 19 10 ['\n', ' '] _ _ _ rfl (by simp) rfl ?_
  exact @Laid.text 19 12 ['\n', ' ', ' ', 'é', '\n', ' '] [] _ [] rfl (by simp) rfl .done

theorem isWritten_rawSample :
    rawSample.IsWritten rawSource .raw
      (rawLines 1 (indentedLines [' '] (indentedSample ['\\', '#', '(', 'b', ')']))) := by
  refine ⟨rfl, rawSample.span, rawSample.children, .whole, by decide +kernel, ?_⟩
  refine @Laid.text 25 0 ['#', '"', '"', '"', '\n', ' ', 'a'] _ _ _ rfl (by simp) rfl ?_
  refine @Laid.interpolation 25 7 ['\\', '#', '(', 'b', ')'] _ _ _
    [Swift.leaf .interpolation ⟨7, 12⟩] _ (by decide) rfl rfl rfl rfl ?_
  exact @Laid.text 25 12
    ['\n', ' ', '\n', ' ', ' ', 'é', '\n', ' ', '"', '"', '"', '#'] [] _ [] rfl (by simp) rfl .done

theorem segments_of_indented_lines_samples :
    [' '] ≠ [] ∧ (∀ c ∈ [' '], isIndent c = true) ∧
    (∀ spelling, indentedSample spelling ≠ [] ∧
      ∀ line ∈ indentedSample spelling, .char '\n' ∉ line) ∧
    multiLineSample.IsWritten multiLineSource .multiLine
      (indentedLines [' '] (indentedSample ['\\', '(', 'b', ')'])) ∧
    rawSample.IsWritten rawSource .raw
      (rawLines 1 (indentedLines [' '] (indentedSample ['\\', '#', '(', 'b', ')']))) ∧
    multiLineSample.segments multiLineSource = .ok [['a'], ['\n', '\n', ' ', 'é']] ∧
    rawSample.segments rawSource = .ok [['a'], ['\n', '\n', ' ', 'é']] := by
  have single : ∀ spelling, ∀ line ∈ indentedSample spelling, .char '\n' ∉ line := by
    simp [indentedSample]
  exact ⟨by simp, by simp [isIndent], fun spelling => ⟨by simp [indentedSample], single spelling⟩,
    isWritten_multiLineSample, isWritten_rawSample,
    segments_of_indented_lines (by simp) (by simp [isIndent]) (by simp [indentedSample]) (single _)
      (.inl isWritten_multiLineSample),
    segments_of_indented_lines (by simp) (by simp [isIndent]) (by simp [indentedSample]) (single _)
      (.inr ⟨1, Nat.le_refl _, isWritten_rawSample⟩)⟩

end SyntaxNode

end LocalizationAudit

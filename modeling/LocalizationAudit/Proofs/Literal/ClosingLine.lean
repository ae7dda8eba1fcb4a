import LocalizationAudit.Proofs.Literal.Indentation

/-!
Multi-line literals whose closing delimiter stands at the start of its line. Their content is kept
as it is written, unless its last line is blank: that line is then taken for the one of the closing
delimiter, so it is lost, and the white space in it is taken off the other lines.
-/

namespace LocalizationAudit

inductive EndsBlank : List Char → Prop
  | only {blank : List Char} : (∀ c ∈ blank, isIndent c = true) → EndsBlank blank
  | behind {body blank : List Char} : (∀ c ∈ blank, isIndent c = true) →
      EndsBlank (body ++ '\n' :: blank)

theorem splitBlankLine_eq_some_iff {text body blank : List Char} :
    splitBlankLine text.reverse = some (body, blank) ↔
      text = body ++ '\n' :: blank ∧ ∀ c ∈ blank, isIndent c = true := by
  constructor
  · intro found
    rw [splitBlankLine] at found
    split at found
    next before dropped =>
      obtain ⟨rfl, rfl⟩ := Prod.mk.inj (Option.some.inj found)
      have whole := List.takeWhile_append_dropWhile (p := isIndent) (l := text.reverse)
      rw [dropped] at whole
      refine ⟨?_, fun c member =>
        List.all_eq_true.mp List.all_takeWhile c (List.mem_reverse.mp member)⟩
      have spelled := congrArg List.reverse whole
      simpa using spelled.symm
    next => simp at found
  · rintro ⟨rfl, isBlank⟩
    rw [List.reverse_append, List.reverse_cons, List.append_assoc]
    exact splitBlankLine_append isBlank body

theorem endsBlank_iff {text : List Char} :
    EndsBlank text ↔ (splitBlankLine ('\n' :: text).reverse).isSome = true := by
  rw [Option.isSome_iff_exists]
  constructor
  · rintro (isBlank | isBlank)
    · exact ⟨([], _), splitBlankLine_eq_some_iff.mpr ⟨rfl, isBlank⟩⟩
    · exact ⟨('\n' :: _, _), splitBlankLine_eq_some_iff.mpr ⟨rfl, isBlank⟩⟩
  · rintro ⟨⟨body, blank⟩, found⟩
    obtain ⟨whole, isBlank⟩ := splitBlankLine_eq_some_iff.mp found
    cases body with
    | nil =>
        obtain ⟨_, rfl⟩ := List.cons.inj whole
        exact .only isBlank
    | cons c body =>
        obtain ⟨_, rfl⟩ := List.cons.inj whole
        exact .behind isBlank

instance : DecidablePred EndsBlank := fun _ => decidable_of_iff _ endsBlank_iff.symm

/-- Before a last line end a blank line is found first; the last line is empty only otherwise. -/
theorem splitClosingLine_newline (text : List Char) :
    splitClosingLine (text ++ ['\n']) =
      some ((splitBlankLine text.reverse).getD (text, [])) := by
  rw [splitClosingLine, List.reverse_append, List.reverse_singleton, List.singleton_append]
  cases found : splitBlankLine text.reverse <;> simp [found]

theorem splitClosingLine_of_blank_line {blank : List Char} (isBlank : ∀ c ∈ blank, isIndent c = true)
    (body : List Char) : splitClosingLine (body ++ '\n' :: blank ++ ['\n']) = some (body, blank) := by
  rw [splitClosingLine_newline, splitBlankLine_eq_some_iff.mpr ⟨rfl, isBlank⟩, Option.getD_some]

theorem splitClosingLine_of_not_endsBlank {content : List Char} (solid : ¬ EndsBlank content) :
    splitClosingLine ('\n' :: content ++ ['\n']) = some ('\n' :: content, []) := by
  have found : splitBlankLine ('\n' :: content).reverse = none :=
    Option.not_isSome_iff_eq_none.mp (mt endsBlank_iff.mpr solid)
  rw [splitClosingLine_newline, found, Option.getD_none]

theorem dedent_nil (atLineStart : Bool) (text : List Char) : dedent [] atLineStart text = text := by
  obtain ⟨first, others, pieces⟩ := List.exists_cons_of_ne_nil (List.splitOn_ne_nil '\n' text)
  have kept : dropIndent [] = id := funext fun line => @dropIndent_append [] line
  rw [dedent, pieces]
  simp only [kept, id, ite_self, List.map_id]
  rw [← pieces, List.intercalate_splitOn]

theorem stripMultiLine_single {text content indent : List Char}
    (closing : splitClosingLine text = some (content, indent)) :
    stripMultiLine true true [text] = [dedent indent true (dropLeadingNewline content)] := by
  rw [stripMultiLine]
  simp only [if_true, List.getLast?_singleton, Option.bind_some, closing]
  cases indent with
  | nil => simp [dedent_nil]
  | cons c indent => simp [dedentAll]

theorem dedent_empty (indent : List Char) (atLineStart : Bool) :
    dedent indent atLineStart [] = [] :=
  List.sublist_nil.mp (dedent_sublist indent atLineStart [])

namespace SyntaxNode

open LiteralItem

variable {source : Bytes} {node : SyntaxNode} {content : List Char}

theorem IsWritten.segments_between_newlines {kept indent : List Char}
    (written : node.IsWritten source .multiLine (ofText ('\n' :: content ++ ['\n'])))
    (closing : splitClosingLine ('\n' :: content ++ ['\n']) = some (kept, indent)) :
    node.segments source = .ok [dedent indent true (dropLeadingNewline kept)] := by
  obtain ⟨last, isLast⟩ := exists_last_char (ofText ('\n' :: content)) (List.cons_ne_nil '\n' [])
  rw [← ofText_append] at isLast
  rw [written.segments_eq rfl isLast, staticParts_ofText]
  exact congrArg Except.ok (stripMultiLine_single closing)

theorem IsWritten.segments_of_blank_line {body blank : List Char}
    (written : node.IsWritten source .multiLine (ofText ('\n' :: content ++ ['\n'])))
    (isBlank : ∀ c ∈ blank, isIndent c = true) (whole : content = body ++ '\n' :: blank) :
    node.segments source = .ok [dedent blank true body] := by
  subst whole
  exact written.segments_between_newlines (splitClosingLine_of_blank_line isBlank ('\n' :: body))

theorem IsWritten.segments_of_blank_content
    (written : node.IsWritten source .multiLine (ofText ('\n' :: content ++ ['\n'])))
    (isBlank : ∀ c ∈ content, isIndent c = true) : node.segments source = .ok [[]] := by
  have left := written.segments_between_newlines (splitClosingLine_of_blank_line isBlank [])
  have nothing : dropLeadingNewline [] = [] := rfl
  rwa [nothing, dedent_empty] at left

theorem IsWritten.segments_of_not_endsBlank
    (written : node.IsWritten source .multiLine (ofText ('\n' :: content ++ ['\n'])))
    (solid : ¬ EndsBlank content) : node.segments source = .ok [content] := by
  have kept := written.segments_between_newlines (splitClosingLine_of_not_endsBlank solid)
  rwa [dropLeadingNewline, dedent_nil] at kept

/--
The content is one segment as it is written, unless its last line is blank. Such a line is dropped
and sets the indentation for the lines before it; where it is the only line, nothing is left.
-/
theorem segments_at_column_zero
    (written : node.IsWritten source .multiLine (ofText ('\n' :: content ++ ['\n']))) :
    (node.segments source = .ok [content] ↔ content = [] ∨ ¬ EndsBlank content) ∧
    (∀ body blank, (∀ c ∈ blank, isIndent c = true) → content = body ++ '\n' :: blank →
      node.segments source = .ok [dedent blank true body]) ∧
    ((∀ c ∈ content, isIndent c = true) → node.segments source = .ok [[]]) := by
  refine ⟨⟨fun verbatim => ?_, ?_⟩, fun body blank => written.segments_of_blank_line,
    written.segments_of_blank_content⟩
  · by_contra changed
    obtain ⟨nonempty, blankEnd⟩ : content ≠ [] ∧ EndsBlank content := by simpa using changed
    cases blankEnd with
    | only isBlank =>
        rw [written.segments_of_blank_content isBlank] at verbatim
        exact nonempty (by simpa using verbatim.symm)
    | @behind body blank isBlank =>
        rw [written.segments_of_blank_line isBlank rfl] at verbatim
        have same : dedent blank true body = body ++ '\n' :: blank := by simpa using verbatim
        have shorter := (dedent_sublist blank true body).length_le
        rw [same, List.length_append, List.length_cons] at shorter
        omega
  · rintro (rfl | solid)
    · exact written.segments_of_blank_content (by simp)
    · exact written.segments_of_not_endsBlank solid

def columnZeroSource (content : List Char) : Bytes :=
  encodeUtf8 ("\"\"\"".toList ++ ('\n' :: content ++ ['\n'] ++ "\"\"\"".toList))

def columnZeroLiteral (content : List Char) : SyntaxNode :=
  let stop := 3 + (encodeUtf8 ('\n' :: content ++ ['\n'])).length
  .mk (.literal .multiLine) ⟨0, stop + 3⟩ .sound
    [Swift.leaf .other ⟨0, 3⟩, Swift.leaf .text ⟨3, stop⟩, Swift.leaf .other ⟨stop, stop + 3⟩]

theorem isWritten_columnZeroLiteral (content : List Char) :
    (columnZeroLiteral content).IsWritten (columnZeroSource content) .multiLine
      (ofText ('\n' :: content ++ ['\n'])) := by
  unfold columnZeroLiteral columnZeroSource
  generalize isText : '\n' :: content ++ ['\n'] = text
  have quotes : (encodeUtf8 "\"\"\"".toList).length = 3 := by decide +kernel
  have spelled : slice (encodeUtf8 ("\"\"\"".toList ++ (text ++ "\"\"\"".toList)))
      ⟨3, 3 + (encodeUtf8 text).length⟩ = encodeUtf8 (spell (ofText text)) := by
    rw [spell_ofText, slice, encodeUtf8_append, encodeUtf8_append, List.drop_left' quotes,
      Nat.add_sub_cancel_left, List.take_left]
  have laid := @Laid.text (3 + (encodeUtf8 text).length) 3 text []
    (Swift.leaf .text ⟨3, 3 + (encodeUtf8 text).length⟩) [] rfl (by simp [← isText]) rfl .done
  rw [List.append_nil] at laid
  refine ⟨rfl, _, _, @encloses_region _ .multiLine fun _ => ?_, spelled, laid⟩
  exact Nat.le_succ 2

/-- A blank line at the end is lost, a blank line before other text is not. -/
theorem segments_at_column_zero_samples :
    (columnZeroLiteral "a\n".toList).segments (columnZeroSource "a\n".toList) = .ok ["a".toList] ∧
    (columnZeroLiteral " a\n ".toList).segments (columnZeroSource " a\n ".toList) =
      .ok ["a".toList] ∧
    (columnZeroLiteral "\n a\n\nb".toList).segments (columnZeroSource "\n a\n\nb".toList) =
      .ok ["\n a\n\nb".toList] := by
  obtain ⟨_, lost, _⟩ := segments_at_column_zero (isWritten_columnZeroLiteral "a\n".toList)
  obtain ⟨_, dedented, _⟩ := segments_at_column_zero (isWritten_columnZeroLiteral " a\n ".toList)
  obtain ⟨verbatim, _⟩ :=
    segments_at_column_zero (isWritten_columnZeroLiteral "\n a\n\nb".toList)
  refine ⟨?_, ?_, verbatim.mpr (.inr (by decide +kernel))⟩
  · exact lost ['a'] [] (by simp) rfl
  · exact dedented [' ', 'a'] [' '] (by simp [isIndent]) rfl

end SyntaxNode

end LocalizationAudit

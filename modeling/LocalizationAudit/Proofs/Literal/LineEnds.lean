import LocalizationAudit.Proofs.Literal.ClosingLine
import LocalizationAudit.Proofs.Text.LineEnds
import LocalizationAudit.Proofs.Text.Trimming

/-!
Multi-line literals in a source saved with the other line ends. Only the line feed counts as the end
of a line, so of the line ends next to the delimiters the first stays whole and the last leaves its
carriage return; between them the content is stripped as before.
-/

namespace LocalizationAudit

section Bytes

def crlfByte (byte : UInt8) : Bytes :=
  if byte = 10 then [13, 10] else [byte]

def crlfBytes (source : Bytes) : Bytes :=
  source.flatMap crlfByte

def crlfPlace (source : Bytes) (place : Nat) : Nat :=
  (crlfBytes (source.take place)).length

theorem crlfBytes_append (first second : Bytes) :
    crlfBytes (first ++ second) = crlfBytes first ++ crlfBytes second :=
  List.flatMap_append

/-- A byte below 128 spells a character by itself. -/
theorem Utf8Sequence.toNat_eq_of_low {first byte : UInt8} {more : Bytes} {value : Nat}
    (sequence : Utf8Sequence first more value) (member : byte ∈ first :: more)
    (low : byte.toNat < 0x80) : byte.toNat = value := by
  cases sequence
  all_goals
    simp only [List.mem_cons, List.not_mem_nil, or_false, ← UInt8.toNat_inj] at member
    omega

theorem eq_newline_of_mem_utf8EncodeChar {c : Char} (member : 10 ∈ String.utf8EncodeChar c) :
    c = '\n' := by
  obtain ⟨first, more, sequence⟩ := exists_utf8Sequence c.valid
  rw [utf8EncodeChar_of_sequence sequence] at member
  exact Char.toNat_inj.mp (sequence.toNat_eq_of_low member (by decide)).symm

theorem crlfBytes_of_plain {bytes : Bytes} (plain : 10 ∉ bytes) : crlfBytes bytes = bytes := by
  induction bytes with
  | nil => rfl
  | cons byte bytes ih =>
      obtain ⟨different, others⟩ := not_or.mp (mt List.mem_cons.mpr plain)
      rw [crlfBytes, List.flatMap_cons, crlfByte, if_neg (Ne.symm different), ← crlfBytes, ih others,
        List.singleton_append]

theorem crlfBytes_encodeUtf8 (text : List Char) :
    crlfBytes (encodeUtf8 text) = encodeUtf8 (lfToCrlf text) := by
  induction text with
  | nil => rfl
  | cons c text ih =>
      have whole : encodeUtf8 (c :: text) = String.utf8EncodeChar c ++ encodeUtf8 text := rfl
      rw [whole, crlfBytes_append, ih]
      by_cases ends : c = '\n'
      · subst ends
        rfl
      · rw [crlfBytes_of_plain (mt eq_newline_of_mem_utf8EncodeChar ends), lfToCrlf_cons ends]
        rfl

theorem take_crlfBytes (source : Bytes) (place : Nat) :
    (crlfBytes source).take (crlfPlace source place) = crlfBytes (source.take place) := by
  have whole := crlfBytes_append (source.take place) (source.drop place)
  rw [List.take_append_drop] at whole
  rw [whole, crlfPlace, List.take_left]

theorem drop_crlfBytes (source : Bytes) (place : Nat) :
    (crlfBytes source).drop (crlfPlace source place) = crlfBytes (source.drop place) := by
  have whole := crlfBytes_append (source.take place) (source.drop place)
  rw [List.take_append_drop] at whole
  rw [whole, crlfPlace, List.drop_left]

/-- What lies between two places lies between them again, with the other line ends. -/
theorem slice_crlfBytes (source : Bytes) {start stop : Nat} (forward : start ≤ stop) :
    slice (crlfBytes source) ⟨crlfPlace source start, crlfPlace source stop⟩ =
      crlfBytes (slice source ⟨start, stop⟩) := by
  have sameStart : crlfPlace source start = crlfPlace (source.take stop) start := by
    rw [crlfPlace, crlfPlace, List.take_take, Nat.min_eq_left forward]
  simp only [slice]
  rw [← List.drop_take, ← List.drop_take, take_crlfBytes, sameStart, drop_crlfBytes]

end Bytes

section Lines

variable {indent : List Char}

theorem splitOn_lfToCrlf_concat (text : List Char) :
    (lfToCrlf text ++ ['\r']).splitOn '\n' = (text.splitOn '\n').map (· ++ ['\r']) := by
  induction text with
  | nil => rfl
  | cons c text ih =>
      obtain ⟨first, others, pieces⟩ := List.exists_cons_of_ne_nil (List.splitOn_ne_nil '\n' text)
      rw [pieces] at ih
      by_cases ends : c = '\n'
      · subst ends
        simp [lfToCrlf_newline, List.splitOn_cons_eq_if_modifyHead, ih, pieces]
      · simp [lfToCrlf_cons ends, List.splitOn_cons_eq_if_modifyHead, ends, ih, pieces]

theorem lfToCrlf_of_line {line : List Char} (single : '\n' ∉ line) : lfToCrlf line = line := by
  induction line with
  | nil => rfl
  | cons c line ih =>
      obtain ⟨different, others⟩ := not_or.mp (mt List.mem_cons.mpr single)
      rw [lfToCrlf_cons (Ne.symm different), ih others]

theorem intercalate_map_concat {lines : List (List Char)} (nonempty : lines ≠ [])
    (single : ∀ line ∈ lines, '\n' ∉ line) :
    ['\n'].intercalate (lines.map (· ++ ['\r'])) = lfToCrlf (['\n'].intercalate lines) ++ ['\r'] := by
  induction lines with
  | nil => exact absurd rfl nonempty
  | cons line others ih =>
      have own := lfToCrlf_of_line (single line List.mem_cons_self)
      cases others with
      | nil => simp [own]
      | cons next others =>
          have later := ih (by simp) fun other member => single other (List.mem_cons_of_mem _ member)
          rw [List.map_cons] at later
          rw [List.map_cons, List.map_cons, List.intercalate_cons_cons, List.intercalate_cons_cons,
            later, lfToCrlf_append, lfToCrlf_append, own]
          simp [lfToCrlf_newline]

theorem dropIndent_concat (blank : ∀ c ∈ indent, isIndent c = true) (line : List Char) :
    dropIndent indent (line ++ ['\r']) = dropIndent indent line ++ ['\r'] := by
  have solid : '\r' ∉ indent := fun member => absurd (blank '\r' member) (by decide)
  have same : indent <+: line ++ ['\r'] ↔ indent <+: line := by
    rw [List.prefix_concat_iff]
    refine or_iff_right ?_
    rintro rfl
    simp at solid
  simp only [dropIndent, List.isPrefixOf_iff_prefix, same]
  split
  next found => rw [List.drop_append_of_le_length found.length_le]
  next => rfl

theorem dedent_eq (text : List Char) :
    dedent indent true text = ['\n'].intercalate ((text.splitOn '\n').map (dropIndent indent)) := by
  obtain ⟨first, others, pieces⟩ := List.exists_cons_of_ne_nil (List.splitOn_ne_nil '\n' text)
  rw [dedent, pieces]
  rfl

theorem dedent_lfToCrlf_concat (blank : ∀ c ∈ indent, isIndent c = true) (text : List Char) :
    dedent indent true (lfToCrlf text ++ ['\r']) = lfToCrlf (dedent indent true text) ++ ['\r'] := by
  have kept : dropIndent indent ∘ (· ++ ['\r']) = (· ++ ['\r']) ∘ dropIndent indent :=
    funext (dropIndent_concat blank)
  rw [dedent_eq, dedent_eq, splitOn_lfToCrlf_concat, List.map_map, kept, ← List.map_map,
    intercalate_map_concat (by simp)]
  intro line member
  obtain ⟨original, isLine, rfl⟩ := List.mem_map.mp member
  exact fun inside => not_mem_of_mem_splitOn isLine ((dropIndent_sublist _ _).subset inside)

/-- The line end behind the opening delimiter is now a line of its own, with a carriage return. -/
theorem dedent_lineEnd (blank : ∀ c ∈ indent, isIndent c = true) (text : List Char) :
    dedent indent true ('\r' :: '\n' :: text) = '\r' :: '\n' :: dedent indent true text := by
  obtain ⟨first, others, pieces⟩ := List.exists_cons_of_ne_nil (List.splitOn_ne_nil '\n' text)
  have split : ('\r' :: '\n' :: text).splitOn '\n' = ['\r'] :: text.splitOn '\n' := by
    simp [List.splitOn_cons_eq_if_modifyHead]
  have kept : dropIndent indent ['\r'] = ['\r'] := by
    simpa [dropIndent] using dropIndent_concat blank []
  rw [dedent_eq, split, List.map_cons, kept, dedent_eq, pieces, List.map_cons,
    List.intercalate_cons_cons]
  rfl

theorem splitClosingLine_of_carriageReturn (blank : ∀ c ∈ indent, isIndent c = true)
    (text : List Char) :
    splitClosingLine (text ++ '\r' :: '\n' :: indent) = some (text ++ ['\r'], indent) := by
  have whole : text ++ '\r' :: '\n' :: indent = text ++ ['\r'] ++ '\n' :: indent := by simp
  rw [whole]
  by_cases indented : indent = []
  · subst indented
    have solid : splitBlankLine (text ++ ['\r']).reverse = none := by
      simp [splitBlankLine, isIndent]
    rw [splitClosingLine_newline, solid, Option.getD_none]
  · exact splitClosingLine_append indented blank _

theorem exists_splitClosingLine (blank : ∀ c ∈ indent, isIndent c = true) (text : List Char) :
    ∃ kept margin, splitClosingLine (text ++ '\n' :: indent) = some (kept, margin) := by
  by_cases indented : indent = []
  · subst indented
    exact ⟨_, _, splitClosingLine_newline text⟩
  · exact ⟨_, _, splitClosingLine_append indented blank text⟩

end Lines

namespace SyntaxNode

mutual

def moved (place : Nat → Nat) : SyntaxNode → SyntaxNode
  | mk kind span mark children =>
      mk kind ⟨place span.start, place span.stop⟩ mark (movedAll place children)

def movedAll (place : Nat → Nat) : List SyntaxNode → List SyntaxNode
  | [] => []
  | node :: others => node.moved place :: movedAll place others

end

def crlf (source : Bytes) (node : SyntaxNode) : SyntaxNode :=
  node.moved (crlfPlace source)

/-- A multi-line literal without interpolation, and what stands between its delimiters. -/
structure HoldsText (source : Bytes) (text : List Char) (node : SyntaxNode) : Prop where
  kind : node.kind = .literal .multiLine
  layout : ∃ region inner, node.Encloses .multiLine region inner ∧ inner ≠ [] ∧
    (∀ child ∈ inner, child.isText = true) ∧ slice source region = encodeUtf8 text

section Moved

variable (place : Nat → Nat)

theorem movedAll_eq_map (nodes : List SyntaxNode) :
    movedAll place nodes = nodes.map (moved place) := by
  induction nodes with
  | nil => rfl
  | cons node others ih => exact congrArg (node.moved place :: ·) ih

@[simp] theorem kind_moved (node : SyntaxNode) : (node.moved place).kind = node.kind := by
  cases node
  rfl

@[simp] theorem start_moved (node : SyntaxNode) : (node.moved place).start = place node.start := by
  cases node
  rfl

@[simp] theorem stop_moved (node : SyntaxNode) : (node.moved place).stop = place node.stop := by
  cases node
  rfl

@[simp] theorem isText_moved (node : SyntaxNode) : (node.moved place).isText = node.isText := by
  rw [isText, kind_moved, isText]

theorem children_moved (node : SyntaxNode) :
    (node.moved place).children = node.children.map (moved place) := by
  cases node with
  | mk kind span mark children => exact movedAll_eq_map place children

theorem Encloses.moved {node : SyntaxNode} {region : Span} {inner : List SyntaxNode}
    (encloses : node.Encloses .multiLine region inner) :
    (node.moved place).Encloses .multiLine ⟨place region.start, place region.stop⟩
      (inner.map (SyntaxNode.moved place)) := by
  cases encloses with
  | @between _ first last inner notRaw children =>
      have children := node.children_moved place ▸ congrArg (List.map (SyntaxNode.moved place)) children
      rw [List.map_cons, List.map_append, List.map_singleton] at children
      have found := Encloses.between notRaw children
      rwa [stop_moved, start_moved] at found

end Moved

variable {source : Bytes} {node : SyntaxNode} {text content indent : List Char}

/-- Text alone is one run, which touches both delimiters. -/
theorem segmentation_of_text {region : Span} {inner : List SyntaxNode} (nonempty : inner ≠ [])
    (allText : ∀ child ∈ inner, child.isText = true) :
    segmentation region inner = ⟨[region], true, true⟩ := by
  obtain ⟨first, others, rfl⟩ := List.exists_cons_of_ne_nil nonempty
  obtain ⟨isText, othersToo⟩ := List.forall_mem_cons.mp allText
  have settled : ∀ state : Splitting, state.inText = true → others.foldl Splitting.step state = state := by
    intro state inText
    induction others with
    | nil => rfl
    | cons child others ih =>
        obtain ⟨here, later⟩ := List.forall_mem_cons.mp othersToo
        rw [List.foldl_cons, Splitting.step, if_pos here, if_pos inText]
        exact ih (by simp) (List.forall_mem_cons.mpr ⟨isText, later⟩) later
  have entered := @TextRun.step_of_text (.ofStart region.start) first isText rfl
  rw [segmentation, List.foldl_cons, entered, settled _ rfl]
  rfl

theorem HoldsText.segments_eq (holds : node.HoldsText source text) :
    node.segments source = .ok (stripMultiLine true true [text]) := by
  obtain ⟨region, inner, encloses, nonempty, allText, spelled⟩ := holds.layout
  have found := @segmentation_of_text region inner nonempty allText
  have decoded : decodeSlices source (node.textSpans .multiLine) = .ok [text] := by
    rw [textSpans, encloses.region_eq, found, decodeSlices_eq_ok_iff]
    exact .cons (decode_utf8_eq_ok_iff.mpr spelled) .nil
  rw [segments_of_form (literalForm?_eq_some_iff.mpr holds.kind), decoded, Except.map, strip_eq,
    encloses.region_eq, found]
  rfl

theorem HoldsText.crlf (holds : node.HoldsText source text) (nonempty : text ≠ []) :
    (node.crlf source).HoldsText (crlfBytes source) (lfToCrlf text) := by
  obtain ⟨region, inner, encloses, some, allText, spelled⟩ := holds.layout
  have forward : region.start ≤ region.stop := by
    by_contra backward
    have nothing : slice source region = encodeUtf8 [] := slice_of_le (by omega)
    exact nonempty (encodeUtf8_injective (spelled.symm.trans nothing))
  refine ⟨(node.kind_moved _).trans holds.kind, _, _, encloses.moved _, by simpa using some, ?_, ?_⟩
  · intro child member
    obtain ⟨original, isInner, rfl⟩ := List.mem_map.mp member
    rw [isText_moved]
    exact allText original isInner
  · rw [slice_crlfBytes source forward, spelled, crlfBytes_encodeUtf8]

theorem exists_segment (blank : ∀ c ∈ indent, isIndent c = true)
    (holds : node.HoldsText source ('\n' :: content ++ '\n' :: indent)) :
    ∃ segment, node.segments source = .ok [segment] ∧
      segment.Sublist ('\n' :: content ++ '\n' :: indent) := by
  obtain ⟨kept, margin, closing⟩ := exists_splitClosingLine blank ('\n' :: content)
  refine ⟨_, holds.segments_eq.trans (congrArg Except.ok (stripMultiLine_single closing)), ?_⟩
  exact (dedent_sublist _ _ _).trans
    ((dropLeadingNewline_sublist kept).trans (splitClosingLine_sublist closing))

theorem segments_between_lineFeeds (blank : ∀ c ∈ indent, isIndent c = true)
    (holds : node.HoldsText source ('\n' :: content ++ '\n' :: indent))
    (found : indent = [] → ¬ EndsBlank content) :
    node.segments source = .ok [dedent indent true content] := by
  have closing : splitClosingLine ('\n' :: content ++ '\n' :: indent) =
      some ('\n' :: content, indent) := by
    by_cases indented : indent = []
    · subst indented
      exact splitClosingLine_of_not_endsBlank (found rfl)
    · exact splitClosingLine_append indented blank ('\n' :: content)
  rw [holds.segments_eq, stripMultiLine_single closing]
  rfl

theorem segments_between_carriageReturns (blank : ∀ c ∈ indent, isIndent c = true)
    (holds : node.HoldsText source (lfToCrlf ('\n' :: content ++ '\n' :: indent))) :
    node.segments source =
      .ok ['\r' :: '\n' :: lfToCrlf (dedent indent true content) ++ ['\r']] := by
  have single : '\n' ∉ indent := fun member => absurd (blank '\n' member) (by decide)
  have whole : lfToCrlf ('\n' :: content ++ '\n' :: indent) =
      '\r' :: '\n' :: lfToCrlf content ++ '\r' :: '\n' :: indent := by
    rw [lfToCrlf_append, lfToCrlf_newline, lfToCrlf_newline, lfToCrlf_of_line single]
  have closing := splitClosingLine_of_carriageReturn blank ('\r' :: '\n' :: lfToCrlf content)
  rw [← whole] at closing
  rw [holds.segments_eq, stripMultiLine_single closing, List.cons_append, List.cons_append]
  change Except.ok [dedent indent true ('\r' :: '\n' :: (lfToCrlf content ++ ['\r']))] = _
  rw [dedent_lineEnd blank, dedent_lfToCrlf_concat blank]
  rfl

/--
With line feeds alone the line ends next to the delimiters are no content. With the other line ends
the first one is kept whole and of the last one the carriage return, so the segment is never the one
that the other spelling has.
-/
theorem segments_with_other_line_ends (blank : ∀ c ∈ indent, isIndent c = true)
    (plain : '\r' ∉ content) (holds : node.HoldsText source ('\n' :: content ++ '\n' :: indent)) :
    ((indent = [] → ¬ EndsBlank content) →
      node.segments source = .ok [dedent indent true content]) ∧
    (node.crlf source).segments (crlfBytes source) =
      .ok ['\r' :: '\n' :: lfToCrlf (dedent indent true content) ++ ['\r']] ∧
    ∃ segment, node.segments source = .ok [segment] ∧
      (node.crlf source).segments (crlfBytes source) ≠ .ok [lfToCrlf segment] := by
  have other := segments_between_carriageReturns blank (holds.crlf (by simp))
  refine ⟨segments_between_lineFeeds blank holds, other, ?_⟩
  obtain ⟨segment, found, inside⟩ := exists_segment blank holds
  refine ⟨segment, found, fun same => ?_⟩
  -- The one segment ends in a carriage return, and in the other one there is none to end in.
  have ends : segment.getLast? = some '\r' := by
    have spelled : '\r' :: '\n' :: lfToCrlf (dedent indent true content) ++ ['\r'] =
        lfToCrlf segment := by simpa using other.symm.trans same
    rw [← getLast?_lfToCrlf, ← spelled, List.getLast?_concat]
  have member := inside.subset (List.mem_of_getLast? ends)
  have solid : '\r' ∉ indent := fun isIndented => absurd (blank '\r' isIndented) (by decide)
  simp [plain, solid] at member

def dedentedSource : Bytes :=
  encodeUtf8 "\"\"\"\n a\n\n é\n \"\"\"".toList

def dedentedLiteral : SyntaxNode :=
  .mk (.literal .multiLine) ⟨0, 16⟩ .sound
    [Swift.leaf .other ⟨0, 3⟩, Swift.leaf .text ⟨3, 6⟩, Swift.leaf .text ⟨6, 13⟩,
      Swift.leaf .other ⟨13, 16⟩]

theorem holdsText_dedentedLiteral :
    dedentedLiteral.HoldsText dedentedSource ('\n' :: " a\n\n é".toList ++ '\n' :: [' ']) := by
  refine ⟨rfl, ⟨3, 13⟩, [Swift.leaf .text ⟨3, 6⟩, Swift.leaf .text ⟨6, 13⟩], ?_, by simp, by decide,
    by decide +kernel⟩
  exact @encloses_region dedentedLiteral .multiLine fun _ => by decide

theorem segments_with_other_line_ends_dedented :
    dedentedLiteral.HoldsText dedentedSource ('\n' :: " a\n\n é".toList ++ '\n' :: [' ']) ∧
    dedentedLiteral.segments dedentedSource = .ok ["a\n\né".toList] ∧
    (dedentedLiteral.crlf dedentedSource).segments (crlfBytes dedentedSource) =
      .ok ["\r\na\r\n\r\né\r".toList] := by
  obtain ⟨lineFeeds, carriageReturns, _⟩ :=
    segments_with_other_line_ends (by simp [isIndent]) (by decide) holdsText_dedentedLiteral
  exact ⟨holdsText_dedentedLiteral, lineFeeds (by simp), carriageReturns⟩

end SyntaxNode

end LocalizationAudit

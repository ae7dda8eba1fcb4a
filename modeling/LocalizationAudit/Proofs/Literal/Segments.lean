import LocalizationAudit.Proofs.Literal.Runs
import LocalizationAudit.Proofs.Literal.Stripping
import LocalizationAudit.Proofs.Text.Order

/-!
The segments of a literal in a tree that lies over its source: there always are some, each is drawn
from the text of one run, and a plain literal has its whole body as its only segment.
-/

namespace LocalizationAudit

theorem decodeSlices_eq_ok_iff {source : Bytes} {spans : List Span} {texts : List (List Char)} :
    decodeSlices source spans = .ok texts ↔
      List.Forall₂ (fun span text => Encoding.decode (slice source span) .utf8 = .ok text)
        spans texts := by
  induction spans generalizing texts with
  | nil => cases texts <;> simp [decodeSlices]
  | cons span others ih =>
      rw [decodeSlices]
      cases first : Encoding.decode (slice source span) .utf8 with
      | error failure => cases texts <;> simp [bind, Except.bind, first]
      | ok text =>
          cases rest : decodeSlices source others with
          | error failure => cases texts <;> simp [bind, Except.bind, first, ← ih, rest]
          | ok found =>
              cases texts <;> simp [bind, Except.bind, pure, Except.pure, first, ← ih, rest]

theorem decodeSlices_total {source : Bytes} {spans : List Span}
    (placed : ∀ span ∈ spans, IsBoundary source span.start ∧ IsBoundary source span.stop) :
    ∃ texts, decodeSlices source spans = .ok texts := by
  simp only [decodeSlices_eq_ok_iff]
  induction spans with
  | nil => exact ⟨[], .nil⟩
  | cons span others ih =>
      have here := placed span List.mem_cons_self
      obtain ⟨text, spelled⟩ := isUtf8_slice here.1 here.2
      obtain ⟨texts, rest⟩ := ih fun other member => placed other (List.mem_cons_of_mem _ member)
      exact ⟨text :: texts, .cons (decode_utf8_eq_ok_iff.mpr spelled) rest⟩

namespace SyntaxNode

def strip (source : Bytes) (node : SyntaxNode) (form : LiteralForm) (texts : List (List Char)) :
    List (List Char) :=
  let found := segmentation (node.region form).1 (node.region form).2
  let multiLine :=
    match form with
    | .line => false
    | .multiLine => true
    | .raw => opensMultiLine (source.drop node.start)
  stripDelimiters form multiLine found.startsAtOpen found.endsAtClose texts

variable {source : Bytes} {root node : SyntaxNode} {form : LiteralForm}

theorem segments_of_form (isLiteral : node.literalForm? = some form) :
    node.segments source = (decodeSlices source (node.textSpans form)).map (node.strip source form) := by
  unfold segments
  rw [isLiteral]
  simp only [textSpans]
  cases decodeSlices source (segmentation (node.region form).1 (node.region form).2).spans <;> rfl

theorem strip_drawnFrom (texts : List (List Char)) :
    DrawnFrom (node.strip source form texts) texts :=
  stripDelimiters_drawnFrom form _ _ _ texts

theorem exists_span_of_segment (isLiteral : node.literalForm? = some form)
    {segments : List (List Char)} (found : node.segments source = .ok segments)
    {segment : List Char} (member : segment ∈ segments) :
    ∃ span ∈ node.textSpans form, ∃ text,
      Encoding.decode (slice source span) .utf8 = .ok text ∧ segment.Sublist text := by
  rw [segments_of_form isLiteral] at found
  cases decoded : decodeSlices source (node.textSpans form) with
  | error failure => simp [decoded, Except.map] at found
  | ok texts =>
      rw [decoded] at found
      obtain rfl := Except.ok.inj found
      obtain ⟨text, isText, kept⟩ := strip_drawnFrom texts segment member
      obtain ⟨span, isSpan, decodedHere⟩ :=
        exists_related_of_mem (decodeSlices_eq_ok_iff.mp decoded).flip isText
      exact ⟨span, isSpan, text, decodedHere, kept⟩

theorem IsTreeOf.segments_total (isTree : root.IsTreeOf source) (member : node ∈ root.preorder) :
    ∃ segments, node.segments source = .ok segments := by
  cases isLiteral : node.literalForm? with
  | none =>
      unfold segments
      rw [isLiteral]
      exact ⟨[], rfl⟩
  | some form =>
      have placed := isTree.textSpans_placed member isLiteral
      obtain ⟨texts, decoded⟩ := decodeSlices_total fun span isSpan =>
        ⟨(placed span isSpan).1.1, (placed span isSpan).2.1⟩
      rw [segments_of_form isLiteral, decoded]
      exact ⟨_, rfl⟩

/-- All characters of a segment stand in the source of its literal, in the same order. -/
theorem IsTreeOf.segment_sublist (isTree : root.IsTreeOf source) (member : node ∈ root.preorder)
    (isLiteral : node.isLiteral = true) {segments : List (List Char)}
    (found : node.segments source = .ok segments) {segment : List Char}
    (isSegment : segment ∈ segments) :
    ∃ own, Encoding.decode (slice source node.span) .utf8 = .ok own ∧ segment.Sublist own := by
  obtain ⟨form, isForm⟩ := isLiteral_iff.mp isLiteral
  have fits := isTree node member
  obtain ⟨own, spelled⟩ := isUtf8_slice fits.startBoundary fits.stopBoundary
  have decoded := decode_utf8_eq_ok_iff.mpr spelled
  obtain ⟨span, isSpan, text, decodedInner, kept⟩ := exists_span_of_segment isForm found isSegment
  have placed := isTree.textSpans_placed member isForm span isSpan
  have inner := decode_slice_infix fits.startBoundary fits.stopBoundary placed.1.1 placed.2.1
    placed.1.2 placed.2.2 decodedInner decoded
  exact ⟨own, decoded, kept.trans inner.sublist⟩

theorem segments_of_plain_line {first last : SyntaxNode} {inner : List SyntaxNode}
    (isLine : node.kind = .literal .line) (children : node.children = first :: (inner ++ [last]))
    (nonempty : inner ≠ []) (allText : ∀ child ∈ inner, child.isText = true) {body : List Char}
    (spelled : slice source ⟨first.stop, last.start⟩ = encodeUtf8 body) :
    node.segments source = .ok [body] := by
  have isLiteral := literalForm?_eq_some_iff.mpr isLine
  have region : node.region .line = (⟨first.stop, last.start⟩, inner) :=
    region_of_delimiters (by simp) children
  have spans : node.textSpans .line = [⟨first.stop, last.start⟩] := by
    rw [textSpans_eq, region]
    exact textRuns_of_text false allText (.inr nonempty)
  have decoded : decodeSlices source (node.textSpans .line) = .ok [body] := by
    rw [spans, decodeSlices_eq_ok_iff]
    exact .cons (decode_utf8_eq_ok_iff.mpr spelled) .nil
  rw [segments_of_form isLiteral, decoded]
  rfl

end SyntaxNode

end LocalizationAudit

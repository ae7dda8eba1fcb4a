import LocalizationAudit.Proofs.Literal.Parts

/-!
The delimiters of raw literals. What is taken off at either end is a run of hashes with a quote, and
two more quotes where they stand next to it, whether or not the literal spans lines.
-/

namespace LocalizationAudit

theorem dropWhile_hashes (hashes : Nat) (text : List Char) :
    (List.replicate hashes '#' ++ '"' :: text).dropWhile (· == '#') = '"' :: text := by
  rw [List.dropWhile_append_of_pos (by simp +contextual [List.mem_replicate])]
  simp

theorem stripRawOpening_append (more : Nat) (text : List Char) :
    stripRawOpening (List.replicate (more + 1) '#' ++ '"' :: text) = dropTwoQuotes text := by
  have dropped := dropWhile_hashes (more + 1) text
  rw [List.replicate_succ, List.cons_append] at dropped ⊢
  unfold stripRawOpening
  rw [dropped]
  rfl

theorem stripRawClosing_of_reverse {text rest kept : List Char}
    (backwards : text.reverse = '#' :: rest)
    (dropped : ('#' :: rest).dropWhile (· == '#') = '"' :: kept) :
    stripRawClosing text = (dropTwoQuotes kept).reverse := by
  have unended : splitFinalNewline text = (text, []) := by
    unfold splitFinalNewline
    rw [backwards]
    rfl
  unfold stripRawClosing
  rw [unended]
  simp only [backwards]
  rw [dropped]
  simp

theorem stripRawClosing_append (more : Nat) (text : List Char) :
    stripRawClosing (text ++ '"' :: List.replicate (more + 1) '#') =
      (dropTwoQuotes text.reverse).reverse := by
  have backwards : (text ++ '"' :: List.replicate (more + 1) '#').reverse =
      '#' :: (List.replicate more '#' ++ '"' :: text.reverse) := by
    rw [← List.cons_append, ← List.replicate_succ]
    simp
  have dropped := dropWhile_hashes (more + 1) text.reverse
  rw [List.replicate_succ, List.cons_append] at dropped
  rw [stripRawClosing_of_reverse backwards dropped]

theorem dropWhile_hashBytes (hashes : Nat) (text : List Char) (rest : Bytes) :
    (encodeUtf8 (List.replicate hashes '#' ++ '"' :: text) ++ rest).dropWhile (· == 0x23) =
      0x22 :: (encodeUtf8 text ++ rest) := by
  induction hashes with
  | zero => rfl
  | succ hashes ih => exact ih

theorem opensMultiLine_append (more : Nat) (text : List Char) (rest : Bytes) :
    opensMultiLine
      (encodeUtf8 (List.replicate (more + 1) '#' ++ '"' :: '"' :: '"' :: text) ++ rest) = true := by
  unfold opensMultiLine
  rw [dropWhile_hashBytes]
  rfl

/-- Two quotes behind the first one are seen only where the text has them. -/
theorem pair_of_opensMultiLine {more : Nat} {text : List Char} {rest : Bytes}
    (atLeastTwo : 2 ≤ text.length) (opens : opensMultiLine
      (encodeUtf8 (List.replicate (more + 1) '#' ++ '"' :: text) ++ rest) = true) :
    ['"', '"'] <+: text := by
  match text, atLeastTwo with
  | first :: second :: text, _ =>
      unfold opensMultiLine at opens
      split at opens
      next others _ dropped =>
        rw [dropWhile_hashBytes] at dropped
        have quoted : encodeUtf8 (first :: second :: text) ++ rest =
            encodeUtf8 ['"', '"'] ++ others := (List.cons.inj dropped).2
        simp only [encodeUtf8, List.flatMap_cons, List.append_assoc] at quoted
        obtain ⟨rfl, later⟩ := reads_utf8.write_append_inj quoted
        obtain ⟨rfl, _⟩ := reads_utf8.write_append_inj later
        exact ⟨text, rfl⟩
      next => simp at opens

namespace SyntaxNode

open LiteralItem

variable {source : Bytes} {node : SyntaxNode}

theorem IsWritten.spansLines_eq {items : List LiteralItem}
    (written : node.IsWritten source .raw items) :
    ∃ rest, node.spansLines source .raw = opensMultiLine (encodeUtf8 (spell items) ++ rest) := by
  obtain ⟨region, inner, encloses, spelled, _⟩ := written.layout
  obtain ⟨rfl, rfl⟩ := Prod.mk.inj (node.region_raw.symm.trans encloses.region_eq)
  refine ⟨(source.drop node.start).drop (node.stop - node.start), ?_⟩
  have front : source.drop node.start = slice source node.span ++
      (source.drop node.start).drop (node.stop - node.start) :=
    (List.take_append_drop _ _).symm
  rw [← spelled, ← front]
  rfl

theorem IsWritten.spansLines_raw {items : List LiteralItem}
    (written : node.IsWritten source .raw items) (more : Nat)
    (opens : List.replicate (more + 1) '#' ++ ['"', '"', '"'] <+: spell items) :
    node.spansLines source .raw = true := by
  obtain ⟨text, opened⟩ := opens
  obtain ⟨rest, spans⟩ := written.spansLines_eq
  rw [spans, ← opened, List.append_assoc]
  exact opensMultiLine_append more text rest

end SyntaxNode

end LocalizationAudit

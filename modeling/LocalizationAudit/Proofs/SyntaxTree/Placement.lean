import LocalizationAudit.Literal.Segments
import LocalizationAudit.Proofs.Encoding.Utf8
import LocalizationAudit.Proofs.SyntaxTree.Traversal

/-!
How a tree lies over its source. A parser promises that nodes begin and end between characters,
that children follow one another inside their parent, and that a literal with delimiters of its own
has them as its first and last child. Then whatever lies between two nodes is text as well.
-/

namespace LocalizationAudit

def IsBoundary (source : Bytes) (offset : Nat) : Prop :=
  IsUtf8 (source.take offset)

instance (source : Bytes) (offset : Nat) : Decidable (IsBoundary source offset) :=
  inferInstanceAs (Decidable (IsUtf8 _))

namespace SyntaxNode

structure Fits (source : Bytes) (node : SyntaxNode) : Prop where
  startBoundary : IsBoundary source node.start
  stopBoundary : IsBoundary source node.stop
  start_le_stop : node.start ≤ node.stop
  inside : ∀ child ∈ node.children, node.start ≤ child.start ∧ child.stop ≤ node.stop
  inOrder : node.children.Pairwise fun earlier later => earlier.stop ≤ later.start
  delimited : node.kind = .literal .line ∨ node.kind = .literal .multiLine →
    2 ≤ node.children.length

instance (source : Bytes) (node : SyntaxNode) : Decidable (node.Fits source) :=
  decidable_of_iff
    ((IsBoundary source node.start ∧ IsBoundary source node.stop ∧ node.start ≤ node.stop) ∧
      (∀ child ∈ node.children, node.start ≤ child.start ∧ child.stop ≤ node.stop) ∧
      (node.children.Pairwise fun earlier later => earlier.stop ≤ later.start) ∧
      (node.kind = .literal .line ∨ node.kind = .literal .multiLine →
        2 ≤ node.children.length))
    ⟨fun ⟨⟨start, stop, forward⟩, inside, inOrder, delimited⟩ =>
        ⟨start, stop, forward, inside, inOrder, delimited⟩,
      fun fits => ⟨⟨fits.startBoundary, fits.stopBoundary, fits.start_le_stop⟩, fits.inside,
        fits.inOrder, fits.delimited⟩⟩

def IsTreeOf (source : Bytes) (root : SyntaxNode) : Prop :=
  ∀ node ∈ root.preorder, node.Fits source

instance (source : Bytes) (root : SyntaxNode) : Decidable (root.IsTreeOf source) :=
  inferInstanceAs (Decidable (∀ node ∈ root.preorder, node.Fits source))

theorem IsTreeOf.child {source : Bytes} {root node child : SyntaxNode}
    (isTree : root.IsTreeOf source) (member : node ∈ root.preorder)
    (isChild : child ∈ node.children) : child.Fits source :=
  isTree child (child_mem_preorder isChild root member)

end SyntaxNode

section Slices

variable {source : Bytes} {first middle last : Nat}

theorem take_append_slice (forward : first ≤ last) :
    source.take first ++ slice source ⟨first, last⟩ = source.take last := by
  rw [slice, ← List.take_add, Nat.add_sub_cancel' forward]

theorem slice_append_slice (before : first ≤ middle) (after : middle ≤ last) :
    slice source ⟨first, middle⟩ ++ slice source ⟨middle, last⟩ = slice source ⟨first, last⟩ := by
  have whole : source.take first ++ slice source ⟨first, last⟩ = source.take last :=
    take_append_slice (Nat.le_trans before after)
  rw [← take_append_slice after, ← take_append_slice before, List.append_assoc] at whole
  exact (List.append_cancel_left whole).symm

theorem slice_of_le (backward : last ≤ first) : slice source ⟨first, last⟩ = [] := by
  rw [slice, Nat.sub_eq_zero_of_le backward, List.take_zero]

theorem isUtf8_slice (start : IsBoundary source first) (stop : IsBoundary source last) :
    IsUtf8 (slice source ⟨first, last⟩) := by
  rcases Nat.le_total first last with forward | backward
  · obtain ⟨before, spelledBefore⟩ := start
    obtain ⟨text, spelled⟩ := stop
    rw [← take_append_slice forward, spelledBefore] at spelled
    obtain ⟨after, _, spelledAfter⟩ := encodeUtf8_prefix spelled
    exact ⟨after, spelledAfter⟩
  · exact ⟨[], slice_of_le backward⟩

/-- The text of a stretch is part of the text of any stretch around it. -/
theorem decode_slice_infix {outer inner : Span} {text whole : List Char}
    (start : IsBoundary source outer.start) (stop : IsBoundary source outer.stop)
    (innerStart : IsBoundary source inner.start) (innerStop : IsBoundary source inner.stop)
    (after : outer.start ≤ inner.start) (before : inner.stop ≤ outer.stop)
    (decodedInner : Encoding.decode (slice source inner) .utf8 = .ok text)
    (decoded : Encoding.decode (slice source outer) .utf8 = .ok whole) : text <:+: whole := by
  obtain ⟨innerFirst, innerLast⟩ := inner
  rw [decode_utf8_eq_ok_iff] at decodedInner decoded
  rcases Nat.le_total innerFirst innerLast with forward | backward
  · obtain ⟨front, spelledFront⟩ := isUtf8_slice start innerStart
    obtain ⟨back, spelledBack⟩ := isUtf8_slice innerStop stop
    refine ⟨front, back, encodeUtf8_injective ?_⟩
    rw [encodeUtf8_append, encodeUtf8_append, ← spelledFront, ← decodedInner, ← spelledBack,
      ← decoded, slice_append_slice after forward,
      slice_append_slice (Nat.le_trans after forward) before]
  · rw [slice_of_le backward] at decodedInner
    have empty : text = [] := encodeUtf8_injective decodedInner.symm
    exact empty ▸ List.nil_infix

end Slices

end LocalizationAudit

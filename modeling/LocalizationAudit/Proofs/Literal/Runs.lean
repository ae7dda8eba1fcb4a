import LocalizationAudit.Proofs.SyntaxTree.Placement

/-!
Where the segments of a literal lie: each is a run of text children, with what stands beside it up
to the next child that is no text. So a segment lies inside its literal, begins and ends between
characters, and shares nothing with an interpolation.
-/

namespace LocalizationAudit

def textRuns (stop : Nat) : Nat → Bool → List SyntaxNode → List Span
  | start, inText, [] => if inText then [⟨start, stop⟩] else []
  | start, inText, child :: others =>
      if child.isText then textRuns stop start true others
      else (if inText then [⟨start, child.start⟩] else []) ++ textRuns stop child.stop false others

theorem close_foldl_step (stop : Nat) (children : List SyntaxNode) (state : Splitting) :
    (children.foldl Splitting.step state).close stop =
      state.spans ++ textRuns stop state.start state.inText children := by
  induction children generalizing state with
  | nil => cases inText : state.inText <;> simp [Splitting.close, textRuns, inText]
  | cons child others ih =>
      rw [List.foldl_cons, ih, textRuns]
      cases isText : child.isText <;> cases inText : state.inText <;>
        simp [Splitting.step, Splitting.close, isText, inText]

theorem spans_segmentation (region : Span) (children : List SyntaxNode) :
    (segmentation region children).spans = textRuns region.stop region.start false children :=
  close_foldl_step region.stop children (Splitting.ofStart region.start)

section Runs

variable {stop start : Nat} {children : List SyntaxNode}

theorem textRuns_of_text (inText : Bool) (allText : ∀ child ∈ children, child.isText = true)
    (nonempty : inText = true ∨ children ≠ []) :
    textRuns stop start inText children = [⟨start, stop⟩] := by
  induction children generalizing inText with
  | nil =>
      have already : inText = true := nonempty.resolve_right (by simp)
      rw [textRuns, if_pos already]
  | cons child others ih =>
      rw [textRuns, if_pos (allText child List.mem_cons_self)]
      exact ih true (fun other member => allText other (List.mem_cons_of_mem _ member)) (.inl rfl)

/-- What holds of the start, the stop and the ends of all children holds of the ends of all runs. -/
theorem textRuns_ends (isStart isStop : Nat → Prop) (inText : Bool) (here : isStart start)
    (final : isStop stop) (between : ∀ child ∈ children, isStart child.stop ∧ isStop child.start) :
    ∀ span ∈ textRuns stop start inText children, isStart span.start ∧ isStop span.stop := by
  induction children generalizing start inText with
  | nil =>
      intro span member
      cases inText with
      | false => simp [textRuns] at member
      | true =>
          rw [textRuns, if_pos rfl, List.mem_singleton] at member
          exact member ▸ ⟨here, final⟩
  | cons child others ih =>
      have ends := between child List.mem_cons_self
      have later : ∀ other ∈ others, isStart other.stop ∧ isStop other.start :=
        fun other member => between other (List.mem_cons_of_mem _ member)
      intro span member
      rw [textRuns] at member
      split at member
      · exact ih true here later span member
      · rcases List.mem_append.mp member with closed | behind
        · cases inText with
          | false => simp at closed
          | true =>
              rw [if_pos rfl, List.mem_singleton] at closed
              exact closed ▸ ⟨here, ends.2⟩
        · exact ih false ends.1 later span behind

def Span.Apart (left right : Span) : Prop :=
  left.stop ≤ right.start ∨ right.stop ≤ left.start

theorem textRuns_apart (inText : Bool)
    (forward : ∀ child ∈ children, start ≤ child.start ∧ child.start ≤ child.stop)
    (inOrder : children.Pairwise fun earlier later => earlier.stop ≤ later.start) :
    ∀ span ∈ textRuns stop start inText children, ∀ child ∈ children, child.isText = false →
      span.Apart child.span := by
  induction children generalizing start inText with
  | nil => simp
  | cons first others ih =>
      obtain ⟨behindFirst, othersInOrder⟩ := List.pairwise_cons.mp inOrder
      have here := forward first List.mem_cons_self
      have later : ∀ other ∈ others, first.stop ≤ other.start ∧ other.start ≤ other.stop :=
        fun other member =>
          ⟨behindFirst other member, (forward other (List.mem_cons_of_mem _ member)).2⟩
      intro span member child isChild notText
      rw [textRuns] at member
      split at member
      next isText =>
        rcases List.mem_cons.mp isChild with rfl | isOther
        · simp [isText] at notText
        · have wider : ∀ other ∈ others, start ≤ other.start ∧ other.start ≤ other.stop :=
            fun other among => forward other (List.mem_cons_of_mem _ among)
          exact ih true wider othersInOrder span member child isOther notText
      next isBreak =>
        rcases List.mem_append.mp member with closed | behind
        · -- The run that this child ends lies before it, and before all that follow it.
          cases inText with
          | false => simp at closed
          | true =>
              rw [if_pos rfl, List.mem_singleton] at closed
              subst closed
              rcases List.mem_cons.mp isChild with rfl | isOther
              · exact .inl (Nat.le_refl _)
              · exact .inl (Nat.le_trans here.2 (later child isOther).1)
        · rcases List.mem_cons.mp isChild with rfl | isOther
          · refine .inr (textRuns_ends (child.stop ≤ ·) (fun _ => True) false (Nat.le_refl _)
              trivial ?_ span behind).1
            intro other among
            exact ⟨Nat.le_trans (later other among).1 (later other among).2, trivial⟩
          · exact ih false later othersInOrder span behind child isOther notText

theorem textRuns_inOrder (inText : Bool)
    (forward : ∀ child ∈ children, child.start ≤ child.stop)
    (inOrder : children.Pairwise fun earlier later => earlier.stop ≤ later.start) :
    (textRuns stop start inText children).Pairwise fun earlier later =>
      earlier.stop ≤ later.start := by
  induction children generalizing start inText with
  | nil =>
      rw [textRuns]
      split <;> simp
  | cons child others ih =>
      obtain ⟨behindChild, othersInOrder⟩ := List.pairwise_cons.mp inOrder
      have later : ∀ other ∈ others, other.start ≤ other.stop :=
        fun other member => forward other (List.mem_cons_of_mem _ member)
      rw [textRuns]
      split
      · exact ih true later othersInOrder
      · refine List.pairwise_append.mpr ⟨by split <;> simp, ih false later othersInOrder, ?_⟩
        intro closed isClosed span isSpan
        have behind := (textRuns_ends (child.stop ≤ ·) (fun _ => True) false (Nat.le_refl _)
          trivial (fun other member =>
            ⟨Nat.le_trans (behindChild other member) (later other member), trivial⟩)
          span isSpan).1
        split at isClosed
        · rw [List.mem_singleton.mp isClosed]
          exact Nat.le_trans (forward child List.mem_cons_self) behind
        · simp at isClosed

end Runs

namespace SyntaxNode

theorem literalForm?_eq_some_iff {node : SyntaxNode} {form : LiteralForm} :
    node.literalForm? = some form ↔ node.kind = .literal form := by
  unfold literalForm?
  split <;> simp_all

theorem isLiteral_iff {node : SyntaxNode} :
    node.isLiteral = true ↔ ∃ form, node.literalForm? = some form := by
  rw [isLiteral, Option.isSome_iff_exists]

theorem region_of_delimiters {node first last : SyntaxNode} {inner : List SyntaxNode}
    {form : LiteralForm} (delimited : form ≠ .raw)
    (children : node.children = first :: (inner ++ [last])) :
    node.region form = (⟨first.stop, last.start⟩, inner) := by
  unfold region
  rw [children]
  cases form <;> simp_all

theorem region_raw (node : SyntaxNode) : node.region .raw = (node.span, node.children) := by
  unfold region
  rfl

def textSpans (node : SyntaxNode) (form : LiteralForm) : List Span :=
  (segmentation (node.region form).1 (node.region form).2).spans

theorem textSpans_eq (node : SyntaxNode) (form : LiteralForm) :
    node.textSpans form =
      textRuns (node.region form).1.stop (node.region form).1.start false (node.region form).2 :=
  spans_segmentation _ _

theorem Fits.region_cases {source : Bytes} {node : SyntaxNode} {form : LiteralForm}
    (fits : node.Fits source) (isLiteral : node.literalForm? = some form) :
    node.region form = (node.span, node.children) ∨
    ∃ first inner last, node.children = first :: (inner ++ [last]) ∧
      node.region form = (⟨first.stop, last.start⟩, inner) := by
  have kind := literalForm?_eq_some_iff.mp isLiteral
  by_cases isRaw : form = .raw
  · exact .inl (isRaw ▸ node.region_raw)
  · have delimited : node.kind = .literal .line ∨ node.kind = .literal .multiLine := by
      cases form <;> simp_all
    have atLeastTwo := fits.delimited delimited
    obtain ⟨first, others, children⟩ : ∃ first others, node.children = first :: others :=
      List.exists_cons_of_length_pos (by omega)
    have nonempty : others ≠ [] := by
      rintro rfl
      simp [children] at atLeastTwo
    obtain ⟨inner, last, rfl⟩ := (List.eq_nil_or_concat others).resolve_left nonempty
    rw [List.concat_eq_append] at children
    exact .inr ⟨first, inner, last, children, region_of_delimiters isRaw children⟩

section Tree

variable {source : Bytes} {root node : SyntaxNode} {form : LiteralForm}

theorem IsTreeOf.textSpans_placed (isTree : root.IsTreeOf source) (member : node ∈ root.preorder)
    (isLiteral : node.literalForm? = some form) :
    ∀ span ∈ node.textSpans form, (IsBoundary source span.start ∧ node.start ≤ span.start) ∧
      IsBoundary source span.stop ∧ span.stop ≤ node.stop := by
  have fits := isTree node member
  have childEnds : ∀ child ∈ node.children,
      (IsBoundary source child.stop ∧ node.start ≤ child.stop) ∧
        IsBoundary source child.start ∧ child.start ≤ node.stop := by
    intro child isChild
    have childFits := isTree.child member isChild
    have inside := fits.inside child isChild
    have forward := childFits.start_le_stop
    exact ⟨⟨childFits.stopBoundary, Nat.le_trans inside.1 forward⟩, childFits.startBoundary,
      Nat.le_trans forward inside.2⟩
  rw [textSpans_eq]
  rcases fits.region_cases isLiteral with region | ⟨first, inner, last, children, region⟩
  · rw [region]
    exact textRuns_ends (fun place => IsBoundary source place ∧ node.start ≤ place)
      (fun place => IsBoundary source place ∧ place ≤ node.stop) false
      ⟨fits.startBoundary, Nat.le_refl _⟩ ⟨fits.stopBoundary, Nat.le_refl _⟩ childEnds
  · rw [region]
    have firstEnds := childEnds first (by simp [children])
    have lastEnds := childEnds last (by simp [children])
    exact textRuns_ends (fun place => IsBoundary source place ∧ node.start ≤ place)
      (fun place => IsBoundary source place ∧ place ≤ node.stop) false
      firstEnds.1 lastEnds.2 (fun child isChild => childEnds child (by simp [children, isChild]))

theorem IsTreeOf.textSpans_apart (isTree : root.IsTreeOf source) (member : node ∈ root.preorder)
    (isLiteral : node.literalForm? = some form) :
    ∀ span ∈ node.textSpans form, ∀ child ∈ node.children, child.isText = false →
      span.Apart child.span := by
  have fits := isTree node member
  have forward : ∀ child ∈ node.children, child.start ≤ child.stop :=
    fun child isChild => (isTree.child member isChild).start_le_stop
  rw [textSpans_eq]
  rcases fits.region_cases isLiteral with region | ⟨first, inner, last, children, region⟩
  · rw [region]
    exact textRuns_apart false
      (fun child isChild => ⟨(fits.inside child isChild).1, forward child isChild⟩) fits.inOrder
  · have inOrder := fits.inOrder
    rw [children] at inOrder forward
    obtain ⟨behindFirst, rest⟩ := List.pairwise_cons.mp inOrder
    obtain ⟨innerInOrder, _, beforeLast⟩ := List.pairwise_append.mp rest
    have placed : ∀ child ∈ inner, (first.stop ≤ child.start ∧ child.start ≤ child.stop) ∧
        child.stop ≤ last.start := fun child isInner =>
      ⟨⟨behindFirst child (by simp [isInner]), forward child (by simp [isInner])⟩,
        beforeLast child isInner last (by simp)⟩
    rw [region, children]
    intro span isSpan child isChild notText
    have ends := textRuns_ends (first.stop ≤ ·) (· ≤ last.start) false (Nat.le_refl _)
      (Nat.le_refl _) (fun child isInner =>
        ⟨Nat.le_trans (placed child isInner).1.1 (placed child isInner).1.2,
          Nat.le_trans (placed child isInner).1.2 (placed child isInner).2⟩) span isSpan
    rcases List.mem_cons.mp isChild with rfl | behind
    · exact .inr ends.1
    · rcases List.mem_append.mp behind with isInner | isLast
      · exact textRuns_apart false (fun child isInner => (placed child isInner).1) innerInOrder
          span isSpan child isInner notText
      · rw [List.mem_singleton.mp isLast]
        exact .inl ends.2

end Tree

end SyntaxNode

end LocalizationAudit

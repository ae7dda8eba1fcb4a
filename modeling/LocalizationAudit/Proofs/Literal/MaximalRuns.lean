import Mathlib.Data.List.Pairwise
import LocalizationAudit.Proofs.Literal.Segments
import LocalizationAudit.Swift.Tree

/-!
The segments of a literal, before anything is stripped off them, are its maximal runs of text: one
for each, in order, from the end of the nearest child before the run that is no text to the start of
the nearest one behind it.
-/

namespace LocalizationAudit

/-- Text children that follow one another, with all children before and behind them. -/
structure TextRun where
  before : List SyntaxNode
  texts : List SyntaxNode
  after : List SyntaxNode

namespace TextRun

structure IsMaximalIn (children : List SyntaxNode) (run : TextRun) : Prop where
  whole : run.before ++ run.texts ++ run.after = children
  nonempty : run.texts ≠ []
  allText : ∀ child ∈ run.texts, child.isText = true
  breakBefore : ∀ child ∈ run.before.getLast?, child.isText = false
  breakAfter : ∀ child ∈ run.after.head?, child.isText = false

def Precedes (earlier later : TextRun) : Prop :=
  earlier.before ++ earlier.texts <+: later.before

def startBehind (start : Nat) (before : List SyntaxNode) : Nat :=
  (before.getLast?.map SyntaxNode.stop).getD start

def stopBefore (stop : Nat) (after : List SyntaxNode) : Nat :=
  (after.head?.map SyntaxNode.start).getD stop

def span (region : Span) (run : TextRun) : Span :=
  ⟨startBehind region.start run.before, stopBefore region.stop run.after⟩

@[simp] theorem startBehind_nil (start : Nat) : startBehind start [] = start :=
  rfl

@[simp] theorem startBehind_concat (start : Nat) (before : List SyntaxNode) (child : SyntaxNode) :
    startBehind start (before ++ [child]) = child.stop := by
  simp [startBehind]

def runsFrom (before pending : List SyntaxNode) : List SyntaxNode → List TextRun
  | [] => if pending = [] then [] else [⟨before, pending, []⟩]
  | child :: others =>
      if child.isText then runsFrom before (pending ++ [child]) others
      else (if pending = [] then [] else [⟨before, pending, child :: others⟩]) ++
        runsFrom (before ++ pending ++ [child]) [] others

def runsOf (children : List SyntaxNode) : List TextRun :=
  runsFrom [] [] children

variable {before pending children : List SyntaxNode}

theorem runsFrom_texts {texts : List SyntaxNode} (allText : ∀ child ∈ texts, child.isText = true)
    (after : List SyntaxNode) :
    runsFrom before pending (texts ++ after) = runsFrom before (pending ++ texts) after := by
  induction texts generalizing pending with
  | nil => simp
  | cons child others ih =>
      rw [List.cons_append, runsFrom, if_pos (allText child List.mem_cons_self),
        ih fun other member => allText other (List.mem_cons_of_mem _ member)]
      simp

theorem isMaximalIn_of_mem_runsFrom (allText : ∀ child ∈ pending, child.isText = true)
    (breakBefore : ∀ child ∈ before.getLast?, child.isText = false) {run : TextRun}
    (member : run ∈ runsFrom before pending children) :
    run.IsMaximalIn (before ++ pending ++ children) := by
  induction children generalizing before pending with
  | nil =>
      rw [runsFrom] at member
      split at member
      · simp at member
      next nonempty =>
        obtain rfl := List.mem_singleton.mp member
        exact ⟨by simp, nonempty, allText, breakBefore, by simp⟩
  | cons child others ih =>
      rw [runsFrom] at member
      split at member
      next isText =>
        have extended : ∀ other ∈ pending ++ [child], other.isText = true := by
          simpa [or_imp, forall_and, isText] using allText
        simpa using ih extended breakBefore member
      next isBreak =>
        rcases List.mem_append.mp member with closed | later
        · split at closed
          · simp at closed
          next nonempty =>
            obtain rfl := List.mem_singleton.mp closed
            exact ⟨by simp, nonempty, allText, breakBefore, by simpa using isBreak⟩
        · simpa using ih (by simp) (by simpa using isBreak) later

/-- A run behind `lead` is found when the walk comes to it with nothing pending. -/
theorem mem_runsFrom {lead texts after : List SyntaxNode} (nonempty : texts ≠ [])
    (allText : ∀ child ∈ texts, child.isText = true)
    (breakAfter : ∀ child ∈ after.head?, child.isText = false)
    (breakBefore : ∀ child ∈ lead.getLast?, child.isText = false)
    (fresh : lead = [] → pending = []) :
    ⟨before ++ pending ++ lead, texts, after⟩ ∈ runsFrom before pending (lead ++ texts ++ after) := by
  induction lead generalizing before pending with
  | nil =>
      rw [fresh rfl, List.nil_append, runsFrom_texts allText, List.nil_append]
      cases after with
      | nil => simp [runsFrom, nonempty]
      | cons child others =>
          have isBreak : child.isText = false := breakAfter child (by simp)
          simp [runsFrom, nonempty, isBreak]
  | cons child lead ih =>
      have behind : ∀ other ∈ lead.getLast?, other.isText = false := by
        intro other isLast
        refine breakBefore other ?_
        rw [List.getLast?_cons, Option.mem_def.mp isLast]
        simp
      rw [List.cons_append, List.cons_append, runsFrom]
      cases isText : child.isText with
      | true =>
          have more : lead ≠ [] := by
            rintro rfl
            simpa [isText] using breakBefore child (by simp)
          rw [if_pos rfl]
          simpa using @ih before (pending ++ [child]) behind
            (fun empty => absurd empty more)
      | false =>
          rw [if_neg Bool.false_ne_true, List.mem_append]
          right
          simpa using @ih (before ++ pending ++ [child]) [] behind
            (fun _ => rfl)

theorem mem_runsOf (run : TextRun) : run ∈ runsOf children ↔ run.IsMaximalIn children := by
  constructor
  · intro member
    simpa using isMaximalIn_of_mem_runsFrom (by simp) (by simp) member
  · intro ⟨whole, nonempty, allText, breakBefore, breakAfter⟩
    have found := @mem_runsFrom [] [] run.before run.texts run.after nonempty allText breakAfter
      breakBefore (fun _ => rfl)
    rwa [whole] at found

theorem before_prefix_of_mem_runsFrom {run : TextRun}
    (member : run ∈ runsFrom before pending children) : before <+: run.before := by
  induction children generalizing before pending with
  | nil =>
      rw [runsFrom] at member
      split at member
      · simp at member
      · exact List.mem_singleton.mp member ▸ List.prefix_rfl
  | cons child others ih =>
      rw [runsFrom] at member
      split at member
      · exact ih member
      · rcases List.mem_append.mp member with closed | later
        · split at closed
          · simp at closed
          · exact List.mem_singleton.mp closed ▸ List.prefix_rfl
        · rw [List.append_assoc] at later
          exact (List.prefix_append _ _).trans (ih later)

theorem runsFrom_inOrder : (runsFrom before pending children).Pairwise Precedes := by
  induction children generalizing before pending with
  | nil =>
      rw [runsFrom]
      split <;> simp
  | cons child others ih =>
      rw [runsFrom]
      split
      · exact ih
      · refine List.pairwise_append.mpr ⟨by split <;> simp, ih, ?_⟩
        intro closed isClosed later isLater
        split at isClosed
        · simp at isClosed
        · obtain rfl := List.mem_singleton.mp isClosed
          exact (List.prefix_append _ _).trans (before_prefix_of_mem_runsFrom isLater)

theorem exists_run_of_text {child : SyntaxNode} (isText : child.isText = true)
    (member : child ∈ pending ++ children) :
    ∃ run ∈ runsFrom before pending children, child ∈ run.texts := by
  induction children generalizing before pending with
  | nil =>
      rw [List.append_nil] at member
      exact ⟨⟨before, pending, []⟩, by simp [runsFrom, List.ne_nil_of_mem member], member⟩
  | cons first others ih =>
      rw [runsFrom]
      split
      · exact ih (by simpa using member)
      next isBreak =>
        rcases List.mem_append.mp member with isPending | behind
        · exact ⟨⟨before, pending, first :: others⟩, by simp [List.ne_nil_of_mem isPending],
            isPending⟩
        · have isOther : child ∈ others := by
            refine (List.mem_cons.mp behind).resolve_left ?_
            rintro rfl
            exact isBreak isText
          obtain ⟨run, found, inside⟩ :=
            @ih (before ++ pending ++ [first]) [] (by simpa using isOther)
          exact ⟨run, List.mem_append_right _ found, inside⟩

/-- The walk that keeps only two places and a flag finds the same stretches. -/
theorem map_span_runsFrom (region : Span) :
    (runsFrom before pending children).map (span region) =
      textRuns region.stop (startBehind region.start before) (!pending.isEmpty) children := by
  induction children generalizing before pending with
  | nil =>
      rw [runsFrom, textRuns]
      cases pending <;> simp [span, stopBefore]
  | cons child others ih =>
      rw [runsFrom, textRuns]
      cases isText : child.isText with
      | true =>
          have nonempty : (pending ++ [child]).isEmpty = false := by cases pending <;> rfl
          simp [ih, nonempty]
      | false =>
          rw [if_neg Bool.false_ne_true, if_neg Bool.false_ne_true, List.map_append, ih,
            startBehind_concat]
          cases pending <;> simp [span, stopBefore]

theorem map_span_runsOf (region : Span) (children : List SyntaxNode) :
    (runsOf children).map (span region) = (segmentation region children).spans := by
  rw [spans_segmentation, runsOf, map_span_runsFrom]
  rfl

section Flags

theorem step_of_text {state : Splitting} {child : SyntaxNode} (isText : child.isText = true)
    (outside : state.inText = false) :
    state.step child =
      { state with
        inText := true
        startsAtOpen := state.startsAtOpen <|> some (!state.interpolated)
        interpolated := false } := by
  rw [Splitting.step, if_pos isText, outside, if_neg Bool.false_ne_true]

theorem startsAtOpen_of_settled {state : Splitting} {flag : Bool}
    (settled : state.startsAtOpen = some flag) :
    (children.foldl Splitting.step state).startsAtOpen = some flag := by
  induction children generalizing state with
  | nil => exact settled
  | cons child others ih =>
      refine ih ?_
      unfold Splitting.step
      repeat' split
      all_goals simp [settled]

theorem head?_runsFrom (nonempty : pending ≠ []) :
    (runsFrom before pending children).head?.map TextRun.before = some before := by
  induction children generalizing pending with
  | nil => simp [runsFrom, nonempty]
  | cons child others ih =>
      rw [runsFrom]
      split
      · exact ih (by simp)
      · simp

theorem startsAtOpen_foldl_step {state : Splitting} (fresh : state.startsAtOpen = none)
    (outside : state.inText = false)
    (noted : state.interpolated = before.any SyntaxNode.isInterpolation) :
    (children.foldl Splitting.step state).startsAtOpen =
      ((runsFrom before [] children).head?.map TextRun.before).map
        fun passed => !passed.any SyntaxNode.isInterpolation := by
  induction children generalizing before state with
  | nil => simpa [runsFrom] using fresh
  | cons child others ih =>
      rw [List.foldl_cons, runsFrom]
      cases isText : child.isText with
      | true =>
          rw [if_pos rfl, head?_runsFrom (by simp), step_of_text isText outside,
            startsAtOpen_of_settled (by simp [fresh] : _ = some (!state.interpolated)), noted]
          rfl
      | false =>
          rw [if_neg Bool.false_ne_true, if_pos rfl, List.nil_append]
          refine ih ?_ ?_ ?_ <;> simp [Splitting.step, isText, fresh, noted]

/-- An interpolation counts until the next run begins. -/
theorem interpolated_foldl_step {state : Splitting} (inside : state.inText = !pending.isEmpty)
    (cleared : pending ≠ [] → state.interpolated = false) :
    (children.foldl Splitting.step state).interpolated =
      match (runsFrom before pending children).getLast? with
      | some run => run.after.any SyntaxNode.isInterpolation
      | none => state.interpolated || children.any SyntaxNode.isInterpolation := by
  induction children generalizing before pending state with
  | nil => cases pending <;> simp_all [runsFrom]
  | cons child others ih =>
      rw [List.foldl_cons, runsFrom]
      cases isText : child.isText with
      | true =>
          have entered : (state.step child).inText = true ∧
              (state.step child).interpolated = false := by
            rw [Splitting.step, if_pos isText, inside]
            cases pending with
            | nil => exact ⟨rfl, rfl⟩
            | cons first rest => exact ⟨inside, cleared (by simp)⟩
          have nonempty : pending ++ [child] ≠ [] := by simp
          have found : runsFrom before (pending ++ [child]) others ≠ [] := by
            intro none
            simpa [none] using @head?_runsFrom before _ others nonempty
          rw [if_pos rfl, @ih before (pending ++ [child]) _ (by simp [entered.1]) (fun _ => entered.2),
            List.getLast?_eq_some_getLast found]
      | false =>
          have left : state.step child = ⟨state.close child.start, child.stop, false,
              state.startsAtOpen, state.interpolated || child.isInterpolation⟩ := by
            simp [Splitting.step, isText]
          rw [if_neg Bool.false_ne_true, List.getLast?_append, left,
            @ih (before ++ pending ++ [child]) [] _ rfl (by simp)]
          cases (runsFrom (before ++ pending ++ [child]) [] others).getLast? with
          | some run => rfl
          | none =>
              cases pending with
              | nil => simp [Bool.or_assoc]
              | cons first rest => simp [cleared]

variable {region : Span}

theorem startsAtOpen_of_head? {run : TextRun} (isFirst : (runsOf children).head? = some run) :
    (segmentation region children).startsAtOpen = true ↔
      ∀ child ∈ run.before, child.isInterpolation = false := by
  have final :=
    @startsAtOpen_foldl_step [] children (Splitting.ofStart region.start) rfl rfl rfl
  rw [← runsOf, isFirst] at final
  simp [segmentation, final]

theorem endsAtClose_of_getLast? {run : TextRun} (isLast : (runsOf children).getLast? = some run) :
    (segmentation region children).endsAtClose = true ↔
      ∀ child ∈ run.after, child.isInterpolation = false := by
  have final :=
    @interpolated_foldl_step [] [] children (Splitting.ofStart region.start) rfl (by simp)
  rw [← runsOf, isLast] at final
  simp [segmentation, final]

end Flags

end TextRun

def Span.Covers (span : Span) (place : Nat) : Prop :=
  span.start ≤ place ∧ place < span.stop

/-- Children that lie inside a region one behind the other, all between characters. -/
structure ArePlaced (source : Bytes) (region : Span) (children : List SyntaxNode) : Prop where
  startBoundary : IsBoundary source region.start
  stopBoundary : IsBoundary source region.stop
  boundaries : ∀ child ∈ children, IsBoundary source child.start ∧ IsBoundary source child.stop
  forward : ∀ child ∈ children, child.start ≤ child.stop
  inside : ∀ child ∈ children, region.start ≤ child.start ∧ child.stop ≤ region.stop
  inOrder : children.Pairwise fun earlier later => earlier.stop ≤ later.start

namespace ArePlaced

variable {source : Bytes} {region : Span} {children : List SyntaxNode} {run : TextRun}

theorem span_boundaries (placed : ArePlaced source region children) :
    ∀ span ∈ (segmentation region children).spans,
      IsBoundary source span.start ∧ IsBoundary source span.stop := by
  rw [spans_segmentation]
  exact textRuns_ends (IsBoundary source) (IsBoundary source) false placed.startBoundary
    placed.stopBoundary fun child member => (placed.boundaries child member).symm

/-- A stretch holds its texts, so white space between or beside them is in it as well. -/
theorem texts_inside (placed : ArePlaced source region children)
    (maximal : run.IsMaximalIn children) {child : SyntaxNode} (member : child ∈ run.texts) :
    (run.span region).start ≤ child.start ∧ child.stop ≤ (run.span region).stop := by
  have inOrder := placed.inOrder
  rw [← maximal.whole, List.pairwise_append, List.pairwise_append] at inOrder
  obtain ⟨⟨_, _, behindBefore⟩, _, beforeAfter⟩ := inOrder
  have isChild : child ∈ children := by simp [← maximal.whole, member]
  have inside := placed.inside child isChild
  constructor
  · change TextRun.startBehind region.start run.before ≤ child.start
    rcases List.eq_nil_or_concat run.before with none | ⟨lead, last, isLast⟩
    · simpa [none] using inside.1
    · rw [isLast, List.concat_eq_append, TextRun.startBehind_concat]
      exact behindBefore last (by simp [isLast]) child member
  · change child.stop ≤ TextRun.stopBefore region.stop run.after
    cases behind : run.after with
    | nil => exact inside.2
    | cons next rest =>
        exact beforeAfter child (List.mem_append_right _ member) next (by simp [behind])

theorem exists_unique_run (placed : ArePlaced source region children) {child : SyntaxNode}
    (member : child ∈ children) (isText : child.isText = true) {place : Nat}
    (covered : child.span.Covers place) :
    ∃! run, run ∈ TextRun.runsOf children ∧ (run.span region).Covers place := by
  obtain ⟨run, found, inside⟩ := @TextRun.exists_run_of_text [] [] children child isText
    (by simpa using member)
  have holds := placed.texts_inside ((TextRun.mem_runsOf run).mp found) inside
  have coveredHere : (run.span region).Covers place :=
    ⟨Nat.le_trans holds.1 covered.1, Nat.lt_of_lt_of_le covered.2 holds.2⟩
  refine ⟨run, ⟨found, coveredHere⟩, ?_⟩
  rintro other ⟨isOther, coveredToo⟩
  have inOrder : ((TextRun.runsOf children).map (TextRun.span region)).Pairwise
      fun earlier later => earlier.stop ≤ later.start := by
    rw [TextRun.map_span_runsOf, spans_segmentation]
    exact textRuns_inOrder false placed.forward placed.inOrder
  have apart : (TextRun.runsOf children).Pairwise fun left right =>
      (left.span region).Apart (right.span region) :=
    (List.pairwise_map.mp inOrder).imp .inl
  have : Std.Symm fun left right : TextRun => (left.span region).Apart (right.span region) :=
    ⟨fun _ _ => Or.symm⟩
  by_contra different
  have disjoint := apart.forall isOther found different
  simp only [Span.Apart, Span.Covers] at disjoint coveredToo coveredHere
  omega

theorem not_covered (placed : ArePlaced source region children) {child : SyntaxNode}
    (member : child ∈ children) (isBreak : child.isText = false) {place : Nat}
    (covered : child.span.Covers place) (found : run ∈ TextRun.runsOf children) :
    ¬ (run.span region).Covers place := by
  have isSpan : run.span region ∈ textRuns region.stop region.start false children := by
    rw [← spans_segmentation, ← TextRun.map_span_runsOf]
    exact List.mem_map_of_mem found
  have apart := textRuns_apart false
    (fun child member => ⟨(placed.inside child member).1, placed.forward child member⟩)
    placed.inOrder _ isSpan child member isBreak
  simp only [Span.Apart, Span.Covers] at apart covered ⊢
  omega

end ArePlaced

namespace SyntaxNode

inductive Encloses (node : SyntaxNode) : LiteralForm → Span → List SyntaxNode → Prop
  | between {form : LiteralForm} {first last : SyntaxNode} {inner : List SyntaxNode} :
      form ≠ .raw → node.children = first :: (inner ++ [last]) →
      Encloses node form ⟨first.stop, last.start⟩ inner
  | whole : Encloses node .raw node.span node.children

structure HasPlacedChildren (source : Bytes) (form : LiteralForm) (node : SyntaxNode) : Prop where
  boundaries : ∀ child ∈ node.children,
    IsBoundary source child.start ∧ IsBoundary source child.stop
  forward : ∀ child ∈ node.children, child.start ≤ child.stop
  inOrder : node.children.Pairwise fun earlier later => earlier.stop ≤ later.start
  delimited : form ≠ .raw → 2 ≤ node.children.length
  ownBoundaries : form = .raw → IsBoundary source node.start ∧ IsBoundary source node.stop
  inside : form = .raw → ∀ child ∈ node.children, node.start ≤ child.start ∧ child.stop ≤ node.stop

variable {source : Bytes} {node : SyntaxNode} {form : LiteralForm}

theorem encloses_region (delimited : form ≠ .raw → 2 ≤ node.children.length) :
    node.Encloses form (node.region form).1 (node.region form).2 := by
  by_cases isRaw : form = .raw
  · subst isRaw
    rw [region_raw]
    exact .whole
  · obtain ⟨first, inner, last, children⟩ :
        ∃ first inner last, node.children = first :: (inner ++ [last]) := by
      have atLeastTwo := delimited isRaw
      cases children : node.children with
      | nil => simp [children] at atLeastTwo
      | cons first others =>
          rcases List.eq_nil_or_concat others with none | ⟨inner, last, more⟩
          · simp [children, none] at atLeastTwo
          · exact ⟨first, inner, last, by rw [more, List.concat_eq_append]⟩
    rw [region_of_delimiters isRaw children]
    exact .between isRaw children

theorem HasPlacedChildren.arePlaced (placed : node.HasPlacedChildren source form) {region : Span}
    {inner : List SyntaxNode} (encloses : node.Encloses form region inner) :
    ArePlaced source region inner := by
  cases encloses with
  | whole =>
      exact ⟨(placed.ownBoundaries rfl).1, (placed.ownBoundaries rfl).2, placed.boundaries,
        placed.forward, placed.inside rfl, placed.inOrder⟩
  | @between _ first last inner _ children =>
      have boundaries := placed.boundaries
      have forward := placed.forward
      have inOrder := placed.inOrder
      rw [children] at boundaries forward inOrder
      obtain ⟨behindFirst, rest⟩ := List.pairwise_cons.mp inOrder
      obtain ⟨innerInOrder, _, beforeLast⟩ := List.pairwise_append.mp rest
      have within : ∀ child ∈ inner, child ∈ first :: (inner ++ [last]) := by simp +contextual
      exact {
        startBoundary := (boundaries first (by simp)).2
        stopBoundary := (boundaries last (by simp)).1
        boundaries := fun child member => boundaries child (within child member)
        forward := fun child member => forward child (within child member)
        inside := fun child member =>
          ⟨behindFirst child (List.mem_append_left _ member), beforeLast child member last (by simp)⟩
        inOrder := innerInOrder }

def spansLines (source : Bytes) (form : LiteralForm) (node : SyntaxNode) : Bool :=
  form == .multiLine || form == .raw && opensMultiLine (source.drop node.start)

theorem strip_eq (texts : List (List Char)) :
    node.strip source form texts =
      stripDelimiters form (node.spansLines source form)
        (segmentation (node.region form).1 (node.region form).2).startsAtOpen
        (segmentation (node.region form).1 (node.region form).2).endsAtClose texts := by
  cases form <;> rfl

/--
A literal has one segment for each maximal run of text in it. What is stripped off afterwards
depends on whether the first one touches the opening delimiter and the last one the closing one.
-/
theorem segments_of_maximal_runs (isLiteral : node.kind = .literal form)
    (placed : node.HasPlacedChildren source form) :
    ∃ region inner runs texts startsAtOpen endsAtClose,
      node.Encloses form region inner ∧
      (∀ run : TextRun, run ∈ runs ↔ run.IsMaximalIn inner) ∧
      runs.Pairwise TextRun.Precedes ∧
      List.Forall₂ (fun run text => slice source (run.span region) = encodeUtf8 text) runs texts ∧
      (∀ run ∈ runs.head?,
        startsAtOpen = true ↔ ∀ child ∈ run.before, child.isInterpolation = false) ∧
      (∀ run ∈ runs.getLast?,
        endsAtClose = true ↔ ∀ child ∈ run.after, child.isInterpolation = false) ∧
      node.segments source = .ok (stripDelimiters form (node.spansLines source form) startsAtOpen
        endsAtClose texts) ∧
      (form = .line → node.segments source = .ok texts) ∧
      (∀ child ∈ inner, child.isText = true → ∀ place, child.span.Covers place →
        ∃! run, run ∈ runs ∧ (run.span region).Covers place) ∧
      (∀ child ∈ inner, child.isText = false → ∀ place, child.span.Covers place →
        ∀ run ∈ runs, ¬ (run.span region).Covers place) ∧
      ∀ run ∈ runs, ∀ child ∈ run.texts,
        (run.span region).start ≤ child.start ∧ child.stop ≤ (run.span region).stop := by
  have encloses := encloses_region placed.delimited
  have innerPlaced := placed.arePlaced encloses
  obtain ⟨texts, decoded⟩ := decodeSlices_total innerPlaced.span_boundaries
  have found : node.segments source = .ok (node.strip source form texts) := by
    rw [segments_of_form (literalForm?_eq_some_iff.mpr isLiteral), textSpans, decoded]
    rfl
  rw [strip_eq] at found
  refine ⟨_, _, TextRun.runsOf (node.region form).2, texts, _, _, encloses, TextRun.mem_runsOf,
    TextRun.runsFrom_inOrder, ?_, fun run => TextRun.startsAtOpen_of_head?,
    fun run => TextRun.endsAtClose_of_getLast?, found, ?_, ?_, ?_, ?_⟩
  · rw [decodeSlices_eq_ok_iff, ← TextRun.map_span_runsOf, List.forall₂_map_left_iff] at decoded
    exact decoded.imp fun run text => decode_utf8_eq_ok_iff.mp
  · rintro rfl
    exact found
  · intro child member isText place covered
    exact innerPlaced.exists_unique_run member isText covered
  · intro child member isBreak place covered run isRun
    exact innerPlaced.not_covered member isBreak covered isRun
  · intro run isRun child member
    exact innerPlaced.texts_inside ((TextRun.mem_runsOf run).mp isRun) member

def spacedSource : Bytes :=
  encodeUtf8 "\"a \\(b) é\"".toList

def spacedLiteral : SyntaxNode :=
  .mk (.literal .line) ⟨0, 11⟩ .sound
    [Swift.leaf .other ⟨0, 1⟩, Swift.leaf .text ⟨1, 2⟩, Swift.leaf .interpolation ⟨3, 5⟩,
      Swift.leaf .interpolation ⟨5, 6⟩, Swift.leaf .other ⟨6, 7⟩, Swift.leaf .text ⟨8, 10⟩,
      Swift.leaf .other ⟨10, 11⟩]

theorem segments_of_maximal_runs_spaced :
    spacedLiteral.kind = .literal .line ∧ spacedLiteral.HasPlacedChildren spacedSource .line ∧
    spacedLiteral.segments spacedSource = .ok ["a ".toList, " é".toList] ∧
    ∃ region inner runs, spacedLiteral.Encloses .line region inner ∧
      (∀ run : TextRun, run ∈ runs ↔ run.IsMaximalIn inner) ∧
      List.Forall₂ (fun run text => slice spacedSource (run.span region) = encodeUtf8 text) runs
        ["a ".toList, " é".toList] := by
  have placed : spacedLiteral.HasPlacedChildren spacedSource .line := {
    boundaries := by decide +kernel
    forward := by decide
    inOrder := by decide
    delimited := fun _ => by decide
    ownBoundaries := fun isRaw => by simp at isRaw
    inside := fun isRaw => by simp at isRaw }
  have found : spacedLiteral.segments spacedSource = .ok ["a ".toList, " é".toList] := by
    decide +kernel
  obtain ⟨region, inner, runs, texts, _, _, encloses, maximal, _, related, _, _, _, exact, _⟩ :=
    segments_of_maximal_runs rfl placed
  obtain rfl := Except.ok.inj (found.symm.trans (exact rfl))
  exact ⟨rfl, placed, found, region, inner, runs, encloses, maximal, related⟩

end SyntaxNode

end LocalizationAudit

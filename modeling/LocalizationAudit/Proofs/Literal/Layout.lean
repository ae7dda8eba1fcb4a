import LocalizationAudit.Proofs.Literal.MaximalRuns

/-!
How a literal is written: characters and interpolations, one behind the other. When its children
tile what is written, text over all characters and something else over each interpolation, the
segments before stripping are the texts between the interpolations.
-/

namespace LocalizationAudit

inductive LiteralItem where
  | char (c : Char)
  | interpolation (spelling : List Char)
  deriving DecidableEq, Repr

namespace LiteralItem

def spell : List LiteralItem → List Char
  | [] => []
  | .char c :: items => c :: spell items
  | .interpolation spelling :: items => spelling ++ spell items

def ofText (text : List Char) : List LiteralItem :=
  text.map .char

def staticParts : List LiteralItem → List (List Char)
  | [] => [[]]
  | .char c :: items => (staticParts items).modifyHead (c :: ·)
  | .interpolation _ :: items => [] :: staticParts items

/-- Children that tile the items between two places. An interpolation may have several children. -/
inductive Laid (stop : Nat) : Nat → List LiteralItem → List SyntaxNode → Prop
  | done : Laid stop stop [] []
  | text {start : Nat} {chunk : List Char} {items : List LiteralItem} {child : SyntaxNode}
      {others : List SyntaxNode} :
      child.isText = true → chunk ≠ [] →
      child.span = ⟨start, start + (encodeUtf8 chunk).length⟩ →
      Laid stop (start + (encodeUtf8 chunk).length) items others →
      Laid stop start (ofText chunk ++ items) (child :: others)
  | interpolation {start : Nat} {spelling : List Char} {items : List LiteralItem}
      {first last : SyntaxNode} {group others : List SyntaxNode} :
      (∀ child ∈ group, child.isText = false) →
      group.head? = some first → first.start = start →
      group.getLast? = some last → last.stop = start + (encodeUtf8 spelling).length →
      Laid stop (start + (encodeUtf8 spelling).length) items others →
      Laid stop start (.interpolation spelling :: items) (group ++ others)

section Parts

variable {items : List LiteralItem}

@[simp] theorem spell_append (items others : List LiteralItem) :
    spell (items ++ others) = spell items ++ spell others := by
  induction items with
  | nil => rfl
  | cons item items ih => cases item <;> simp [spell, ih]

@[simp] theorem spell_ofText (text : List Char) : spell (ofText text) = text := by
  induction text with
  | nil => rfl
  | cons c text ih => exact congrArg (c :: ·) ih

theorem staticParts_ne_nil (items : List LiteralItem) : staticParts items ≠ [] := by
  cases items with
  | nil => simp [staticParts]
  | cons item items =>
      cases item with
      | char c =>
          rw [staticParts]
          simpa using staticParts_ne_nil items
      | interpolation spelling => simp [staticParts]

theorem modifyHead_nil_append (parts : List (List Char)) : parts.modifyHead ([] ++ ·) = parts :=
  congrFun List.modifyHead_id parts

theorem staticParts_ofText_append (text : List Char) (items : List LiteralItem) :
    staticParts (ofText text ++ items) = (staticParts items).modifyHead (text ++ ·) := by
  induction text with
  | nil => exact (modifyHead_nil_append _).symm
  | cons c text ih =>
      change (staticParts (ofText text ++ items)).modifyHead (c :: ·) = _
      obtain ⟨part, others, parts⟩ := List.exists_cons_of_ne_nil (staticParts_ne_nil items)
      rw [ih, parts]
      rfl

theorem staticParts_ofText (text : List Char) : staticParts (ofText text) = [text] := by
  have alone := staticParts_ofText_append text []
  rw [List.append_nil] at alone
  rw [alone]
  simp [staticParts]

theorem staticParts_append_ofText (items : List LiteralItem) (text : List Char) :
    staticParts (items ++ ofText text) = List.modifyLast (· ++ text) (staticParts items) := by
  induction items with
  | nil =>
      rw [List.nil_append, staticParts_ofText]
      simp [staticParts]
  | cons item items ih =>
      obtain ⟨part, others, parts⟩ := List.exists_cons_of_ne_nil (staticParts_ne_nil items)
      cases item with
      | char c =>
          rw [List.cons_append, staticParts, ih, staticParts, parts]
          cases others <;> simp
      | interpolation spelling =>
          rw [List.cons_append, staticParts, ih, staticParts, parts, modifyLast_cons_cons]

end Parts

section Runs

variable {source : Bytes} {start stop : Nat} {items : List LiteralItem}
  {children : List SyntaxNode}

theorem slice_split {first rest : Bytes} (whole : slice source ⟨start, stop⟩ = first ++ rest) :
    slice source ⟨start, start + first.length⟩ = first ∧
      slice source ⟨start + first.length, stop⟩ = rest := by
  simp only [slice] at whole ⊢
  have enough : first.length ≤ stop - start := by
    have size := congrArg List.length whole
    rw [List.length_take, List.length_append] at size
    omega
  constructor
  · have front := congrArg (List.take first.length) whole
    rw [List.take_take, List.take_left, Nat.min_eq_left enough] at front
    rwa [Nat.add_sub_cancel_left]
  · have back := congrArg (List.drop first.length) whole
    rw [List.drop_take, List.drop_drop, List.drop_left] at back
    rwa [Nat.sub_add_eq]

/-- Children that are no text end a run where they begin; the next one begins behind them. -/
theorem textRuns_of_breaks {group others : List SyntaxNode} {first last : SyntaxNode}
    (breaks : ∀ child ∈ group, child.isText = false) (isFirst : group.head? = some first)
    (isLast : group.getLast? = some last) (inText : Bool) :
    textRuns stop start inText (group ++ others) =
      (if inText then [⟨start, first.start⟩] else []) ++ textRuns stop last.stop false others := by
  induction group generalizing start inText first with
  | nil => simp at isFirst
  | cons child group ih =>
      obtain rfl : child = first := by simpa using isFirst
      have isBreak : child.isText = false := breaks child List.mem_cons_self
      have later : ∀ other ∈ group, other.isText = false :=
        fun other member => breaks other (List.mem_cons_of_mem _ member)
      rw [List.cons_append, textRuns, if_neg (by simp [isBreak])]
      cases group with
      | nil =>
          obtain rfl : child = last := by simpa using isLast
          rfl
      | cons next group =>
          rw [ih later rfl (by simpa using isLast)]
          rfl

/-- What the runs of tiled items spell, behind some characters that the first run has already. -/
theorem decodeSlices_of_laid_behind (laid : Laid stop start items children) {runStart : Nat}
    {passed : List Char} (forward : runStart ≤ start)
    (behind : slice source ⟨runStart, start⟩ = encodeUtf8 passed)
    (spelled : slice source ⟨start, stop⟩ = encodeUtf8 (spell items)) :
    decodeSlices source (textRuns stop runStart (!passed.isEmpty) children) =
      .ok (((staticParts items).modifyHead (passed ++ ·)).filter (!·.isEmpty)) := by
  induction laid generalizing runStart passed with
  | done =>
      rw [textRuns, staticParts, List.modifyHead_cons, List.append_nil]
      cases passed with
      | nil => rfl
      | cons c passed =>
          rw [decodeSlices_eq_ok_iff]
          exact .cons (decode_utf8_eq_ok_iff.mpr behind) .nil
  | @text start chunk items child others isText nonempty place _ ih =>
      rw [spell_append, spell_ofText, encodeUtf8_append] at spelled
      obtain ⟨here, rest⟩ := slice_split spelled
      have longer : slice source ⟨runStart, start + (encodeUtf8 chunk).length⟩ =
          encodeUtf8 (passed ++ chunk) := by
        rw [encodeUtf8_append, ← slice_append_slice forward (by omega), behind, here]
      have more : (!(passed ++ chunk).isEmpty) = true := by simp [nonempty]
      have found := ih (by omega) longer rest
      rw [more] at found
      rw [textRuns, if_pos isText, found, staticParts_ofText_append]
      obtain ⟨part, parts, isParts⟩ := List.exists_cons_of_ne_nil (staticParts_ne_nil items)
      rw [isParts]
      simp
  | @interpolation start spelling items first last group others breaks isFirst starts isLast stops _
      ih =>
      rw [spell, encodeUtf8_append] at spelled
      obtain ⟨_, rest⟩ := slice_split spelled
      have nothing : slice source ⟨start + (encodeUtf8 spelling).length,
          start + (encodeUtf8 spelling).length⟩ = encodeUtf8 [] := slice_of_le (Nat.le_refl _)
      have found := ih (Nat.le_refl _) nothing rest
      rw [modifyHead_nil_append] at found
      rw [textRuns_of_breaks breaks isFirst isLast, starts, stops, staticParts,
        List.modifyHead_cons, List.append_nil]
      cases passed with
      | nil => exact found
      | cons c passed =>
          rw [decodeSlices_eq_ok_iff] at found ⊢
          exact .cons (decode_utf8_eq_ok_iff.mpr behind) found

theorem decodeSlices_of_laid (laid : Laid stop start items children)
    (spelled : slice source ⟨start, stop⟩ = encodeUtf8 (spell items)) :
    decodeSlices source (textRuns stop start false children) =
      .ok ((staticParts items).filter (!·.isEmpty)) := by
  have nothing : slice source ⟨start, start⟩ = encodeUtf8 [] := slice_of_le (Nat.le_refl _)
  have found := decodeSlices_of_laid_behind laid (Nat.le_refl _) nothing spelled
  rwa [modifyHead_nil_append] at found

theorem Laid.startsAtOpen (laid : Laid stop start items children) {c : Char}
    (first : items.head? = some (.char c)) (region : Span) :
    (segmentation region children).startsAtOpen = true := by
  cases laid with
  | done => simp at first
  | text isText =>
      rw [segmentation, List.foldl_cons, TextRun.step_of_text isText rfl,
        TextRun.startsAtOpen_of_settled rfl]
      rfl
  | interpolation => simp at first

theorem not_interpolated_of_inText (state : Splitting)
    (cleared : state.inText = true → state.interpolated = false) :
    (children.foldl Splitting.step state).inText = true →
      (children.foldl Splitting.step state).interpolated = false := by
  induction children generalizing state with
  | nil => exact cleared
  | cons child others ih =>
      refine ih _ ?_
      unfold Splitting.step
      repeat' split
      · exact cleared
      · simp
      · simp

theorem Laid.children_eq_nil (laid : Laid stop start items children) (none : items = []) :
    children = [] := by
  cases laid with
  | done => rfl
  | text _ nonempty => simp [ofText, nonempty] at none
  | interpolation => simp at none

theorem Laid.inText (laid : Laid stop start items children) {c : Char}
    (last : items.getLast? = some (.char c)) (state : Splitting) :
    (children.foldl Splitting.step state).inText = true := by
  induction laid generalizing state with
  | done => simp at last
  | @text start chunk items child others isText nonempty _ laid ih =>
      rw [List.foldl_cons]
      cases items with
      | nil =>
          rw [laid.children_eq_nil rfl, List.foldl_nil, Splitting.step, if_pos isText]
          split
          next already => exact already
          next => rfl
      | cons item items => exact ih (by simpa using last) _
  | @interpolation start spelling items _ _ group others _ _ _ _ _ laid ih =>
      rw [List.foldl_append]
      cases items with
      | nil => simp at last
      | cons item items => exact ih (by simpa using last) _

theorem Laid.endsAtClose (laid : Laid stop start items children) {c : Char}
    (last : items.getLast? = some (.char c)) (region : Span) :
    (segmentation region children).endsAtClose = true := by
  have cleared := not_interpolated_of_inText (Splitting.ofStart region.start) (by simp [Splitting.ofStart])
    (laid.inText last _)
  rw [segmentation, cleared]
  rfl

end Runs

end LiteralItem

namespace SyntaxNode

variable {source : Bytes} {node : SyntaxNode} {form : LiteralForm}

theorem Encloses.region_eq {region : Span} {inner : List SyntaxNode}
    (encloses : node.Encloses form region inner) : node.region form = (region, inner) := by
  cases encloses with
  | between delimited children => exact region_of_delimiters delimited children
  | whole => exact node.region_raw

/-- A literal written as the given items; a raw one has its delimiters among them. -/
structure IsWritten (source : Bytes) (form : LiteralForm) (items : List LiteralItem)
    (node : SyntaxNode) : Prop where
  kind : node.kind = .literal form
  layout : ∃ region inner, node.Encloses form region inner ∧
    slice source region = encodeUtf8 (LiteralItem.spell items) ∧
    LiteralItem.Laid region.stop region.start items inner

theorem IsWritten.segments_eq {items : List LiteralItem} (written : node.IsWritten source form items)
    {first last : Char} (isFirst : items.head? = some (.char first))
    (isLast : items.getLast? = some (.char last)) :
    node.segments source = .ok (stripDelimiters form (node.spansLines source form) true true
      ((LiteralItem.staticParts items).filter (!·.isEmpty))) := by
  obtain ⟨region, inner, encloses, spelled, laid⟩ := written.layout
  have decoded : decodeSlices source (node.textSpans form) =
      .ok ((LiteralItem.staticParts items).filter (!·.isEmpty)) := by
    rw [textSpans_eq, encloses.region_eq]
    exact LiteralItem.decodeSlices_of_laid laid spelled
  rw [segments_of_form (literalForm?_eq_some_iff.mpr written.kind), decoded, Except.map, strip_eq,
    encloses.region_eq, laid.startsAtOpen isFirst, laid.endsAtClose isLast]

end SyntaxNode

end LocalizationAudit

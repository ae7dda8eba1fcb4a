import LocalizationAudit.Literal.Segments
import Mathlib.Data.List.ModifyLast

/-!
Taking delimiters and indentation off the segments of a literal only ever leaves characters out:
whatever is kept stands in one of the segments, in the same order.
-/

namespace LocalizationAudit

def DrawnFrom (parts texts : List (List Char)) : Prop :=
  ∀ part ∈ parts, ∃ text ∈ texts, part.Sublist text

namespace DrawnFrom

theorem refl (texts : List (List Char)) : DrawnFrom texts texts :=
  fun text member => ⟨text, member, .refl text⟩

theorem trans {parts middle texts : List (List Char)} (first : DrawnFrom parts middle)
    (second : DrawnFrom middle texts) : DrawnFrom parts texts := by
  intro part member
  obtain ⟨between, isBetween, inner⟩ := first part member
  obtain ⟨text, isText, outer⟩ := second between isBetween
  exact ⟨text, isText, inner.trans outer⟩

theorem cons {part text : List Char} {parts texts : List (List Char)} (inner : part.Sublist text)
    (others : DrawnFrom parts texts) : DrawnFrom (part :: parts) (text :: texts) := by
  intro found member
  rcases List.mem_cons.mp member with rfl | later
  · exact ⟨text, List.mem_cons_self, inner⟩
  · obtain ⟨whole, isWhole, inside⟩ := others found later
    exact ⟨whole, List.mem_cons_of_mem _ isWhole, inside⟩

theorem map {change : List Char → List Char} (dropping : ∀ text, (change text).Sublist text)
    (texts : List (List Char)) : DrawnFrom (texts.map change) texts := by
  intro part member
  obtain ⟨text, isText, rfl⟩ := List.mem_map.mp member
  exact ⟨text, isText, dropping text⟩

end DrawnFrom

theorem modifyHead_drawnFrom {change : List Char → List Char}
    (dropping : ∀ text, (change text).Sublist text) (texts : List (List Char)) :
    DrawnFrom (texts.modifyHead change) texts := by
  cases texts with
  | nil => exact .refl []
  | cons first others => exact .cons (dropping first) (.refl others)

theorem concat_drawnFrom {texts : List (List Char)} {last part : List Char}
    (isLast : texts.getLast? = some last) (inner : part.Sublist last) :
    DrawnFrom (texts.dropLast ++ [part]) texts := by
  intro found member
  rcases List.mem_append.mp member with earlier | own
  · exact ⟨found, List.dropLast_subset texts earlier, .refl found⟩
  · obtain rfl := List.mem_singleton.mp own
    exact ⟨last, List.mem_of_getLast? isLast, inner⟩

section Last

variable {change : List Char → List Char}

@[simp] theorem modifyLast_singleton (last : List Char) :
    List.modifyLast change [last] = [change last] :=
  List.modifyLast_concat change last []

theorem modifyLast_cons (first : List Char) {others : List (List Char)} (nonempty : others ≠ []) :
    List.modifyLast change (first :: others) = first :: List.modifyLast change others :=
  List.modifyLast_append_of_right_ne_nil change [first] others nonempty

@[simp] theorem modifyLast_cons_cons (first next : List Char) (others : List (List Char)) :
    List.modifyLast change (first :: next :: others) =
      first :: List.modifyLast change (next :: others) :=
  modifyLast_cons first (List.cons_ne_nil next others)

end Last

theorem reverse_modifyHead_reverse (change : List Char → List Char) (texts : List (List Char)) :
    (texts.reverse.modifyHead change).reverse = List.modifyLast change texts := by
  rcases List.eq_nil_or_concat texts with rfl | ⟨lead, last, rfl⟩
  · rfl
  · simp [List.modifyLast_concat]

theorem modifyLast_drawnFrom {change : List Char → List Char}
    (dropping : ∀ text, (change text).Sublist text) (texts : List (List Char)) :
    DrawnFrom (List.modifyLast change texts) texts := by
  rcases List.eq_nil_or_concat texts with rfl | ⟨lead, last, rfl⟩
  · exact .refl []
  · have found := @concat_drawnFrom (lead ++ [last]) _ _ List.getLast?_concat (dropping last)
    rwa [List.dropLast_concat, ← List.modifyLast_concat, ← List.concat_eq_append] at found

section Raw

variable (text : List Char)

theorem splitFinalNewline_append : (splitFinalNewline text).1 ++ (splitFinalNewline text).2 = text := by
  unfold splitFinalNewline
  split
  next reversed found =>
    have whole := congrArg List.reverse found
    simpa using whole.symm
  next => simp

theorem dropTwoQuotes_sublist : (dropTwoQuotes text).Sublist text := by
  unfold dropTwoQuotes
  split
  next rest => exact (List.sublist_cons_self _ _).trans (List.sublist_cons_self _ _)
  next => exact .refl _

theorem sublist_of_dropWhile {isDropped : Char → Bool} {mark : Char} {rest : List Char}
    (found : text.dropWhile isDropped = mark :: rest) : rest.Sublist text :=
  (List.sublist_cons_self mark rest).trans (found ▸ List.dropWhile_sublist isDropped)

theorem stripRawOpening_sublist : (stripRawOpening text).Sublist text := by
  unfold stripRawOpening
  split
  next rest found => exact (dropTwoQuotes_sublist rest).trans (sublist_of_dropWhile _ found)
  next => exact .refl _

theorem stripRawClosing_sublist : (stripRawClosing text).Sublist text := by
  have whole := splitFinalNewline_append text
  unfold stripRawClosing
  generalize splitFinalNewline text = parts at whole
  obtain ⟨body, final⟩ := parts
  simp only at whole ⊢
  split
  next rest _ found =>
    have kept := (dropTwoQuotes_sublist rest).trans (sublist_of_dropWhile _ found)
    have front := kept.reverse
    rw [List.reverse_reverse] at front
    exact whole ▸ front.append_right final
  next => exact .refl _

end Raw

theorem splitBlankLine_sublist {reversed content indent : List Char}
    (found : splitBlankLine reversed = some (content, indent)) :
    content.Sublist reversed.reverse := by
  unfold splitBlankLine at found
  split at found
  next before dropped =>
    obtain ⟨rfl, _⟩ := Prod.mk.inj (Option.some.inj found)
    exact (sublist_of_dropWhile _ dropped).reverse
  next => simp at found

theorem splitClosingLine_sublist {text content indent : List Char}
    (found : splitClosingLine text = some (content, indent)) : content.Sublist text := by
  unfold splitClosingLine at found
  split at found
  next reversed ended =>
    have whole : text = reversed.reverse ++ ['\n'] := by
      have spelled := congrArg List.reverse ended
      simpa using spelled
    have front : reversed.reverse.Sublist text := whole ▸ List.sublist_append_left _ _
    split at found
    next before blank =>
      obtain rfl := Option.some.inj found
      exact (splitBlankLine_sublist blank).trans front
    next =>
      obtain ⟨rfl, _⟩ := Prod.mk.inj (Option.some.inj found)
      exact front
  next =>
    have kept := splitBlankLine_sublist found
    rwa [List.reverse_reverse] at kept

theorem dropIndent_sublist (indent line : List Char) : (dropIndent indent line).Sublist line := by
  unfold dropIndent
  split
  · exact List.drop_sublist _ _
  · exact .refl _

theorem intercalate_map_sublist {change : List Char → List Char} (mark : List Char)
    (dropping : ∀ text, (change text).Sublist text) (first : List Char)
    {kept : List Char} (inner : kept.Sublist first) (others : List (List Char)) :
    (mark.intercalate (kept :: others.map change)).Sublist (mark.intercalate (first :: others)) := by
  induction others generalizing first kept with
  | nil => simpa using inner
  | cons next others ih =>
      rw [List.map_cons, List.intercalate_cons_cons, List.intercalate_cons_cons]
      exact (inner.append_right mark).append (ih next (dropping next))

theorem dedent_sublist (indent : List Char) (atLineStart : Bool) (segment : List Char) :
    (dedent indent atLineStart segment).Sublist segment := by
  obtain ⟨first, others, pieces⟩ := List.exists_cons_of_ne_nil (List.splitOn_ne_nil '\n' segment)
  have whole : ['\n'].intercalate (segment.splitOn '\n') = segment := List.intercalate_splitOn '\n'
  rw [pieces] at whole
  have inner : (if atLineStart then dropIndent indent first else first).Sublist first := by
    split
    · exact dropIndent_sublist indent first
    · exact .refl first
  rw [dedent, pieces]
  exact whole ▸ intercalate_map_sublist ['\n'] (dropIndent_sublist indent) first inner others

theorem dropLeadingNewline_sublist (text : List Char) : (dropLeadingNewline text).Sublist text := by
  unfold dropLeadingNewline
  split
  · exact List.sublist_cons_self _ _
  · exact .refl _

theorem stripMultiLine_drawnFrom (startsAtOpen endsAtClose : Bool) (segments : List (List Char)) :
    DrawnFrom (stripMultiLine startsAtOpen endsAtClose segments) segments := by
  have opened : ∀ texts : List (List Char),
      DrawnFrom (if startsAtOpen then texts.modifyHead dropLeadingNewline else texts) texts := by
    intro texts
    split
    · exact modifyHead_drawnFrom dropLeadingNewline_sublist texts
    · exact .refl texts
  unfold stripMultiLine
  simp only
  split
  next => exact opened segments
  next content indent closing =>
    have cut : DrawnFrom (segments.dropLast ++ [content]) segments := by
      split at closing
      · obtain ⟨last, isLast, found⟩ := Option.bind_eq_some_iff.mp closing
        exact concat_drawnFrom isLast (splitClosingLine_sublist found)
      · simp at closing
    have stripped := (opened (segments.dropLast ++ [content])).trans cut
    split
    · exact stripped
    · refine DrawnFrom.trans ?_ stripped
      generalize (if startsAtOpen then _ else _) = texts
      cases texts with
      | nil => exact .refl []
      | cons first others =>
          exact .cons (dedent_sublist indent startsAtOpen first)
            (.map (dedent_sublist indent false) others)

theorem stripDelimiters_drawnFrom (form : LiteralForm) (multiLine startsAtOpen endsAtClose : Bool)
    (segments : List (List Char)) :
    DrawnFrom (stripDelimiters form multiLine startsAtOpen endsAtClose segments) segments := by
  have stripped : ∀ texts, DrawnFrom texts segments →
      DrawnFrom (if multiLine then stripMultiLine startsAtOpen endsAtClose texts else texts)
        segments := by
    intro texts drawn
    split
    · exact (stripMultiLine_drawnFrom startsAtOpen endsAtClose texts).trans drawn
    · exact drawn
  refine stripped _ ?_
  split
  · have opened : DrawnFrom
        (if startsAtOpen then segments.modifyHead stripRawOpening else segments) segments := by
      split
      · exact modifyHead_drawnFrom stripRawOpening_sublist segments
      · exact .refl segments
    simp only
    split
    · rw [reverse_modifyHead_reverse]
      exact (modifyLast_drawnFrom stripRawClosing_sublist _).trans opened
    · exact opened
  · exact .refl segments

end LocalizationAudit

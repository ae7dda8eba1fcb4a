import LocalizationAudit.Console.Printer

/-!
Escaped text can always be shown. What it holds between brackets is never followed as a tag, so a
message closes no tag but its own, and rendering it cannot fail.
-/

namespace LocalizationAudit

section Reading

def IsTagBody : List Char → Prop
  | [] => False
  | first :: rest => isTagStart first = true ∧ ∀ c ∈ rest, isTagChar c = true

instance : DecidablePred IsTagBody
  | [] => inferInstanceAs (Decidable False)
  | first :: rest => decidable_of_iff (isTagStart first = true ∧ rest.all isTagChar = true) <| by
      rw [IsTagBody, List.all_eq_true]

def isBracket (c : Char) : Bool :=
  !isTagChar c

theorem head?_dropWhile_isTagChar (text : List Char) :
    (text.dropWhile isTagChar).head? = (text.filter isBracket).head? := by
  induction text with
  | nil => rfl
  | cons c rest ih =>
      cases isTag : isTagChar c <;> simp [isBracket, isTag, ih]

theorem tagBody?_eq_some_iff {text body after : List Char} :
    tagBody? text = some (body, after) ↔ IsTagBody body ∧ text = body ++ ']' :: after := by
  constructor
  · intro found
    cases text with
    | nil => simp [tagBody?] at found
    | cons first rest =>
        rw [tagBody?] at found
        split at found
        next starts =>
          split at found
          next behind dropped =>
            obtain ⟨rfl, rfl⟩ := Prod.mk.inj (Option.some.inj found)
            refine ⟨⟨starts, List.all_eq_true.mp List.all_takeWhile⟩, ?_⟩
            rw [← dropped, List.cons_append, List.takeWhile_append_dropWhile]
          next => simp at found
        next => simp at found
  · rintro ⟨isBody, rfl⟩
    cases body with
    | nil => exact absurd isBody id
    | cons first rest =>
        obtain ⟨starts, inner⟩ := isBody
        have closes : isTagChar ']' = false := rfl
        rw [List.cons_append, tagBody?, if_pos starts, List.dropWhile_append_of_pos inner,
          List.takeWhile_append_of_pos inner]
        simp [closes]

theorem tagBody?_eq_none_iff {first : Char} {rest : List Char} :
    tagBody? (first :: rest) = none ↔
      isTagStart first = false ∨ (rest.filter isBracket).head? ≠ some ']' := by
  rw [tagBody?, ← head?_dropWhile_isTagChar]
  cases starts : isTagStart first with
  | false => simp
  | true =>
      cases dropped : rest.dropWhile isTagChar with
      | nil => simp
      | cons c behind => by_cases closes : c = ']' <;> simp_all

theorem bracketedAt?_backslashes (count : Nat) (inside : List Char) :
    bracketedAt? (List.replicate count '\\' ++ '[' :: inside) =
      (tagBody? inside).map fun (body, after) => (.bracketed count body, after) := by
  have all : ∀ c ∈ List.replicate count '\\', isBackslash c = true := by
    simp +contextual [List.mem_replicate, isBackslash]
  have opens : isBackslash '[' = false := rfl
  rw [bracketedAt?, List.dropWhile_append_of_pos all, List.takeWhile_append_of_pos all]
  simp [opens]

theorem bracketedAt?_backslash_eq_none_iff {text : List Char} :
    bracketedAt? ('\\' :: text) = none ↔ bracketedAt? text = none := by
  have skipped : isBackslash '\\' = true := rfl
  rw [bracketedAt?, bracketedAt?, List.dropWhile_cons, if_pos skipped]
  split <;> simp

theorem exists_of_bracketedAt? {text after : List Char} {fragment : Fragment}
    (found : bracketedAt? text = some (fragment, after)) :
    ∃ count body, fragment = .bracketed count body ∧ IsTagBody body ∧
      text = List.replicate count '\\' ++ bracketed body ++ after := by
  rw [bracketedAt?] at found
  split at found
  next inside dropped =>
    obtain ⟨⟨body, behind⟩, read, same⟩ := Option.map_eq_some_iff.mp found
    obtain ⟨rfl, rfl⟩ := Prod.mk.inj same
    obtain ⟨isBody, rfl⟩ := tagBody?_eq_some_iff.mp read
    refine ⟨_, body, rfl, isBody, ?_⟩
    have backslashes : text.takeWhile isBackslash =
        List.replicate (text.takeWhile isBackslash).length '\\' := by
      refine List.eq_replicate_of_mem fun c member => ?_
      simpa [isBackslash] using List.all_eq_true.mp List.all_takeWhile c member
    rw [← backslashes, bracketed, List.append_assoc]
    simp [← dropped, List.takeWhile_append_dropWhile]
  next => simp at found

theorem fragments_of_bracketed {c : Char} {rest after : List Char} {fragment : Fragment}
    (found : bracketedAt? (c :: rest) = some (fragment, after)) :
    fragments (c :: rest) = fragment :: fragments after := by
  rw [fragments]
  split
  next other behind again =>
    obtain ⟨rfl, rfl⟩ := Prod.mk.inj (Option.some.inj (again.symm.trans found))
    rfl
  next none => simp [none] at found

theorem fragments_of_plain {c : Char} {rest : List Char}
    (none : bracketedAt? (c :: rest) = none) :
    fragments (c :: rest) = .plain c :: fragments rest := by
  rw [fragments]
  split
  next found => simp [none] at found
  next => rfl

theorem fragments_bracketed (count : Nat) {body : List Char} (isBody : IsTagBody body)
    (after : List Char) :
    fragments (List.replicate count '\\' ++ bracketed body ++ after) =
      .bracketed count body :: fragments after := by
  have read : tagBody? (body ++ ']' :: after) = some (body, after) :=
    tagBody?_eq_some_iff.mpr ⟨isBody, rfl⟩
  have found := bracketedAt?_backslashes count (body ++ ']' :: after)
  rw [read, Option.map_some] at found
  have whole : List.replicate count '\\' ++ bracketed body ++ after =
      List.replicate count '\\' ++ '[' :: (body ++ ']' :: after) := by
    simp [bracketed]
  rw [whole]
  cases count with
  | zero => exact fragments_of_bracketed found
  | succ count => exact fragments_of_bracketed found

end Reading

section Escaping

def escapeBrackets (text : List Char) : List Char :=
  (fragments text).flatMap escapeFragment

theorem escapeBrackets_of_plain {c : Char} {rest : List Char}
    (none : bracketedAt? (c :: rest) = none) :
    escapeBrackets (c :: rest) = c :: escapeBrackets rest := by
  rw [escapeBrackets, fragments_of_plain none]
  rfl

theorem escapeBrackets_of_bracketed {c : Char} {rest after : List Char} {fragment : Fragment}
    (found : bracketedAt? (c :: rest) = some (fragment, after)) :
    escapeBrackets (c :: rest) = escapeFragment fragment ++ escapeBrackets after := by
  rw [escapeBrackets, fragments_of_bracketed found]
  rfl

theorem filter_isBracket_replicate (count : Nat) :
    (List.replicate count '\\').filter isBracket = [] := by
  rw [List.filter_replicate, if_neg (by decide)]

/-- Escaping only adds backslashes. -/
theorem filter_isBracket_escapeBrackets (text : List Char) :
    (escapeBrackets text).filter isBracket = text.filter isBracket := by
  induction text using fragments.induct with
  | case1 => simp [escapeBrackets, fragments]
  | case2 c rest fragment after found ih =>
      obtain ⟨count, body, rfl, _, whole⟩ := exists_of_bracketedAt? found
      rw [escapeBrackets_of_bracketed found, whole, escapeFragment]
      simp only [List.filter_append, filter_isBracket_replicate, List.nil_append, ih]
  | case3 c rest none ih =>
      rw [escapeBrackets_of_plain none, List.filter_cons, List.filter_cons, ih]

theorem bracketedAt?_replicate (count : Nat) :
    bracketedAt? (List.replicate count '\\') = none := by
  induction count with
  | zero => rfl
  | succ count ih => rwa [List.replicate_succ, bracketedAt?_backslash_eq_none_iff]

theorem escapeBrackets_replicate (count : Nat) :
    escapeBrackets (List.replicate count '\\') = List.replicate count '\\' := by
  induction count with
  | zero => simp [escapeBrackets, fragments]
  | succ count ih =>
      have here := bracketedAt?_replicate (count + 1)
      rw [List.replicate_succ] at here ⊢
      rw [escapeBrackets_of_plain here, ih]

/-- No tag comes into being by what is written behind a text that is escaped. -/
theorem tagBody?_escapeBrackets_append {text : List Char} (none : tagBody? text = none)
    (count : Nat) (inside : List Char) :
    tagBody? (escapeBrackets text ++ (List.replicate count '\\' ++ '[' :: inside)) = .none := by
  cases text with
  | nil => cases count <;> simp [escapeBrackets, fragments, List.replicate_succ, tagBody?, isTagStart]
  | cons first rest =>
      cases found : bracketedAt? (first :: rest) with
      | some read =>
          obtain ⟨fragment, after⟩ := read
          obtain ⟨own, body, rfl, _, _⟩ := exists_of_bracketedAt? found
          rw [escapeBrackets_of_bracketed found, escapeFragment, List.replicate_succ]
          exact tagBody?_eq_none_iff.mpr (.inl rfl)
      | none =>
          rw [escapeBrackets_of_plain found, List.cons_append, tagBody?_eq_none_iff]
          refine (tagBody?_eq_none_iff.mp none).imp_right fun unclosed => ?_
          have opens : isBracket '[' = true := rfl
          rw [List.filter_append, filter_isBracket_escapeBrackets, List.filter_append,
            filter_isBracket_replicate, List.nil_append, List.filter_cons, if_pos opens]
          cases brackets : rest.filter isBracket with
          | nil => simp
          | cons bracket others => simpa [brackets] using unclosed

/-- Where no bracket was read there still is none, unless only backslashes come before `inside`. -/
theorem bracketedAt?_escapeBrackets_append {text : List Char} (none : bracketedAt? text = none)
    (count : Nat) (inside : List Char) :
    (∃ own, text = List.replicate own '\\') ∨
    bracketedAt? (escapeBrackets text ++ (List.replicate count '\\' ++ '[' :: inside)) = .none := by
  induction text with
  | nil => exact .inl ⟨0, rfl⟩
  | cons c rest ih =>
      rw [escapeBrackets_of_plain none, List.cons_append]
      by_cases isSlash : c = '\\'
      · subst isSlash
        rw [bracketedAt?_backslash_eq_none_iff] at none ⊢
        refine (ih none).imp_left ?_
        rintro ⟨own, rfl⟩
        exact ⟨own + 1, rfl⟩
      · refine .inr ?_
        by_cases opens : c = '['
        · subst opens
          have inner := bracketedAt?_backslashes 0 rest
          rw [List.replicate_zero, List.nil_append, none, eq_comm, Option.map_eq_none_iff] at inner
          have outer := bracketedAt?_backslashes 0
            (escapeBrackets rest ++ (List.replicate count '\\' ++ '[' :: inside))
          rwa [tagBody?_escapeBrackets_append inner] at outer
        · rw [bracketedAt?, List.dropWhile_cons, if_neg (by simpa [isBackslash] using isSlash)]
          split
          next same => exact absurd (List.cons.inj same).1 opens
          next => rfl

/-- Backslashes at the end of a text open no bracket either. -/
theorem bracketedAt?_append_backslashes {text : List Char} (none : bracketedAt? text = none)
    (own : Nat) : bracketedAt? (text ++ List.replicate own '\\') = .none := by
  induction text with
  | nil => exact bracketedAt?_replicate own
  | cons c rest ih =>
      by_cases isSlash : c = '\\'
      · subst isSlash
        rw [bracketedAt?_backslash_eq_none_iff] at none
        rw [List.cons_append, bracketedAt?_backslash_eq_none_iff]
        exact ih none
      · have solid : ¬ isBackslash c = true := by simpa [isBackslash] using isSlash
        by_cases opens : c = '['
        · subst opens
          have inner := bracketedAt?_backslashes 0 rest
          rw [List.replicate_zero, List.nil_append, none, eq_comm, Option.map_eq_none_iff] at inner
          have outer := bracketedAt?_backslashes 0 (rest ++ List.replicate own '\\')
          rw [List.replicate_zero, List.nil_append] at outer
          rw [List.cons_append, outer, Option.map_eq_none_iff]
          cases rest with
          | nil => cases own <;> simp [List.replicate_succ, tagBody?, isTagStart]
          | cons first others =>
              rw [tagBody?_eq_none_iff] at inner
              rw [List.cons_append, tagBody?_eq_none_iff, List.filter_append,
                filter_isBracket_replicate, List.append_nil]
              exact inner
        · rw [bracketedAt?, List.cons_append, List.dropWhile_cons_of_neg solid]
          split
          next same => exact absurd (List.cons.inj same).1 opens
          next => rfl

theorem escapeBrackets_append_replicate (text : List Char) (own : Nat) :
    escapeBrackets (text ++ List.replicate own '\\') =
      escapeBrackets text ++ List.replicate own '\\' := by
  induction text using fragments.induct with
  | case1 => rw [List.nil_append, escapeBrackets_replicate, escapeBrackets, fragments]; rfl
  | case2 c rest fragment after found ih =>
      obtain ⟨count, body, rfl, isBody, whole⟩ := exists_of_bracketedAt? found
      rw [escapeBrackets_of_bracketed found, whole, List.append_assoc, List.append_assoc, escapeBrackets,
        ← List.append_assoc, fragments_bracketed count isBody, List.flatMap_cons, ← escapeBrackets, ih]
      simp
  | case3 c rest none ih =>
      have still := bracketedAt?_append_backslashes none own
      rw [List.cons_append] at still ⊢
      rw [escapeBrackets_of_plain still, escapeBrackets_of_plain none, ih, List.cons_append]

/-- Every text but for the backslashes that it ends in. -/
theorem exists_trailing_backslashes (text : List Char) :
    ∃ front own, text = front ++ List.replicate own '\\' ∧ front.getLast? ≠ some '\\' := by
  have whole := List.takeWhile_append_dropWhile (p := isBackslash) (l := text.reverse)
  have backslashes : text.reverse.takeWhile isBackslash =
      List.replicate (text.reverse.takeWhile isBackslash).length '\\' := by
    refine List.eq_replicate_of_mem fun c member => ?_
    simpa [isBackslash] using List.all_eq_true.mp List.all_takeWhile c member
  refine ⟨(text.reverse.dropWhile isBackslash).reverse,
    (text.reverse.takeWhile isBackslash).length, ?_, fun last => ?_⟩
  · have spelled := congrArg List.reverse whole
    rw [List.reverse_append, List.reverse_reverse, backslashes, List.reverse_replicate] at spelled
    simpa using spelled.symm
  · have stopped := List.head?_dropWhile_not isBackslash text.reverse
    rw [List.getLast?_reverse] at last
    simp [last, isBackslash] at stopped

def Fragment.isTag : Fragment → Bool
  | .plain _ => false
  | .bracketed backslashes _ => backslashes % 2 == 0

def Fragment.escaped : Fragment → Fragment
  | .plain c => .plain c
  | .bracketed backslashes body => .bracketed (2 * backslashes + 1) body

theorem Fragment.isTag_escaped (fragment : Fragment) : fragment.escaped.isTag = false := by
  cases fragment with
  | plain c => rfl
  | bracketed backslashes body => simp [escaped, isTag]

/-- Text that ends in no backslash is told apart from the bracket behind it, once it is escaped. -/
theorem fragments_escapeBrackets_append {front : List Char} (solid : front.getLast? ≠ some '\\')
    (count : Nat) (inside : List Char) :
    fragments (escapeBrackets front ++ (List.replicate count '\\' ++ '[' :: inside)) =
      (fragments front).map Fragment.escaped ++
        fragments (List.replicate count '\\' ++ '[' :: inside) := by
  induction front using fragments.induct with
  | case1 => simp [escapeBrackets, fragments]
  | case2 c rest fragment after found ih =>
      obtain ⟨backslashes, body, rfl, isBody, whole⟩ := exists_of_bracketedAt? found
      have later : after.getLast? ≠ some '\\' := by
        intro last
        rw [whole, List.getLast?_append, last] at solid
        exact solid rfl
      rw [escapeBrackets_of_bracketed found, escapeFragment, List.append_assoc,
        fragments_bracketed _ isBody, ih later, fragments_of_bracketed found]
      rfl
  | case3 c rest none ih =>
      have later : rest.getLast? ≠ some '\\' := by
        intro last
        rw [List.getLast?_cons, last] at solid
        exact solid rfl
      rcases bracketedAt?_escapeBrackets_append none count inside with ⟨own, all⟩ | plain
      · cases own with
        | zero => simp at all
        | succ own =>
            rw [all, List.replicate_succ', List.getLast?_concat] at solid
            exact absurd rfl solid
      · rw [escapeBrackets_of_plain none, List.cons_append] at plain ⊢
        rw [fragments_of_plain plain, ih later, fragments_of_plain none]
        rfl

/--
Escaped text holds no tags, whatever tag stands behind it; at most its last backslashes are taken
for those of that tag.
-/
theorem exists_fragments_escapeBrackets_append (text : List Char) (count : Nat)
    (inside : List Char) :
    ∃ shown own, (∀ fragment ∈ shown, fragment.isTag = false) ∧
      fragments (escapeBrackets text ++ (List.replicate count '\\' ++ '[' :: inside)) =
        shown ++ fragments (List.replicate (own + count) '\\' ++ '[' :: inside) := by
  obtain ⟨front, own, rfl, solid⟩ := exists_trailing_backslashes text
  refine ⟨(fragments front).map Fragment.escaped, own, ?_, ?_⟩
  · intro fragment member
    obtain ⟨original, _, rfl⟩ := List.mem_map.mp member
    exact original.isTag_escaped
  · rw [escapeBrackets_append_replicate, List.append_assoc,
      ← List.append_assoc (List.replicate own '\\'), List.replicate_append_replicate,
      fragments_escapeBrackets_append solid]

theorem exists_escapeMarkup_eq (text : List Char) :
    ∃ count, escapeMarkup text = escapeBrackets text ++ List.replicate count '\\' := by
  unfold escapeMarkup
  simp only
  split
  · exact ⟨1, rfl⟩
  · exact ⟨0, (List.append_nil _).symm⟩

end Escaping

section Following

def followFragments (tags : List OpenTag) : List Fragment → Except MarkupError (List OpenTag)
  | [] => .ok tags
  | .plain _ :: rest => followFragments tags rest
  | .bracketed backslashes body :: rest =>
      if backslashes % 2 == 1 then followFragments tags rest
      else do followFragments (← followTag tags body) rest

theorem followFragments_append_of_shown {shown : List Fragment}
    (noTag : ∀ fragment ∈ shown, fragment.isTag = false) (tags : List OpenTag)
    (rest : List Fragment) : followFragments tags (shown ++ rest) = followFragments tags rest := by
  induction shown with
  | nil => rfl
  | cons fragment shown ih =>
      have here := noTag fragment List.mem_cons_self
      have later := ih fun other member => noTag other (List.mem_cons_of_mem _ member)
      cases fragment with
      | plain c => exact later
      | bracketed backslashes body =>
          have isOdd : (backslashes % 2 == 1) = true := by
            simp only [Fragment.isTag, beq_eq_false_iff_ne, beq_iff_eq] at here ⊢
            omega
          rw [List.cons_append, followFragments, if_pos isOdd, later]

variable {emoji : EmojiTable}

theorem renderPieces_textPiece {tags : List OpenTag} {pieces : List MarkupPiece}
    (later : ∀ opensRun, ∃ styled, renderPieces emoji tags opensRun pieces = .ok styled)
    (content : List Char) (opensRun : Bool) :
    ∃ styled, renderPieces emoji tags opensRun (textPiece content ++ pieces) = .ok styled := by
  rw [textPiece]
  split
  · exact later opensRun
  · rw [List.singleton_append, renderPieces]
    obtain ⟨styled, found⟩ := later
      (opensRun && (styleText (currentColour tags) opensRun (shownText emoji content)).isEmpty)
    exact ⟨_, by rw [found]; rfl⟩

/-- Only following tags can fail. -/
theorem renderPieces_total {fragments : List Fragment} {tags final : List OpenTag}
    (followed : followFragments tags fragments = .ok final) (passed : List Char) (opensRun : Bool) :
    ∃ styled, renderPieces emoji tags opensRun (piecesFrom passed fragments) = .ok styled := by
  induction fragments generalizing tags passed opensRun with
  | nil =>
      have nothing := renderPieces_textPiece (fun opensRun => ⟨[], rfl⟩ :
        ∀ opensRun, ∃ styled, renderPieces emoji tags opensRun [] = .ok styled) passed.reverse opensRun
      rwa [List.append_nil] at nothing
  | cons fragment rest ih =>
      cases fragment with
      | plain c => exact ih followed (c :: passed) opensRun
      | bracketed backslashes body =>
          rw [piecesFrom, bracketedPieces, List.append_assoc, List.append_assoc]
          refine renderPieces_textPiece (fun opensRun => ?_) _ _
          refine renderPieces_textPiece (fun opensRun => ?_) _ _
          rw [followFragments] at followed
          split at followed
          next isOdd =>
            rw [if_pos isOdd]
            exact renderPieces_textPiece (ih followed []) (bracketed body) opensRun
          next isEven =>
            rw [if_neg isEven, List.singleton_append, renderPieces]
            cases opened : followTag tags body with
            | error error => simp [opened, bind, Except.bind] at followed
            | ok left =>
                rw [opened] at followed
                exact ih followed [] true

/-- Markup that closes no tag but its own; what it leaves open does not matter. -/
def IsHarmless (markup : List Char) : Prop :=
  ∀ tags after, ∃ left,
    followFragments tags (fragments (markup ++ after)) = followFragments left (fragments after)

namespace IsHarmless

theorem append {first second : List Char} (left : IsHarmless first) (right : IsHarmless second) :
    IsHarmless (first ++ second) := by
  intro tags after
  obtain ⟨between, before⟩ := left tags (second ++ after)
  obtain ⟨final, behind⟩ := right between after
  exact ⟨final, by rw [List.append_assoc, before, behind]⟩

theorem renderMarkup_eq_ok {markup : List Char} (harmless : IsHarmless markup) :
    ∃ styled, renderMarkup emoji markup = .ok styled := by
  obtain ⟨final, followed⟩ := harmless [] []
  have ended : fragments [] = [] := by rw [fragments]
  rw [List.append_nil, ended] at followed
  exact renderPieces_total followed [] false

end IsHarmless

theorem fragments_plain_append {text : List Char} (plain : ∀ c ∈ text, c ≠ '[' ∧ c ≠ '\\')
    (after : List Char) : fragments (text ++ after) = text.map .plain ++ fragments after := by
  induction text with
  | nil => rfl
  | cons c text ih =>
      have here := plain c List.mem_cons_self
      have none : bracketedAt? (c :: (text ++ after)) = none := by
        rw [bracketedAt?, List.dropWhile_cons, if_neg (by simpa [isBackslash] using here.2)]
        split
        next same => exact absurd (List.cons.inj same).1 here.1
        next => rfl
      rw [List.cons_append, fragments_of_plain none,
        ih fun other member => plain other (List.mem_cons_of_mem _ member)]
      rfl

theorem isHarmless_plain {text : List Char} (plain : ∀ c ∈ text, c ≠ '[' ∧ c ≠ '\\') :
    IsHarmless text := by
  intro tags after
  refine ⟨tags, ?_⟩
  rw [fragments_plain_append plain]
  exact followFragments_append_of_shown (by simp [Fragment.isTag]) tags _

theorem closeTag_own {name : List Char} (named : (trim (name.takeWhile (· != '='))).isEmpty = false)
    (tags : List OpenTag) :
    closeTag (OpenTag.ofBody name :: tags) (name.takeWhile (· != '=')) = .ok tags := by
  have sameName : (OpenTag.ofBody name).name = styleName (name.takeWhile (· != '=')) := rfl
  rw [closeTag, if_neg (by simp [named])]
  simp [sameName]

namespace Colour

theorem isTagBody_name (colour : Colour) : IsTagBody colour.name.toList := by
  cases colour <;> decide

theorem isTagBody_closing (colour : Colour) : IsTagBody ('/' :: colour.name.toList) := by
  cases colour <;> decide

end Colour

/-- A tag of a colour is closed again, unless backslashes before its end make that end text. -/
theorem isHarmless_tagged (colour : Colour) {lead : List Char}
    (plain : ∀ c ∈ lead, c ≠ '[' ∧ c ≠ '\\') (text : List Char) :
    IsHarmless (tagged colour (lead ++ escapeMarkup text)) := by
  intro tags after
  obtain ⟨name, isColour⟩ : ∃ name, name = colour.name.toList := ⟨_, rfl⟩
  have isName : IsTagBody name := isColour ▸ colour.isTagBody_name
  have isClosing : IsTagBody ('/' :: name) := isColour ▸ colour.isTagBody_closing
  have opens : followTag tags name = .ok (OpenTag.ofBody name :: tags) := by
    rw [isColour]
    cases colour <;> rfl
  have closes : followTag (OpenTag.ofBody name :: tags) ('/' :: name) = .ok tags := by
    refine closeTag_own ?_ tags
    rw [isColour]
    cases colour <;> decide
  obtain ⟨count, escaped⟩ := exists_escapeMarkup_eq text
  obtain ⟨shown, own, noTag, read⟩ :=
    exists_fragments_escapeBrackets_append text count ('/' :: name ++ ']' :: after)
  have whole : tagged colour (lead ++ escapeMarkup text) ++ after =
      List.replicate 0 '\\' ++ bracketed name ++ (lead ++ (escapeBrackets text ++
        (List.replicate count '\\' ++ '[' :: ('/' :: name ++ ']' :: after)))) := by
    simp [tagged, escaped, bracketed, isColour]
  have ended : fragments (List.replicate (own + count) '\\' ++ '[' :: ('/' :: name ++ ']' :: after)) =
      .bracketed (own + count) ('/' :: name) :: fragments after := by
    rw [← fragments_bracketed _ isClosing]
    simp [bracketed]
  have unlead : ∀ fragment ∈ lead.map Fragment.plain, fragment.isTag = false := by
    simp [Fragment.isTag]
  rw [whole, fragments_bracketed 0 isName, fragments_plain_append plain, read, ended,
    followFragments, if_neg (by decide), opens]
  change ∃ left, followFragments (OpenTag.ofBody name :: tags) _ = _
  rw [followFragments_append_of_shown unlead, followFragments_append_of_shown noTag, followFragments]
  split
  · exact ⟨_, rfl⟩
  · rw [closes]
    exact ⟨_, rfl⟩

theorem isHarmless_escapedIn (colour : Colour) (text : String) :
    IsHarmless (escapedIn colour text) :=
  isHarmless_tagged colour (by simp : ∀ c ∈ [], c ≠ '[' ∧ c ≠ '\\') text.toList

theorem isDigit_or_minus_of_mem_toString {number : Int} {c : Char}
    (member : c ∈ (toString number).toList) : c.isDigit = true ∨ c = '-' := by
  have digits : ∀ value : Nat, c ∈ value.repr.toList → c.isDigit = true := by
    intro value own
    rw [Nat.toList_repr] at own
    exact Nat.isDigit_of_mem_toDigits (by decide) (by decide) own
  cases number with
  | ofNat value => exact .inl (digits value member)
  | negSucc value =>
      change c ∈ ("-" ++ (value + 1).repr).toList at member
      rw [String.toList_append, List.mem_append] at member
      rcases member with sign | own
      · exact .inr (by simpa using sign)
      · exact .inl (digits (value + 1) own)

theorem plain_toString (number : Int) : ∀ c ∈ (toString number).toList, c ≠ '[' ∧ c ≠ '\\' := by
  intro c member
  rcases isDigit_or_minus_of_mem_toString member with digit | rfl
  · constructor
    all_goals
      rintro rfl
      exact absurd digit (by decide)
  · decide

theorem isHarmless_countMarkup (before : String) (number : Int) (after : String) :
    IsHarmless (countMarkup before number after) := by
  have counted : IsHarmless (tagged .green (toString number).toList) := by
    have nothing : escapeMarkup [] = [] := by
      simp [escapeMarkup, fragments, endsInLoneBackslash]
    have harmless := isHarmless_tagged .green (plain_toString number) []
    rwa [nothing, List.append_nil] at harmless
  have blank : IsHarmless [' '] := isHarmless_plain (by simp)
  have behind := blank.append (isHarmless_escapedIn .yellow after)
  have whole := (isHarmless_escapedIn .yellow before).append (blank.append (counted.append behind))
  have same : countMarkup before number after = escapedIn .yellow before ++
      ([' '] ++ (tagged .green (toString number).toList ++ ([' '] ++ escapedIn .yellow after))) := by
    simp [countMarkup]
  rwa [same]

end Following

namespace LogEvent

theorem isHarmless_of_mem_messages {event : LogEvent} {message : Message}
    (member : message ∈ event.messages) : IsHarmless message.markup := by
  have newline : IsHarmless ['\n'] := isHarmless_plain (by simp)
  cases event with
  | progress text =>
      obtain rfl := List.mem_singleton.mp member
      exact newline.append (isHarmless_escapedIn .yellow text)
  | count before number after =>
      obtain rfl := List.mem_singleton.mp member
      exact newline.append (isHarmless_countMarkup before number after)
  | error text =>
      obtain rfl := List.mem_singleton.mp member
      exact isHarmless_escapedIn .red text
  | warning text =>
      obtain rfl := List.mem_singleton.mp member
      exact isHarmless_tagged .yellow (by simp) text.toList
  | key text =>
      obtain rfl := List.mem_singleton.mp member
      exact isHarmless_escapedIn .red text
  | startProgress description total => simp [messages] at member
  | advance amount => simp [messages] at member
  | finishProgress => simp [messages] at member

end LogEvent

end LocalizationAudit

import LocalizationAudit.Proofs.Console.Markup

/-!
Backslashes before brackets. What is rendered of an escaped text is that text, but where a backslash
stands right before a bracket that opens no tag: it is taken for an escape and lost.
-/

namespace LocalizationAudit

section Rendering

def MarkupPiece.visible (emoji : EmojiTable) : MarkupPiece → List Char
  | .text content => shownText emoji content
  | .tag _ => []

theorem plainText_styleText (colour : Option Colour) (opensRun : Bool) (content : List Char) :
    plainText (styleText colour opensRun content) = content := by
  have styled : (content.map fun c => (⟨c, colour, false⟩ : StyledChar)).map StyledChar.char =
      content := by
    rw [List.map_map]
    exact List.map_id content
  rw [styleText]
  split
  · cases content with
    | nil => rfl
    | cons c rest => simpa [plainText, openRun] using styled
  · exact styled

variable {emoji : EmojiTable}

theorem plainText_of_renderPieces {tags : List OpenTag} {opensRun : Bool}
    {pieces : List MarkupPiece} {styled : List StyledChar}
    (rendered : renderPieces emoji tags opensRun pieces = .ok styled) :
    plainText styled = pieces.flatMap (MarkupPiece.visible emoji) := by
  induction pieces generalizing tags opensRun styled with
  | nil =>
      obtain rfl := Except.ok.inj rendered
      rfl
  | cons piece rest ih =>
      cases piece with
      | tag body =>
          rw [renderPieces] at rendered
          cases followed : followTag tags body with
          | error error => simp [followed, bind, Except.bind] at rendered
          | ok left =>
              rw [followed] at rendered
              exact ih rendered
      | text content =>
          rw [renderPieces] at rendered
          cases later : renderPieces emoji tags
              (opensRun && (styleText (currentColour tags) opensRun (shownText emoji content)).isEmpty) rest with
          | error error => simp [later, bind, Except.bind] at rendered
          | ok others =>
              rw [later] at rendered
              obtain rfl := Except.ok.inj rendered
              rw [plainText, List.map_append, ← plainText, ← plainText, plainText_styleText, ih later,
                List.flatMap_cons, MarkupPiece.visible]

theorem plainText_of_renderMarkup {markup : List Char} {styled : List StyledChar}
    (rendered : renderMarkup emoji markup = .ok styled) :
    plainText styled = (markupPieces markup).flatMap (MarkupPiece.visible emoji) :=
  plainText_of_renderPieces rendered

theorem piecesFrom_append_bracketed (passed : List Char) (before : List Fragment)
    (backslashes : Nat) (body : List Char) (rest : List Fragment) :
    piecesFrom passed (before ++ .bracketed backslashes body :: rest) =
      piecesFrom passed before ++ bracketedPieces backslashes body ++ piecesFrom [] rest := by
  induction before generalizing passed with
  | nil => rw [List.nil_append, piecesFrom, piecesFrom]
  | cons fragment before ih =>
      cases fragment with
      | plain c => exact ih (c :: passed)
      | bracketed others inner =>
          rw [List.cons_append, piecesFrom, ih, piecesFrom]
          simp only [List.append_assoc]

end Rendering

section LooseBackslashes

def OpensTag (inside : List Char) : Prop :=
  ∃ body after, IsTagBody body ∧ inside = body ++ ']' :: after

theorem opensTag_iff {inside : List Char} : OpensTag inside ↔ (tagBody? inside).isSome = true := by
  rw [Option.isSome_iff_exists]
  constructor
  · rintro ⟨body, after, isBody, whole⟩
    exact ⟨(body, after), tagBody?_eq_some_iff.mpr ⟨isBody, whole⟩⟩
  · rintro ⟨⟨body, after⟩, found⟩
    exact ⟨body, after, tagBody?_eq_some_iff.mp found⟩

instance : DecidablePred OpensTag :=
  fun _ => decidable_of_iff _ opensTag_iff.symm

/-- Takes away the backslash right before a bracket that opens no tag. -/
def dropLooseBackslashes : List Char → List Char
  | [] => []
  | '\\' :: '[' :: rest =>
      if OpensTag rest then '\\' :: '[' :: dropLooseBackslashes rest
      else '[' :: dropLooseBackslashes rest
  | c :: rest => c :: dropLooseBackslashes rest

theorem dropLooseBackslashes_cons {c : Char} {rest : List Char}
    (other : c = '\\' → rest.head? ≠ some '[') :
    dropLooseBackslashes (c :: rest) = c :: dropLooseBackslashes rest := by
  rw [dropLooseBackslashes]
  intro behind same opens
  exact other same (by simp [opens])

theorem dropLooseBackslashes_bracket (rest : List Char) :
    dropLooseBackslashes ('[' :: rest) = '[' :: dropLooseBackslashes rest :=
  dropLooseBackslashes_cons fun same => absurd same (by decide)

theorem dropLooseBackslashes_sublist (text : List Char) :
    (dropLooseBackslashes text).Sublist text := by
  induction text using dropLooseBackslashes.induct with
  | case1 => exact .refl _
  | case2 rest opens ih =>
      rw [dropLooseBackslashes, if_pos opens]
      exact (ih.cons_cons _).cons_cons _
  | case3 rest loose ih =>
      rw [dropLooseBackslashes, if_neg loose]
      exact (ih.cons_cons _).cons _
  | case4 c rest other ih =>
      rw [dropLooseBackslashes]
      · exact ih.cons_cons _
      · exact other

theorem dropLooseBackslashes_eq_self_iff {text : List Char} :
    dropLooseBackslashes text = text ↔
      ∀ before rest, text = before ++ '\\' :: '[' :: rest → OpensTag rest := by
  induction text using dropLooseBackslashes.induct with
  | case1 => simp [dropLooseBackslashes]
  | case2 inside opens ih =>
      rw [dropLooseBackslashes, if_pos opens]
      simp only [List.cons.injEq, true_and, ih]
      constructor
      · intro later before rest whole
        match before with
        | [] =>
            obtain rfl : inside = rest := by simpa using whole
            exact opens
        | [c] => simp at whole
        | _ :: _ :: before => exact later before rest (List.cons.inj (List.cons.inj whole).2).2
      · intro all before rest whole
        exact all ('\\' :: '[' :: before) rest (by simp [whole])
  | case3 inside loose ih =>
      rw [dropLooseBackslashes, if_neg loose]
      constructor
      · intro same
        have size := congrArg List.length same
        have shorter := (dropLooseBackslashes_sublist inside).length_le
        simp only [List.length_cons] at size
        omega
      · intro all
        exact absurd (all [] inside rfl) loose
  | case4 c inside other ih =>
      rw [dropLooseBackslashes]
      · simp only [List.cons.injEq, true_and, ih]
        constructor
        · intro later before rest whole
          match before with
          | [] => exact absurd (List.cons.inj whole).2 (other rest (List.cons.inj whole).1)
          | _ :: before => exact later before rest (List.cons.inj whole).2
        · intro all before rest whole
          exact all (c :: before) rest (by simp [whole])
      · exact other

theorem bracket_not_mem_of_isTagBody {body : List Char} (isBody : IsTagBody body) : '[' ∉ body := by
  intro member
  cases body with
  | nil => exact isBody
  | cons first rest =>
      obtain ⟨starts, inner⟩ := isBody
      rcases List.mem_cons.mp member with rfl | later
      · exact absurd starts (by decide)
      · exact absurd (inner '[' later) (by decide)

theorem dropLooseBackslashes_plain_append {part : List Char} (plain : '[' ∉ part)
    (after : List Char) :
    dropLooseBackslashes (part ++ ']' :: after) = part ++ ']' :: dropLooseBackslashes after := by
  induction part with
  | nil => exact dropLooseBackslashes_cons fun same => absurd same (by decide)
  | cons c part ih =>
      obtain ⟨_, plainToo⟩ := not_or.mp (mt List.mem_cons.mpr plain)
      rw [List.cons_append, dropLooseBackslashes_cons, ih plainToo, List.cons_append]
      intro _
      cases part with
      | nil => simp
      | cons next part =>
          obtain ⟨different, _⟩ := not_or.mp (mt List.mem_cons.mpr plainToo)
          simpa using Ne.symm different

/-- A tag is left as it is, with the backslashes in front of it. -/
theorem dropLooseBackslashes_tag (count : Nat) {body : List Char} (isBody : IsTagBody body)
    (after : List Char) :
    dropLooseBackslashes (List.replicate count '\\' ++ bracketed body ++ after) =
      List.replicate count '\\' ++ bracketed body ++ dropLooseBackslashes after := by
  have whole : ∀ count rest, List.replicate count '\\' ++ bracketed body ++ rest =
      List.replicate count '\\' ++ '[' :: (body ++ ']' :: rest) := by
    simp [bracketed]
  have inner := dropLooseBackslashes_plain_append (bracket_not_mem_of_isTagBody isBody) after
  simp only [whole]
  induction count with
  | zero => rw [List.replicate_zero, List.nil_append, dropLooseBackslashes_bracket, inner]; rfl
  | succ count ih =>
      cases count with
      | zero =>
          change dropLooseBackslashes ('\\' :: '[' :: (body ++ ']' :: after)) = _
          rw [dropLooseBackslashes, if_pos ⟨body, after, isBody, rfl⟩, inner]
          rfl
      | succ count =>
          rw [List.replicate_succ, List.cons_append, dropLooseBackslashes_cons, ih, List.cons_append]
          simp [List.replicate_succ]

end LooseBackslashes

section Pieces

def Fragment.spelling : Fragment → List Char
  | .plain c => [c]
  | .bracketed backslashes body =>
      List.replicate backslashes '\\' ++ LocalizationAudit.bracketed body

theorem flatMap_spelling_fragments (text : List Char) :
    (fragments text).flatMap Fragment.spelling = text := by
  induction text using fragments.induct with
  | case1 => rw [fragments]; rfl
  | case2 c rest fragment after found ih =>
      obtain ⟨count, body, rfl, _, whole⟩ := exists_of_bracketedAt? found
      rw [fragments_of_bracketed found, List.flatMap_cons, ih, whole, Fragment.spelling]
  | case3 c rest none ih =>
      rw [fragments_of_plain none, List.flatMap_cons, ih]
      rfl

def HoldTags (found : List Fragment) : Prop :=
  ∀ backslashes body, .bracketed backslashes body ∈ found → IsTagBody body

theorem holdTags_fragments (text : List Char) : HoldTags (fragments text) := by
  induction text using fragments.induct with
  | case1 => simp [HoldTags, fragments]
  | case2 c rest fragment after found ih =>
      obtain ⟨count, body, rfl, isBody, _⟩ := exists_of_bracketedAt? found
      rw [fragments_of_bracketed found]
      intro backslashes other member
      rcases List.mem_cons.mp member with here | later
      · cases here
        exact isBody
      · exact ih backslashes other later
  | case3 c rest none ih =>
      rw [fragments_of_plain none]
      intro backslashes other member
      exact ih backslashes other (by simpa using member)

/-- A bracket that was escaped is text, behind the backslashes that it had. -/
theorem piecesFrom_escaped (passed : List Char) (backslashes : Nat) (body : List Char)
    (rest : List Fragment) :
    piecesFrom passed ((Fragment.bracketed backslashes body).escaped :: rest) =
      textPiece passed.reverse ++ (textPiece (List.replicate backslashes '\\') ++
        [.text (bracketed body)]) ++ piecesFrom [] rest := by
  have half : (2 * backslashes + 1) / 2 = backslashes := by omega
  have isOdd : ((2 * backslashes + 1) % 2 == 1) = true := by simp
  rw [Fragment.escaped, piecesFrom, bracketedPieces, half, if_pos isOdd]

theorem eq_of_mem_textPiece {content text : List Char} (member : .text content ∈ textPiece text) :
    content = text := by
  rw [textPiece] at member
  split at member
  · simp at member
  · simpa using member

/-- Nothing is shown of an escaped text that does not stand in it. -/
theorem infix_of_mem_piecesFrom {passed content : List Char} {found : List Fragment}
    (member : .text content ∈ piecesFrom passed (found.map Fragment.escaped)) :
    content <:+: passed.reverse ++ found.flatMap Fragment.spelling := by
  induction found generalizing passed with
  | nil =>
      obtain rfl := eq_of_mem_textPiece member
      exact List.prefix_rfl.isInfix.trans (List.prefix_append _ _).isInfix
  | cons fragment found ih =>
      cases fragment with
      | plain c =>
          have inside := ih member
          simpa [Fragment.spelling] using inside
      | bracketed backslashes body =>
          rw [List.map_cons, piecesFrom_escaped] at member
          rw [List.flatMap_cons, Fragment.spelling]
          simp only [List.mem_append, List.mem_singleton] at member
          rcases member with (before | slashes | tag) | later
          · obtain rfl := eq_of_mem_textPiece before
            exact (List.prefix_append _ _).isInfix
          · obtain rfl := eq_of_mem_textPiece slashes
            exact ⟨passed.reverse, _, by simp only [List.append_assoc]; rfl⟩
          · obtain rfl := MarkupPiece.text.inj tag
            exact ⟨passed.reverse ++ List.replicate backslashes '\\', _,
              by simp only [List.append_assoc]; rfl⟩
          · refine (ih later).trans ⟨passed.reverse ++ (List.replicate backslashes '\\' ++
              bracketed body), [], ?_⟩
            simp

def MarkupPiece.unescaped : MarkupPiece → List Char
  | .text content => unescapeBrackets content
  | .tag _ => []

theorem unescapeBrackets_sublist (text : List Char) : (unescapeBrackets text).Sublist text := by
  induction text using unescapeBrackets.induct with
  | case1 => exact .refl _
  | case2 rest ih =>
      rw [unescapeBrackets]
      exact (ih.cons_cons _).cons _
  | case3 c rest other ih =>
      rw [unescapeBrackets]
      · exact ih.cons_cons _
      · exact other

theorem unescapeBrackets_of_plain {text : List Char} (plain : '[' ∉ text) :
    unescapeBrackets text = text := by
  induction text using unescapeBrackets.induct with
  | case1 => rfl
  | case2 rest ih => simp at plain
  | case3 c rest other ih =>
      rw [unescapeBrackets]
      · rw [ih fun member => plain (List.mem_cons_of_mem _ member)]
      · exact other

theorem unescapeBrackets_bracketed {body : List Char} (isBody : IsTagBody body) :
    unescapeBrackets (bracketed body) = bracketed body := by
  have plain : '[' ∉ body ++ [']'] := by
    simpa using bracket_not_mem_of_isTagBody isBody
  rw [bracketed, List.cons_append, unescapeBrackets]
  · rw [unescapeBrackets_of_plain plain]
  · simp

def dropLooseFromFragments : List Fragment → List Char
  | [] => []
  | .plain '\\' :: .plain '[' :: rest => '[' :: dropLooseFromFragments rest
  | .plain c :: rest => c :: dropLooseFromFragments rest
  | .bracketed backslashes body :: rest =>
      List.replicate backslashes '\\' ++ bracketed body ++ dropLooseFromFragments rest

theorem dropLooseFromFragments_run {run : List Char} {rest : List Fragment}
    (ended : ∀ c others, rest ≠ .plain c :: others) :
    dropLooseFromFragments (run.map .plain ++ rest) =
      unescapeBrackets run ++ dropLooseFromFragments rest := by
  induction run using unescapeBrackets.induct with
  | case1 => rfl
  | case2 run ih => rw [unescapeBrackets, List.cons_append, ← ih]; rfl
  | case3 c run other ih =>
      rw [unescapeBrackets, List.cons_append, ← ih, List.map_cons, List.cons_append,
        dropLooseFromFragments]
      · intro others behind same
        cases run with
        | nil => exact ended _ _ behind
        | cons next run =>
            obtain ⟨opens, _⟩ := List.cons.inj behind
            exact other run same (by rw [Fragment.plain.inj opens])
      · exact other

theorem unescaped_piecesFrom {found : List Fragment} (hold : HoldTags found) (passed : List Char) :
    (piecesFrom passed (found.map Fragment.escaped)).flatMap MarkupPiece.unescaped =
      dropLooseFromFragments (passed.reverse.map .plain ++ found) := by
  have alone : ∀ text, (textPiece text).flatMap MarkupPiece.unescaped = unescapeBrackets text := by
    intro text
    cases text with
    | nil => rfl
    | cons c rest => simp [textPiece, MarkupPiece.unescaped]
  induction found generalizing passed with
  | nil =>
      rw [dropLooseFromFragments_run (by simp)]
      simpa [piecesFrom, dropLooseFromFragments] using alone passed.reverse
  | cons fragment found ih =>
      have later : HoldTags found :=
        fun backslashes body member => hold backslashes body (List.mem_cons_of_mem _ member)
      cases fragment with
      | plain c =>
          have here := ih later (c :: passed)
          simpa [Fragment.escaped, piecesFrom] using here
      | bracketed backslashes body =>
          have isBody := hold backslashes body List.mem_cons_self
          have slashes : unescapeBrackets (List.replicate backslashes '\\') =
              List.replicate backslashes '\\' :=
            unescapeBrackets_of_plain (by simp [List.mem_replicate])
          rw [dropLooseFromFragments_run (by simp), dropLooseFromFragments, List.map_cons,
            piecesFrom_escaped, List.flatMap_append, List.flatMap_append, List.flatMap_append, alone,
            alone, ih later]
          simp [MarkupPiece.unescaped, unescapeBrackets_bracketed isBody, slashes]

theorem dropLooseFromFragments_fragments (text : List Char) :
    dropLooseFromFragments (fragments text) = dropLooseBackslashes text := by
  induction text using fragments.induct with
  | case1 => rw [fragments]; rfl
  | case2 c rest fragment after found ih =>
      obtain ⟨count, body, rfl, isBody, whole⟩ := exists_of_bracketedAt? found
      rw [fragments_of_bracketed found, dropLooseFromFragments, ih, whole,
        dropLooseBackslashes_tag count isBody]
  | case3 c rest none ih =>
      rw [fragments_of_plain none]
      by_cases loose : c = '\\' ∧ rest.head? = some '['
      · obtain ⟨rfl, opens⟩ := loose
        obtain ⟨inside, rfl⟩ : ∃ inside, rest = '[' :: inside := List.head?_eq_some_iff.mp opens
        rw [bracketedAt?_backslash_eq_none_iff] at none
        have noTag := bracketedAt?_backslashes 0 inside
        rw [List.replicate_zero, List.nil_append, none, eq_comm, Option.map_eq_none_iff] at noTag
        rw [fragments_of_plain none, dropLooseBackslashes_bracket] at ih
        rw [fragments_of_plain none, dropLooseBackslashes, if_neg (by simp [opensTag_iff, noTag])]
        exact ih
      · rw [dropLooseBackslashes_cons fun same opens => loose ⟨same, opens⟩, ← ih,
          dropLooseFromFragments]
        intro others same behind
        have spelled := flatMap_spelling_fragments rest
        rw [same] at spelled
        exact loose ⟨behind, by rw [← spelled]; rfl⟩

end Pieces

end LocalizationAudit

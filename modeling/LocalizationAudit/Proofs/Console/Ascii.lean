import LocalizationAudit.Proofs.Console.Emoji
import LocalizationAudit.Proofs.Console.Layout
import LocalizationAudit.Proofs.Console.LooseBackslashes
import LocalizationAudit.Proofs.Console.Printing
import LocalizationAudit.Report

/-!
Messages in ASCII that name no emoji are printed on every output. Those that come before the first
file is read are of that kind.
-/

namespace LocalizationAudit

def IsAscii (c : Char) : Prop :=
  c.toNat < 128

def IsSimple (c : Char) : Prop :=
  IsAscii c ∧ c ≠ ':'

instance : DecidablePred IsAscii :=
  fun c => inferInstanceAs (Decidable (c.toNat < 128))

instance : DecidablePred IsSimple :=
  fun c => inferInstanceAs (Decidable (IsAscii c ∧ c ≠ ':'))

section Markup

theorem isSimple_toString (number : Int) : ∀ c ∈ (toString number).toList, IsSimple c := by
  intro c member
  rcases isDigit_or_minus_of_mem_toString member with digit | rfl
  · have bounds : c.isDigit = true → c.toNat ≤ 57 := by
      simp only [Char.isDigit, Bool.and_eq_true, decide_eq_true_eq]
      exact fun within => within.2
    constructor
    · have low := bounds digit
      show c.toNat < 128
      omega
    · rintro rfl
      exact absurd digit (by decide)
  · decide

/-- Escaping adds nothing but backslashes. -/
theorem mem_of_mem_escapeMarkup {text : List Char} {c : Char} (member : c ∈ escapeMarkup text) :
    c ∈ text ∨ c = '\\' := by
  have inner : ∀ text : List Char, c ∈ escapeBrackets text → c ∈ text ∨ c = '\\' := by
    intro text
    induction text using fragments.induct with
    | case1 => simp [escapeBrackets, fragments]
    | case2 first rest fragment after found ih =>
        obtain ⟨count, body, rfl, _, whole⟩ := exists_of_bracketedAt? found
        rw [escapeBrackets_of_bracketed found, whole, escapeFragment]
        intro own
        simp only [List.mem_append, List.mem_replicate] at own ⊢
        rcases own with (⟨_, slash⟩ | tag) | later
        · exact .inr slash
        · exact .inl (.inl (.inr tag))
        · exact (ih later).imp_left .inr
    | case3 first rest none ih =>
        rw [escapeBrackets_of_plain none]
        intro own
        rcases List.mem_cons.mp own with rfl | later
        · exact .inl List.mem_cons_self
        · exact (ih later).imp_left (List.mem_cons_of_mem _)
  obtain ⟨count, escaped⟩ := exists_escapeMarkup_eq text
  rw [escaped] at member
  rcases List.mem_append.mp member with own | slash
  · exact inner text own
  · exact .inr (List.mem_replicate.mp slash).2

theorem isSimple_tagged (colour : Colour) {content : List Char}
    (simple : ∀ c ∈ content, IsSimple c) : ∀ c ∈ tagged colour content, IsSimple c := by
  have named : ∀ c ∈ colour.name.toList, IsSimple c := by
    cases colour <;> simp [Colour.name, IsSimple, IsAscii]
  have opening : ∀ c ∈ bracketed colour.name.toList, IsSimple c := by
    simp only [bracketed, List.cons_append, List.forall_mem_cons, List.forall_mem_append]
    exact ⟨by decide, named, by decide, by simp⟩
  have closing : ∀ c ∈ bracketed ('/' :: colour.name.toList), IsSimple c := by
    simp only [bracketed, List.cons_append, List.forall_mem_cons, List.forall_mem_append]
    exact ⟨by decide, by decide, named, by decide, by simp⟩
  rw [tagged]
  exact List.forall_mem_append.mpr ⟨List.forall_mem_append.mpr ⟨opening, simple⟩, closing⟩

theorem isSimple_escapedIn (colour : Colour) {text : String}
    (simple : ∀ c ∈ text.toList, IsSimple c) : ∀ c ∈ escapedIn colour text, IsSimple c := by
  apply isSimple_tagged
  intro c member
  rcases mem_of_mem_escapeMarkup member with own | rfl
  · exact simple c own
  · exact ⟨by decide, by decide⟩

theorem subset_of_mem_piecesFrom {passed content : List Char} {found : List Fragment}
    (member : .text content ∈ piecesFrom passed found) :
    ∀ c ∈ content, c ∈ passed ∨ c ∈ found.flatMap Fragment.spelling := by
  have piece : ∀ text : List Char, .text content ∈ textPiece text → content ⊆ text := by
    intro text isText
    obtain rfl := eq_of_mem_textPiece isText
    exact List.Subset.refl _
  intro c inside
  induction found generalizing passed with
  | nil => exact .inl (List.mem_reverse.mp (piece _ member inside))
  | cons fragment rest ih =>
      rw [List.flatMap_cons, List.mem_append]
      cases fragment with
      | plain first =>
          rcases ih member with before | later
          · rcases List.mem_cons.mp before with rfl | earlier
            · exact .inr (.inl (by simp [Fragment.spelling]))
            · exact .inl earlier
          · exact .inr (.inr later)
      | bracketed backslashes body =>
          rw [piecesFrom, bracketedPieces] at member
          simp only [List.mem_append] at member
          rw [Fragment.spelling, List.mem_append]
          rcases member with (before | slashes | tag) | later
          · exact .inl (List.mem_reverse.mp (piece _ before inside))
          · obtain ⟨some, rfl⟩ := List.mem_replicate.mp (piece _ slashes inside)
            have any : backslashes ≠ 0 := by
              rintro rfl
              exact some rfl
            exact .inr (.inl (.inl (List.mem_replicate.mpr ⟨any, rfl⟩)))
          · split at tag
            next =>
              obtain rfl := MarkupPiece.text.inj (List.mem_singleton.mp tag)
              exact .inr (.inl (.inr inside))
            next => simp at tag
          · rcases ih later with nothing | behind
            · simp at nothing
            · exact .inr (.inr behind)

theorem shownText_subset {emoji : EmojiTable} {content : List Char} (noColon : ':' ∉ content) :
    shownText emoji content ⊆ content := by
  have unescaped := (unescapeBrackets_sublist content).subset
  have unnamed : ¬ HasEmojiCode emoji (unescapeBrackets content) :=
    not_hasEmojiCode_of_plain fun member => noColon (unescaped member)
  rw [shownText, replaceEmoji_of_not_hasEmojiCode unnamed]
  exact List.Subset.trans List.filter_sublist.subset unescaped

theorem plainText_subset_of_renderMarkup {emoji : EmojiTable} {markup : List Char}
    {styled : List StyledChar} (rendered : renderMarkup emoji markup = .ok styled)
    (noColon : ':' ∉ markup) : plainText styled ⊆ markup := by
  intro c shown
  rw [plainText_of_renderMarkup rendered, List.mem_flatMap] at shown
  obtain ⟨piece, isPiece, visible⟩ := shown
  cases piece with
  | tag body => simp [MarkupPiece.visible] at visible
  | text content =>
      have inside : content ⊆ markup := by
        intro d own
        rcases subset_of_mem_piecesFrom isPiece d own with nothing | spelled
        · simp at nothing
        · rwa [flatMap_spelling_fragments] at spelled
      exact inside (shownText_subset (fun colon => noColon (inside colon)) visible)

end Markup

section Painting

theorem isAscii_escapeCode (number : Nat) : ∀ c ∈ escapeCode number, IsAscii c := by
  have digits : ∀ c ∈ (toString number).toList, IsAscii c :=
    fun c member => (isSimple_toString number c member).1
  simp only [escapeCode, List.cons_append, List.forall_mem_cons, List.forall_mem_append]
  exact ⟨by decide, by decide, digits, by decide, by simp⟩

theorem isAscii_paint {line : List StyledChar} (ascii : AllChars IsAscii line) (coloured : Bool) :
    ∀ c ∈ paint coloured line, IsAscii c := by
  have plain : ∀ run : List StyledChar, run ⊆ line → ∀ c ∈ plainText run, IsAscii c := by
    intro run inside c member
    obtain ⟨own, isOwn, rfl⟩ := List.mem_map.mp member
    exact ascii own (inside isOwn)
  cases coloured with
  | false => exact plain line (List.Subset.refl _)
  | true =>
      intro c member
      obtain ⟨run, isRun, painted⟩ := List.mem_flatMap.mp member
      have inside : run ⊆ line := by
        intro own isOwn
        rw [← flatten_styledRuns line]
        exact List.mem_flatten.mpr ⟨run, isRun, isOwn⟩
      rw [paintRun] at painted
      split at painted
      next colour _ =>
        rcases List.mem_append.mp painted with (front | last)
        · rcases List.mem_append.mp front with code | own
          · exact isAscii_escapeCode _ c code
          · exact plain run inside c own
        · exact isAscii_escapeCode _ c last
      next => exact plain run inside c painted

end Painting

namespace Console

variable (console : Console)

theorem exists_print {message : Message} (harmless : IsHarmless message.markup)
    (simple : ∀ c ∈ message.markup, IsSimple c) : ∃ text, console.print message = .ok text := by
  obtain ⟨styled, rendered⟩ := @IsHarmless.renderMarkup_eq_ok console.emoji _ harmless
  have noColon : ':' ∉ message.markup := fun member => (simple ':' member).2 rfl
  have ascii : AllChars IsAscii styled := by
    intro c member
    have shown : c.char ∈ plainText styled := List.mem_map_of_mem member
    exact (simple _ (plainText_subset_of_renderMarkup rendered noColon shown)).1
  obtain ⟨text, composed, taken⟩ : ∃ text, console.compose message = .ok text ∧
      ∀ c ∈ text, IsAscii c := by
    refine ⟨_, by rw [compose, rendered]; rfl, ?_⟩
    intro c member
    obtain ⟨line, isLine, inside⟩ := List.mem_flatMap.mp member
    rcases List.mem_append.mp inside with painted | newline
    · exact isAscii_paint (ascii.layOut (by decide) _ line isLine) _ c painted
    · obtain rfl := List.mem_singleton.mp newline
      decide
  refine ⟨text, ?_⟩
  rw [print, composed]
  exact Charset.encode_of_taken fun c member => console.charset.ascii c (taken c member)

theorem printAll_of_simple {messages : List Message}
    (harmless : ∀ message ∈ messages, IsHarmless message.markup)
    (simple : ∀ message ∈ messages, ∀ c ∈ message.markup, IsSimple c) :
    (console.printAll messages).2 = none := by
  induction messages with
  | nil => rfl
  | cons message others ih =>
      obtain ⟨harmlessHere, harmlessLater⟩ := List.forall_mem_cons.mp harmless
      obtain ⟨simpleHere, simpleLater⟩ := List.forall_mem_cons.mp simple
      obtain ⟨text, printed⟩ := console.exists_print harmlessHere simpleHere
      rw [printAll, printed]
      exact ih harmlessLater simpleLater

theorem writeEvents_of_simple (running : Bool) {events : List LogEvent}
    (simple : ∀ event ∈ events, ∀ message ∈ event.messages, ∀ c ∈ message.markup, IsSimple c) :
    (console.writeEvents running events).2 = none := by
  induction events generalizing running with
  | nil => rfl
  | cons event others ih =>
      obtain ⟨here, later⟩ := List.forall_mem_cons.mp simple
      have own : (console.writeEvent running event).2 = none :=
        console.printAll_of_simple (fun _ member => event.isHarmless_of_mem_messages member) here
      rw [writeEvents]
      split
      next failed => simp [failed] at own
      next => exact ih (event.progressAfter running) later

theorem writeEvents_prefix {running : Bool} {first : List LogEvent}
    (total : (console.writeEvents running first).2 = none) (rest : List LogEvent) :
    (console.writeEvents running first).1 <+: (console.writeEvents running (first ++ rest)).1 := by
  induction first generalizing running with
  | nil => exact List.nil_prefix
  | cons event others ih =>
      rw [List.cons_append, writeEvents, writeEvents]
      rw [writeEvents] at total
      rcases written : console.writeEvent running event with ⟨text, _ | error⟩
      · rw [written] at total
        exact List.prefix_append_right_inj text |>.mpr (ih total)
      · exact List.prefix_rfl

end Console

section Opening

theorem isSimple_searchEvent :
    ∀ message ∈ searchEvent.messages, ∀ c ∈ message.markup, IsSimple c := by
  intro message member
  obtain rfl := List.mem_singleton.mp member
  refine List.forall_mem_cons.mpr ⟨by decide, isSimple_escapedIn .yellow ?_⟩
  simp [IsSimple, IsAscii]

theorem isSimple_found (number : Int) :
    ∀ message ∈ (LogEvent.count "Found" number "files to scan.").messages,
      ∀ c ∈ message.markup, IsSimple c := by
  intro message member
  obtain rfl := List.mem_singleton.mp member
  have before : ∀ c ∈ escapedIn .yellow "Found", IsSimple c :=
    isSimple_escapedIn .yellow (by simp [IsSimple, IsAscii])
  have behind : ∀ c ∈ escapedIn .yellow "files to scan.", IsSimple c :=
    isSimple_escapedIn .yellow (by simp [IsSimple, IsAscii])
  have counted := isSimple_tagged .green (isSimple_toString number)
  simp only [countMarkup, List.cons_append, List.append_assoc, List.forall_mem_cons,
    List.forall_mem_append]
  exact ⟨by decide, before, by decide, counted, by decide, behind⟩

/-- What is said before the first file is read can be printed on every output. -/
theorem writeEvents_opening (console : Console) (tasks : List Task) :
    (console.writeEvents false (searchEvent :: openingEvents tasks)).2 = none := by
  apply console.writeEvents_of_simple
  simp only [openingEvents, List.forall_mem_cons]
  exact ⟨isSimple_searchEvent, isSimple_found _, by simp [LogEvent.messages], by simp⟩

end Opening

end LocalizationAudit

import LocalizationAudit.Proofs.Console.Emoji
import LocalizationAudit.Proofs.Console.LooseBackslashes
import LocalizationAudit.Proofs.Console.Printing
import LocalizationAudit.Proofs.Encoding.ByteOrderMark
import LocalizationAudit.Proofs.Path
import LocalizationAudit.Proofs.Resource.Keys
import Mathlib.Data.List.TakeWhile

/-!
What a console shows of a key. Brackets and the backslashes before a tag stand as they are in the key,
but a backslash before a bracket that opens no tag is lost, and so is every second one at the end.
-/

namespace LocalizationAudit

variable {emoji : EmojiTable}

section Shown

theorem shownText_of_clean {content : List Char}
    (kept : ∀ c ∈ content, isDroppedControl c = false) (unnamed : ¬ HasEmojiCode emoji content) :
    shownText emoji content = unescapeBrackets content := by
  rw [shownText, replaceEmoji_of_not_hasEmojiCode (mt HasEmojiCode.of_unescapeBrackets unnamed),
    List.filter_eq_self]
  intro c member
  simp [kept c ((unescapeBrackets_sublist content).subset member)]

/-- The pieces of an escaped text show it, but for the backslashes that open no tag. -/
theorem visible_pieces_escaped {front : List Char}
    (kept : ∀ c ∈ front, isDroppedControl c = false) (unnamed : ¬ HasEmojiCode emoji front) :
    (piecesFrom [] ((fragments front).map Fragment.escaped)).flatMap (MarkupPiece.visible emoji) =
      dropLooseBackslashes front := by
  rw [← dropLooseFromFragments_fragments]
  refine Eq.trans ?_ (unescaped_piecesFrom (holdTags_fragments front) [])
  have each : ∀ piece ∈ piecesFrom [] ((fragments front).map Fragment.escaped),
      piece.visible emoji = piece.unescaped := by
    intro piece member
    cases piece with
    | tag body => rfl
    | text content =>
        have inside := infix_of_mem_piecesFrom member
        rw [List.reverse_nil, List.nil_append, flatMap_spelling_fragments] at inside
        exact shownText_of_clean (fun c own => kept c (inside.subset own))
          (mt (HasEmojiCode.of_part inside) unnamed)
  rw [List.flatMap_def, List.map_congr_left each, ← List.flatMap_def]

theorem getLast?_escapeBrackets (text : List Char) :
    (escapeBrackets text).getLast? = text.getLast? := by
  induction text using fragments.induct with
  | case1 => simp [escapeBrackets, fragments]
  | case2 c rest fragment after found ih =>
      obtain ⟨count, body, rfl, _, whole⟩ := exists_of_bracketedAt? found
      have closed : (bracketed body).getLast? = some ']' := by rw [bracketed, List.getLast?_concat]
      rw [escapeBrackets_of_bracketed found, whole, escapeFragment]
      simp only [List.getLast?_append, ih, closed, Option.some_or]
  | case3 c rest none ih =>
      rw [escapeBrackets_of_plain none, List.getLast?_cons, List.getLast?_cons, ih]

/-- In front of an even number of backslashes nothing is added. -/
theorem escapeMarkup_of_even {front : List Char} (solid : front.getLast? ≠ some '\\') (pairs : Nat) :
    escapeMarkup (front ++ List.replicate (2 * pairs) '\\') =
      escapeBrackets front ++ List.replicate (2 * pairs) '\\' := by
  have even : endsInLoneBackslash
      (escapeBrackets front ++ List.replicate (2 * pairs) '\\') = false := by
    rw [endsInLoneBackslash, List.reverse_append, List.reverse_replicate]
    cases pairs with
    | zero =>
        rw [← getLast?_escapeBrackets, ← List.head?_reverse] at solid
        cases reversed : (escapeBrackets front).reverse with
        | nil => rfl
        | cons c rest =>
            rw [reversed] at solid
            simp only [Nat.mul_zero, List.replicate_zero, List.nil_append]
            split
            next => rfl
            next other _ same => exact absurd (by rw [(List.cons.inj same).1]; rfl) solid
            next => rfl
    | succ pairs => rfl
  have escaped := escapeBrackets_append_replicate front (2 * pairs)
  rw [escapeMarkup, ← escapeBrackets, escaped, even]
  rfl

theorem shownText_backslashes (count : Nat) :
    shownText emoji (List.replicate count '\\') = List.replicate count '\\' := by
  have unnamed : ¬ HasEmojiCode emoji (List.replicate count '\\') :=
    not_hasEmojiCode_of_plain (by simp [List.mem_replicate])
  rw [shownText_of_clean (by simp +contextual [List.mem_replicate, isDroppedControl]) unnamed,
    unescapeBrackets_of_plain (by simp [List.mem_replicate])]

structure EndsInPairs (text front : List Char) (pairs : Nat) : Prop where
  whole : text = front ++ List.replicate (2 * pairs) '\\'
  solid : front.getLast? ≠ some '\\'

/-- A tag behind pairs of backslashes is not shown, and of each pair one backslash is. -/
theorem visible_bracketedPieces (pairs : Nat) (body : List Char) :
    (bracketedPieces (2 * pairs) body).flatMap (MarkupPiece.visible emoji) = List.replicate pairs '\\' := by
  have half : 2 * pairs / 2 = pairs := by omega
  have isEven : ¬ (2 * pairs % 2 == 1) = true := by simp
  rw [bracketedPieces, half, if_neg isEven]
  cases pairs with
  | zero => rfl
  | succ pairs => simpa [textPiece, MarkupPiece.visible] using shownText_backslashes (pairs + 1)

theorem markupPieces_tagged (colour : Colour) {front : List Char}
    (solid : front.getLast? ≠ some '\\') (pairs : Nat) :
    markupPieces (tagged colour (escapeMarkup (front ++ List.replicate (2 * pairs) '\\'))) =
      bracketedPieces 0 colour.name.toList ++
        (piecesFrom [] ((fragments front).map Fragment.escaped) ++
          bracketedPieces (2 * pairs) ('/' :: colour.name.toList)) := by
  generalize isColour : colour.name.toList = name
  have isName : IsTagBody name := isColour ▸ colour.isTagBody_name
  have isClosing : IsTagBody ('/' :: name) := isColour ▸ colour.isTagBody_closing
  have whole : tagged colour (escapeMarkup (front ++ List.replicate (2 * pairs) '\\')) =
      List.replicate 0 '\\' ++ bracketed name ++ (escapeBrackets front ++
        (List.replicate (2 * pairs) '\\' ++ '[' :: ('/' :: name ++ [']']))) := by
    rw [escapeMarkup_of_even solid]
    simp [tagged, bracketed, isColour]
  have ended : fragments (List.replicate (2 * pairs) '\\' ++ '[' :: ('/' :: name ++ [']'])) =
      [.bracketed (2 * pairs) ('/' :: name)] := by
    have nothing : fragments [] = [] := by rw [fragments]
    have read := fragments_bracketed (2 * pairs) isClosing []
    rwa [nothing, List.append_nil] at read
  rw [whole, markupPieces, fragments_bracketed 0 isName, fragments_escapeBrackets_append solid, ended,
    piecesFrom, piecesFrom_append_bracketed]
  simp [piecesFrom, textPiece]

/-- Between the tags of a colour half the backslashes at the end are left. -/
theorem plainText_tagged {colour : Colour} {text front : List Char} {pairs : Nat}
    (ends : EndsInPairs text front pairs) (kept : ∀ c ∈ text, isDroppedControl c = false)
    (unnamed : ¬ HasEmojiCode emoji text) {styled : List StyledChar}
    (rendered : renderMarkup emoji (tagged colour (escapeMarkup text)) = .ok styled) :
    plainText styled = dropLooseBackslashes front ++ List.replicate pairs '\\' := by
  obtain ⟨rfl, solid⟩ := ends
  have inside := (List.prefix_append front (List.replicate (2 * pairs) '\\')).isInfix
  have keptToo : ∀ c ∈ front, isDroppedControl c = false :=
    fun c member => kept c (inside.subset member)
  have unnamedToo : ¬ HasEmojiCode emoji front := mt (HasEmojiCode.of_part inside) unnamed
  have opening : (bracketedPieces 0 colour.name.toList).flatMap (MarkupPiece.visible emoji) = [] :=
    visible_bracketedPieces 0 _
  rw [plainText_of_renderMarkup rendered, markupPieces_tagged colour solid, List.flatMap_append,
    List.flatMap_append, opening, visible_bracketedPieces, visible_pieces_escaped keptToo unnamedToo,
    List.nil_append]

end Shown

section Layout

def isControl (c : Char) : Bool :=
  c.toNat < 32 || (127 ≤ c.toNat && c.toNat < 160)

structure IsPrintable (emoji : EmojiTable) (text : List Char) : Prop where
  printable : ∀ c ∈ text, isControl c = false
  unnamed : ¬ HasEmojiCode emoji text

theorem IsPrintable.kept {text : List Char} (isPrintable : IsPrintable emoji text) :
    ∀ c ∈ text, isDroppedControl c = false := by
  intro c member
  have visible := isPrintable.printable c member
  simp only [isControl, Bool.or_eq_false_iff, decide_eq_false_iff_not] at visible
  rw [isDroppedControl, List.contains_eq_mem, decide_eq_false_iff_not]
  intro dropped
  simp only [List.mem_cons, List.not_mem_nil, or_false] at dropped
  omega

theorem layOut_none_of_line {text : List StyledChar}
    (line : ∀ c ∈ plainText text, c ≠ '\n' ∧ c ≠ '\t') : layOut none text = [text] := by
  have chars : ∀ c ∈ text, c.char ≠ '\n' ∧ c.char ≠ '\t' :=
    fun c member => line c.char (List.mem_map_of_mem member)
  have oneLine : text.splitOnP StyledChar.isNewline = [text] :=
    List.splitOnP_eq_singleton fun c member => by simpa [StyledChar.isNewline] using (chars c member).1
  have untabbed : ∀ c ∈ text, (!StyledChar.isTab c) = true :=
    fun c member => by simpa [StyledChar.isTab] using (chars c member).2
  have nothing : text.dropWhile (!StyledChar.isTab ·) = [] := List.dropWhile_eq_nil_iff.mpr untabbed
  have all : text.takeWhile (!StyledChar.isTab ·) = text := List.takeWhile_eq_self_iff.mpr untabbed
  rw [layOut, oneLine, List.map_singleton, expandTabs, all]
  split
  next => rfl
  next behind => simp [nothing] at behind

variable {console : Console} {text : String} {shown : List Char}

theorem writeEvent_key (running : Bool)
    (composed : console.compose ⟨escapedIn .red text, false⟩ = .ok (shown ++ ['\n'])) :
    ((∀ c ∈ shown, console.charset.encodes c = true) →
      console.writeEvent running (.key text) = (shown ++ ['\n'], none)) ∧
    ((¬ ∀ c ∈ shown, console.charset.encodes c = true) →
      ∃ c ∈ shown, console.charset.encodes c = false ∧
        console.writeEvent running (.key text) = ([], some (.unencodable c))) := by
  have newline : console.charset.encodes '\n' = true := console.charset.ascii '\n' (by decide)
  have printed : console.print ⟨escapedIn .red text, false⟩ =
      console.charset.encode (shown ++ ['\n']) := by
    rw [Console.print, composed]
  simp only [Console.writeEvent, LogEvent.messages, Console.printAll, printed]
  constructor
  · intro taken
    rw [Charset.encode_of_taken]
    · simp [LogEvent.endsProgress]
    · simp only [List.mem_append, List.mem_singleton]
      rintro c (own | rfl)
      · exact taken c own
      · exact newline
  · intro untaken
    have untakenToo : ¬ ∀ c ∈ shown ++ ['\n'], console.charset.encodes c = true :=
      fun all => untaken fun c own => all c (List.mem_append_left _ own)
    obtain ⟨c, member, refused, stopped⟩ := Charset.exists_refused untakenToo
    rcases List.mem_append.mp member with own | last
    · exact ⟨c, own, refused, by simp [stopped, LogEvent.endsProgress]⟩
    · obtain rfl := List.mem_singleton.mp last
      simp [newline] at refused

theorem compose_key (uncoloured : console.coloured = false)
    (rendered : ∀ styled, renderMarkup console.emoji (escapedIn .red text) = .ok styled →
      plainText styled = shown)
    (line : ∀ c ∈ shown, c ≠ '\n' ∧ c ≠ '\t') :
    console.compose ⟨escapedIn .red text, false⟩ = .ok (shown ++ ['\n']) := by
  obtain ⟨styled, found⟩ :=
    @IsHarmless.renderMarkup_eq_ok console.emoji _ (isHarmless_escapedIn .red text)
  obtain rfl := rendered styled found
  rw [Console.compose, found]
  change Except.ok ((layOut none styled).flatMap _) = _
  rw [layOut_none_of_line line, uncoloured]
  simp [paint]

end Layout

section Keys

theorem isBody_of_mem_keysOfBytes {bytes : Bytes} {file : Option String} {keys : KeySet}
    {key : LocalizationKey} (parsed : keysOfBytes standardKeySites bytes file = .ok keys)
    (member : key ∈ keys) : IsBody key.text.toList := by
  obtain ⟨text, _, _, rfl⟩ := keysOfBytes_eq_ok_iff.mp parsed
  obtain ⟨placed, listed, _, rfl⟩ := (keysOfEntries_entries file text).first key member
  obtain ⟨wellFormed, _⟩ := (leftmostEntries_entries text).stands placed listed
  simpa using wellFormed.key

/-- The last backslashes of what stands between two quotes come in pairs. -/
theorem even_of_isBody {text : List Char} (isBody : IsBody text) {front : List Char} {own : Nat}
    (whole : text = front ++ List.replicate own '\\') (solid : front.getLast? ≠ some '\\') :
    own % 2 = 0 := by
  induction isBody generalizing front own with
  | empty =>
      cases own with
      | zero => rfl
      | succ own => simp at whole
  | @plain c rest _ notBackslash _ ih =>
      cases front with
      | nil =>
          cases own with
          | zero => rfl
          | succ own => exact absurd (List.cons.inj whole).1 notBackslash
      | cons first front =>
          refine ih (List.cons.inj whole).2 fun last => ?_
          rw [List.getLast?_cons, last] at solid
          exact solid rfl
  | @escaped c rest _ ih =>
      match front, own with
      | [], 0 => rfl
      | [], 1 => simp [List.replicate_succ] at whole
      | [], own + 2 =>
          have behind : rest = [] ++ List.replicate own '\\' :=
            (List.cons.inj (List.cons.inj whole).2).2
          have pairs := ih behind (by simp)
          omega
      | [first], own =>
          obtain rfl : '\\' = first := (List.cons.inj whole).1
          exact absurd rfl solid
      | first :: second :: front, own =>
          refine ih (List.cons.inj (List.cons.inj whole).2).2 fun last => ?_
          rw [List.getLast?_cons, List.getLast?_cons, last] at solid
          exact solid rfl

theorem exists_endsInPairs {text : List Char} (isBody : IsBody text) :
    ∃ front pairs, EndsInPairs text front pairs := by
  obtain ⟨front, own, whole, solid⟩ := exists_trailing_backslashes text
  have even := even_of_isBody isBody whole solid
  obtain ⟨pairs, rfl⟩ : ∃ pairs, own = 2 * pairs := ⟨own / 2, by omega⟩
  exact ⟨front, pairs, whole, solid⟩

theorem shownKey_eq_self_iff {text front : List Char} {pairs : Nat}
    (ends : EndsInPairs text front pairs) :
    dropLooseBackslashes front ++ List.replicate pairs '\\' = text ↔
      text.getLast? ≠ some '\\' ∧
      ∀ before rest, text = before ++ '\\' :: '[' :: rest → OpensTag rest := by
  obtain ⟨rfl, solid⟩ := ends
  cases pairs with
  | zero =>
      rw [Nat.mul_zero, List.replicate_zero, List.append_nil, List.append_nil, and_iff_right solid]
      exact dropLooseBackslashes_eq_self_iff
  | succ pairs =>
      constructor
      · intro same
        have size := congrArg List.length same
        have shorter := (dropLooseBackslashes_sublist front).length_le
        simp only [List.length_append, List.length_replicate] at size
        omega
      · rintro ⟨last, _⟩
        refine absurd ?_ last
        rw [Nat.mul_succ, List.replicate_succ', ← List.append_assoc, List.getLast?_concat]

/--
A key is shown as it is but for two kinds of backslashes: one before a bracket that opens no tag is
lost, and of those at the end every second one. So it is shown as it is exactly if it has neither
and the output takes all of it.
-/
theorem writeEvent_key_exact {console : Console} (uncoloured : console.coloured = false)
    {bytes : Bytes} {file : Option String} {keys : KeySet} {key : LocalizationKey}
    (parsed : keysOfBytes standardKeySites bytes file = .ok keys) (member : key ∈ keys)
    (isPrintable : IsPrintable console.emoji key.text.toList) (running : Bool) :
    let written := console.writeEvent running (.key key.text)
    let taken := fun c => console.charset.encodes c = true
    (∃ front pairs, EndsInPairs key.text.toList front pairs) ∧
    (∀ front pairs, EndsInPairs key.text.toList front pairs →
      let shown := dropLooseBackslashes front ++ List.replicate pairs '\\'
      ((∀ c ∈ shown, taken c) → written = (shown ++ ['\n'], none)) ∧
      ((¬ ∀ c ∈ shown, taken c) →
        ∃ c ∈ shown, ¬ taken c ∧ written = ([], some (.unencodable c)))) ∧
    (written = (key.text.toList ++ ['\n'], none) ↔
      key.text.toList.getLast? ≠ some '\\' ∧
      (∀ before rest, key.text.toList = before ++ '\\' :: '[' :: rest → OpensTag rest) ∧
      ∀ c ∈ key.text.toList, taken c) := by
  intro written taken
  have outcome : ∀ front pairs, EndsInPairs key.text.toList front pairs →
      let shown := dropLooseBackslashes front ++ List.replicate pairs '\\'
      ((∀ c ∈ shown, taken c) → written = (shown ++ ['\n'], none)) ∧
      ((¬ ∀ c ∈ shown, taken c) →
        ∃ c ∈ shown, ¬ taken c ∧ written = ([], some (.unencodable c))) := by
    intro front pairs ends shown
    have line : ∀ c ∈ shown, c ≠ '\n' ∧ c ≠ '\t' := by
      intro c isShown
      have visible : isControl c = false := by
        rcases List.mem_append.mp isShown with before | slash
        · refine isPrintable.printable c ?_
          rw [ends.whole]
          exact List.mem_append_left _ ((dropLooseBackslashes_sublist front).subset before)
        · obtain rfl := (List.mem_replicate.mp slash).2
          decide
      constructor
      all_goals
        rintro rfl
        exact absurd visible (by decide)
    have composed : console.compose ⟨escapedIn .red key.text, false⟩ = .ok (shown ++ ['\n']) := by
      apply compose_key uncoloured _ line
      intro styled rendered
      exact plainText_tagged ends isPrintable.kept isPrintable.unnamed rendered
    simpa [taken] using writeEvent_key running composed
  obtain ⟨front, pairs, ends⟩ := exists_endsInPairs (isBody_of_mem_keysOfBytes parsed member)
  refine ⟨⟨front, pairs, ends⟩, outcome, ?_⟩
  obtain ⟨shownWhole, stopped⟩ := outcome front pairs ends
  have verbatim := shownKey_eq_self_iff ends
  rw [← and_assoc, ← verbatim]
  constructor
  · intro same
    by_cases all : ∀ c ∈ dropLooseBackslashes front ++ List.replicate pairs '\\', taken c
    · have isKey : dropLooseBackslashes front ++ List.replicate pairs '\\' = key.text.toList := by
        have both := (shownWhole all).symm.trans same
        exact List.append_cancel_right (Prod.mk.inj both).1
      rw [isKey] at all
      exact ⟨isKey, all⟩
    · obtain ⟨c, _, _, failed⟩ := stopped all
      simp [same] at failed
  · rintro ⟨isKey, all⟩
    rw [isKey] at shownWhole
    exact shownWhole all

def slashedText : List Char :=
  "\"\\[b]\\[/red]\" = \"1\";\n\"\\[1]\" = \"2\";\n\"a\\\\\" = \"3\";\n\"⚠\" = \"4\";".toList

def slashedKeys : KeySet :=
  [⟨"\\[b]\\[/red]", none, some 1⟩, ⟨"\\[1]", none, some 2⟩, ⟨"a\\\\", none, some 3⟩,
    ⟨"⚠", none, some 4⟩]

def latinConsole : Console :=
  { charset := .upTo 256 (by decide) }

theorem writeEvent_key_exact_slashed :
    keysOfBytes standardKeySites (encodeUtf8 slashedText) none = .ok slashedKeys ∧
    latinConsole.writeEvent false (.key "\\[b]\\[/red]") = ("\\[b]\\[/red]\n".toList, none) ∧
    latinConsole.writeEvent false (.key "\\[1]") = ("[1]\n".toList, none) ∧
    latinConsole.writeEvent false (.key "a\\\\") = ("a\\\n".toList, none) ∧
    latinConsole.writeEvent false (.key "⚠") = ([], some (.unencodable '⚠')) := by
  have sites : keysOfSites none (standardKeySites slashedText) = slashedKeys := by decide +kernel
  have parsed : keysOfBytes standardKeySites (encodeUtf8 slashedText) none = .ok slashedKeys := by
    rw [keysOfBytes_of_decodeText (decodeText_encodeUtf8 slashedText), sites]
  have isPrintable : ∀ key ∈ slashedKeys, IsPrintable .common key.text.toList := by
    intro key member
    have visible : ∀ key ∈ slashedKeys, ∀ c ∈ key.text.toList, isControl c = false := by
      simp [slashedKeys, isControl]
    have noColon : ∀ key ∈ slashedKeys, ':' ∉ key.text.toList := by simp [slashedKeys]
    exact ⟨visible key member, not_hasEmojiCode_of_plain (noColon key member)⟩
  have written : ∀ key ∈ slashedKeys, ∀ front pairs, EndsInPairs key.text.toList front pairs →
      let shown := dropLooseBackslashes front ++ List.replicate pairs '\\'
      ((∀ c ∈ shown, latinConsole.charset.encodes c = true) →
        latinConsole.writeEvent false (.key key.text) = (shown ++ ['\n'], none)) ∧
      ((¬ ∀ c ∈ shown, latinConsole.charset.encodes c = true) →
        ∃ c ∈ shown, ¬ latinConsole.charset.encodes c = true ∧
          latinConsole.writeEvent false (.key key.text) = ([], some (.unencodable c))) := by
    intro key member
    exact (@writeEvent_key_exact latinConsole rfl _ _ _ _ parsed member (isPrintable key member)
      false).2.1
  refine ⟨parsed, ?_, ?_, ?_, ?_⟩
  · exact (written ⟨_, none, some 1⟩ (by decide) "\\[b]\\[/red]".toList 0
      ⟨by decide, by decide⟩).1 (List.all_eq_true.mp (by decide))
  · exact (written ⟨_, none, some 2⟩ (by decide) "\\[1]".toList 0 ⟨by decide, by decide⟩).1
      (List.all_eq_true.mp (by decide))
  · exact (written ⟨_, none, some 3⟩ (by decide) ['a'] 1 ⟨by decide, by decide⟩).1
      (List.all_eq_true.mp (by decide))
  · obtain ⟨c, shown, _, stopped⟩ :=
      (written ⟨"⚠", none, some 4⟩ (by decide) ['⚠'] 0 ⟨by decide, by decide⟩).2
        (mt List.all_eq_true.mpr (by decide))
    obtain rfl : c = '⚠' := by simpa [dropLooseBackslashes] using shown
    exact stopped

end Keys

end LocalizationAudit

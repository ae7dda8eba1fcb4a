import LocalizationAudit.Proofs.Literal.RawDelimiters

/-!
Raw literals on a single line. Besides its own delimiters such a literal loses two quotes that stand
before the closing one, as the closing delimiter of a literal of several lines has them. One that
holds nothing but a quote is taken for the opening of a literal of several lines.
-/

namespace LocalizationAudit

def dropClosingPair (text : List Char) : List Char :=
  (dropTwoQuotes text.reverse).reverse

section Quotes

variable {text : List Char}

theorem dropTwoQuotes_of_no_pair (plain : ¬ ['"', '"'] <+: text) : dropTwoQuotes text = text := by
  unfold dropTwoQuotes
  split
  next rest => exact absurd ⟨rest, rfl⟩ plain
  next => rfl

theorem dropClosingPair_append (text : List Char) : dropClosingPair (text ++ ['"', '"']) = text := by
  simp [dropClosingPair, dropTwoQuotes]

theorem dropClosingPair_of_no_pair (plain : ¬ ['"', '"'] <:+ text) :
    dropClosingPair text = text := by
  have backwards : ¬ ['"', '"'] <+: text.reverse := fun pair =>
    plain (List.reverse_prefix.mp (by simpa using pair))
  rw [dropClosingPair, dropTwoQuotes_of_no_pair backwards, List.reverse_reverse]

/-- The closing delimiter completes a pair at the opening one only where a quote stands alone. -/
theorem no_pair_behind_opening (more : Nat) {parts : List (List Char)}
    (opens : ∀ first ∈ parts.head?, ¬ ['"', '"'] <+: first) (other : parts ≠ [['"']]) :
    ∀ first ∈ (List.modifyLast (· ++ '"' :: List.replicate (more + 1) '#') parts).head?,
      ¬ ['"', '"'] <+: first := by
  match parts with
  | [] => simp [List.modifyLast, List.modifyLast.go]
  | [[]] => simp [List.replicate_succ]
  | [[c]] => simpa [eq_comm] using other
  | [first :: second :: text] => simpa using opens
  | first :: next :: others => simpa using opens

end Quotes

namespace LiteralItem

variable {items : List LiteralItem}

def rawLine (hashes : Nat) (items : List LiteralItem) : List LiteralItem :=
  ofText (List.replicate hashes '#' ++ ['"']) ++ items ++
    ofText ('"' :: List.replicate hashes '#')

/-- What begins the spelling stands in the first part, as an interpolation begins otherwise. -/
theorem prefix_head_of_spell {text : List Char} (plain : '\\' ∉ text)
    (escaped : ∀ spelling, .interpolation spelling ∈ items → ['\\'] <+: spelling)
    (starts : text <+: spell items) : ∀ first ∈ (staticParts items).head?, text <+: first := by
  induction text generalizing items with
  | nil => simp
  | cons c text ih =>
      cases items with
      | nil => simp [spell] at starts
      | cons item items =>
          have later := fun spelling member => escaped spelling (List.mem_cons_of_mem item member)
          cases item with
          | char d =>
              obtain ⟨rfl, more⟩ := List.cons_prefix_cons.mp starts
              obtain ⟨first, others, parts⟩ :=
                List.exists_cons_of_ne_nil (staticParts_ne_nil items)
              have found := ih (List.not_mem_of_not_mem_cons plain) later more
              rw [parts] at found
              rw [staticParts, parts]
              simpa using found
          | interpolation spelling =>
              obtain ⟨rest, rfl⟩ := escaped spelling List.mem_cons_self
              obtain ⟨rfl, _⟩ := List.cons_prefix_cons.mp starts
              simp at plain

theorem eq_ofText_of_staticParts {text : List Char} (single : staticParts items = [text]) :
    items = ofText text := by
  induction items generalizing text with
  | nil =>
      obtain rfl : [] = text := by simpa [staticParts] using single
      rfl
  | cons item items ih =>
      obtain ⟨first, others, parts⟩ := List.exists_cons_of_ne_nil (staticParts_ne_nil items)
      cases item with
      | char c =>
          rw [staticParts, parts, List.modifyHead_cons] at single
          obtain ⟨rfl, rfl⟩ := List.cons.inj single
          rw [ih parts]
          rfl
      | interpolation spelling => simp [staticParts, parts] at single

theorem head?_modifyLast_keptParts (change : List Char → List Char) (parts : List (List Char)) :
    (List.modifyLast change (keptParts parts)).head? = (List.modifyLast change parts).head? := by
  match parts with
  | [] => rfl
  | [part] => rfl
  | first :: next :: others =>
      rw [keptParts, modifyLast_cons first (keptBehind_ne_nil (by simp)),
        modifyLast_cons first (by simp)]
      rfl

theorem filter_modifyLast_keptBehind (change : List Char → List Char) (parts : List (List Char)) :
    (List.modifyLast change (keptBehind parts)).filter (!·.isEmpty) =
      (List.modifyLast change parts).filter (!·.isEmpty) := by
  fun_induction keptBehind parts with
  | case1 => rfl
  | case2 last => rfl
  | case3 next others ih => simpa using ih
  | case4 part next others nonempty ih =>
      rw [modifyLast_cons part (keptBehind_ne_nil (by simp)), modifyLast_cons part (by simp),
        List.filter_cons, List.filter_cons, ih]

theorem filter_modifyLast_keptParts (change : List Char → List Char) (parts : List (List Char)) :
    (List.modifyLast change (keptParts parts)).filter (!·.isEmpty) =
      (List.modifyLast change parts).filter (!·.isEmpty) := by
  match parts with
  | [] => rfl
  | [part] => rfl
  | first :: next :: others =>
      rw [keptParts, modifyLast_cons first (keptBehind_ne_nil (by simp)),
        modifyLast_cons first (by simp), List.filter_cons, List.filter_cons,
        filter_modifyLast_keptBehind]

/-- Taking a pair of quotes off the last part changes what is not empty, if there is a pair. -/
theorem filter_dropClosingPair_eq_iff {parts : List (List Char)} :
    (List.modifyLast dropClosingPair parts).filter (!·.isEmpty) = parts.filter (!·.isEmpty) ↔
      ∀ last ∈ parts.getLast?, ¬ ['"', '"'] <:+ last := by
  rcases List.eq_nil_or_concat parts with rfl | ⟨lead, last, rfl⟩
  · simp [List.modifyLast, List.modifyLast.go]
  rw [List.concat_eq_append, List.modifyLast_concat, List.filter_append, List.filter_append,
    List.append_cancel_left_eq, List.getLast?_concat]
  constructor
  · rintro same _ ⟨⟩ ⟨body, rfl⟩
    rw [dropClosingPair_append] at same
    cases body <;> simp at same
  · intro plain
    rw [dropClosingPair_of_no_pair (plain last rfl)]

end LiteralItem

section Stripping

variable {parts : List (List Char)}

theorem modifyHead_stripRawOpening (more : Nat)
    (plain : ∀ first ∈ (List.modifyLast (· ++ '"' :: List.replicate (more + 1) '#') parts).head?,
      ¬ ['"', '"'] <+: first) :
    (List.modifyLast (· ++ '"' :: List.replicate (more + 1) '#')
        (parts.modifyHead (List.replicate (more + 1) '#' ++ ['"'] ++ ·))).modifyHead
        stripRawOpening =
      List.modifyLast (· ++ '"' :: List.replicate (more + 1) '#') parts := by
  match parts with
  | [] => rfl
  | [part] =>
      have opening := stripRawOpening_append more (part ++ '"' :: List.replicate (more + 1) '#')
      rw [dropTwoQuotes_of_no_pair (plain _ rfl)] at opening
      simpa using opening
  | first :: next :: others =>
      have opening := stripRawOpening_append more first
      rw [dropTwoQuotes_of_no_pair (plain first (by simp))] at opening
      simpa using opening

/-- The closing delimiter is taken for that of a literal of several lines. -/
theorem stripDelimiters_rawLine (more : Nat)
    (plain : ∀ first ∈ (List.modifyLast (· ++ '"' :: List.replicate (more + 1) '#') parts).head?,
      ¬ ['"', '"'] <+: first) :
    stripDelimiters .raw false true true
      (List.modifyLast (· ++ '"' :: List.replicate (more + 1) '#')
        (parts.modifyHead (List.replicate (more + 1) '#' ++ ['"'] ++ ·))) =
      List.modifyLast dropClosingPair parts := by
  simp only [stripDelimiters, if_true, beq_self_eq_true, reverse_modifyHead_reverse]
  rw [if_neg (by simp), modifyHead_stripRawOpening more plain,
    modifyLast_append_before (stripRawClosing_append more)]
  rfl

theorem stripRawClosing_hashes (more : Nat) :
    stripRawClosing (List.replicate (more + 1) '#') = List.replicate (more + 1) '#' := by
  have backwards : (List.replicate (more + 1) '#').reverse = '#' :: List.replicate more '#' := by
    rw [List.reverse_replicate, List.replicate_succ]
  have unended : splitFinalNewline (List.replicate (more + 1) '#') =
      (List.replicate (more + 1) '#', []) := by
    unfold splitFinalNewline
    rw [backwards]
    rfl
  unfold stripRawClosing
  rw [unended]
  simp [List.replicate_succ]

theorem splitClosingLine_hashes (more : Nat) :
    splitClosingLine (List.replicate (more + 1) '#') = none := by
  rw [splitClosingLine, List.reverse_replicate, List.replicate_succ]
  simp [splitBlankLine, isIndent]

/-- A quote alone completes the opening delimiter, and no quote is left for the closing one. -/
theorem stripDelimiters_rawQuote (more : Nat) :
    stripDelimiters .raw true true true
      [List.replicate (more + 1) '#' ++ '"' :: '"' :: '"' :: List.replicate (more + 1) '#'] =
      [List.replicate (more + 1) '#'] := by
  have opening := stripRawOpening_append more ('"' :: '"' :: List.replicate (more + 1) '#')
  rw [dropTwoQuotes] at opening
  simp only [stripDelimiters, stripMultiLine, if_true, beq_self_eq_true, List.modifyHead_cons,
    reverse_modifyHead_reverse, modifyLast_singleton, opening, stripRawClosing_hashes, List.getLast?_singleton, Option.bind_some,
    splitClosingLine_hashes]
  rfl

end Stripping

namespace SyntaxNode

open LiteralItem

variable {source : Bytes} {node : SyntaxNode} {items : List LiteralItem} {more : Nat}

theorem IsWritten.spansLines_of_no_pair
    (written : node.IsWritten source .raw (rawLine (more + 1) items))
    (escaped : ∀ spelling, .interpolation spelling ∈ items → ['\\'] <+: spelling)
    (plain : ∀ first ∈ (List.modifyLast (· ++ '"' :: List.replicate (more + 1) '#')
      (staticParts items)).head?, ¬ ['"', '"'] <+: first) :
    node.spansLines source .raw = false := by
  rw [← staticParts_append_ofText] at plain
  generalize isBehind : items ++ ofText ('"' :: List.replicate (more + 1) '#') = behind at plain
  have escapedBehind : ∀ spelling, .interpolation spelling ∈ behind → ['\\'] <+: spelling := by
    simpa [← isBehind, ofText] using escaped
  have spelled : spell (rawLine (more + 1) items) =
      List.replicate (more + 1) '#' ++ '"' :: spell behind := by
    simp [rawLine, ← isBehind]
  obtain ⟨rest, spans⟩ := written.spansLines_eq
  rw [spans, spelled, ← Bool.not_eq_true]
  intro opened
  have pair := pair_of_opensMultiLine (by simp [← isBehind]; omega) opened
  have inFirst := prefix_head_of_spell (by decide) escapedBehind pair
  obtain ⟨first, others, parts⟩ := List.exists_cons_of_ne_nil (staticParts_ne_nil behind)
  rw [parts] at plain inFirst
  exact plain first rfl (inFirst first rfl)

theorem IsWritten.segments_rawLine
    (written : node.IsWritten source .raw (rawLine (more + 1) items)) :
    node.segments source = .ok (stripDelimiters .raw (node.spansLines source .raw) true true
      (List.modifyLast (· ++ '"' :: List.replicate (more + 1) '#')
        ((keptParts (staticParts items)).modifyHead
          (List.replicate (more + 1) '#' ++ ['"'] ++ ·)))) := by
  obtain ⟨last, isLast⟩ := exists_last_char
    (ofText (List.replicate (more + 1) '#' ++ ['"']) ++ items)
    (by simp : '"' :: List.replicate (more + 1) '#' ≠ [])
  rw [written.segments_eq rfl isLast, rawLine, staticParts_append_ofText, staticParts_ofText_append,
    filter_written_eq (by simp) (by simp)]

theorem IsWritten.segments_of_quote
    (written : node.IsWritten source .raw (rawLine (more + 1) items))
    (alone : staticParts items = [['"']]) :
    node.segments source = .ok [List.replicate (more + 1) '#'] := by
  have spelled : spell (rawLine (more + 1) items) = List.replicate (more + 1) '#' ++
      '"' :: '"' :: '"' :: List.replicate (more + 1) '#' := by
    simp [rawLine, eq_ofText_of_staticParts alone]
  have spans : node.spansLines source .raw = true := by
    refine written.spansLines_raw more ⟨List.replicate (more + 1) '#', ?_⟩
    rw [spelled, List.append_assoc]
    rfl
  have stripped := stripDelimiters_rawQuote more
  rw [written.segments_rawLine, spans, alone]
  simpa [keptParts, keptBehind] using stripped

/--
Of a raw literal on a single line the segments that are not empty are the parts between its
delimiters as they are written, unless the last part ends in two quotes or there is only a quote.
-/
theorem segments_of_raw_line {hashes : Nat} (positive : 1 ≤ hashes)
    (opens : ∀ first ∈ (staticParts items).head?, ¬ ['"', '"'] <+: first)
    (escaped : ∀ spelling, .interpolation spelling ∈ items → ['\\'] <+: spelling)
    (written : node.IsWritten source .raw (rawLine hashes items)) :
    ∃ segments, node.segments source = .ok segments ∧
      (segments.filter (!·.isEmpty) = (staticParts items).filter (!·.isEmpty) ↔
        staticParts items ≠ [['"']] ∧
          ∀ last ∈ (staticParts items).getLast?, ¬ ['"', '"'] <:+ last) ∧
      (staticParts items ≠ [['"']] → segments.filter (!·.isEmpty) =
        (List.modifyLast dropClosingPair (staticParts items)).filter (!·.isEmpty)) ∧
      (staticParts items = [['"']] → segments = [List.replicate hashes '#']) := by
  obtain ⟨more, rfl⟩ := Nat.exists_eq_add_of_le' positive
  by_cases alone : staticParts items = [['"']]
  · refine ⟨_, written.segments_of_quote alone, ?_, fun other => absurd alone other, fun _ => rfl⟩
    simp [alone, List.replicate_succ]
  · have plain := no_pair_behind_opening more opens alone
    have single : node.spansLines source .raw = false :=
      written.spansLines_of_no_pair escaped plain
    refine ⟨_, ?_, ?_, fun _ => filter_modifyLast_keptParts _ _, fun same => absurd same alone⟩
    · rw [← head?_modifyLast_keptParts] at plain
      rw [written.segments_rawLine, single, stripDelimiters_rawLine more plain]
    · rw [filter_modifyLast_keptParts, filter_dropClosingPair_eq_iff]
      exact (and_iff_right alone).symm

def rawSpelling (content : List Char) : List Char :=
  '#' :: '"' :: content ++ ['"', '#']

def rawText (content : List Char) : SyntaxNode :=
  let span := ⟨0, (encodeUtf8 (rawSpelling content)).length⟩
  .mk (.literal .raw) span .sound [Swift.leaf .text span]

theorem isWritten_rawText (content : List Char) :
    (rawText content).IsWritten (encodeUtf8 (rawSpelling content)) .raw
      (rawLine 1 (ofText content)) := by
  have isText : rawLine 1 (ofText content) = ofText (rawSpelling content) := by
    simp [rawLine, ofText, rawSpelling]
  rw [isText]
  unfold rawText
  generalize isSpelling : rawSpelling content = text
  have spelled : slice (encodeUtf8 text) ⟨0, (encodeUtf8 text).length⟩ =
      encodeUtf8 (spell (ofText text)) := by
    rw [spell_ofText]
    exact List.take_length
  have laid := @Laid.text (encodeUtf8 text).length 0 text []
    (Swift.leaf .text ⟨0, (encodeUtf8 text).length⟩) [] rfl (by simp [← isSpelling, rawSpelling])
    (by rw [Nat.zero_add]; rfl) (by rw [Nat.zero_add]; exact .done)
  rw [List.append_nil] at laid
  exact ⟨rfl, _, _, .whole, spelled, laid⟩

def rawInterpolated : SyntaxNode :=
  .mk (.literal .raw) ⟨0, 16⟩ .sound
    [Swift.leaf .text ⟨0, 4⟩, Swift.leaf .interpolation ⟨4, 10⟩, Swift.leaf .text ⟨10, 16⟩]

def rawInterpolatedItems : List LiteralItem :=
  [.char '"', .interpolation "\\##(b)".toList, .char '"', .char '#', .char ' ']

theorem isWritten_rawInterpolated :
    rawInterpolated.IsWritten (encodeUtf8 "##\"\"\\##(b)\"# \"##".toList) .raw
      (rawLine 2 rawInterpolatedItems) := by
  refine ⟨rfl, rawInterpolated.span, rawInterpolated.children, .whole, by decide +kernel, ?_⟩
  refine @Laid.text 16 0 ['#', '#', '"', '"'] _ _ _ rfl (by simp) rfl ?_
  refine @Laid.interpolation 16 4 "\\##(b)".toList _ _ _ [Swift.leaf .interpolation ⟨4, 10⟩] _
    (by decide) rfl rfl rfl rfl ?_
  exact @Laid.text 16 10 ['"', '#', ' ', '"', '#', '#'] [] _ [] rfl (by simp) rfl .done

/-- A pair of quotes at the end is lost, and so is a quote alone; other quotes are kept. -/
theorem segments_of_raw_line_samples :
    (∃ segments, (rawText "a\"\"".toList).segments (encodeUtf8 (rawSpelling "a\"\"".toList)) =
      .ok segments ∧ segments.filter (!·.isEmpty) = [['a']]) ∧
    (rawText ['"']).segments (encodeUtf8 (rawSpelling ['"'])) = .ok [['#']] ∧
    (∃ segments, rawInterpolated.segments (encodeUtf8 "##\"\"\\##(b)\"# \"##".toList) =
      .ok segments ∧ segments.filter (!·.isEmpty) = [['"'], ['"', '#', ' ']]) := by
  obtain ⟨shortened, isShortened, _, taken, _⟩ := segments_of_raw_line (Nat.le_refl 1)
    (by decide) (by simp [ofText]) (isWritten_rawText "a\"\"".toList)
  obtain ⟨hashes, isHashes, _, _, alone⟩ := segments_of_raw_line (Nat.le_refl 1)
    (by decide) (by simp [ofText]) (isWritten_rawText ['"'])
  obtain ⟨kept, isKept, verbatim, _⟩ := segments_of_raw_line (Nat.le_succ 1)
    (by decide) (by simp [rawInterpolatedItems]) isWritten_rawInterpolated
  refine ⟨⟨shortened, isShortened, taken (by decide)⟩, ?_, kept, isKept, verbatim.mpr (by decide)⟩
  rw [isHashes, alone rfl]
  rfl

end SyntaxNode

end LocalizationAudit

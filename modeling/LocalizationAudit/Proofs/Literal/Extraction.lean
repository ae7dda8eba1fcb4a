import LocalizationAudit.Literal.Extraction
import LocalizationAudit.Proofs.Literal.Segments
import LocalizationAudit.Proofs.Text.Order
import LocalizationAudit.Swift.Language

/-!
What comes of extracting the literals of a source: bytes that are no text are refused before any
parsing, a tree with a fault anywhere is refused, and any other tree gives exactly the segments of
its literals, however deep they lie.
-/

namespace LocalizationAudit

def SyntaxNode.HasSegment (source : Bytes) (root : SyntaxNode) (text : String) : Prop :=
  ∃ node ∈ root.preorder, node.isLiteral = true ∧
    ∃ segments, node.segments source = .ok segments ∧ text.toList ∈ segments

instance (source : Bytes) (root : SyntaxNode) (text : String) :
    Decidable (root.HasSegment source text) :=
  decidable_of_iff
    (∃ node ∈ root.preorder, node.isLiteral = true ∧
      ((node.segments source).toOption.getD []).contains text.toList = true) (by
    refine exists_congr fun node => and_congr_right fun _ => and_congr_right fun _ => ?_
    cases node.segments source <;> simp [Except.toOption])

theorem mem_nonemptyTexts {segments : List (List Char)} {text : String} :
    text ∈ (segments.filter fun segment => !segment.isEmpty).map String.ofList ↔
      text ≠ "" ∧ text.toList ∈ segments := by
  simp only [List.mem_map, List.mem_filter, Bool.not_eq_true', List.isEmpty_eq_false_iff]
  constructor
  · rintro ⟨segment, ⟨member, nonempty⟩, rfl⟩
    exact ⟨by simpa using nonempty, by simpa using member⟩
  · rintro ⟨nonempty, member⟩
    exact ⟨text.toList, ⟨member, by simpa using nonempty⟩, String.ofList_toList⟩

section Texts

variable {source : Bytes} {nodes : List SyntaxNode} {texts : List String}

theorem segmentTexts_cons_eq_ok_iff {node : SyntaxNode} :
    segmentTexts source (node :: nodes) = .ok texts ↔
      ∃ segments rest, node.segments source = .ok segments ∧ segmentTexts source nodes = .ok rest ∧
        texts = (segments.filter fun segment => !segment.isEmpty).map String.ofList ++ rest := by
  rw [segmentTexts]
  cases node.segments source with
  | error failure => simp [bind, Except.bind]
  | ok segments =>
      cases segmentTexts source nodes <;> simp [bind, Except.bind, pure, Except.pure, eq_comm]

theorem segmentTexts_total (all : ∀ node ∈ nodes, ∃ segments, node.segments source = .ok segments) :
    ∃ texts, segmentTexts source nodes = .ok texts := by
  induction nodes with
  | nil => exact ⟨[], rfl⟩
  | cons node others ih =>
      obtain ⟨segments, found⟩ := all node List.mem_cons_self
      obtain ⟨rest, later⟩ := ih fun other member => all other (List.mem_cons_of_mem _ member)
      exact ⟨_, segmentTexts_cons_eq_ok_iff.mpr ⟨segments, rest, found, later, rfl⟩⟩

theorem mem_segmentTexts (found : segmentTexts source nodes = .ok texts) (text : String) :
    text ∈ texts ↔ text ≠ "" ∧ ∃ node ∈ nodes, ∃ segments, node.segments source = .ok segments ∧
      text.toList ∈ segments := by
  induction nodes generalizing texts with
  | nil =>
      obtain rfl := Except.ok.inj found
      simp
  | cons node others ih =>
      obtain ⟨segments, rest, here, later, rfl⟩ := segmentTexts_cons_eq_ok_iff.mp found
      simp [mem_nonemptyTexts, ih later, here, and_or_left]

end Texts

section Outcomes

variable {source : Bytes} {file : String}

theorem decodeText_source (source : Bytes) :
    (∃ text, decodeText source sourceEncodings = .ok (text, .utf8) ∧ source = encodeUtf8 text) ∨
    (∃ failure, decodeText source sourceEncodings = .error (.rejected failure) ∧
      ¬ IsUtf8 source) := by
  rw [decodeText, sourceEncodings, decodeAfter]
  cases decoded : Encoding.decode source .utf8 with
  | ok text => exact .inl ⟨text, rfl, decode_utf8_eq_ok_iff.mp decoded⟩
  | error failure =>
      refine .inr ⟨failure, rfl, ?_⟩
      rintro ⟨text, spelled⟩
      rw [decode_utf8_eq_ok_iff.mpr spelled] at decoded
      simp at decoded

theorem not_isUtf8_of_refused {error : DecodeError}
    (refused : decodeText source sourceEncodings = .error error) : ¬ IsUtf8 source := by
  rcases decodeText_source source with ⟨_, decoded, _⟩ | ⟨_, _, noText⟩
  · simp [decoded] at refused
  · exact noText

theorem extractBytes_of_utf8 (grammar : Grammar) (isText : IsUtf8 source) :
    grammar.extractBytes source file = grammar.extract source file := by
  rcases decodeText_source source with ⟨text, decoded, _⟩ | ⟨_, _, noText⟩
  · rw [Grammar.extractBytes, decoded]
  · exact absurd isText noText

theorem extractBytes_of_not_utf8 (grammar : Grammar) (file : String) (noText : ¬ IsUtf8 source) :
    ∃ reason, grammar.extractBytes source file =
      .error (.audit (.undecodableSource file reason)) := by
  rcases decodeText_source source with ⟨text, _, spelled⟩ | ⟨failure, refused, _⟩
  · exact absurd ⟨text, spelled⟩ noText
  · rw [Grammar.extractBytes, refused]
    exact ⟨_, rfl⟩

variable {root : SyntaxNode}

theorem literalsOfTree_of_fault (file : String) (faulty : ∃ node ∈ root.preorder, node.isFaulty = true) :
    literalsOfTree source file root =
      .error (.audit (.unparsableSource file (root.firstErrorLine source))) := by
  rw [literalsOfTree, if_pos (SyntaxNode.hasError_iff.mpr faulty)]

theorem literalsOfTree_of_sound (source : Bytes) (file : String)
    (sound : ¬ ∃ node ∈ root.preorder, node.isFaulty = true) :
    (∃ texts, literalsOfTree source file root = .ok texts ∧ texts.Nodup ∧
      ∀ text, text ∈ texts ↔ text ≠ "" ∧ root.HasSegment source text) ∨
    (∃ failure, literalsOfTree source file root = .error (.undecodable (.rejected failure)) ∧
      ¬ root.IsTreeOf source) := by
  rw [literalsOfTree, if_neg (mt SyntaxNode.hasError_iff.mp sound), Cursor.literals_ofRoot]
  cases found : segmentTexts source (root.preorder.filter SyntaxNode.isLiteral) with
  | ok texts =>
      refine .inl ⟨texts.eraseDups, rfl, nodup_eraseDups texts, fun text => ?_⟩
      rw [List.mem_eraseDups, mem_segmentTexts found]
      simp only [List.mem_filter, and_assoc, SyntaxNode.HasSegment]
  | error failure =>
      refine .inr ⟨failure, rfl, fun isTree => ?_⟩
      obtain ⟨texts, returned⟩ : ∃ texts,
          segmentTexts source (root.preorder.filter SyntaxNode.isLiteral) = .ok texts :=
        segmentTexts_total fun node member => isTree.segments_total (List.mem_of_mem_filter member)
      simp [found] at returned

theorem extractBytes_of_fault (language file : String) {parse : Bytes → SyntaxNode}
    (isText : IsUtf8 source) (faulty : ∃ node ∈ (parse source).preorder, node.isFaulty = true) :
    (Grammar.mk language (.ok parse)).extractBytes source file =
      .error (.audit (.unparsableSource file ((parse source).firstErrorLine source))) := by
  rw [extractBytes_of_utf8 _ isText, Grammar.extract]
  exact literalsOfTree_of_fault file faulty

theorem extractBytes_of_sound (language file : String) {parse : Bytes → SyntaxNode}
    (isText : IsUtf8 source) (sound : ¬ ∃ node ∈ (parse source).preorder, node.isFaulty = true) :
    (∃ texts, (Grammar.mk language (.ok parse)).extractBytes source file = .ok texts ∧
      texts.Nodup ∧ ∀ text, text ∈ texts ↔ text ≠ "" ∧ (parse source).HasSegment source text) ∨
    (∃ failure, (Grammar.mk language (.ok parse)).extractBytes source file =
        .error (.undecodable (.rejected failure)) ∧ ¬ (parse source).IsTreeOf source) := by
  rw [extractBytes_of_utf8 _ isText, Grammar.extract]
  exact literalsOfTree_of_sound source file sound

/-- Bytes are refused as no text exactly when they are none, whatever the grammar is. -/
theorem extractBytes_undecodable_iff (grammar : Grammar) :
    (∃ path reason,
      grammar.extractBytes source file = .error (.audit (.fileUndecodable path reason))) ↔
      ¬ IsUtf8 source := by
  constructor
  · rintro ⟨path, reason, refused⟩ isText
    rw [extractBytes_of_utf8 grammar isText, Grammar.extract] at refused
    cases parsed : grammar.parse with
    | error explanation => simp [parsed, AuditError.grammarNotLoaded] at refused
    | ok parse =>
        simp only [parsed] at refused
        by_cases faulty : ∃ node ∈ (parse source).preorder, node.isFaulty = true
        · simp [literalsOfTree_of_fault file faulty, AuditError.unparsableSource] at refused
        · rcases literalsOfTree_of_sound source file faulty with
            ⟨_, returned, _⟩ | ⟨_, failed, _⟩
          · simp [returned] at refused
          · simp [failed] at refused
  · intro noText
    obtain ⟨reason, refused⟩ := extractBytes_of_not_utf8 grammar file noText
    exact ⟨file, _, refused⟩

theorem extractBytes_unparsable_iff (language : String) (parse : Bytes → SyntaxNode) :
    (∃ path reason, (Grammar.mk language (.ok parse)).extractBytes source file =
      .error (.audit (.fileUnparsable path reason))) ↔
      IsUtf8 source ∧ ∃ node ∈ (parse source).preorder, node.isFaulty = true := by
  constructor
  · rintro ⟨path, reason, refused⟩
    have isText : IsUtf8 source := by
      by_contra noText
      obtain ⟨_, other⟩ := extractBytes_of_not_utf8 ⟨language, .ok parse⟩ file noText
      simp [other, AuditError.undecodableSource] at refused
    refine ⟨isText, ?_⟩
    by_contra sound
    rcases extractBytes_of_sound language file isText sound with
      ⟨_, returned, _⟩ | ⟨_, failed, _⟩
    · simp [returned] at refused
    · simp [failed] at refused
  · rintro ⟨isText, faulty⟩
    exact ⟨file, _, extractBytes_of_fault language file isText faulty⟩

theorem extractBytes_eq_ok {language : String} {parse : Bytes → SyntaxNode} {texts : List String}
    (returned : (Grammar.mk language (.ok parse)).extractBytes source file = .ok texts) :
    IsUtf8 source ∧ (¬ ∃ node ∈ (parse source).preorder, node.isFaulty = true) ∧
      ∀ text, text ∈ texts ↔ text ≠ "" ∧ (parse source).HasSegment source text := by
  have isText : IsUtf8 source := by
    by_contra noText
    obtain ⟨_, refused⟩ := extractBytes_of_not_utf8 ⟨language, .ok parse⟩ file noText
    simp [returned] at refused
  have sound : ¬ ∃ node ∈ (parse source).preorder, node.isFaulty = true := by
    intro faulty
    simp [extractBytes_of_fault language file isText faulty] at returned
  rcases extractBytes_of_sound language file isText sound with
    ⟨found, again, _, exact⟩ | ⟨_, failed, _⟩
  · obtain rfl := Except.ok.inj (returned.symm.trans again)
    exact ⟨isText, sound, exact⟩
  · simp [returned] at failed

end Outcomes

theorem extractBytes_exact (language : String) (parse : Bytes → SyntaxNode) (source : Bytes)
    (file : String) :
    let root := parse source
    let outcome := (Grammar.mk language (.ok parse)).extractBytes source file
    (Cursor.ofRoot root).literals = root.preorder.filter SyntaxNode.isLiteral ∧
    (∀ grammar : Grammar,
      (∃ path reason,
        grammar.extractBytes source file = .error (.audit (.fileUndecodable path reason))) ↔
        ¬ IsUtf8 source) ∧
    ((∃ path reason, outcome = .error (.audit (.fileUnparsable path reason))) ↔
      IsUtf8 source ∧ ∃ node ∈ root.preorder, node.isFaulty = true) ∧
    (IsUtf8 source → (¬ ∃ node ∈ root.preorder, node.isFaulty = true) → root.IsTreeOf source →
      ∃ texts, outcome = .ok texts ∧ texts.Nodup ∧
        (∀ text, text ∈ texts ↔ text ≠ "" ∧ root.HasSegment source text) ∧
        ∀ text ∈ texts, ∃ node ∈ root.preorder, node.isLiteral = true ∧
          ∃ own, Encoding.decode (slice source node.span) .utf8 = .ok own ∧
            text.toList.Sublist own) := by
  intro root outcome
  refine ⟨Cursor.literals_ofRoot root, extractBytes_undecodable_iff,
    extractBytes_unparsable_iff language parse, fun isText sound isTree => ?_⟩
  rcases extractBytes_of_sound language file isText sound with
    ⟨texts, returned, distinct, exact⟩ | ⟨_, _, noTree⟩
  · refine ⟨texts, returned, distinct, exact, fun text member => ?_⟩
    obtain ⟨_, node, isNode, isLiteral, segments, found, isSegment⟩ := (exact text).mp member
    exact ⟨node, isNode, isLiteral, isTree.segment_sublist isNode isLiteral found isSegment⟩
  · exact absurd isTree noTree

def nestedSource : Bytes :=
  encodeUtf8 "/* \"no\" */ show(\"é \\(call(\"inner\")) end\")".toList

theorem extractBytes_nested :
    IsUtf8 nestedSource ∧
    (¬ ∃ node ∈ (Swift.tree nestedSource).preorder, node.isFaulty = true) ∧
    (Swift.tree nestedSource).IsTreeOf nestedSource ∧
    (Grammar.mk Swift.language (.ok Swift.tree)).extractBytes nestedSource "main.swift" =
      .ok ["é ", " end", "inner"] ∧
    (Swift.tree nestedSource).HasSegment nestedSource "inner" := by
  have isText : IsUtf8 nestedSource := by decide +kernel
  have sound : ¬ ∃ node ∈ (Swift.tree nestedSource).preorder, node.isFaulty = true := by
    decide +kernel
  have isTree : (Swift.tree nestedSource).IsTreeOf nestedSource := by decide +kernel
  have outcome : (Grammar.mk Swift.language (.ok Swift.tree)).extractBytes nestedSource
      "main.swift" = .ok ["é ", " end", "inner"] := by
    decide +kernel
  obtain ⟨texts, returned, _, exact, _⟩ :=
    (extractBytes_exact Swift.language Swift.tree nestedSource "main.swift").2.2.2 isText sound
      isTree
  obtain rfl := Except.ok.inj (outcome.symm.trans returned)
  exact ⟨isText, sound, isTree, outcome, ((exact "inner").mp (by simp)).2⟩

end LocalizationAudit

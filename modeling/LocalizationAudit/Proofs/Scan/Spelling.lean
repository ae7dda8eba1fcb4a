import LocalizationAudit.Proofs.Literal.Extraction
import LocalizationAudit.Proofs.Resource.ByteOrderMark
import LocalizationAudit.Proofs.Scan.Returned

/-!
Keys and literals are compared as they are spelled. A key is used as soon as a plain literal with
the same characters between its quotes stands anywhere in a source, and it is unused when it is no
segment of any literal. Text on both sides of an interpolation never makes up one segment.
-/

namespace LocalizationAudit

def SyntaxNode.IsPlainLiteral (source : Bytes) (node : SyntaxNode) (body : List Char) : Prop :=
  node.kind = .literal .line ∧ ∃ first inner last, node.children = first :: (inner ++ [last]) ∧
    inner ≠ [] ∧ (∀ child ∈ inner, child.isText = true) ∧
    slice source ⟨first.stop, last.start⟩ = encodeUtf8 body

section Files

variable (settings : ScanSettings) (content : Path → Except ReadError Bytes) (root : Path)
  (listing : List Path)

def HasEntry (key : List Char) : Prop :=
  ∃ path ∈ listing, classify settings (some root) path = .resource ∧
    ∃ bytes text encoding, content path = .ok bytes ∧
      decodeText bytes resourceEncodings = .ok (text, encoding) ∧
      ∃ placed ∈ entries text, placed.entry.key = key

def IsParsedSource (parse : Bytes → SyntaxNode) (source : Bytes) : Prop :=
  ∃ path ∈ listing, classify settings (some root) path = .source ∧ content path = .ok source ∧
    IsUtf8 source ∧ ¬ ∃ node ∈ (parse source).preorder, node.isFaulty = true

end Files

section Literals

variable {source : Bytes} {root node : SyntaxNode}

theorem hasSegment_of_plainLiteral {body : List Char} (member : node ∈ root.preorder)
    (plain : node.IsPlainLiteral source body) : root.HasSegment source (String.ofList body) := by
  obtain ⟨isLine, first, inner, last, children, nonempty, allText, spelled⟩ := plain
  refine ⟨node, member, ?_, [body],
    SyntaxNode.segments_of_plain_line isLine children nonempty allText spelled, by simp⟩
  exact SyntaxNode.isLiteral_iff.mpr ⟨.line, SyntaxNode.literalForm?_eq_some_iff.mpr isLine⟩

/-- Every segment is drawn from one stretch of its literal that no interpolation cuts. -/
theorem exists_stretch_of_segment (isTree : root.IsTreeOf source) (member : node ∈ root.preorder)
    {segments : List (List Char)} (found : node.segments source = .ok segments)
    {segment : List Char} (isSegment : segment ∈ segments) :
    ∃ span text, Encoding.decode (slice source span) .utf8 = .ok text ∧ segment.Sublist text ∧
      (node.start ≤ span.start ∧ span.stop ≤ node.stop) ∧
      ∀ child ∈ node.children, child.isText = false → span.Apart child.span := by
  cases isLiteral : node.literalForm? with
  | none =>
      unfold SyntaxNode.segments at found
      rw [isLiteral] at found
      obtain rfl := Except.ok.inj found
      simp at isSegment
  | some form =>
      obtain ⟨span, isSpan, text, decoded, kept⟩ :=
        SyntaxNode.exists_span_of_segment isLiteral found isSegment
      have placed := isTree.textSpans_placed member isLiteral span isSpan
      exact ⟨span, text, decoded, kept, ⟨placed.1.2, placed.2.2⟩,
        isTree.textSpans_apart member isLiteral span isSpan⟩

end Literals

section Keys

variable {Store : Type} {settings : ScanSettings} {language : String} {parse : Bytes → SyntaxNode}
  {files : FileSystem Store} {store : Store} {schedule : List Task → List Task} {root : String}
  {listing : List Path} {result : ScanResult}
  (complete : IsSchedule schedule)
  (returned : (scan settings ⟨standardKeySites, ⟨language, .ok parse⟩⟩ files.toReader store
    schedule root (.ok listing)).1.outcome = .ok result)

include complete returned

theorem mem_texts_iff_hasEntry (key : List Char) :
    String.ofList key ∈ result.definedKeys.texts ↔
      HasEntry settings (files.content store) (Path.ofString root) listing key := by
  rw [mem_texts_of_returned complete returned]
  constructor
  · rintro ⟨path, listed, kind, bytes, keys, read, found, member⟩
    obtain ⟨text, encoding, decoded, rfl⟩ := keysOfBytes_eq_ok_iff.mp found
    obtain ⟨defined, isDefined, sameText⟩ := List.mem_map.mp member
    obtain ⟨placed, isEntry, _, rfl⟩ :=
      (keysOfEntries_entries (some path.text) text).first defined isDefined
    exact ⟨path, listed, kind, bytes, text, encoding, read, decoded, placed, isEntry,
      String.ofList_injective sameText⟩
  · rintro ⟨path, listed, kind, bytes, text, encoding, read, decoded, placed, isEntry, rfl⟩
    exact ⟨path, listed, kind, bytes, _, read, keysOfBytes_of_decodeText decoded _,
      (keysOfEntries_entries (some path.text) text).covering placed isEntry⟩

/-- A source that can be parsed has been parsed when a scan returns. -/
theorem extracted_of_parsedSource {path : Path} {source : Bytes} (listed : path ∈ listing)
    (kind : classify settings (some (Path.ofString root)) path = .source)
    (read : files.content store path = .ok source) (isText : IsUtf8 source)
    (sound : ¬ ∃ node ∈ (parse source).preorder, node.isFaulty = true) :
    ∃ literals, (Grammar.mk language (.ok parse)).extractBytes source path.text = .ok literals := by
  obtain ⟨contributions, completed, _⟩ := completed_of_returned returned
  have isTask : ⟨path, .source⟩ ∈ candidates settings (Path.ofString root) listing :=
    mem_candidates.mpr ⟨listed, kind.symm, by simp⟩
  obtain ⟨contribution, _, done⟩ :=
    exists_related_of_mem completed ((complete _).mem_iff.mpr isTask)
  rcases extractBytes_of_sound language path.text isText sound with
    ⟨literals, extracted, _⟩ | ⟨failure, failed, _⟩
  · exact ⟨literals, extracted⟩
  · -- A slice that is no text is no failure of the file alone: the scan would not have returned.
    rw [Completes, read, outcomeOf, contributionOf_of_source rfl, failed] at done
    simp [Except.map, settle] at done

theorem mem_usedLiterals_iff_hasSegment (text : String) :
    text ∈ result.usedLiterals ↔ text ≠ "" ∧
      ∃ source, IsParsedSource settings (files.content store) (Path.ofString root) listing parse
        source ∧ (parse source).HasSegment source text := by
  rw [mem_usedLiterals_of_returned complete returned]
  constructor
  · rintro ⟨path, listed, kind, source, literals, read, extracted, member⟩
    obtain ⟨isText, sound, exact⟩ := extractBytes_eq_ok extracted
    obtain ⟨nonempty, segment⟩ := (exact text).mp member
    exact ⟨nonempty, source, ⟨path, listed, kind, read, isText, sound⟩, segment⟩
  · rintro ⟨nonempty, source, ⟨path, listed, kind, read, isText, sound⟩, segment⟩
    obtain ⟨literals, extracted⟩ :=
      extracted_of_parsedSource complete returned listed kind read isText sound
    have exact := (extractBytes_eq_ok extracted).2.2
    exact ⟨path, listed, kind, source, literals, read, extracted,
      (exact text).mpr ⟨nonempty, segment⟩⟩

end Keys

theorem key_meets_literal {Store : Type} (settings : ScanSettings) (language : String)
    (parse : Bytes → SyntaxNode) (files : FileSystem Store) (store : Store)
    (schedule : List Task → List Task) (complete : IsSchedule schedule) (root : String)
    (listing : List Path) (result : ScanResult)
    (returned : (scan settings ⟨standardKeySites, ⟨language, .ok parse⟩⟩ files.toReader store
      schedule root (.ok listing)).1.outcome = .ok result) :
    let hasEntry := HasEntry settings (files.content store) (Path.ofString root) listing
    let isParsed := IsParsedSource settings (files.content store) (Path.ofString root) listing parse
    (∀ key, key ≠ [] → hasEntry key →
      (∃ source, isParsed source ∧
        ∃ node ∈ (parse source).preorder, node.IsPlainLiteral source key) →
      String.ofList key ∉ result.unusedKeys.map (·.text)) ∧
    (∀ key, hasEntry key →
      (¬ ∃ source, isParsed source ∧ (parse source).HasSegment source (String.ofList key)) →
      String.ofList key ∈ result.unusedKeys.map (·.text)) ∧
    (∀ source, isParsed source → (parse source).IsTreeOf source →
      ∀ node ∈ (parse source).preorder, ∀ segments, node.segments source = .ok segments →
        ∀ segment ∈ segments, ∃ span text,
          Encoding.decode (slice source span) .utf8 = .ok text ∧ segment.Sublist text ∧
          (node.start ≤ span.start ∧ span.stop ≤ node.stop) ∧
          ∀ child ∈ node.children, child.isText = false → span.Apart child.span) := by
  intro hasEntry isParsed
  refine ⟨?_, ?_, ?_⟩
  · rintro key nonempty _ ⟨source, parsed, node, member, plain⟩ unused
    have segment := hasSegment_of_plainLiteral member plain
    have used := (mem_usedLiterals_iff_hasSegment complete returned (String.ofList key)).mpr
      ⟨by simpa using nonempty, source, parsed, segment⟩
    exact ((ScanResult.mem_unusedTexts _).mp unused).2 used
  · intro key defined noSegment
    refine (ScanResult.mem_unusedTexts _).mpr
      ⟨(mem_texts_iff_hasEntry complete returned key).mpr defined, fun used => noSegment ?_⟩
    exact ((mem_usedLiterals_iff_hasSegment complete returned _).mp used).2
  · intro source _ isTree node member segments found segment isSegment
    exact exists_stretch_of_segment isTree member found isSegment

def spelledResource : List Char :=
  "\"é\\\"s\" = \"1\"; \"no\\(n)te\" = \"2\";".toList

def spelledSource : Bytes :=
  encodeUtf8 "show(\"é\\\"s\", \"no\\(n)te\")".toList

def spelledProject : MemoryFiles :=
  MemoryFiles.ofFiles "/app"
    [("Main.strings", encodeUtf8 spelledResource), ("main.swift", spelledSource)]

def spelledListing : List Path :=
  ["/app/Main.strings", "/app/main.swift"].map Path.ofString

def escapedLiteral : SyntaxNode :=
  .mk (.literal .line) ⟨5, 12⟩ .sound
    [.mk .text ⟨5, 6⟩ .sound [], .mk .text ⟨6, 8⟩ .sound [], .mk .text ⟨8, 10⟩ .sound [],
      .mk .text ⟨10, 11⟩ .sound [], .mk .text ⟨11, 12⟩ .sound []]

def interpolatedLiteral : SyntaxNode :=
  .mk (.literal .line) ⟨14, 24⟩ .sound
    [.mk .text ⟨14, 15⟩ .sound [], .mk .text ⟨15, 17⟩ .sound [],
      .mk .interpolation ⟨17, 19⟩ .sound [], .mk .interpolation ⟨19, 20⟩ .sound [],
      .mk .other ⟨20, 21⟩ .sound [], .mk .text ⟨21, 23⟩ .sound [], .mk .text ⟨23, 24⟩ .sound []]

def spelledTree : SyntaxNode :=
  .mk .other ⟨0, 25⟩ .sound
    [.mk .other ⟨0, 4⟩ .sound [], .mk .other ⟨4, 25⟩ .sound [escapedLiteral, interpolatedLiteral]]

def spelledScan : Transcript Failure ScanResult :=
  (scan (.standard none) ⟨standardKeySites, ⟨"swift", .ok fun _ => spelledTree⟩⟩
    MemoryFiles.fileSystem.toReader spelledProject List.reverse "/app" (.ok spelledListing)).1

theorem key_meets_literal_spelled :
    IsSchedule List.reverse ∧ spelledTree.IsTreeOf spelledSource ∧
    ∃ result, spelledScan.outcome = .ok result ∧
      String.ofList "é\\\"s".toList ∉ result.unusedKeys.map (·.text) ∧
      String.ofList "no\\(n)te".toList ∈ result.unusedKeys.map (·.text) := by
  have isTree : spelledTree.IsTreeOf spelledSource := by decide +kernel
  have succeeds : spelledScan.outcome.toOption.isSome = true := by decide +kernel
  obtain ⟨result, returned⟩ := exists_ok_of_isSome succeeds
  refine ⟨isSchedule_reverse, isTree, result, returned, ?_⟩
  rw [spelledScan] at returned
  obtain ⟨meets, converse, _⟩ := key_meets_literal _ _ _ _ _ _ isSchedule_reverse _ _ _ returned
  have resource : Path.ofString "/app/Main.strings" ∈ spelledListing ∧
      classify (.standard none) (some (Path.ofString "/app")) (Path.ofString "/app/Main.strings") =
        .resource ∧
      MemoryFiles.fileSystem.content spelledProject (Path.ofString "/app/Main.strings") =
        .ok (encodeUtf8 spelledResource) := by
    decide +kernel
  have sources : ∀ path ∈ spelledListing,
      classify (.standard none) (some (Path.ofString "/app")) path = .source →
        MemoryFiles.fileSystem.content spelledProject path = .ok spelledSource := by
    decide +kernel
  have hasEntry : ∀ key ∈ ["é\\\"s".toList, "no\\(n)te".toList],
      HasEntry (.standard none) (MemoryFiles.fileSystem.content spelledProject)
        (Path.ofString "/app") spelledListing key := by
    intro key member
    have isEntry : ∀ key ∈ ["é\\\"s".toList, "no\\(n)te".toList],
        ∃ placed ∈ entries spelledResource, placed.entry.key = key := by
      decide +kernel
    exact ⟨_, resource.1, resource.2.1, _, spelledResource, .utf8, resource.2.2,
      decodeText_encodeUtf8 spelledResource, isEntry key member⟩
  have parsed : IsParsedSource (.standard none) (MemoryFiles.fileSystem.content spelledProject)
      (Path.ofString "/app") spelledListing (fun _ => spelledTree) spelledSource := by
    refine ⟨Path.ofString "/app/main.swift", ?_⟩
    decide +kernel
  constructor
  · refine meets _ (by decide) (hasEntry _ (by simp)) ⟨spelledSource, parsed, escapedLiteral, ?_, ?_⟩
    · simp [spelledTree, SyntaxNode.preorder, SyntaxNode.preorderAll, escapedLiteral]
    · refine ⟨rfl, _, [_, _, _], _, rfl, by simp, by simp [SyntaxNode.isText, SyntaxNode.kind], ?_⟩
      decide +kernel
  · refine converse _ (hasEntry _ (by simp)) ?_
    rintro ⟨source, ⟨path, listed, kind, read, _⟩, segment⟩
    obtain rfl := Except.ok.inj (read.symm.trans (sources path listed kind))
    have noSegment : ¬ spelledTree.HasSegment spelledSource (String.ofList "no\\(n)te".toList) := by
      decide +kernel
    exact noSegment segment

end LocalizationAudit

import LocalizationAudit.Encoding.Codec
import LocalizationAudit.SyntaxTree.Basic

/-!
The static text of a string literal, cut at its interpolations. A segment reaches from the
delimiter or interpolation before it to the one after it, so white space that no text node
covers is kept. The line ends next to the delimiters of a multi-line literal and the indentation of
the closing one are no content.
-/

namespace LocalizationAudit

/-- `start` is where the next segment begins; `startsAtOpen` is settled by the first text. -/
structure Splitting where
  spans : List Span
  start : Nat
  inText : Bool
  startsAtOpen : Option Bool
  interpolated : Bool
  deriving DecidableEq, Repr

namespace Splitting

def ofStart (start : Nat) : Splitting :=
  ⟨[], start, false, none, false⟩

def close (state : Splitting) (stop : Nat) : List Span :=
  if state.inText then state.spans ++ [⟨state.start, stop⟩] else state.spans

def step (state : Splitting) (child : SyntaxNode) : Splitting :=
  if child.isText then
    if state.inText then state
    else
      { state with
        inText := true
        startsAtOpen := state.startsAtOpen <|> some (!state.interpolated)
        interpolated := false }
  else
    { spans := state.close child.start
      start := child.stop
      inText := false
      startsAtOpen := state.startsAtOpen
      interpolated := state.interpolated || child.isInterpolation }

end Splitting

/--
Where the segments of a literal lie. The first one touches the opening delimiter when no
interpolation comes before it, and the last one the closing delimiter when none comes after it.
-/
structure Segmentation where
  spans : List Span
  startsAtOpen : Bool
  endsAtClose : Bool
  deriving DecidableEq, Repr

def SyntaxNode.region (node : SyntaxNode) (form : LiteralForm) : Span × List SyntaxNode :=
  match form, node.children with
  | .raw, children => (node.span, children)
  | _, [] => (node.span, [])
  | _, first :: others =>
      (⟨first.stop, (others.getLastD first).start⟩, others.dropLast)

def segmentation (region : Span) (children : List SyntaxNode) : Segmentation :=
  let final := children.foldl Splitting.step (Splitting.ofStart region.start)
  { spans := final.close region.stop
    startsAtOpen := final.startsAtOpen.getD false
    endsAtClose := !final.interpolated }

def slice (source : Bytes) (span : Span) : Bytes :=
  (source.drop span.start).take (span.stop - span.start)

def decodeSlices (source : Bytes) : List Span → Except DecodeFailure (List (List Char))
  | [] => .ok []
  | span :: others => do
      let text ← Encoding.decode (slice source span) .utf8
      let texts ← decodeSlices source others
      return text :: texts

def splitFinalNewline (text : List Char) : List Char × List Char :=
  match text.reverse with
  | '\n' :: reversed => (reversed.reverse, ['\n'])
  | _ => (text, [])

def dropTwoQuotes : List Char → List Char
  | '"' :: '"' :: rest => rest
  | text => text

def stripRawOpening (text : List Char) : List Char :=
  match text, text.dropWhile (· == '#') with
  | '#' :: _, '"' :: rest => dropTwoQuotes rest
  | _, _ => text

def stripRawClosing (text : List Char) : List Char :=
  let (body, final) := splitFinalNewline text
  match body.reverse, body.reverse.dropWhile (· == '#') with
  | '#' :: _, '"' :: rest => (dropTwoQuotes rest).reverse ++ final
  | _, _ => text

def opensMultiLine (bytes : Bytes) : Bool :=
  match bytes, bytes.dropWhile (· == 0x23) with
  | 0x23 :: _, 0x22 :: 0x22 :: 0x22 :: _ => true
  | _, _ => false

def isIndent (c : Char) : Bool :=
  c == ' ' || c == '\t'

/-- A text given backwards whose last line is blank: what comes before that line, and the line. -/
def splitBlankLine (reversed : List Char) : Option (List Char × List Char) :=
  match reversed.dropWhile isIndent with
  | '\n' :: before => some (before.reverse, (reversed.takeWhile isIndent).reverse)
  | _ => none

def splitClosingLine (text : List Char) : Option (List Char × List Char) :=
  match text.reverse with
  | '\n' :: reversed =>
      match splitBlankLine reversed with
      | some found => some found
      | none => some (reversed.reverse, [])
  | reversed => splitBlankLine reversed

def dropIndent (indent line : List Char) : List Char :=
  if indent.isPrefixOf line then line.drop indent.length else line

def dedent (indent : List Char) (atLineStart : Bool) (segment : List Char) : List Char :=
  match segment.splitOn '\n' with
  | [] => []
  | first :: others =>
      ['\n'].intercalate ((if atLineStart then dropIndent indent first else first) ::
        others.map (dropIndent indent))

def dedentAll (indent : List Char) (startsAtOpen : Bool) :
    List (List Char) → List (List Char)
  | [] => []
  | first :: others => dedent indent startsAtOpen first :: others.map (dedent indent false)

def dropLeadingNewline : List Char → List Char
  | '\n' :: rest => rest
  | text => text

def stripMultiLine (startsAtOpen endsAtClose : Bool) (segments : List (List Char)) :
    List (List Char) :=
  let closing := if endsAtClose then segments.getLast?.bind splitClosingLine else none
  let opened (segments : List (List Char)) :=
    if startsAtOpen then segments.modifyHead dropLeadingNewline else segments
  match closing with
  | none => opened segments
  | some (content, indent) =>
      let segments := opened (segments.dropLast ++ [content])
      if indent.isEmpty then segments else dedentAll indent startsAtOpen segments

def stripDelimiters (form : LiteralForm) (multiLine startsAtOpen endsAtClose : Bool)
    (segments : List (List Char)) : List (List Char) :=
  let segments :=
    if form == .raw then
      let segments := if startsAtOpen then segments.modifyHead stripRawOpening else segments
      if endsAtClose then (segments.reverse.modifyHead stripRawClosing).reverse else segments
    else segments
  if multiLine then stripMultiLine startsAtOpen endsAtClose segments else segments

def SyntaxNode.segments (source : Bytes) (node : SyntaxNode) :
    Except DecodeFailure (List (List Char)) := do
  match node.literalForm? with
  | none => return []
  | some form =>
      let (region, children) := node.region form
      let found := segmentation region children
      let texts ← decodeSlices source found.spans
      let multiLine :=
        match form with
        | .line => false
        | .multiLine => true
        | .raw => opensMultiLine (source.drop node.start)
      return stripDelimiters form multiLine found.startsAtOpen found.endsAtClose texts

end LocalizationAudit

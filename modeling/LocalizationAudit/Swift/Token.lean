import LocalizationAudit.SyntaxTree.Basic
import LocalizationAudit.Text.Blank
import LocalizationAudit.Text.CodeRange

/-!
Tokens of Swift source. String literals are not single tokens: their delimiters, static text,
comments and interpolations follow one another, with the tokens of the interpolated code between.
-/

namespace LocalizationAudit.Swift

inductive TokenKind where
  | word
  | escapedWord
  | number
  | regex
  | operator
  | mark
  | literalOpen (form : LiteralForm)
  | literalText
  | literalComment
  | literalClose
  | interpolationOpen
  | interpolationClose
  | invalid
  deriving DecidableEq, Repr

/--
Operators and marks are single characters, except for a run of dots. Operators of several
characters are put together by the grammar.
-/
structure Token where
  kind : TokenKind
  text : String
  span : Span
  afterBlank : Bool
  afterNewline : Bool
  deriving DecidableEq, Repr

def operatorRanges : List CodeRange :=
  [(0xA1, 0xA7), (0xA9, 0xA9), (0xAB, 0xAC), (0xAE, 0xAE), (0xB0, 0xB1), (0xB6, 0xB6),
    (0xBB, 0xBB), (0xBF, 0xBF), (0xD7, 0xD7), (0xF7, 0xF7), (0x2016, 0x2017),
    (0x2020, 0x2027), (0x2030, 0x203E), (0x2041, 0x2053), (0x2055, 0x205E), (0x2190, 0x23FF),
    (0x2500, 0x2775), (0x2794, 0x2BFF), (0x2E00, 0x2E7F), (0x3001, 0x3003), (0x3008, 0x3030)]

def isOperatorChar (c : Char) : Bool :=
  "/=-+!*%<>&|^~?".toList.contains c || inRanges operatorRanges c

def isWordStart (c : Char) : Bool :=
  c.isAlpha || c == '_' || c == '$' ||
    (128 ≤ c.toNat && !isBlank c && !inRanges operatorRanges c && c.toNat != 0xFEFF)

def isWordPart (c : Char) : Bool :=
  isWordStart c || c.isDigit

def openBrace : String := "\x7b"

def closeBrace : String := "\x7d"

def isMark (c : Char) : Bool :=
  ("[],;:@.\\" ++ openBrace ++ closeBrace).toList.contains c

def isLineEnd (c : Char) : Bool :=
  c == '\n' || c == '\r'

def byteLength : List Char → Nat
  | [] => 0
  | c :: rest => c.utf8Size + byteLength rest

def commentBody? : Nat → List Char → Option (List Char)
  | depth, '*' :: '/' :: rest =>
      match depth with
      | 0 => some ['*', '/']
      | depth + 1 => (commentBody? depth rest).map (['*', '/'] ++ ·)
  | depth, '/' :: '*' :: rest => (commentBody? (depth + 1) rest).map (['/', '*'] ++ ·)
  | depth, c :: rest => (commentBody? depth rest).map (c :: ·)
  | _, [] => none

def blockComment? : List Char → Option (List Char)
  | '/' :: '*' :: rest => (commentBody? 0 rest).map (['/', '*'] ++ ·)
  | _ => none

def literalComment? (text : List Char) : Option (List Char) :=
  (blockComment? (text.dropWhile isBlank)).map (text.takeWhile isBlank ++ ·)

/-- Inside code the open parentheses of an interpolation are counted; `fresh` text may start. -/
inductive Mode where
  | code (openParentheses : Nat)
  | literal (form : LiteralForm) (hashes : Nat) (fresh : Bool)
  deriving DecidableEq, Repr

structure LexState where
  rest : List Char
  offset : Nat
  modes : List Mode
  afterBlank : Bool
  afterNewline : Bool
  operandBefore : Bool

namespace LexState

def ofText (text : List Char) : LexState :=
  ⟨text, 0, [], false, false, false⟩

def skip (state : LexState) (taken : List Char) : LexState :=
  { state with
    rest := state.rest.drop taken.length
    offset := state.offset + byteLength taken }

def skipBlank (state : LexState) (taken : List Char) : LexState :=
  { state.skip taken with
    afterBlank := true
    afterNewline := state.afterNewline || taken.any isLineEnd }

def token (state : LexState) (kind : TokenKind) (taken : List Char) : Token :=
  ⟨kind, String.ofList taken, ⟨state.offset, state.offset + byteLength taken⟩,
    state.afterBlank, state.afterNewline⟩

def pass (state : LexState) (taken : List Char) (operand : Bool) : LexState :=
  { state.skip taken with afterBlank := false, afterNewline := false, operandBefore := operand }

def withModes (state : LexState) (modes : List Mode) : LexState :=
  { state with modes := modes }

end LexState

structure LexStep where
  token? : Option Token
  next? : Option LexState

namespace LexState

def emit (state : LexState) (kind : TokenKind) (taken : List Char) (operand : Bool)
    (modes : List Mode) : LexStep :=
  ⟨some (state.token kind taken), some ((state.pass taken operand).withModes modes)⟩

def skipped (state : LexState) (taken : List Char) : LexStep :=
  ⟨none, some (state.skipBlank taken)⟩

def stuck (state : LexState) : LexStep :=
  ⟨some (state.token .invalid (state.rest.take 1)), none⟩

def numberText (text : List Char) : List Char :=
  let digits := text.takeWhile isWordPart
  let signed (digits rest : List Char) : List Char :=
    let exponent := digits.getLast? == some 'e' || digits.getLast? == some 'E' ||
      digits.getLast? == some 'p' || digits.getLast? == some 'P'
    let hexadecimal := "0x".toList.isPrefixOf digits && !digits.contains 'p'
    match rest with
    | sign :: digit :: _ =>
        if exponent && !hexadecimal && (sign == '-' || sign == '+') && digit.isDigit then
          digits ++ sign :: (rest.drop 1).takeWhile isWordPart
        else digits
    | _ => digits
  match text.dropWhile isWordPart with
  | '.' :: digit :: rest =>
      if digit.isDigit && !(digits.getLast? == some 'e') then
        let fraction := (digit :: rest).takeWhile isWordPart
        signed (digits ++ '.' :: fraction) ((digit :: rest).dropWhile isWordPart)
      else digits
  | rest => signed digits rest

def regexBody? : List Char → Option (List Char)
  | '\\' :: c :: rest => if isLineEnd c then none else (regexBody? rest).map (['\\', c] ++ ·)
  | c :: rest =>
      if c == '/' then some ['/']
      else if isLineEnd c then none
      else (regexBody? rest).map (c :: ·)
  | [] => none

def regex? (state : LexState) : Option (List Char) :=
  match state.operandBefore, state.rest with
  | false, '/' :: c :: rest =>
      if isBlank c || c == '/' || c == '*' || c == ')' then none
      else (regexBody? (c :: rest)).map ('/' :: ·)
  | _, _ => none

def directiveWords : List String :=
  ["if", "elseif", "else", "endif", "sourceLocation"]

def toLineEnd (text : List Char) : List Char :=
  text.takeWhile fun c => !isLineEnd c

def hashStep (state : LexState) : LexStep :=
  let hashes := state.rest.takeWhile (· == '#')
  match state.rest.dropWhile (· == '#') with
  | '"' :: _ =>
      state.emit (.literalOpen .raw) (hashes ++ ['"']) false
        (.literal .raw hashes.length false :: state.modes)
  | after =>
      let word := String.ofList (after.takeWhile isWordPart)
      if state.offset == 0 && after.head? == some '!' || directiveWords.contains word then
        state.skipped (toLineEnd state.rest)
      else state.emit .mark ['#'] false state.modes

def operatorWords : List String :=
  ["return", "in", "case", "try", "await", "throw", "where", "else", "if", "while", "guard",
    "switch", "as", "is"]

def backtick : Char := Char.ofNat 96

def codeStep (state : LexState) : LexStep :=
  match state.rest with
  | [] => ⟨none, none⟩
  | c :: after =>
      if isBlank c || (c.toNat == 0xFEFF && state.offset == 0) then state.skipped [c]
      else if c == '/' && after.head? == some '/' then state.skipped (toLineEnd state.rest)
      else if c == '/' && after.head? == some '*' then
        match blockComment? state.rest with
        | some comment => state.skipped comment
        | none => state.stuck
      else if c == '#' then state.hashStep
      else if c == '"' then
        if ['"', '"'].isPrefixOf after then
          state.emit (.literalOpen .multiLine) ['"', '"', '"'] false
            (.literal .multiLine 0 true :: state.modes)
        else
          state.emit (.literalOpen .line) ['"'] false (.literal .line 0 true :: state.modes)
      else if c.isDigit then state.emit .number (numberText state.rest) true state.modes
      else if isWordStart c then
        let word := state.rest.takeWhile isWordPart
        state.emit .word word (!operatorWords.contains (String.ofList word)) state.modes
      else if c == backtick then
        let word := after.takeWhile isWordPart
        if after.drop word.length |>.head? |> (· == some backtick) then
          state.emit .escapedWord (c :: word ++ [backtick]) true state.modes
        else state.stuck
      else if c == '(' then
        match state.modes with
        | .code depth :: modes => state.emit .mark [c] false (.code (depth + 1) :: modes)
        | modes => state.emit .mark [c] false modes
      else if c == ')' then
        match state.modes with
        | .code 0 :: modes => state.emit .interpolationClose [c] true modes
        | .code (depth + 1) :: modes => state.emit .mark [c] true (.code depth :: modes)
        | modes => state.emit .mark [c] true modes
      else if c == '.' && after.head? == some '.' then
        state.emit .operator (state.rest.takeWhile (· == '.')) false state.modes
      else if isMark c then
        state.emit .mark [c] (c == ']' || c == '}') state.modes
      else
        match state.regex? with
        | some regex => state.emit .regex regex true state.modes
        | none =>
            if isOperatorChar c then state.emit .operator [c] false state.modes
            else state.stuck

def escape? : List Char → Option (List Char)
  | '\\' :: 'u' :: '{' :: rest =>
      let digits := rest.takeWhile fun c =>
        c.isDigit || ('a' ≤ c && c ≤ 'f') || ('A' ≤ c && c ≤ 'F')
      match rest.dropWhile fun c =>
          c.isDigit || ('a' ≤ c && c ≤ 'f') || ('A' ≤ c && c ≤ 'F') with
      | '}' :: _ => if digits.isEmpty then none else some (['\\', 'u', '{'] ++ digits ++ ['}'])
      | _ => none
  | '\\' :: c :: _ => if "0\\tnr\"'\n".toList.contains c then some ['\\', c] else none
  | _ => none

def plainStep (state : LexState) (form : LiteralForm) (fresh : Bool) (outer : List Mode) :
    LexStep :=
  let again := Mode.literal form 0
  match if fresh then literalComment? state.rest else none with
  | some comment => state.emit .literalComment comment false (again true :: outer)
  | none =>
      match state.rest with
      | [] => ⟨none, none⟩
      | '\\' :: '(' :: _ =>
          state.emit .interpolationOpen ['\\', '('] false (.code 0 :: again true :: outer)
      | '\\' :: _ =>
          match escape? state.rest with
          | some escape => state.emit .literalText escape false (again true :: outer)
          | none => state.stuck
      | '"' :: after =>
          if form == .line then state.emit .literalClose ['"'] true outer
          else if ['"', '"'].isPrefixOf after then
            state.emit .literalClose ['"', '"', '"'] true outer
          else state.emit .literalText ['"'] false (again true :: outer)
      | text =>
          state.emit .literalText (text.takeWhile fun c => c != '\\' && c != '"') false
            (again false :: outer)

def rawText (closing opening : List Char) : List Char → List Char
  | [] => []
  | c :: rest =>
      if closing.isPrefixOf (c :: rest) || opening.isPrefixOf (c :: rest) then []
      else c :: rawText closing opening rest

def rawStep (state : LexState) (hashes : Nat) (fresh : Bool) (outer : List Mode) : LexStep :=
  let again := Mode.literal .raw hashes
  let closing := '"' :: List.replicate hashes '#'
  let opening := '\\' :: List.replicate hashes '#' ++ ['(']
  match if fresh then literalComment? state.rest else none with
  | some comment => state.emit .literalComment comment false (again true :: outer)
  | none =>
      if state.rest.isEmpty then ⟨none, none⟩
      else if closing.isPrefixOf state.rest then state.emit .literalClose closing true outer
      else if opening.isPrefixOf state.rest then
        state.emit .interpolationOpen opening false (.code 0 :: again true :: outer)
      else
        state.emit .literalText (rawText closing opening state.rest) false (again false :: outer)

def step (state : LexState) : LexStep :=
  match state.modes with
  | .literal .raw hashes fresh :: outer => state.rawStep hashes fresh outer
  | .literal form _ fresh :: outer => state.plainStep form fresh outer
  | _ => state.codeStep

end LexState

def tokensFrom : Nat → LexState → List Token
  | 0, _ => []
  | fuel + 1, state =>
      let step := state.step
      let later :=
        match step.next? with
        | some next => tokensFrom fuel next
        | none => []
      match step.token? with
      | some token => token :: later
      | none => later

def tokens (text : List Char) : List Token :=
  tokensFrom (text.length + 1) (LexState.ofText text)

end LocalizationAudit.Swift

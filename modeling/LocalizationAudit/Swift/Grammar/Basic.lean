import LocalizationAudit.Swift.Token

/-!
The parts that all rules of the grammar are made of. A rule takes the tokens ahead and gives those
behind what it accepts, or the place where the source cannot be continued.
-/

namespace LocalizationAudit.Swift

inductive SourceFault where
  | unexpected (offset : Nat)
  | incomplete
  | unclosed
  deriving DecidableEq, Repr

abbrev Parsed := Except SourceFault (List Token)

inductive Place where
  | topLevel
  | block
  | members
  | requirements
  deriving DecidableEq, Repr

def unexpected : List Token → Parsed
  | [] => .error .incomplete
  | token :: _ => .error (.unexpected token.span.start)

def Token.isMark (token : Token) (text : String) : Bool :=
  token.kind == .mark && token.text == text

def Token.isWord (token : Token) (text : String) : Bool :=
  token.kind == .word && token.text == text

def Token.isName (token : Token) : Bool :=
  token.kind == .word || token.kind == .escapedWord

def nextIs (holds : Token → Bool) : List Token → Bool
  | [] => false
  | token :: _ => holds token

def nextIsMark (text : String) : List Token → Bool :=
  nextIs (·.isMark text)

def nextIsWord (text : String) : List Token → Bool :=
  nextIs (·.isWord text)

def nextIsOneOf (words : List String) : List Token → Bool :=
  nextIs fun token => token.kind == .word && words.contains token.text

def nextIsName : List Token → Bool :=
  nextIs Token.isName

def nextIsOperator (text : String) : List Token → Bool :=
  nextIs fun token => token.kind == .operator && token.text == text

def onNewLine : List Token → Bool :=
  nextIs (·.afterNewline)

def isGlued : List Token → Bool :=
  nextIs fun token => !token.afterBlank

def expect (holds : Token → Bool) : List Token → Parsed
  | [] => .error .incomplete
  | token :: rest => if holds token then .ok rest else .error (.unexpected token.span.start)

def expectMark (text : String) : List Token → Parsed :=
  expect (·.isMark text)

def expectWord (text : String) : List Token → Parsed :=
  expect (·.isWord text)

def expectName : List Token → Parsed :=
  expect Token.isName

def expectCloser (text : String) : List Token → Parsed
  | [] => .error .unclosed
  | tokens => expectMark text tokens

def skipWord (text : String) (tokens : List Token) : List Token :=
  if nextIsWord text tokens then tokens.drop 1 else tokens

def skipOperator (text : String) (tokens : List Token) : List Token :=
  if nextIsOperator text tokens then tokens.drop 1 else tokens

def operatorRun : List Token → String × List Token
  | [] => ("", [])
  | token :: rest =>
      if token.kind == .operator then
        if nextIs (fun next => next.kind == .operator && !next.afterBlank) rest then
          let (text, rest) := operatorRun rest
          (token.text ++ text, rest)
        else (token.text, rest)
      else ("", token :: rest)

def nextIsRun (text : String) (tokens : List Token) : Bool :=
  (operatorRun tokens).1 == text

def reservedWords : List String :=
  ["as", "associatedtype", "break", "case", "catch", "class", "continue", "default", "defer",
    "do", "else", "enum", "extension", "fallthrough", "for", "func", "guard", "if", "import",
    "in", "is", "let", "protocol", "repeat", "rethrows", "return", "struct", "switch", "throw",
    "throws", "typealias", "var", "where", "while"]

def isIdentifier (token : Token) : Bool :=
  token.kind == .escapedWord || (token.kind == .word && !reservedWords.contains token.text)

def modifierWords : List String :=
  ["public", "private", "fileprivate", "internal", "open", "package", "static", "class", "final",
    "lazy", "weak", "unowned", "mutating", "nonmutating", "override", "convenience", "required",
    "optional", "indirect", "dynamic", "infix", "prefix", "postfix", "nonisolated", "isolated",
    "async", "distributed", "borrowing", "consuming"]

def declarationWords : List String :=
  ["import", "let", "var", "func", "init", "deinit", "subscript", "class", "struct", "enum",
    "actor", "protocol", "extension", "typealias", "associatedtype", "operator",
    "precedencegroup", "case", "macro"]

def effectWords : List String :=
  ["async", "throws", "rethrows", "reasync"]

def accessorWords : List String :=
  ["get", "set", "willSet", "didSet", "_read", "_modify", "init", "unsafeAddress",
    "unsafeMutableAddress"]

def typeSpecifiers : List String :=
  ["inout", "some", "any", "each", "repeat", "borrowing", "consuming", "isolated", "sending",
    "nonisolated", "unowned", "weak"]

def skipBrackets (opening closing : String) (depth : Nat) : List Token → Parsed
  | [] => .error .unclosed
  | token :: rest =>
      if token.kind == .invalid then .error (.unexpected token.span.start)
      else if token.isMark opening then skipBrackets opening closing (depth + 1) rest
      else if token.isMark closing then
        match depth with
        | 0 => .ok rest
        | depth + 1 => skipBrackets opening closing depth rest
      else skipBrackets opening closing depth rest

def dottedName (fuel : Nat) (tokens : List Token) : Parsed :=
  match fuel with
  | 0 => unexpected tokens
  | fuel + 1 => do
      let tokens ← expectName tokens
      if nextIsMark "." tokens then dottedName fuel (tokens.drop 1) else return tokens

def attributes (fuel : Nat) (tokens : List Token) : Parsed :=
  match fuel with
  | 0 => unexpected tokens
  | fuel + 1 =>
      if nextIsMark "@" tokens then do
        let tokens ← dottedName fuel (tokens.drop 1)
        if nextIsMark "(" tokens && isGlued tokens then
          attributes fuel (← skipBrackets "(" ")" 0 (tokens.drop 1))
        else attributes fuel tokens
      else return tokens

def isModifier (tokens : List Token) : Bool :=
  nextIsOneOf modifierWords tokens &&
    match tokens.drop 1 with
    | next :: more =>
        next.isMark "@" ||
        (next.kind == .word &&
          (declarationWords.contains next.text || modifierWords.contains next.text)) ||
        (next.isMark "(" && nextIsOneOf ["set", "safe", "unsafe"] more &&
          nextIsMark ")" (more.drop 1))
    | [] => false

def modifiers (fuel : Nat) (tokens : List Token) : Parsed :=
  match fuel with
  | 0 => unexpected tokens
  | fuel + 1 =>
      if nextIsMark "@" tokens then do modifiers fuel (← attributes fuel tokens)
      else if isModifier tokens && !(nextIsWord "class" tokens &&
          !nextIsOneOf (declarationWords ++ modifierWords) (tokens.drop 1)) then
        let rest := tokens.drop 1
        modifiers fuel (if nextIsMark "(" rest then rest.drop 3 else rest)
      else return tokens

end LocalizationAudit.Swift

import LocalizationAudit.Swift.Grammar.Basic

/-! The types of Swift, and what stands around them in declarations. -/

namespace LocalizationAudit.Swift

mutual

def typeName (fuel : Nat) (tokens : List Token) : Parsed :=
  match fuel with
  | 0 => unexpected tokens
  | fuel + 1 => do
      let tokens ← attributes fuel tokens
      if nextIsOneOf typeSpecifiers tokens && nextIs (fun token => token.isName ||
          token.isMark "(" || token.isMark "[" || token.isMark "@") (tokens.drop 1) then
        typeName fuel (tokens.drop 1)
      else if nextIsOperator "~" tokens then typeName fuel (tokens.drop 1)
      else typeTail fuel (← typePrimary fuel tokens)

def typePrimary (fuel : Nat) (tokens : List Token) : Parsed :=
  match fuel with
  | 0 => unexpected tokens
  | fuel + 1 =>
      match tokens with
      | [] => .error .incomplete
      | token :: rest =>
          if isIdentifier token then typePath fuel rest
          else if token.isMark "(" then typeList fuel rest
          else if token.isMark "[" then do
            let tokens ← typeName fuel rest
            if nextIsMark ":" tokens then
              expectCloser "]" (← typeName fuel (tokens.drop 1))
            else expectCloser "]" tokens
          else unexpected tokens

def typePath (fuel : Nat) (tokens : List Token) : Parsed :=
  match fuel with
  | 0 => unexpected tokens
  | fuel + 1 => do
      let tokens ←
        if nextIsOperator "<" tokens && isGlued tokens then typeArguments fuel (tokens.drop 1)
        else pure tokens
      if nextIsMark "." tokens && nextIsName (tokens.drop 1) then typePath fuel (tokens.drop 2)
      else return tokens

def typeArguments (fuel : Nat) (tokens : List Token) : Parsed :=
  match fuel with
  | 0 => unexpected tokens
  | fuel + 1 => do
      let tokens := skipWord "let" tokens
      let tokens ←
        if nextIs (·.kind == .number) tokens then pure (tokens.drop 1) else typeName fuel tokens
      let tokens ← if nextIsMark ":" tokens then typeName fuel (tokens.drop 1) else pure tokens
      let tokens ← whereClause fuel tokens
      if nextIsMark "," tokens then typeArguments fuel (tokens.drop 1)
      else if nextIsOperator ">" tokens then return tokens.drop 1
      else unexpected tokens

def typeList (fuel : Nat) (tokens : List Token) : Parsed :=
  match fuel with
  | 0 => unexpected tokens
  | fuel + 1 =>
      if nextIsMark ")" tokens then .ok (tokens.drop 1)
      else do
        let labelled :=
          if nextIsName tokens && nextIsMark ":" (tokens.drop 1) then tokens.drop 2
          else if nextIsName tokens && nextIsName (tokens.drop 1) &&
              nextIsMark ":" (tokens.drop 2) then tokens.drop 3
          else tokens
        let tokens ← typeName fuel labelled
        if nextIsMark "," tokens then typeList fuel (tokens.drop 1)
        else expectCloser ")" tokens

def typeTail (fuel : Nat) (tokens : List Token) : Parsed :=
  match fuel with
  | 0 => unexpected tokens
  | fuel + 1 =>
      if isGlued tokens && (nextIsOperator "?" tokens || nextIsOperator "!" tokens ||
          nextIsOperator "..." tokens) then typeTail fuel (tokens.drop 1)
      else if nextIsOperator "&" tokens then do
        typeTail fuel (← typePrimary fuel (tokens.drop 1))
      else if nextIsRun "->" tokens then typeName fuel (tokens.drop 2)
      else if nextIsOneOf effectWords tokens then do
        let after ← effects fuel tokens
        if nextIsRun "->" after then typeName fuel (after.drop 2) else return tokens
      else return tokens

def effects (fuel : Nat) (tokens : List Token) : Parsed :=
  match fuel with
  | 0 => unexpected tokens
  | fuel + 1 =>
      if nextIsOneOf effectWords tokens then
        let rest := tokens.drop 1
        if nextIsMark "(" rest && isGlued rest then do
          effects fuel (← skipBrackets "(" ")" 0 (rest.drop 1))
        else effects fuel rest
      else return tokens

def whereClause (fuel : Nat) (tokens : List Token) : Parsed :=
  match fuel with
  | 0 => unexpected tokens
  | fuel + 1 =>
      if nextIsWord "where" tokens then requirements fuel (tokens.drop 1) else return tokens

def requirements (fuel : Nat) (tokens : List Token) : Parsed :=
  match fuel with
  | 0 => unexpected tokens
  | fuel + 1 => do
      let tokens ← typeName fuel tokens
      let tokens ←
        if nextIsMark ":" tokens then typeName fuel (tokens.drop 1)
        else if nextIsRun "==" tokens then typeName fuel (tokens.drop 2)
        else unexpected tokens
      if nextIsMark "," tokens then requirements fuel (tokens.drop 1) else return tokens

end

def typeAnnotation (fuel : Nat) (tokens : List Token) : Parsed :=
  if nextIsMark ":" tokens then typeName fuel (tokens.drop 1) else .ok tokens

def typeInheritance (fuel : Nat) (tokens : List Token) : Parsed :=
  match fuel with
  | 0 => unexpected tokens
  | fuel + 1 => do
      let tokens ← typeName fuel tokens
      if nextIsMark "," tokens then typeInheritance fuel (tokens.drop 1) else return tokens

def genericParameters (fuel : Nat) (tokens : List Token) : Parsed :=
  if nextIsOperator "<" tokens then typeArguments fuel (tokens.drop 1) else .ok tokens

def functionResult (fuel : Nat) (tokens : List Token) : Parsed := do
  let tokens ← effects fuel tokens
  if nextIsRun "->" tokens then typeName fuel (tokens.drop 2) else return tokens

def followsTypeArguments : List Token → Bool
  | [] => true
  | token :: _ =>
      token.afterNewline ||
      (token.kind == .mark && ["(", ")", "[", "]", openBrace, closeBrace, ",", ";", ":", "."].contains
        token.text) ||
      token.kind == .interpolationClose ||
      (token.kind == .operator && !token.afterBlank && ["?", "!", "&", ">"].contains token.text)

end LocalizationAudit.Swift

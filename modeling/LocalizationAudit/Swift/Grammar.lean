import LocalizationAudit.Swift.Grammar.Types

/-!
Which token sequences are Swift: statements, declarations and expressions. Operators have no
precedence here: only acceptance matters.
-/

namespace LocalizationAudit.Swift

def endsOperand : List Token → Bool
  | [] => true
  | token :: _ =>
      token.afterNewline || token.kind == .interpolationClose ||
        (token.kind == .mark && [")", "]", closeBrace, ",", ";", ":", "."].contains token.text)

def startsGluedOperand : List Token → Bool :=
  nextIs fun token => !token.afterBlank &&
    (token.isName || token.kind == .number ||
      match token.kind with
      | .literalOpen _ => true
      | _ => false)

def binding (fuel : Nat) (tokens : List Token) : Parsed :=
  match fuel with
  | 0 => unexpected tokens
  | fuel + 1 =>
      if nextIs isIdentifier tokens then .ok (tokens.drop 1)
      else if nextIsMark "(" tokens then bindings fuel (tokens.drop 1)
      else unexpected tokens
where
  bindings (fuel : Nat) (tokens : List Token) : Parsed :=
    match fuel with
    | 0 => unexpected tokens
    | fuel + 1 => do
        let labelled :=
          if nextIsName tokens && nextIsMark ":" (tokens.drop 1) then tokens.drop 2 else tokens
        let tokens ←
          if nextIs isIdentifier labelled then pure (labelled.drop 1)
          else if nextIsMark "(" labelled then bindings fuel (labelled.drop 1)
          else unexpected labelled
        if nextIsMark "," tokens then bindings fuel (tokens.drop 1) else expectCloser ")" tokens

mutual

def statements (fuel : Nat) (place : Place) (tokens : List Token) : Parsed :=
  match fuel with
  | 0 => unexpected tokens
  | fuel + 1 =>
      match tokens with
      | [] => .ok []
      | token :: rest =>
          if token.isMark ";" then statements fuel place rest
          else if token.isMark closeBrace then .ok tokens
          else if (place == .topLevel || place == .block) &&
              (nextIsOneOf ["case", "default"] tokens ||
                (token.isMark "@" && nextIsWord "unknown" rest)) then .ok tokens
          else do
            let after ← statement fuel place tokens
            if after.isEmpty || onNewLine after || nextIsMark ";" after ||
                nextIsMark closeBrace after then
              statements fuel place after
            else unexpected after

def block (fuel : Nat) (place : Place) (tokens : List Token) : Parsed :=
  match fuel with
  | 0 => unexpected tokens
  | fuel + 1 => do
      let tokens ← expectMark openBrace tokens
      expectCloser closeBrace (← statements fuel place tokens)

def statement (fuel : Nat) (place : Place) (tokens : List Token) : Parsed :=
  match fuel with
  | 0 => unexpected tokens
  | fuel + 1 => do
      let declared ← modifiers fuel tokens
      let inType := place == .members || place == .requirements
      match declared with
      | [] => unexpected []
      | token :: rest =>
          if token.kind == .word && isDeclaration inType token.text rest then
            declaration fuel place token.text rest
          else if inType then
            if token.isMark "#" then expression fuel true declared else unexpected declared
          else if token.kind == .word then
            match token.text with
            | "if" => ifStatement fuel rest
            | "guard" => do
                let tokens ← conditions fuel rest
                block fuel .block (← expectWord "else" tokens)
            | "while" => do block fuel .block (← conditions fuel rest)
            | "repeat" => do
                let tokens ← block fuel .block rest
                expression fuel true (← expectWord "while" tokens)
            | "for" => do
                let tokens ← forPattern fuel rest
                let tokens ← expression fuel false (← expectWord "in" tokens)
                let tokens ←
                  if nextIsWord "where" tokens then expression fuel false (tokens.drop 1)
                  else pure tokens
                block fuel .block tokens
            | "switch" => switchStatement fuel rest
            | "do" => doStatement fuel rest
            | "defer" => block fuel .block rest
            | "throw" => expression fuel true rest
            | "return" =>
                if place == .topLevel then unexpected declared
                else if rest.isEmpty || onNewLine rest || nextIsMark closeBrace rest ||
                    nextIsMark ";" rest then .ok rest
                else expression fuel true rest
            | "fallthrough" => .ok rest
            | "break" | "continue" =>
                .ok (if nextIs isIdentifier rest && !onNewLine rest then rest.drop 1 else rest)
            | _ =>
                if nextIsMark ":" rest && nextIsOneOf
                    ["for", "while", "repeat", "switch", "if", "do"] (rest.drop 1) then
                  statement fuel place (rest.drop 1)
                else expression fuel true declared
          else expression fuel true declared
where
  /-- Some of the words that begin declarations are names elsewhere. -/
  isDeclaration (inType : Bool) (word : String) (rest : List Token) : Bool :=
    match word with
    | "case" => inType
    | "init" => inType && (nextIsMark "(" rest || nextIsOperator "?" rest ||
        nextIsOperator "!" rest || nextIsOperator "<" rest)
    | "subscript" => inType && (nextIsMark "(" rest || nextIsOperator "<" rest)
    | "deinit" => nextIsMark openBrace rest
    | "actor" | "macro" | "precedencegroup" => nextIsName rest && !onNewLine rest
    | "operator" => nextIs (·.kind == .operator) rest
    | _ => declarationWords.contains word

def declaration (fuel : Nat) (place : Place) (word : String) (tokens : List Token) : Parsed :=
  match fuel with
  | 0 => unexpected tokens
  | fuel + 1 =>
      match word with
      | "import" =>
          let tokens :=
            if nextIsOneOf ["struct", "class", "enum", "protocol", "typealias", "func", "let",
              "var"] tokens then tokens.drop 1 else tokens
          dottedName fuel tokens
      | "let" | "var" => variableBindings fuel tokens
      | "func" => do
          let tokens ←
            if nextIs (·.kind == .operator) tokens then pure (operatorRun tokens).2
            else expect isIdentifier tokens
          function fuel place true tokens
      | "init" =>
          function fuel place true (if nextIsOperator "?" tokens || nextIsOperator "!" tokens then
            tokens.drop 1 else tokens)
      | "subscript" => do
          let tokens ← function fuel .requirements false tokens
          if nextIsMark openBrace tokens then accessors fuel tokens else return tokens
      | "deinit" => block fuel .block tokens
      | "class" | "struct" | "enum" | "actor" | "extension" | "protocol" => do
          let tokens ←
            if word == "extension" then typeName fuel tokens
            else do genericParameters fuel (← expect isIdentifier tokens)
          let tokens ←
            if nextIsMark ":" tokens then typeInheritance fuel (tokens.drop 1) else pure tokens
          let tokens ← whereClause fuel tokens
          block fuel (if word == "protocol" then .requirements else .members) tokens
      | "typealias" => do
          let tokens ← genericParameters fuel (← expect isIdentifier tokens)
          let tokens ← expect (fun token => token.kind == .operator && token.text == "=") tokens
          whereClause fuel (← typeName fuel tokens)
      | "associatedtype" => do
          let tokens ← expect isIdentifier tokens
          let tokens ←
            if nextIsMark ":" tokens then typeInheritance fuel (tokens.drop 1) else pure tokens
          let tokens ←
            if nextIsOperator "=" tokens then typeName fuel (tokens.drop 1) else pure tokens
          whereClause fuel tokens
      | "operator" => do
          let tokens := (operatorRun tokens).2
          if nextIsMark ":" tokens then typeInheritance fuel (tokens.drop 1) else return tokens
      | "precedencegroup" => do
          let tokens ← expectName tokens
          skipBrackets openBrace closeBrace 0 (← expectMark openBrace tokens)
      | "macro" => do
          let tokens ← function fuel .requirements false (← expectName tokens)
          if nextIsOperator "=" tokens then expression fuel true (tokens.drop 1)
          else return tokens
      | _ => enumCases fuel tokens

def function (fuel : Nat) (place : Place) (hasBody : Bool) (tokens : List Token) : Parsed :=
  match fuel with
  | 0 => unexpected tokens
  | fuel + 1 => do
      let tokens ← genericParameters fuel tokens
      let tokens ← expectMark "(" tokens
      let tokens ← parameters fuel true tokens
      let tokens ← functionResult fuel tokens
      let tokens ← whereClause fuel tokens
      if hasBody && (place != .requirements || nextIsMark openBrace tokens) then
        block fuel .block tokens
      else return tokens

def parameters (fuel : Nat) (typed : Bool) (tokens : List Token) : Parsed :=
  match fuel with
  | 0 => unexpected tokens
  | fuel + 1 =>
      if nextIsMark ")" tokens then .ok (tokens.drop 1)
      else do
        let tokens ← attributes fuel tokens
        let tokens ← expectName tokens
        let tokens := if nextIsName tokens then tokens.drop 1 else tokens
        let tokens ←
          if typed then typeName fuel (← expectMark ":" tokens) else typeAnnotation fuel tokens
        let tokens := skipOperator "..." tokens
        let tokens ←
          if nextIsOperator "=" tokens then expression fuel true (tokens.drop 1)
          else pure tokens
        if nextIsMark "," tokens then parameters fuel typed (tokens.drop 1)
        else expectCloser ")" tokens

def variableBindings (fuel : Nat) (tokens : List Token) : Parsed :=
  match fuel with
  | 0 => unexpected tokens
  | fuel + 1 => do
      let tokens ← binding fuel tokens
      let tokens ← typeAnnotation fuel tokens
      let tokens ←
        if nextIsOperator "=" tokens then expression fuel true (tokens.drop 1) else pure tokens
      let tokens ← if nextIsMark openBrace tokens then accessors fuel tokens else pure tokens
      if nextIsMark "," tokens then variableBindings fuel (tokens.drop 1) else return tokens

def accessors (fuel : Nat) (tokens : List Token) : Parsed :=
  match fuel with
  | 0 => unexpected tokens
  | fuel + 1 => do
      let inside ← expectMark openBrace tokens
      match accessorList fuel inside with
      | .ok after => return after
      | .error _ => block fuel .block tokens

def accessorList (fuel : Nat) (tokens : List Token) : Parsed :=
  match fuel with
  | 0 => unexpected tokens
  | fuel + 1 => do
      let tokens ← attributes fuel tokens
      let tokens :=
        if nextIsOneOf ["mutating", "nonmutating", "private", "fileprivate", "public"] tokens
        then tokens.drop 1 else tokens
      if nextIsOneOf accessorWords tokens then
        let rest := tokens.drop 1
        let rest ←
          if nextIsMark "(" rest then do
            expectCloser ")" (← expectName (rest.drop 1))
          else pure rest
        let rest ← effects fuel rest
        let rest ← if nextIsMark openBrace rest then block fuel .block rest else pure rest
        if nextIsMark closeBrace rest then return rest.drop 1 else accessorList fuel rest
      else unexpected tokens

def enumCases (fuel : Nat) (tokens : List Token) : Parsed :=
  match fuel with
  | 0 => unexpected tokens
  | fuel + 1 => do
      let tokens ← expect isIdentifier tokens
      let tokens ← if nextIsMark "(" tokens then caseFields fuel (tokens.drop 1) else pure tokens
      let tokens ←
        if nextIsOperator "=" tokens then expression fuel true (tokens.drop 1) else pure tokens
      if nextIsMark "," tokens then enumCases fuel (tokens.drop 1) else return tokens

def caseFields (fuel : Nat) (tokens : List Token) : Parsed :=
  match fuel with
  | 0 => unexpected tokens
  | fuel + 1 =>
      if nextIsMark ")" tokens then .ok (tokens.drop 1)
      else do
        let labelled :=
          if nextIsName tokens && nextIsMark ":" (tokens.drop 1) then tokens.drop 2
          else if nextIsName tokens && nextIsName (tokens.drop 1) &&
              nextIsMark ":" (tokens.drop 2) then tokens.drop 3
          else tokens
        let tokens ← typeName fuel labelled
        let tokens ←
          if nextIsOperator "=" tokens then expression fuel true (tokens.drop 1) else pure tokens
        if nextIsMark "," tokens then caseFields fuel (tokens.drop 1)
        else expectCloser ")" tokens

def ifStatement (fuel : Nat) (tokens : List Token) : Parsed :=
  match fuel with
  | 0 => unexpected tokens
  | fuel + 1 => do
      let tokens ← block fuel .block (← conditions fuel tokens)
      if nextIsWord "else" tokens then
        let rest := tokens.drop 1
        if nextIsWord "if" rest then ifStatement fuel (rest.drop 1) else block fuel .block rest
      else return tokens

def conditions (fuel : Nat) (tokens : List Token) : Parsed :=
  match fuel with
  | 0 => unexpected tokens
  | fuel + 1 => do
      let tokens ←
        if nextIsOneOf ["let", "var"] tokens then do
          let tokens ← typeAnnotation fuel (← binding fuel (tokens.drop 1))
          if nextIsOperator "=" tokens then expression fuel false (tokens.drop 1)
          else pure tokens
        else if nextIsWord "case" tokens then pattern fuel (tokens.drop 1)
        else expression fuel false tokens
      if nextIsMark "," tokens then conditions fuel (tokens.drop 1) else return tokens

def pattern (fuel : Nat) (tokens : List Token) : Parsed :=
  match fuel with
  | 0 => unexpected tokens
  | fuel + 1 =>
      if nextIsWord "is" tokens then typeName fuel (tokens.drop 1)
      else if nextIsOneOf ["let", "var"] tokens then expression fuel false (tokens.drop 1)
      else expression fuel false tokens

def forPattern (fuel : Nat) (tokens : List Token) : Parsed :=
  match fuel with
  | 0 => unexpected tokens
  | fuel + 1 => do
      if nextIsOneOf ["try", "await"] tokens then forPattern fuel (tokens.drop 1)
      else if nextIsOneOf ["case", "let", "var"] tokens then forPattern fuel (tokens.drop 1)
      else if nextIsMark "." tokens then expression fuel false tokens
      else typeAnnotation fuel (skipOperator "?" (← binding fuel tokens))

def switchStatement (fuel : Nat) (tokens : List Token) : Parsed :=
  match fuel with
  | 0 => unexpected tokens
  | fuel + 1 => do
      let tokens ← expression fuel false tokens
      switchCases fuel (← expectMark openBrace tokens)

def switchCases (fuel : Nat) (tokens : List Token) : Parsed :=
  match fuel with
  | 0 => unexpected tokens
  | fuel + 1 =>
      if nextIsMark closeBrace tokens then .ok (tokens.drop 1)
      else if tokens.isEmpty then .error .unclosed
      else do
        let tokens ← attributes fuel tokens
        let tokens ←
          if nextIsWord "default" tokens then pure (tokens.drop 1)
          else casePatterns fuel (← expectWord "case" tokens)
        let tokens ← expectMark ":" tokens
        switchCases fuel (← statements fuel .block tokens)

def casePatterns (fuel : Nat) (tokens : List Token) : Parsed :=
  match fuel with
  | 0 => unexpected tokens
  | fuel + 1 => do
      let tokens ← pattern fuel tokens
      let tokens ←
        if nextIsWord "where" tokens then expression fuel false (tokens.drop 1) else pure tokens
      if nextIsMark "," tokens then casePatterns fuel (tokens.drop 1) else return tokens

def doStatement (fuel : Nat) (tokens : List Token) : Parsed :=
  match fuel with
  | 0 => unexpected tokens
  | fuel + 1 => do
      catches fuel (← block fuel .block (← effects fuel tokens))

def catches (fuel : Nat) (tokens : List Token) : Parsed :=
  match fuel with
  | 0 => unexpected tokens
  | fuel + 1 =>
      if nextIsWord "catch" tokens then do
        let rest := tokens.drop 1
        let rest ← if nextIsMark openBrace rest then pure rest else casePatterns fuel rest
        catches fuel (← block fuel .block rest)
      else return tokens

def expression (fuel : Nat) (closures : Bool) (tokens : List Token) : Parsed :=
  match fuel with
  | 0 => unexpected tokens
  | fuel + 1 => do
      operations fuel closures (← operand fuel closures tokens)

def operations (fuel : Nat) (closures : Bool) (tokens : List Token) : Parsed :=
  match fuel with
  | 0 => unexpected tokens
  | fuel + 1 =>
      match tokens with
      | [] => .ok []
      | token :: rest =>
          if token.isWord "as" then
            let rest := if isGlued rest then skipOperator "!" (skipOperator "?" rest) else rest
            do operations fuel closures (← typeName fuel rest)
          else if token.isWord "is" then do operations fuel closures (← typeName fuel rest)
          else if token.kind == .word && effectWords.contains token.text then do
            let after ← effects fuel tokens
            if nextIsRun "->" after then operations fuel closures after else return tokens
          else if token.kind == .operator then
            let (text, after) := operatorRun tokens
            if text == "?" && token.afterBlank then do
              let tokens ← expression fuel closures after
              expression fuel closures (← expectMark ":" tokens)
            else if token.afterNewline && isGlued after then .ok tokens
            else expression fuel closures after
          else .ok tokens

def operand (fuel : Nat) (closures : Bool) (tokens : List Token) : Parsed :=
  match fuel with
  | 0 => unexpected tokens
  | fuel + 1 =>
      match tokens with
      | [] => .error .incomplete
      | token :: rest =>
          match token.kind with
          | .operator =>
              let (text, after) := operatorRun tokens
              if ["=", "->", "?"].contains text then unexpected tokens
              else if nextIsMark ")" after || nextIsMark "," after then .ok after
              else operand fuel closures after
          | .word =>
              if ["try", "await"].contains token.text then
                operand fuel closures
                  (if isGlued rest then skipOperator "!" (skipOperator "?" rest) else rest)
              else if ["any", "some", "each", "repeat", "consume", "copy"].contains token.text &&
                  nextIsName rest && !onNewLine rest then operand fuel closures rest
              else if ["let", "var"].contains token.text then binding fuel rest
              else if token.text == "if" then ifStatement fuel rest
              else if token.text == "switch" then switchStatement fuel rest
              else if token.text == "do" then doStatement fuel rest
              else if isIdentifier token then suffixes fuel closures rest
              else unexpected tokens
          | .escapedWord | .number | .regex => suffixes fuel closures rest
          | .literalOpen _ => do suffixes fuel closures (← literalParts fuel rest)
          | .mark =>
              match token.text with
              | "(" => do suffixes fuel closures (← arguments fuel ")" rest)
              | "[" =>
                  if nextIsMark ":" rest then do
                    suffixes fuel closures (← expectCloser "]" (rest.drop 1))
                  else do suffixes fuel closures (← elements fuel rest)
              | "\x7b" => if closures then do suffixes fuel closures (← closure fuel rest)
                  else unexpected tokens
              | "." => do suffixes fuel closures (← expectName rest)
              | "\\" =>
                  if nextIsMark "." rest then suffixes fuel closures rest
                  else do suffixes fuel closures (← expectName rest)
              | "#" => do
                  let tokens ← expectName rest
                  if nextIsOneOf ["available", "unavailable"] rest then
                    skipBrackets "(" ")" 0 (← expectMark "(" tokens)
                  else suffixes fuel closures tokens
              | "@" => do operand fuel closures (← attributes fuel tokens)
              | _ => unexpected tokens
          | _ => unexpected tokens

def suffixes (fuel : Nat) (closures : Bool) (tokens : List Token) : Parsed :=
  match fuel with
  | 0 => unexpected tokens
  | fuel + 1 =>
      match tokens with
      | [] => .ok []
      | token :: rest =>
          if token.isMark "." then
            if nextIs (fun next => next.isName || next.kind == .number || next.isMark "[" ||
                (next.kind == .operator && ["?", "!"].contains next.text)) rest then
              if nextIsMark "[" rest then suffixes fuel closures rest
              else suffixes fuel closures (rest.drop 1)
            else unexpected rest
          else if token.isMark "(" && !token.afterNewline then do
            suffixes fuel closures (← arguments fuel ")" rest)
          else if token.isMark "[" && !token.afterNewline then do
            suffixes fuel closures (← arguments fuel "]" rest)
          else if token.isMark openBrace && closures && !token.afterNewline then do
            suffixes fuel closures (← labelledClosures fuel (← closure fuel rest))
          else if token.kind == .operator && !token.afterBlank then
            let (text, after) := operatorRun tokens
            if token.text == "!" || token.text == "?" then
              if text == "??" && startsGluedOperand after then .ok tokens
              else if "!=".toList.isPrefixOf text.toList then .ok tokens
              else suffixes fuel closures rest
            else if token.text == "<" then
              match typeArguments fuel rest with
              | .ok after =>
                  if followsTypeArguments after then suffixes fuel closures after
                  else .ok tokens
              | .error _ => .ok tokens
            else if text != "=" && text != "->" && endsOperand after then
              suffixes fuel closures after
            else .ok tokens
          else .ok tokens

def arguments (fuel : Nat) (closer : String) (tokens : List Token) : Parsed :=
  match fuel with
  | 0 => unexpected tokens
  | fuel + 1 =>
      if tokens.isEmpty then .error .unclosed
      else if nextIsMark closer tokens then .ok (tokens.drop 1)
      else do
        let tokens ← argument fuel tokens
        if nextIsMark "," tokens then arguments fuel closer (tokens.drop 1)
        else expectCloser closer tokens

def argument (fuel : Nat) (tokens : List Token) : Parsed :=
  match fuel with
  | 0 => unexpected tokens
  | fuel + 1 =>
      if nextIsName tokens && nextIsMark ":" (tokens.drop 1) then
        let rest := tokens.drop 2
        if nextIsMark ")" rest then .ok rest
        else if nextIsName rest && nextIsMark ":" (rest.drop 1) then argument fuel rest
        else expression fuel true rest
      else expression fuel true tokens

def elements (fuel : Nat) (tokens : List Token) : Parsed :=
  match fuel with
  | 0 => unexpected tokens
  | fuel + 1 =>
      if tokens.isEmpty then .error .unclosed
      else if nextIsMark "]" tokens then .ok (tokens.drop 1)
      else do
        let tokens ← expression fuel true tokens
        let tokens ←
          if nextIsMark ":" tokens then expression fuel true (tokens.drop 1) else pure tokens
        if nextIsMark "," tokens then elements fuel (tokens.drop 1) else expectCloser "]" tokens

def closure (fuel : Nat) (tokens : List Token) : Parsed :=
  match fuel with
  | 0 => unexpected tokens
  | fuel + 1 => do
      let body :=
        match closureHead fuel tokens with
        | .ok body => body
        | .error _ => tokens
      expectCloser closeBrace (← statements fuel .block body)

def closureHead (fuel : Nat) (tokens : List Token) : Parsed :=
  match fuel with
  | 0 => unexpected tokens
  | fuel + 1 => do
      let tokens ← attributes fuel tokens
      let tokens ←
        if nextIsMark "[" tokens then skipBrackets "[" "]" 0 (tokens.drop 1) else pure tokens
      let tokens ←
        if nextIsMark "(" tokens then parameters fuel false (tokens.drop 1)
        else if nextIs isIdentifier tokens then closureNames fuel tokens
        else pure tokens
      let tokens ← functionResult fuel tokens
      expectWord "in" tokens

def closureNames (fuel : Nat) (tokens : List Token) : Parsed :=
  match fuel with
  | 0 => unexpected tokens
  | fuel + 1 => do
      let tokens ← expect isIdentifier tokens
      if nextIsMark "," tokens then closureNames fuel (tokens.drop 1) else return tokens

def labelledClosures (fuel : Nat) (tokens : List Token) : Parsed :=
  match fuel with
  | 0 => unexpected tokens
  | fuel + 1 =>
      if nextIs isIdentifier tokens && nextIsMark ":" (tokens.drop 1) &&
          nextIsMark openBrace (tokens.drop 2) then do labelledClosures fuel (← closure fuel (tokens.drop 3))
      else return tokens

def literalParts (fuel : Nat) (tokens : List Token) : Parsed :=
  match fuel with
  | 0 => unexpected tokens
  | fuel + 1 =>
      match tokens with
      | [] => .error .unclosed
      | token :: rest =>
          match token.kind with
          | .literalText | .literalComment => literalParts fuel rest
          | .interpolationOpen => do literalParts fuel (← interpolation fuel rest)
          | .literalClose => .ok rest
          | _ => unexpected tokens

def interpolation (fuel : Nat) (tokens : List Token) : Parsed :=
  match fuel with
  | 0 => unexpected tokens
  | fuel + 1 => do
      let tokens ← argument fuel tokens
      match tokens with
      | [] => .error .unclosed
      | token :: rest =>
          if token.kind == .interpolationClose then return rest
          else
            let rest ← expectMark "," tokens
            if nextIs (·.kind == .interpolationClose) rest then return rest.drop 1
            else interpolation fuel rest

end

def grammarFuel (tokens : List Token) : Nat :=
  40 * (tokens.length + 2)

def sourceFault? (tokens : List Token) : Option SourceFault :=
  match statements (grammarFuel tokens) .topLevel tokens with
  | .error fault => some fault
  | .ok [] => none
  | .ok (token :: _) => some (.unexpected token.span.start)

end LocalizationAudit.Swift

import LocalizationAudit.Pattern.Escape

/-!
Reading a pattern. Repetition marks concern the item before them; a bar separates choices;
brackets group, capture, look around or switch flags. Conditions may ask for groups that come later,
but not for those that never come.
-/

namespace LocalizationAudit

namespace PatternReader

def flagLetters : List Char := ['i', 'L', 'm', 's', 'x', 'a', 't', 'u']

def isAlphabetFlag (c : Char) : Bool :=
  c == 'a' || c == 'u' || c == 'L'

def isLetter (c : Char) : Bool :=
  c.isAlpha || (128 ≤ c.toNat && isWordChar c && (decimalDigit? c).isNone)

def unknownFlag {α : Type} (token : List Char) (expected : String) : PatternReader α :=
  match token with
  | [c] => failBack (if isLetter c then "unknown flag" else expected) 1
  | _ => failBack expected token.length

def combineFlags (flags added removed : PatternFlags) : PatternFlags :=
  let kept := if added.any isAlphabetFlag then flags.filter (!isAlphabetFlag ·) else flags
  (kept ++ added).filter (!removed.contains ·)

def addedFlags (added : PatternFlags) (c : Char) : Nat → PatternReader (PatternFlags × Char)
  | 0 => return (added, c)
  | rounds + 1 => do
      if c == 'L' then failBack "bad inline flags: cannot use 'L' flag with a str pattern" 0
      let added := c :: added
      if isAlphabetFlag c && added.any (fun other => isAlphabetFlag other && other != c) then
        failBack "bad inline flags: flags 'a', 'u' and 'L' are incompatible" 0
      match ← take? with
      | none => failBack "missing -, : or )" 0
      | some [next] =>
          if [')', '-', ':'].contains next then return (added, next)
          else if flagLetters.contains next then addedFlags added next rounds
          else unknownFlag [next] "missing -, : or )"
      | some token => unknownFlag token "missing -, : or )"

def removedFlags (removed : PatternFlags) (expected : String) :
    Nat → PatternReader PatternFlags
  | 0 => return removed
  | rounds + 1 => do
      match ← take? with
      | none => failBack expected 0
      | some [c] =>
          if c == ':' && !removed.isEmpty then return removed
          else if flagLetters.contains c then
            if isAlphabetFlag c then
              failBack "bad inline flags: cannot turn off flags 'a', 'u' and 'L'" 0
            removedFlags (c :: removed) "missing :" rounds
          else unknownFlag [c] expected
      | some token => unknownFlag token expected

inductive InlineFlags where
  | forPattern (added : PatternFlags)
  | forGroup (added removed : PatternFlags)
  deriving DecidableEq, Repr

def inlineFlags (c : Char) : PatternReader InlineFlags := do
  let rounds := (← get).tokens.length + 1
  let (added, stop) ← if c == '-' then pure ([], '-') else addedFlags [] c rounds
  if stop == ')' then return .forPattern added
  if added.contains 't' then failBack "bad inline flags: cannot turn on global flag" 1
  let removed ← if stop == '-' then removedFlags [] "missing flag" rounds else pure []
  if removed.contains 't' then failBack "bad inline flags: cannot turn off global flag" 1
  if removed.any added.contains then failBack "bad inline flags: flag turned on and off" 1
  return .forGroup added removed

def maxRepetitions : Nat := 4294967295

def repetitionCount (digits : List Char) : PatternReader Nat := do
  let count := numberIn 10 digits
  if count ≥ maxRepetitions then throw .repetitionTooLarge
  return count

def countedRepetition (start : Nat) : PatternReader (Option (Nat × Option Nat)) := do
  let outer ← get
  if (← peek?) == some ['}'] then return none
  let low ← takeAllChars Char.isDigit
  let high ← if ← passes ',' then takeAllChars Char.isDigit else pure low
  unless ← passes '}' do
    set outer
    return none
  let least ← if low.isEmpty then pure 0 else repetitionCount low
  if high.isEmpty then return some (least, none)
  let most ← repetitionCount high
  if most < least then failAt "min repeat greater than max repeat" start
  return some (least, some most)

def repetition? (c : Char) : PatternReader (Option (Nat × Option Nat)) := do
  match c with
  | '?' => return some (0, some 1)
  | '*' => return some (0, none)
  | '+' => return some (1, none)
  | _ => countedRepetition (← position)

def greed : PatternReader Greed := do
  if ← passes '?' then return .lazy
  if ← passes '+' then return .possessive
  return .greedy

inductive ItemKind where
  | place
  | repetition
  | other
  deriving DecidableEq, Repr

structure ReadItem where
  pattern : Pattern
  kind : ItemKind := .other
  deriving Repr

def ReadItem.ofPattern (pattern : Pattern) : ReadItem :=
  match pattern with
  | .boundary _ => { pattern, kind := .place }
  | _ => { pattern }

def sequenceOf (items : List ReadItem) : Pattern :=
  items.foldr (fun item rest => .sequence item.pattern rest) .empty

def repeatLast (start : Nat) (least : Nat) (most : Option Nat) (items : List ReadItem) :
    PatternReader (List ReadItem) := do
  match items with
  | [] => failAt "nothing to repeat" start
  | ⟨_, .place⟩ :: _ => failAt "nothing to repeat" start
  | ⟨_, .repetition⟩ :: _ => failAt "multiple repeat" start
  | ⟨body, .other⟩ :: others =>
      return { pattern := .repeated least most (← greed) body, kind := .repetition } :: others

def skipLine : Nat → PatternReader Unit
  | 0 => return ()
  | rounds + 1 => do
      match ← take? with
      | none => return ()
      | some token => unless token == ['\n'] do skipLine rounds

def skipRemark (start : Nat) : Nat → PatternReader Unit
  | 0 => return ()
  | rounds + 1 => do
      if (← peek?).isNone then failAt "missing ), unterminated comment" start
      let token ← take?
      unless token == some [')'] do skipRemark start rounds

def isPatternBlank (c : Char) : Bool :=
  isAsciiBlank c

def expectClosing (start : Nat) : PatternReader Unit := do
  unless ← passes ')' do
    failAt "missing ), unterminated subpattern" start

def conditionGroup : PatternReader Nat := do
  let name ← takeName ')' "group name"
  let back := name.length + 1
  if isName name then groupNamed name
  else
    match integer? name.toList with
    | some (.ofNat 0) => failBack "bad group number" back
    | some (.ofNat number) =>
        noteReference number ((← position) - back)
        return number
    | _ => failBack ("bad character in group name " ++ quotedString name) back

inductive Opening where
  | remark
  | flags (flags : PatternFlags)
  | reference (pattern : Pattern)
  | capturing (name : String)
  | plain (added removed : PatternFlags)
  | atomic
  | ahead (negated : Bool)
  | behind (negated : Bool)
  | conditional (number : Nat)

def unexpectedEnd {α : Type} : PatternReader α :=
  failBack "unexpected end of pattern" 0

def unknownExtension {α : Type} (lead : String) (token : List Char) (back : Nat) :
    PatternReader α :=
  failBack ("unknown extension ?" ++ lead ++ String.ofList token) (token.length + back)

def namedOpening : PatternReader Opening := do
  if ← passes '<' then
    let name ← takeName '>' "group name"
    checkName name
    return .capturing name
  if ← passes '=' then
    let name ← takeName ')' "group name"
    checkName name
    let number ← groupNamed name
    return .reference (← reference number (name.length + 1))
  match ← take? with
  | none => unexpectedEnd
  | some token => unknownExtension "P" token 2

def behindOpening : PatternReader Opening := do
  match ← take? with
  | none => unexpectedEnd
  | some ['='] => return .behind false
  | some ['!'] => return .behind true
  | some token => unknownExtension "<" token 2

def opening (start : Nat) : PatternReader Opening := do
  match ← take? with
  | none => unexpectedEnd
  | some ['P'] => namedOpening
  | some [':'] => return .plain [] []
  | some ['#'] =>
      skipRemark start ((← get).tokens.length + 1)
      return .remark
  | some ['='] => return .ahead false
  | some ['!'] => return .ahead true
  | some ['<'] => behindOpening
  | some ['>'] => return .atomic
  | some ['('] => return .conditional (← conditionGroup)
  | some [c] =>
      if flagLetters.contains c || c == '-' then
        match ← inlineFlags c with
        | .forPattern added => return .flags added
        | .forGroup added removed => return .plain added removed
      else unknownExtension "" [c] 1
  | some token => unknownExtension "" token 1

def globalFlags (start : Nat) (atStart : Bool) (added : PatternFlags) : PatternReader Unit := do
  unless atStart do
    failAt "global flags not at the start of the expression" start
  modify fun state => { state with flags := combineFlags state.flags added [] }

def isSequenceEnd (token : List Char) : Bool :=
  token == ['|'] || token == [')']

mutual

def choices (outermost : Bool) : Nat → PatternReader Pattern
  | 0 => return .empty
  | rounds + 1 => do
      let first ← items outermost [] rounds
      if ← passes '|' then return .choice first (← moreChoices rounds)
      else return first

def moreChoices : Nat → PatternReader Pattern
  | 0 => return .empty
  | rounds + 1 => do
      let first ← items false [] rounds
      if ← passes '|' then return .choice first (← moreChoices rounds)
      else return first

def items (first : Bool) (passed : List ReadItem) : Nat → PatternReader Pattern
  | 0 => return sequenceOf passed.reverse
  | rounds + 1 => do
      match ← peek? with
      | none => return sequenceOf passed.reverse
      | some token =>
          if isSequenceEnd token then return sequenceOf passed.reverse
          let start ← position
          let _ ← take?
          items first (← item first passed start token rounds) rounds

def item (first : Bool) (passed : List ReadItem) (start : Nat) (token : List Char) :
    Nat → PatternReader (List ReadItem)
  | 0 => return passed
  | rounds + 1 => do
      let flags := (← get).flags
      match token with
      | ['\\', c] => return .ofPattern (← escape c) :: passed
      | ['['] => return { pattern := ← charSet start } :: passed
      | ['('] => group first passed start rounds
      | ['.'] =>
          let items := if flags.dotMatchesAll then [] else [SetItem.single '\n'.toNat]
          return { pattern := .char { items, negated := true } } :: passed
      | ['^'] =>
          return .ofPattern (.boundary (if flags.matchesLines then .lineStart else .textStart)) ::
            passed
      | ['$'] =>
          return .ofPattern (.boundary (if flags.matchesLines then .lineEnd else .lastLineEnd)) ::
            passed
      | [c] =>
          if flags.skipsBlanks && isPatternBlank c then return passed
          if flags.skipsBlanks && c == '#' then
            skipLine ((← get).tokens.length + 1)
            return passed
          if ['*', '+', '?', '{'].contains c then
            match ← repetition? c with
            | some (least, most) => return ← repeatLast start least most passed
            | none => return { pattern := ← literalPattern c.toNat } :: passed
          return { pattern := ← literalPattern c.toNat } :: passed
      | _ => return passed

def group (first : Bool) (passed : List ReadItem) (start : Nat) :
    Nat → PatternReader (List ReadItem)
  | 0 => return passed
  | rounds + 1 => do
      if ← passes '?' then
        match ← opening start with
        | .remark => return passed
        | .flags added =>
            globalFlags start (first && passed.isEmpty) added
            return passed
        | .reference pattern => return { pattern } :: passed
        | .capturing name => capture (some name) passed start rounds
        | .plain added removed =>
            let flags := combineFlags (← get).flags added removed
            let body ← withFlags flags (choices false rounds)
            expectClosing start
            return { pattern := body } :: passed
        | .atomic =>
            let body ← choices false rounds
            expectClosing start
            return { pattern := .atomic body } :: passed
        | .ahead negated =>
            let body ← choices false rounds
            expectClosing start
            return { pattern := .ahead negated body } :: passed
        | .behind negated =>
            let body ← lookingBehind (choices false rounds)
            expectClosing start
            return { pattern := .behind negated body } :: passed
        | .conditional number =>
            checkBehind number
            let yes ← items false [] rounds
            let no ← if ← passes '|' then items false [] rounds else pure .empty
            if (← peek?) == some ['|'] then
              failBack "conditional backref with more than two branches" 0
            expectClosing start
            return { pattern := .conditional number yes no } :: passed
      else capture none passed start rounds

def capture (name : Option String) (passed : List ReadItem) (start : Nat) :
    Nat → PatternReader (List ReadItem)
  | 0 => return passed
  | rounds + 1 => do
      let number ← openGroup name
      let body ← choices false rounds
      expectClosing start
      closeGroup number body.width
      return { pattern := .group number body } :: passed

end

def checkReferences : PatternReader Unit := do
  let state ← get
  match state.references.find? fun (number, _) => number > state.groups.length with
  | some (number, place) => failAt ("invalid group reference " ++ toString number) place
  | none => return ()

def whole (rounds : Nat) : PatternReader (Pattern × Nat) := do
  checkNext
  let pattern ← choices true rounds
  unless (← peek?).isNone do
    failBack "unbalanced parenthesis" 0
  checkReferences
  unless pattern.looksBehindFixed do
    throw (.malformed "look-behind requires fixed-width pattern" none)
  return (pattern, (← get).groups.length)

end PatternReader

def Pattern.read (text : List Char) : Except PatternError (Pattern × Nat) :=
  (PatternReader.whole (8 * text.length + 8)).run'
    { tokens := patternTokens 0 text, length := text.length, flags := PatternFlags.standard }

end LocalizationAudit

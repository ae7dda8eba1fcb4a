import LocalizationAudit.Pattern.Error
import LocalizationAudit.Pattern.Syntax
import LocalizationAudit.Text.Quoted

/-!
The state in which a pattern is read. A backslash and the character behind it are one token; a
backslash that ends the pattern is an error as soon as reading comes to it. Groups are numbered in
the order in which they are opened; inside of a look behind those of the same one cannot be meant.
-/

namespace LocalizationAudit

structure PatternToken where
  text : List Char
  offset : Nat
  deriving DecidableEq, Repr

def patternTokens (offset : Nat) : List Char → List PatternToken
  | [] => []
  | '\\' :: c :: rest => ⟨['\\', c], offset⟩ :: patternTokens (offset + 2) rest
  | c :: rest => ⟨[c], offset⟩ :: patternTokens (offset + 1) rest

/-- `references` are the groups that conditions ask for by number, each with its first place. -/
structure ReaderState where
  tokens : List PatternToken
  length : Nat
  flags : PatternFlags
  names : List (String × Nat) := []
  /-- The widths of the groups in order; a group that is still open has none. -/
  groups : List (Option MatchWidth) := []
  /-- Inside of a look behind, the number of groups before it, and one. -/
  behindGroups : Option Nat := none
  references : List (Nat × Nat) := []
  deriving Repr

abbrev PatternReader := StateT ReaderState (Except PatternError)

namespace PatternReader

def failAt {α : Type} (explanation : String) (position : Nat) : PatternReader α :=
  throw (.malformed explanation (some position))

def position : PatternReader Nat := do
  let state ← get
  return (state.tokens.head?.map PatternToken.offset).getD state.length

def failBack {α : Type} (explanation : String) (back : Nat) : PatternReader α := do
  failAt explanation ((← position) - back)

def peek? : PatternReader (Option (List Char)) := do
  return (← get).tokens.head?.map PatternToken.text

def checkNext : PatternReader Unit := do
  if (← peek?) == some ['\\'] then
    failAt "bad escape (end of pattern)" ((← get).length - 1)

def take? : PatternReader (Option (List Char)) := do
  let state ← get
  set { state with tokens := state.tokens.drop 1 }
  checkNext
  return state.tokens.head?.map PatternToken.text

def passes (c : Char) : PatternReader Bool := do
  if (← peek?) == some [c] then
    let _ ← take?
    return true
  else return false

def takeChars (permitted : Char → Bool) : Nat → PatternReader (List Char)
  | 0 => return []
  | count + 1 => do
      match ← peek? with
      | some [c] =>
          if permitted c then
            let _ ← take?
            return c :: (← takeChars permitted count)
          else return []
      | _ => return []

def takeAllChars (permitted : Char → Bool) : PatternReader (List Char) := do
  takeChars permitted (← get).tokens.length

def nameUntil (terminator : Char) (what : String) (passed : List Char) :
    Nat → PatternReader String
  | 0 => return String.ofList passed
  | rounds + 1 => do
      match ← take? with
      | none =>
          if passed.isEmpty then failBack ("missing " ++ what) 0
          else
            failBack ("missing " ++ String.ofList [terminator] ++ ", unterminated name")
              passed.length
      | some token =>
          if token == [terminator] then
            if passed.isEmpty then failBack ("missing " ++ what) 1
            else return String.ofList passed
          else nameUntil terminator what (passed ++ token) rounds

def takeName (terminator : Char) (what : String) : PatternReader String := do
  nameUntil terminator what [] ((← get).tokens.length + 1)

def isNameStart (c : Char) : Bool :=
  isWordChar c && (decimalDigit? c).isNone

def isName (name : String) : Bool :=
  match name.toList with
  | [] => false
  | c :: rest => isNameStart c && rest.all isWordChar

def checkName (name : String) : PatternReader Unit := do
  unless isName name do
    failBack ("bad character in group name " ++ quotedString name) (name.length + 1)

def groupWidth? (number : Nat) : PatternReader (Option MatchWidth) := do
  match number with
  | 0 => return none
  | index + 1 => return ((← get).groups[index]?).join

def checkBehind (number : Nat) : PatternReader Unit := do
  match (← get).behindGroups with
  | none => return ()
  | some limit =>
      if (← groupWidth? number).isNone then failBack "cannot refer to an open group" 0
      else if number ≥ limit then
        failBack "cannot refer to group defined in the same lookbehind subpattern" 0

def reference (number back : Nat) : PatternReader Pattern := do
  match ← groupWidth? number with
  | none => failBack "cannot refer to an open group" back
  | some width =>
      checkBehind number
      return .sameAs number (← get).flags.ignoresCase width

def groupNamed (name : String) : PatternReader Nat := do
  match (← get).names.lookup name with
  | some number => return number
  | none => failBack ("unknown group name " ++ quotedString name) (name.length + 1)

def openGroup (name : Option String) : PatternReader Nat := do
  let state ← get
  let number := state.groups.length + 1
  match name with
  | none => set { state with groups := state.groups ++ [none] }
  | some name =>
      match state.names.lookup name with
      | some other =>
          failBack ("redefinition of group name " ++ quotedString name ++ " as group " ++
            toString number ++ "; was group " ++ toString other) (name.length + 1)
      | none =>
          set { state with
            groups := state.groups ++ [none]
            names := (name, number) :: state.names }
  return number

def closeGroup (number : Nat) (width : MatchWidth) : PatternReader Unit :=
  modify fun state => { state with groups := state.groups.set (number - 1) (some width) }

def noteReference (number place : Nat) : PatternReader Unit :=
  modify fun state =>
    if state.references.any (·.1 == number) then state
    else { state with references := state.references ++ [(number, place)] }

def withFlags {α : Type} (flags : PatternFlags) (read : PatternReader α) : PatternReader α := do
  let outer := (← get).flags
  modify fun state => { state with flags }
  let result ← read
  modify fun state => { state with flags := outer }
  return result

def lookingBehind {α : Type} (read : PatternReader α) : PatternReader α := do
  let outer := (← get).behindGroups
  modify fun state =>
    { state with behindGroups := some (outer.getD (state.groups.length + 1)) }
  let result ← read
  modify fun state => { state with behindGroups := outer }
  return result

end PatternReader

end LocalizationAudit

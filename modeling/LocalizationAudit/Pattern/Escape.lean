import LocalizationAudit.Pattern.Cursor

/-!
Escapes of a pattern, alone and inside of a character set, and sets themselves. No character is
known by name, and letters without a meaning are kept free for escapes to come.
-/

namespace LocalizationAudit.PatternReader

def charPattern (items : List SetItem) (negated : Bool) : PatternReader Pattern := do
  let flags := (← get).flags
  return .char
    { items, negated, ignoresCase := flags.ignoresCase, ascii := flags.asciiOnly }

def literalPattern (code : Nat) : PatternReader Pattern :=
  charPattern [.single code] false

def controlCode? (inSet : Bool) (c : Char) : Option Nat :=
  if c == 'b' then if inSet then some 8 else none
  else [('a', 7), ('f', 12), ('n', 10), ('r', 13), ('t', 9), ('v', 11), ('\\', 92)].lookup c

def categoryItem? (c : Char) : Option SetItem :=
  [('d', SetItem.category .digit false), ('D', .category .digit true),
    ('s', .category .blank false), ('S', .category .blank true),
    ('w', .category .word false), ('W', .category .word true)].lookup c

def boundary? (ascii : Bool) (c : Char) : Option Boundary :=
  [('A', Boundary.textStart), ('Z', .textEnd), ('b', .wordEdge ascii false),
    ('B', .wordEdge ascii true)].lookup c

def isOctalDigit (c : Char) : Bool :=
  '0' ≤ c && c ≤ '7'

def digitValue (c : Char) : Nat :=
  if c.isDigit then c.toNat - 48
  else if c.toNat < 97 then c.toNat - 55
  else c.toNat - 87

def isHexDigit (c : Char) : Bool :=
  c.isDigit || ('a' ≤ c && c ≤ 'f') || ('A' ≤ c && c ≤ 'F')

def numberIn (base : Nat) (digits : List Char) : Nat :=
  digits.foldl (fun value digit => base * value + digitValue digit) 0

def escapeText (c : Char) (rest : List Char) : String :=
  String.ofList ('\\' :: c :: rest)

def badEscape {α : Type} (c : Char) (rest : List Char) : PatternReader α :=
  failBack ("bad escape " ++ escapeText c rest) (2 + rest.length)

def hexEscape (c : Char) (count : Nat) : PatternReader Nat := do
  let digits ← takeChars isHexDigit count
  if digits.length != count then
    failBack ("incomplete escape " ++ escapeText c digits) (2 + digits.length)
  let code := numberIn 16 digits
  if code > 0x10FFFF then badEscape c digits
  return code

def namedEscape : PatternReader Nat := do
  unless ← passes '{' do
    failBack "missing \x7b" 0
  let name ← takeName '}' "character name"
  failBack ("undefined character name " ++ quotedString name) (name.length + 4)

def octalTooLarge {α : Type} (c : Char) (rest : List Char) : PatternReader α :=
  failBack ("octal escape value " ++ escapeText c rest ++ " outside of range 0-0o377")
    (2 + rest.length)

def commonEscape? (c : Char) : PatternReader (Option Nat) := do
  match c with
  | 'x' => return some (← hexEscape c 2)
  | 'u' => return some (← hexEscape c 4)
  | 'U' => return some (← hexEscape c 8)
  | 'N' => return some (← namedEscape)
  | _ => return none

def plainEscape (c : Char) : PatternReader Nat := do
  if c.isAlpha then badEscape c []
  return c.toNat

def setOctal (c : Char) : PatternReader Nat := do
  let digits ← takeChars isOctalDigit 2
  let code := numberIn 8 (c :: digits)
  if code > 255 then octalTooLarge c digits
  return code

def setEscape (c : Char) : PatternReader SetItem := do
  match controlCode? true c, categoryItem? c with
  | some code, _ => return .single code
  | none, some item => return item
  | none, none =>
      if isOctalDigit c then return .single (← setOctal c)
      if c.isDigit then badEscape c []
      match ← commonEscape? c with
      | some code => return .single code
      | none => return .single (← plainEscape c)

def groupReference (c : Char) (rest : List Char) : PatternReader Pattern := do
  let number := numberIn 10 (c :: rest)
  if number > (← get).groups.length then
    failBack ("invalid group reference " ++ toString number) (1 + rest.length)
  reference number (2 + rest.length)

def digitEscape (c : Char) : PatternReader Pattern := do
  if c == '0' then
    return ← literalPattern (numberIn 8 (← takeChars isOctalDigit 2))
  let second ← takeChars Char.isDigit 1
  if isOctalDigit c && !second.isEmpty && second.all isOctalDigit then
    let third ← takeChars isOctalDigit 1
    if !third.isEmpty then
      let digits := second ++ third
      let code := numberIn 8 (c :: digits)
      if code > 255 then octalTooLarge c digits
      return ← literalPattern code
  groupReference c second

def escape (c : Char) : PatternReader Pattern := do
  match boundary? (← get).flags.asciiOnly c, categoryItem? c, controlCode? false c with
  | some place, _, _ => return .boundary place
  | none, some item, _ => charPattern [item] false
  | none, none, some code => literalPattern code
  | none, none, none =>
      if c.isDigit then return ← digitEscape c
      match ← commonEscape? c with
      | some code => literalPattern code
      | none => literalPattern (← plainEscape c)

def setMember (token : List Char) : PatternReader SetItem := do
  match token with
  | ['\\', c] => setEscape c
  | c :: _ => return .single c.toNat
  | [] => return .single 0

def setRange (firstToken lastToken : List Char) (first last : SetItem) :
    PatternReader SetItem := do
  let bad : PatternReader SetItem :=
    failBack ("bad character range " ++ String.ofList (firstToken ++ '-' :: lastToken))
      (firstToken.length + 1 + lastToken.length)
  match first, last with
  | .range low _, .range high _ => if high < low then bad else return .range low high
  | _, _ => bad

def takeSetToken (start : Nat) : PatternReader (List Char) := do
  match ← take? with
  | some token => return token
  | none => failAt "unterminated character set" start

def setItems (start : Nat) (items : List SetItem) : Nat → PatternReader (List SetItem)
  | 0 => return items
  | rounds + 1 => do
      let token ← takeSetToken start
      if token == [']'] && !items.isEmpty then return items
      let first ← setMember token
      if ← passes '-' then
        let other ← takeSetToken start
        if other == [']'] then return items ++ [first, .single '-'.toNat]
        let last ← setMember other
        setItems start (items ++ [← setRange token other first last]) rounds
      else setItems start (items ++ [first]) rounds

def charSet (start : Nat) : PatternReader Pattern := do
  let negated ← passes '^'
  charPattern (← setItems start [] ((← get).tokens.length + 1)) negated

end LocalizationAudit.PatternReader

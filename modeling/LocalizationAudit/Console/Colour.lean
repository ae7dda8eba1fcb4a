/-! Coloured characters, and how a line of them is written to a terminal. -/

namespace LocalizationAudit

inductive Colour where
  | red
  | green
  | yellow
  deriving DecidableEq, Repr

def Colour.all : List Colour := [.red, .green, .yellow]

def Colour.name : Colour → String
  | red => "red"
  | green => "green"
  | yellow => "yellow"

def Colour.ofName? (name : String) : Option Colour :=
  Colour.all.find? (·.name == name)

def Colour.code : Colour → Nat
  | red => 31
  | green => 32
  | yellow => 33

/-- A character and its colour; `opensRun` marks the first of those that are written in one go. -/
structure StyledChar where
  char : Char
  colour : Option Colour := none
  opensRun : Bool := false
  deriving DecidableEq, Repr

def StyledChar.isNewline (c : StyledChar) : Bool :=
  c.char == '\n'

def plainText (line : List StyledChar) : List Char :=
  line.map StyledChar.char

def openRun : List StyledChar → List StyledChar
  | [] => []
  | c :: rest => { c with opensRun := true } :: rest

def styledRuns : List StyledChar → List (List StyledChar)
  | [] => []
  | c :: rest =>
      match rest, styledRuns rest with
      | next :: _, run :: others =>
          if next.opensRun then [c] :: run :: others else (c :: run) :: others
      | _, others => [c] :: others

def escapeCode (number : Nat) : List Char :=
  Char.ofNat 27 :: '[' :: (toString number).toList ++ ['m']

def paintRun (run : List StyledChar) : List Char :=
  match run.head?.bind StyledChar.colour with
  | some colour => escapeCode colour.code ++ plainText run ++ escapeCode 0
  | none => plainText run

def paint (coloured : Bool) (line : List StyledChar) : List Char :=
  if coloured then (styledRuns line).flatMap paintRun else plainText line

end LocalizationAudit

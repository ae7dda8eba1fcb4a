import LocalizationAudit.Console.Width
import LocalizationAudit.Text.Blank

/-!
Laying out text in lines of a given number of columns. A line ends only where the next word would
not fit; a word wider than a line begins on a line of its own and is cut. The blanks behind a word
do not count when it is asked whether it fits; at the end of a line they go as far as they make it
too long. What follows a tab is written anew.
-/

namespace LocalizationAudit

def StyledChar.isBlank (c : StyledChar) : Bool :=
  LocalizationAudit.isBlank c.char

def StyledChar.isTab (c : StyledChar) : Bool :=
  c.char == '\t'

def tabWidth : Nat := 8

def tabBlanks (column : Nat) (tab : StyledChar) : List StyledChar :=
  { tab with char := ' ' } ::
    List.replicate (tabWidth - 1 - column % tabWidth) ⟨' ', tab.colour, false⟩

def expandTabs (column : Nat) (line : List StyledChar) : List StyledChar :=
  let before := line.takeWhile (!StyledChar.isTab ·)
  match _ : line.dropWhile (!StyledChar.isTab ·) with
  | [] => before
  | tab :: rest =>
      let reached := column + cellLength before
      let blanks := tabBlanks reached tab
      before ++ blanks ++ openRun (expandTabs (reached + blanks.length) rest)
termination_by line.length
decreasing_by
  have shorter := (List.dropWhile_suffix (l := line) (!StyledChar.isTab ·)).length_le
  rw [‹line.dropWhile _ = tab :: rest›] at shorter
  exact shorter

def wordsFrom : List StyledChar → List (List StyledChar)
  | [] => []
  | c :: rest =>
      let behind := rest.dropWhile (!StyledChar.isBlank ·)
      (c :: rest.takeWhile (!StyledChar.isBlank ·) ++ behind.takeWhile StyledChar.isBlank) ::
        wordsFrom (behind.dropWhile StyledChar.isBlank)
termination_by line => line.length
decreasing_by
  have inner := List.dropWhile_suffix (l := rest) (!StyledChar.isBlank ·)
  have outer := (List.dropWhile_suffix StyledChar.isBlank).trans inner
  exact Nat.lt_succ_of_le outer.length_le

def words (line : List StyledChar) : List (List StyledChar) :=
  match wordsFrom (line.dropWhile StyledChar.isBlank) with
  | [] => []
  | first :: others => (line.takeWhile StyledChar.isBlank ++ first) :: others

def dropTrailingBlanks (word : List StyledChar) : List StyledChar :=
  (word.reverse.dropWhile StyledChar.isBlank).reverse

/-- Cuts clusters into pieces of at most `width` columns; `piece` is begun and takes `used`. -/
def cutFrom (width : Nat) (piece : List StyledChar) (used : Nat) :
    List Cluster → List (List StyledChar)
  | [] => [piece]
  | cluster :: rest =>
      if used + cluster.width > width then piece :: cutFrom width cluster.chars cluster.width rest
      else cutFrom width (piece ++ cluster.chars) (used + cluster.width) rest

def cutWord (width : Nat) (word : List StyledChar) : List (List StyledChar) :=
  cutFrom width [] 0 (clusters word)

structure Filling where
  full : List (List StyledChar) := []
  line : List StyledChar := []
  used : Nat := 0
  deriving DecidableEq, Repr

namespace Filling

def endLine (filling : Filling) : List (List StyledChar) :=
  if filling.line.isEmpty then filling.full else filling.line :: filling.full

def addWord (width : Nat) (filling : Filling) (word : List StyledChar) : Filling :=
  let needed := cellLength (dropTrailingBlanks word)
  if filling.used + needed ≤ width then
    { filling with line := filling.line ++ word, used := filling.used + cellLength word }
  else if needed > width then
    let pieces := cutWord width word
    let last := pieces.getLastD []
    ⟨pieces.dropLast.reverse ++ filling.endLine, last, cellLength last⟩
  else ⟨filling.endLine, word, cellLength word⟩

def lines (filling : Filling) : List (List StyledChar) :=
  (filling.line :: filling.full).reverse

end Filling

def dropExcessBlanks (width : Nat) (line : List StyledChar) : List StyledChar :=
  let blanks := line.length - (dropTrailingBlanks line).length
  line.take (line.length - min blanks (line.length - width))

def cropFrom (left : Nat) : List Cluster → List StyledChar
  | [] => []
  | cluster :: rest =>
      if cluster.width ≤ left then cluster.chars ++ cropFrom (left - cluster.width) rest
      else
        match cluster.chars with
        | [] => []
        | c :: _ => List.replicate left { c with char := ' ' }

def crop (width : Nat) (line : List StyledChar) : List StyledChar :=
  if cellLength line ≤ width then line else cropFrom width (clusters line)

def wrapLine (width : Nat) (line : List StyledChar) : List (List StyledChar) :=
  let filled :=
    match words line with
    | [] => [line]
    | words => (words.foldl (Filling.addWord width) {}).lines
  filled.map fun line => crop width (dropExcessBlanks width line)

def layOut (width? : Option Nat) (text : List StyledChar) : List (List StyledChar) :=
  let lines := (text.splitOnP StyledChar.isNewline).map (expandTabs 0)
  match width? with
  | none => lines
  | some width => lines.flatMap (wrapLine width)

end LocalizationAudit

import LocalizationAudit.Console.Colour
import LocalizationAudit.Console.Width.Table

/-! The columns that text takes on a terminal. -/

namespace LocalizationAudit

def charWidth (c : Char) : Nat :=
  if c.toNat < 32 || (0x7F ≤ c.toNat && c.toNat < 0xA0) || inRanges zeroWidthRanges c then 0
  else if inRanges wideRanges c then 2
  else 1

def zeroWidthJoiner : Char := Char.ofNat 0x200D

def emojiSelector : Char := Char.ofNat 0xFE0F

structure Cluster where
  chars : List StyledChar
  width : Nat
  deriving DecidableEq, Repr

def Cluster.extend (cluster : Cluster) (chars : List StyledChar) (width : Nat) : Cluster :=
  ⟨cluster.chars ++ chars, cluster.width + width⟩

def extendLast (closed : List Cluster) (chars : List StyledChar) (width : Nat) : List Cluster :=
  match closed with
  | [] => [⟨chars, width⟩]
  | last :: others => last.extend chars width :: others

def selectorWidth (measured : Option Char) : Nat :=
  if measured.any (inRanges widenedRanges) then 1 else 0

/--
`closed` holds the clusters so far, the last one first, and `measured` the last character that
takes columns, unless a selector has widened it. A joiner takes the next character along.
-/
def clustersFrom (closed : List Cluster) (measured : Option Char) :
    List StyledChar → List Cluster
  | [] => closed.reverse
  | c :: rest =>
      if c.char == zeroWidthJoiner then
        match rest with
        | next :: after =>
            if closed.isEmpty then clustersFrom [⟨[c], 0⟩] measured (next :: after)
            else clustersFrom (extendLast closed [c, next] 0) measured after
        | [] => (extendLast closed [c] 0).reverse
      else if c.char == emojiSelector then
        let width := if closed.isEmpty then 0 else selectorWidth measured
        clustersFrom (extendLast closed [c] width) (if width == 0 then measured else none) rest
      else
        match charWidth c.char with
        | 0 => clustersFrom (extendLast closed [c] 0) measured rest
        | width => clustersFrom (⟨[c], width⟩ :: closed) (some c.char) rest

def clusters (line : List StyledChar) : List Cluster :=
  clustersFrom [] none line

def cellLength (line : List StyledChar) : Nat :=
  (clusters line).foldr (fun cluster total => cluster.width + total) 0

end LocalizationAudit

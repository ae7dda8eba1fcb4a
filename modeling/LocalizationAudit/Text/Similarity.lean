/-!
How alike two texts are: the characters that they share in order, found by taking out the longest
common piece and comparing what stands on either side of it.
-/

namespace LocalizationAudit

def commonStart : List Char → List Char → Nat
  | a :: left, b :: right => if a == b then commonStart left right + 1 else 0
  | _, _ => 0

structure SharedPiece where
  left : Nat := 0
  right : Nat := 0
  length : Nat := 0
  deriving DecidableEq, Repr

def SharedPiece.better (best other : SharedPiece) : SharedPiece :=
  if other.length > best.length then other else best

def longestShared (left right : List Char) : SharedPiece :=
  let pieces := (List.range left.length).flatMap fun i =>
    (List.range right.length).map fun j =>
      (⟨i, j, commonStart (left.drop i) (right.drop j)⟩ : SharedPiece)
  pieces.foldl SharedPiece.better {}

def sharedWithin (rounds : Nat) (left right : List Char) : Nat :=
  match rounds with
  | 0 => 0
  | rounds + 1 =>
      let piece := longestShared left right
      if piece.length == 0 then 0
      else
        sharedWithin rounds (left.take piece.left) (right.take piece.right) + piece.length +
          sharedWithin rounds (left.drop (piece.left + piece.length))
            (right.drop (piece.right + piece.length))

structure Likeness where
  shared : Nat
  total : Nat
  deriving DecidableEq, Repr

def Likeness.of (left right : String) : Likeness :=
  let left := left.toList
  let right := right.toList
  ⟨2 * sharedWithin left.length left right, left.length + right.length⟩

def Likeness.isClose (likeness : Likeness) : Bool :=
  10 * likeness.shared ≥ 6 * likeness.total

def Likeness.atLeast (likeness other : Likeness) : Bool :=
  likeness.shared * other.total ≥ other.shared * likeness.total

def maxSuggestions : Nat := 3

def closeWords (word : String) (words : List String) : List String :=
  let scored := (words.map fun candidate => (candidate, Likeness.of candidate word)).filter
    (·.2.isClose)
  let sorted := (scored.mergeSort fun first second => decide (first.1 ≥ second.1)).mergeSort
    fun first second => first.2.atLeast second.2
  (sorted.take maxSuggestions).map (·.1)

end LocalizationAudit

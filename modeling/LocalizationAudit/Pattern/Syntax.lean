import LocalizationAudit.Pattern.Character

/-! Patterns as trees, and how many characters a match of one can have. -/

namespace LocalizationAudit

inductive Boundary where
  | textStart
  | textEnd
  | lineStart
  | lineEnd
  /-- The end of the text, or before a line end that ends it. -/
  | lastLineEnd
  | wordEdge (ascii negated : Bool)
  deriving DecidableEq, Repr

inductive Greed where
  | greedy
  | lazy
  | possessive
  deriving DecidableEq, Repr

structure MatchWidth where
  least : Nat
  most : Nat
  deriving DecidableEq, Repr

inductive Pattern where
  | empty
  | char (test : CharTest)
  | boundary (place : Boundary)
  | sequence (first second : Pattern)
  | choice (first second : Pattern)
  /-- Without a greatest number there is no limit. -/
  | repeated (least : Nat) (most : Option Nat) (greed : Greed) (body : Pattern)
  | group (number : Nat) (body : Pattern)
  | atomic (body : Pattern)
  /-- What a group has matched, once more; `width` is that of the group. -/
  | sameAs (number : Nat) (ignoresCase : Bool) (width : MatchWidth)
  | ahead (negated : Bool) (body : Pattern)
  | behind (negated : Bool) (body : Pattern)
  | conditional (number : Nat) (yes no : Pattern)
  deriving Repr

def maxWidth : Nat := 18446744073709551616

namespace MatchWidth

def capped (least most : Nat) : MatchWidth :=
  ⟨min least maxWidth, min most maxWidth⟩

def followedBy (first second : MatchWidth) : MatchWidth :=
  capped (first.least + second.least) (first.most + second.most)

def either (first second : MatchWidth) : MatchWidth :=
  ⟨min first.least second.least, max first.most second.most⟩

def times (width : MatchWidth) (least : Nat) : Option Nat → MatchWidth
  | some most => capped (width.least * least) (width.most * most)
  | none => capped (width.least * least) (if width.most == 0 then 0 else maxWidth)

end MatchWidth

def Pattern.width : Pattern → MatchWidth
  | empty => ⟨0, 0⟩
  | char _ => ⟨1, 1⟩
  | boundary _ => ⟨0, 0⟩
  | sequence first second => first.width.followedBy second.width
  | choice first second => first.width.either second.width
  | repeated least most _ body => body.width.times least most
  | group _ body => body.width
  | atomic body => body.width
  | sameAs _ _ width => width
  | ahead _ _ => ⟨0, 0⟩
  | behind _ _ => ⟨0, 0⟩
  | conditional _ yes no => yes.width.either no.width

def Pattern.looksBehindFixed : Pattern → Bool
  | empty => true
  | char _ => true
  | boundary _ => true
  | sequence first second => first.looksBehindFixed && second.looksBehindFixed
  | choice first second => first.looksBehindFixed && second.looksBehindFixed
  | repeated _ _ _ body => body.looksBehindFixed
  | group _ body => body.looksBehindFixed
  | atomic body => body.looksBehindFixed
  | sameAs _ _ _ => true
  | ahead _ body => body.looksBehindFixed
  | behind _ body => body.width.least == body.width.most && body.looksBehindFixed
  | conditional _ yes no => yes.looksBehindFixed && no.looksBehindFixed

end LocalizationAudit

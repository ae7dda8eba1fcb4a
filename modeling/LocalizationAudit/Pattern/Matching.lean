import LocalizationAudit.Pattern.Syntax

/-!
Matching by trial: what is to follow is given along, and when it fails the next possibility is
tried. A repetition that has matched nothing is not repeated again.
-/

namespace LocalizationAudit

/-- A place in a text: what lies before it, the nearest character first, and what lies after it. -/
structure TextPlace where
  before : List Char
  after : List Char
  /-- What groups have matched, the last match first. -/
  captures : List (Nat × List Char) := []
  deriving DecidableEq, Repr

namespace TextPlace

def offset (place : TextPlace) : Nat :=
  place.before.length

def captured? (place : TextPlace) (number : Nat) : Option (List Char) :=
  place.captures.lookup number

def next? (place : TextPlace) : Option (Char × TextPlace) :=
  match place.after with
  | [] => none
  | c :: after => some (c, { place with before := c :: place.before, after })

def textSince (place : TextPlace) (start : TextPlace) : List Char :=
  (place.before.take (place.offset - start.offset)).reverse

def back? (place : TextPlace) (count : Nat) : Option TextPlace :=
  if count ≤ place.before.length then
    some { place with
      before := place.before.drop count
      after := (place.before.take count).reverse ++ place.after }
  else none

end TextPlace

def isWordAt (ascii : Bool) (neighbour : Option Char) : Bool :=
  neighbour.any fun c => if ascii then isAsciiWordChar c else isWordChar c

def Boundary.holds (place : TextPlace) : Boundary → Bool
  | textStart => place.before.isEmpty
  | textEnd => place.after.isEmpty
  | lineStart => place.before.head?.all (· == '\n')
  | lineEnd => place.after.head?.all (· == '\n')
  | lastLineEnd => place.after.isEmpty || place.after == ['\n']
  | wordEdge ascii negated =>
      !(place.before.isEmpty && place.after.isEmpty) &&
        (isWordAt ascii place.before.head? != isWordAt ascii place.after.head?) != negated

def sameLetter (ignoresCase : Bool) (left right : Char) : Bool :=
  if ignoresCase then simpleLower left == simpleLower right else left == right

def passText (ignoresCase : Bool) : List Char → TextPlace → Option TextPlace
  | [], place => some place
  | wanted :: rest, place =>
      match place.next? with
      | some (c, place) => if sameLetter ignoresCase wanted c then passText ignoresCase rest place else none
      | none => none

abbrev Continuation := TextPlace → Option TextPlace

/--
Repeats `body` up to `rounds` times. `lastStart` is where the last repetition began that was not
required: if nothing has been matched since, there is no other.
-/
def repeatBody (body : TextPlace → Continuation → Option TextPlace) (least : Nat)
    (most : Option Nat) (greedy : Bool) (continuation : Continuation) (rounds done : Nat)
    (lastStart : Option Nat) (place : TextPlace) : Option TextPlace :=
  match rounds with
  | 0 => none
  | rounds + 1 =>
      let repetition (lastStart : Option Nat) : Option TextPlace :=
        body place (repeatBody body least most greedy continuation rounds (done + 1) lastStart)
      if done < least then repetition lastStart
      else if most.all (done < ·) && lastStart != some place.offset then
        if greedy then (repetition (some place.offset)).orElse fun _ => continuation place
        else (continuation place).orElse fun _ => repetition (some place.offset)
      else continuation place

def roundsFor (least : Nat) (place : TextPlace) : Nat :=
  least + place.after.length + 3

namespace Pattern

def matchAt : Pattern → TextPlace → Continuation → Option TextPlace
  | empty, place, continuation => continuation place
  | char test, place, continuation =>
      match place.next? with
      | some (c, next) => if test.holds c then continuation next else none
      | none => none
  | boundary wanted, place, continuation =>
      if wanted.holds place then continuation place else none
  | sequence first second, place, continuation =>
      first.matchAt place fun middle => second.matchAt middle continuation
  | choice first second, place, continuation =>
      (first.matchAt place continuation).orElse fun _ => second.matchAt place continuation
  | repeated least most .possessive body, place, continuation =>
      (repeatBody (fun place next => body.matchAt place next) least most true some
        (roundsFor least place) 0 none place).bind continuation
  | repeated least most greed body, place, continuation =>
      repeatBody (fun place next => body.matchAt place next) least most (greed == .greedy)
        continuation (roundsFor least place) 0 none place
  | group number body, place, continuation =>
      body.matchAt place fun stop =>
        continuation { stop with captures := (number, stop.textSince place) :: stop.captures }
  | atomic body, place, continuation => (body.matchAt place some).bind continuation
  | sameAs number ignoresCase _, place, continuation =>
      match place.captured? number with
      | some text => (passText ignoresCase text place).bind continuation
      | none => none
  | ahead negated body, place, continuation =>
      match body.matchAt place some with
      | some seen =>
          if negated then none else continuation { place with captures := seen.captures }
      | none => if negated then continuation place else none
  | behind negated body, place, continuation =>
      match (place.back? body.width.least).bind fun start => body.matchAt start some with
      | some seen =>
          if negated then none else continuation { place with captures := seen.captures }
      | none => if negated then continuation place else none
  | conditional number yes no, place, continuation =>
      if (place.captured? number).isSome then yes.matchAt place continuation
      else no.matchAt place continuation

structure Found where
  start : TextPlace
  stop : TextPlace
  deriving DecidableEq, Repr

def foundAt? (pattern : Pattern) (nonEmpty : Bool) (place : TextPlace) : Option Found :=
  (pattern.matchAt place fun stop =>
    if nonEmpty && stop.offset == place.offset then none else some stop).map fun stop =>
      ⟨place, stop⟩

def firstFrom (pattern : Pattern) (nonEmpty : Bool) (before : List Char) :
    List Char → Option Found
  | [] => pattern.foundAt? nonEmpty ⟨before, [], []⟩
  | c :: after =>
      (pattern.foundAt? nonEmpty ⟨before, c :: after, []⟩).orElse fun _ =>
        pattern.firstFrom false (c :: before) after

def matchesFrom (pattern : Pattern) (rounds : Nat) (nonEmpty : Bool) (place : TextPlace) :
    List Found :=
  match rounds with
  | 0 => []
  | rounds + 1 =>
      match pattern.firstFrom nonEmpty place.before place.after with
      | none => []
      | some found =>
          found :: pattern.matchesFrom rounds (found.start.offset == found.stop.offset) found.stop

def allMatches (pattern : Pattern) (text : List Char) : List Found :=
  pattern.matchesFrom (2 * text.length + 2) false ⟨[], text, []⟩

end Pattern

end LocalizationAudit

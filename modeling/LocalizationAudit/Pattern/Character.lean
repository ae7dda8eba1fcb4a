import LocalizationAudit.Text.Blank
import LocalizationAudit.Text.Integer
import LocalizationAudit.Text.LowerCase
import LocalizationAudit.Text.Word

/-! What a pattern may ask of a single character. -/

namespace LocalizationAudit

abbrev PatternFlags := List Char

namespace PatternFlags

def ignoresCase (flags : PatternFlags) : Bool := flags.contains 'i'

def matchesLines (flags : PatternFlags) : Bool := flags.contains 'm'

def dotMatchesAll (flags : PatternFlags) : Bool := flags.contains 's'

def skipsBlanks (flags : PatternFlags) : Bool := flags.contains 'x'

def asciiOnly (flags : PatternFlags) : Bool := flags.contains 'a'

def standard : PatternFlags := ['x', 's']

end PatternFlags

inductive CharCategory where
  | digit
  | blank
  | word
  deriving DecidableEq, Repr

def CharCategory.holds (ascii : Bool) (c : Char) : CharCategory → Bool
  | digit => if ascii then c.isDigit else (decimalDigit? c).isSome
  | blank => if ascii then isAsciiBlank c else isBlank c
  | word => if ascii then isAsciiWordChar c else isWordChar c

inductive SetItem where
  | range (first last : Nat)
  | category (kind : CharCategory) (negated : Bool)
  deriving DecidableEq, Repr

def SetItem.single (code : Nat) : SetItem :=
  .range code code

def SetItem.holds (ascii : Bool) (c : Char) : SetItem → Bool
  | .range first last => first ≤ c.toNat && c.toNat ≤ last
  | .category kind negated => kind.holds ascii c != negated

def capitalsOf (c : Char) : List Char :=
  caseRuns.filterMap fun (first, last, step, distance) =>
    let capital := (c.toNat - distance : Int).toNat
    if first ≤ capital && capital ≤ last && (capital - first) % step == 0 then
      some (Char.ofNat capital)
    else none

def caseVariants (c : Char) : List Char :=
  c :: simpleLower c :: capitalsOf (simpleLower c)

structure CharTest where
  items : List SetItem
  negated : Bool := false
  ignoresCase : Bool := false
  ascii : Bool := false
  deriving DecidableEq, Repr

def CharTest.holds (test : CharTest) (c : Char) : Bool :=
  let candidates := if test.ignoresCase then caseVariants c else [c]
  (candidates.any fun candidate => test.items.any (·.holds test.ascii candidate)) != test.negated

end LocalizationAudit

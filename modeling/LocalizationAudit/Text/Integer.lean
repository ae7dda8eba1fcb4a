import LocalizationAudit.Text.Blank

/-!
Reading a whole number: blanks around it, an optional sign, decimal digits of any script, and
single underscores between digits.
-/

namespace LocalizationAudit

def zeroDigits : List Nat :=
  [48, 1632, 1776, 1984, 2406, 2534, 2662, 2790, 2918, 3046, 3174, 3302, 3430, 3558, 3664, 3792,
    3872, 4160, 4240, 6112, 6160, 6470, 6608, 6784, 6800, 6992, 7088, 7232, 7248, 42528, 43216,
    43264, 43472, 43504, 43600, 44016, 65296, 66720, 68912, 69734, 69872, 69942, 70096, 70384,
    70736, 70864, 71248, 71360, 71472, 71904, 72016, 72784, 73040, 73120, 92768, 92864, 93008,
    120782, 120792, 120802, 120812, 120822, 123200, 123632, 125264, 130032]

def decimalDigit? (c : Char) : Option Nat :=
  (zeroDigits.find? fun first => first ≤ c.toNat && c.toNat < first + 10).map (c.toNat - ·)

def digitsOf? (afterDigit : Bool) : List Char → Option (List Nat)
  | [] => if afterDigit then some [] else none
  | c :: rest =>
      if c == '_' then
        if afterDigit then digitsOf? false rest else none
      else
        match decimalDigit? c with
        | some digit => (digitsOf? true rest).map (digit :: ·)
        | none => none

def maxDigits : Nat := 4300

def naturalOf? (text : List Char) : Option Nat :=
  match digitsOf? false text with
  | some digits =>
      if digits.length ≤ maxDigits then
        some (digits.foldl (fun value digit => 10 * value + digit) 0)
      else none
  | none => none

/-- The separators U+001C to U+001F are white space, but not around a number. -/
def isNumberBlank (c : Char) : Bool :=
  if c.toNat < 128 then isAsciiBlank c else isBlank c

def integer? (text : List Char) : Option Int :=
  match trimWith isNumberBlank text with
  | '-' :: digits => (naturalOf? digits).map fun value => -(value : Int)
  | '+' :: digits => (naturalOf? digits).map Int.ofNat
  | digits => (naturalOf? digits).map Int.ofNat

end LocalizationAudit

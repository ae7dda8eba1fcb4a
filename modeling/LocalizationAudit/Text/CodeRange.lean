/-! Membership of a code point in a table of closed ranges. -/

namespace LocalizationAudit

abbrev CodeRange := Nat × Nat

def inRanges (ranges : List CodeRange) (c : Char) : Bool :=
  ranges.any fun range => range.1 ≤ c.toNat && c.toNat ≤ range.2

end LocalizationAudit

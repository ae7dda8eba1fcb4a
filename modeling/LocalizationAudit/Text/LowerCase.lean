import LocalizationAudit.Text.LowerCase.Table

/-!
Lower-casing of a whole text: the simple mapping, the capital I with dot, which becomes two
characters, and the capital sigma, whose small form depends on its neighbours.
-/

namespace LocalizationAudit

def simpleLower (c : Char) : Char :=
  match caseRuns.find? fun (first, last, step, _) =>
      first ≤ c.toNat && c.toNat ≤ last && (c.toNat - first) % step == 0 with
  | some (_, _, _, distance) => Char.ofNat (c.toNat + distance).toNat
  | none => c

def meetsCased (neighbours : List Char) : Bool :=
  match neighbours.dropWhile (inRanges caseIgnorableRanges) with
  | [] => false
  | c :: _ => inRanges casedRanges c

def lowerSigma (before after : List Char) : Char :=
  if meetsCased before && !meetsCased after then 'ς' else 'σ'

/-- `before` holds the characters already passed, the nearest one first. -/
def lowerFrom (before : List Char) : List Char → List Char
  | [] => []
  | c :: rest =>
      let small :=
        if c == 'Σ' then [lowerSigma before rest]
        else if c == 'İ' then ['i', Char.ofNat 0x307]
        else [simpleLower c]
      small ++ lowerFrom (c :: before) rest

def lower (text : List Char) : List Char :=
  lowerFrom [] text

end LocalizationAudit

/-! Sets of texts kept as lists: first occurrences, and increasing order by code point. -/

namespace LocalizationAudit

def sortTexts (texts : List String) : List String :=
  texts.mergeSort fun left right => decide (left ≤ right)

def sortedDistinct (texts : List String) : List String :=
  sortTexts texts.eraseDups

end LocalizationAudit

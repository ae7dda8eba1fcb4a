import LocalizationAudit.Text.Order

/-!
Keys defined in resource files. Two keys are the same key when their texts agree; file and
line say where a key was found and play no part in that.
-/

namespace LocalizationAudit

structure LocalizationKey where
  text : String
  file : Option String := none
  line : Option Int := none
  deriving DecidableEq, Repr

namespace LocalizationKey

def sameKey (left right : LocalizationKey) : Bool :=
  left.text == right.text

def location (key : LocalizationKey) : String :=
  match key.file, key.line with
  | none, _ => ""
  | some file, none => file
  | some file, some line => file ++ ":" ++ toString line

end LocalizationKey

/-- A set of keys, kept as a list in which every text occurs once. -/
abbrev KeySet := List LocalizationKey

namespace KeySet

def insert (keys : KeySet) (key : LocalizationKey) : KeySet :=
  if keys.any (key.sameKey ·) then keys else keys ++ [key]

def union (keys added : KeySet) : KeySet :=
  added.foldl insert keys

def ofList (keys : List LocalizationKey) : KeySet :=
  union [] keys

def sorted (keys : KeySet) : List LocalizationKey :=
  keys.mergeSort fun left right => decide (left.text ≤ right.text)

end KeySet

end LocalizationAudit

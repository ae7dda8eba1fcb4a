import LocalizationAudit.Text.Order
import LocalizationAudit.Text.Quoted

/-!
Paths in normal form: repeated slashes and parts that are a single dot vanish, two dots stay.
Exactly two leading slashes are a root of their own.
-/

namespace LocalizationAudit

inductive Anchor where
  | relative
  | root
  | doubleRoot
  deriving DecidableEq, Repr

def Anchor.text : Anchor → String
  | .relative => ""
  | .root => "/"
  | .doubleRoot => "//"

def isComponent (name : List Char) : Bool :=
  name != [] && name != ['.'] && !name.contains '/'

structure Path where
  anchor : Anchor
  components : List String
  components_plain : ∀ name ∈ components, isComponent name.toList = true
  deriving DecidableEq, Repr

namespace Path

def anchorOf (text : List Char) : Anchor :=
  match (text.takeWhile (· == '/')).length with
  | 0 => .relative
  | 2 => .doubleRoot
  | _ => .root

def componentsOf (text : List Char) : List String :=
  ((text.splitOn '/').filter isComponent).map String.ofList

theorem isComponent_of_mem_componentsOf {text : List Char} {name : String}
    (member : name ∈ componentsOf text) : isComponent name.toList = true := by
  simp only [componentsOf, List.mem_map, List.mem_filter] at member
  obtain ⟨piece, ⟨_, plain⟩, rfl⟩ := member
  simpa using plain

def ofString (text : String) : Path :=
  { anchor := anchorOf text.toList
    components := componentsOf text.toList
    components_plain := fun _ => isComponent_of_mem_componentsOf }

def spelled (path : Path) : String :=
  path.anchor.text ++ "/".intercalate path.components

def text (path : Path) : String :=
  if path.anchor == .relative && path.components.isEmpty then "." else path.spelled

def join (base path : Path) : Path :=
  if path.anchor == .relative then
    { anchor := base.anchor
      components := base.components ++ path.components
      components_plain := fun name member =>
        (List.mem_append.mp member).elim (base.components_plain name) (path.components_plain name) }
  else path

def child (base : Path) (name : String) : Path :=
  base.join (ofString name)

def parts (path : Path) : List String :=
  match path.anchor with
  | .relative => path.components
  | anchor => anchor.text :: path.components

def name (path : Path) : String :=
  path.components.getLast?.getD ""

def parent (path : Path) : Path :=
  { anchor := path.anchor
    components := path.components.dropLast
    components_plain := fun name member =>
      path.components_plain name (List.dropLast_subset _ member) }

def below? (root path : Path) : Option Path :=
  if path.anchor == root.anchor && root.components.isPrefixOf path.components then
    some
      { anchor := .relative
        components := path.components.drop root.components.length
        components_plain := fun name member =>
          path.components_plain name (List.mem_of_mem_drop member) }
  else none

def partsAtMost : List String → List String → Bool
  | [], _ => true
  | _ :: _, [] => false
  | left :: lefts, right :: rights =>
      decide (left < right) || (left == right && partsAtMost lefts rights)

def sort (paths : List Path) : List Path :=
  paths.mergeSort fun left right => partsAtMost left.parts right.parts

end Path

/-- The name from its last dot on; a dot that is the first or the last character counts for nothing. -/
def suffixOf (name : List Char) : List Char :=
  let extension := name.reverse.takeWhile (· != '.')
  let stem := (name.reverse.dropWhile (· != '.')).drop 1
  if extension.isEmpty || stem.isEmpty then [] else '.' :: extension.reverse

def Path.suffix (path : Path) : List Char :=
  suffixOf path.name.toList

end LocalizationAudit

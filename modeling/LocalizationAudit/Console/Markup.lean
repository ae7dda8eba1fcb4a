import LocalizationAudit.Console.Colour
import LocalizationAudit.Console.Emoji

/-!
Markup: text in which bracketed tags switch styles on and off. A backslash before a tag makes it
text, and a run of backslashes before a tag is halved. `escapeMarkup` writes a text so that
rendering gives it back, unless it ends in several backslashes or has one before a bracket that
opens no tag.
-/

namespace LocalizationAudit

inductive Fragment where
  | plain (c : Char)
  | bracketed (backslashes : Nat) (body : List Char)
  deriving DecidableEq, Repr

def isBackslash (c : Char) : Bool :=
  c == '\\'

def isTagStart (c : Char) : Bool :=
  ('a' ≤ c && c ≤ 'z') || c == '#' || c == '/' || c == '@'

def isTagChar (c : Char) : Bool :=
  c != '[' && c != ']'

def tagBody? : List Char → Option (List Char × List Char)
  | [] => none
  | first :: rest =>
      if isTagStart first then
        match rest.dropWhile isTagChar with
        | ']' :: after => some (first :: rest.takeWhile isTagChar, after)
        | _ => none
      else none

def bracketedAt? (text : List Char) : Option (Fragment × List Char) :=
  match text.dropWhile isBackslash with
  | '[' :: inside =>
      (tagBody? inside).map fun (body, after) =>
        (.bracketed (text.takeWhile isBackslash).length body, after)
  | _ => none

theorem tagBody?_shorter {text body after : List Char} (found : tagBody? text = some (body, after)) :
    after.length < text.length := by
  cases text with
  | nil => simp [tagBody?] at found
  | cons first rest =>
      rw [tagBody?] at found
      split at found
      · split at found
        next rest' dropped =>
          have shorter := (List.dropWhile_suffix (l := rest) isTagChar).length_le
          simp only [Option.some.injEq, Prod.mk.injEq] at found
          rw [dropped, found.2] at shorter
          simp only [List.length_cons] at shorter ⊢
          omega
        next => simp at found
      · simp at found

theorem bracketedAt?_shorter {text after : List Char} {fragment : Fragment}
    (found : bracketedAt? text = some (fragment, after)) : after.length < text.length := by
  rw [bracketedAt?] at found
  split at found
  next inside dropped =>
    have shorter := (List.dropWhile_suffix (l := text) isBackslash).length_le
    simp only [Option.map_eq_some_iff] at found
    obtain ⟨⟨body, rest⟩, read, equal⟩ := found
    have := tagBody?_shorter read
    simp only [Prod.mk.injEq] at equal
    rw [dropped, List.length_cons] at shorter
    rw [← equal.2]
    omega
  next => simp at found

def fragments : List Char → List Fragment
  | [] => []
  | c :: rest =>
      match _ : bracketedAt? (c :: rest) with
      | some (fragment, after) => fragment :: fragments after
      | none => .plain c :: fragments rest
termination_by text => text.length
decreasing_by
  · exact bracketedAt?_shorter ‹_›
  · simp

def bracketed (body : List Char) : List Char :=
  '[' :: body ++ [']']

/-- Twice the backslashes and one more, so that half of them is what there was. -/
def escapeFragment : Fragment → List Char
  | .plain c => [c]
  | .bracketed backslashes body => List.replicate (2 * backslashes + 1) '\\' ++ bracketed body

def endsInLoneBackslash (text : List Char) : Bool :=
  match text.reverse with
  | '\\' :: '\\' :: _ => false
  | '\\' :: _ => true
  | _ => false

def escapeMarkup (text : List Char) : List Char :=
  let escaped := (fragments text).flatMap escapeFragment
  if endsInLoneBackslash escaped then escaped ++ ['\\'] else escaped

inductive MarkupPiece where
  | text (content : List Char)
  | tag (body : List Char)
  deriving DecidableEq, Repr

def textPiece (content : List Char) : List MarkupPiece :=
  if content.isEmpty then [] else [.text content]

def bracketedPieces (backslashes : Nat) (body : List Char) : List MarkupPiece :=
  textPiece (List.replicate (backslashes / 2) '\\') ++
    [if backslashes % 2 == 1 then .text (bracketed body) else .tag body]

/-- `passed` holds the plain characters since the last tag, the nearest one first. -/
def piecesFrom (passed : List Char) : List Fragment → List MarkupPiece
  | [] => textPiece passed.reverse
  | .plain c :: rest => piecesFrom (c :: passed) rest
  | .bracketed backslashes body :: rest =>
      textPiece passed.reverse ++ bracketedPieces backslashes body ++ piecesFrom [] rest

def markupPieces (markup : List Char) : List MarkupPiece :=
  piecesFrom [] (fragments markup)

def unescapeBrackets : List Char → List Char
  | [] => []
  | '\\' :: '[' :: rest => '[' :: unescapeBrackets rest
  | c :: rest => c :: unescapeBrackets rest

def isDroppedControl (c : Char) : Bool :=
  [7, 8, 11, 12, 13].contains c.toNat

def shownText (emoji : EmojiTable) (content : List Char) : List Char :=
  (replaceEmoji emoji (unescapeBrackets content)).filter (!isDroppedControl ·)

def styleAliases : List (String × String) :=
  [("d", "dim"), ("b", "bold"), ("i", "italic"), ("u", "underline"), ("uu", "underline2"),
    ("r", "reverse"), ("c", "conceal"), ("s", "strike"), ("o", "overline")]

def styleName (name : List Char) : String :=
  let name := String.ofList (lower (trim name))
  (styleAliases.lookup name).getD name

/-- What stands behind an equals sign is no part of the name; a name with such a part is no colour. -/
structure OpenTag where
  name : String
  colour : Option Colour
  deriving DecidableEq, Repr

def OpenTag.ofBody (body : List Char) : OpenTag :=
  let name := styleName (body.takeWhile (· != '='))
  ⟨name, if body.contains '=' then none else Colour.ofName? name⟩

inductive MarkupError where
  | unmatchedClosing (name : String)
  | nothingToClose
  deriving DecidableEq, Repr

def closeTag (tags : List OpenTag) (name : List Char) : Except MarkupError (List OpenTag) :=
  if (trim name).isEmpty then
    match tags with
    | [] => .error .nothingToClose
    | _ :: others => .ok others
  else
    let name := styleName name
    if tags.any (·.name == name) then .ok (tags.eraseP (·.name == name))
    else .error (.unmatchedClosing name)

def followTag (tags : List OpenTag) (body : List Char) : Except MarkupError (List OpenTag) :=
  match body with
  | '/' :: name => closeTag tags (name.takeWhile (· != '='))
  | _ => .ok (OpenTag.ofBody body :: tags)

def currentColour (tags : List OpenTag) : Option Colour :=
  tags.findSome? OpenTag.colour

def styleText (colour : Option Colour) (opensRun : Bool) (content : List Char) : List StyledChar :=
  let styled := content.map fun c => (⟨c, colour, false⟩ : StyledChar)
  if opensRun then openRun styled else styled

def renderPieces (emoji : EmojiTable) (tags : List OpenTag) (opensRun : Bool) :
    List MarkupPiece → Except MarkupError (List StyledChar)
  | [] => .ok []
  | .tag body :: rest => do renderPieces emoji (← followTag tags body) true rest
  | .text content :: rest => do
      let styled := styleText (currentColour tags) opensRun (shownText emoji content)
      return styled ++ (← renderPieces emoji tags (opensRun && styled.isEmpty) rest)

def renderMarkup (emoji : EmojiTable) (markup : List Char) : Except MarkupError (List StyledChar) :=
  renderPieces emoji [] false (markupPieces markup)

end LocalizationAudit

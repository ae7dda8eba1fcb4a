import LocalizationAudit.Console.Layout
import LocalizationAudit.Console.Markup
import LocalizationAudit.Log.Event

/-! A log that is shown on a console, as far as what it says can be encoded there. -/

namespace LocalizationAudit

structure Charset where
  encodes : Char → Bool
  ascii : ∀ c : Char, c.toNat < 128 → encodes c = true

namespace Charset

def all : Charset where
  encodes _ := true
  ascii _ _ := rfl

def upTo (bound : Nat) (ascii : 128 ≤ bound) : Charset where
  encodes c := c.toNat < bound
  ascii _ low := decide_eq_true (Nat.lt_of_lt_of_le low ascii)

end Charset

inductive PrintError where
  | markup (error : MarkupError)
  | unencodable (c : Char)
  deriving DecidableEq, Repr

-- A text is encoded as a whole before any of it is written.
def Charset.encode (charset : Charset) (text : List Char) : Except PrintError (List Char) :=
  match text.find? (!charset.encodes ·) with
  | some c => .error (.unencodable c)
  | none => .ok text

structure Console where
  width : Nat := 80
  coloured : Bool := false
  emoji : EmojiTable := .common
  charset : Charset := .all

structure Message where
  markup : List Char
  wrapped : Bool := true
  deriving DecidableEq, Repr

def tagged (colour : Colour) (content : List Char) : List Char :=
  bracketed colour.name.toList ++ content ++ bracketed ('/' :: colour.name.toList)

def escapedIn (colour : Colour) (text : String) : List Char :=
  tagged colour (escapeMarkup text.toList)

def countMarkup (before : String) (number : Int) (after : String) : List Char :=
  escapedIn .yellow before ++ ' ' :: tagged .green (toString number).toList ++
    ' ' :: escapedIn .yellow after

def LogEvent.messages : LogEvent → List Message
  | .progress text => [⟨'\n' :: escapedIn .yellow text, true⟩]
  | .count before number after => [⟨'\n' :: countMarkup before number after, true⟩]
  | .error text => [⟨escapedIn .red text, true⟩]
  | .warning text => [⟨tagged .yellow ("⚠ ".toList ++ escapeMarkup text.toList), true⟩]
  | .key text => [⟨escapedIn .red text, false⟩]
  | .startProgress _ _ => []
  | .advance _ => []
  | .finishProgress => []

def LogEvent.progressAfter (running : Bool) : LogEvent → Bool
  | .startProgress _ _ => true
  | .finishProgress => false
  | _ => running

def LogEvent.endsProgress (running : Bool) : LogEvent → Bool
  | .startProgress _ _ => running
  | .finishProgress => running
  | _ => false

namespace Console

def compose (console : Console) (message : Message) : Except MarkupError (List Char) := do
  let text ← renderMarkup console.emoji message.markup
  let lines := layOut (if message.wrapped then some console.width else none) text
  return lines.flatMap fun line => paint console.coloured line ++ ['\n']

def print (console : Console) (message : Message) : Except PrintError (List Char) :=
  match console.compose message with
  | .error error => .error (.markup error)
  | .ok text => console.charset.encode text

def printAll (console : Console) : List Message → List Char × Option PrintError
  | [] => ([], none)
  | message :: others =>
      match console.print message with
      | .error error => ([], some error)
      | .ok text =>
          let (rest, error) := console.printAll others
          (text ++ rest, error)

def writeEvent (console : Console) (running : Bool) (event : LogEvent) :
    List Char × Option PrintError :=
  let (text, error) := console.printAll event.messages
  (if event.endsProgress running then '\n' :: text else text, error)

def writeEvents (console : Console) (running : Bool) :
    List LogEvent → List Char × Option PrintError
  | [] => ([], none)
  | event :: others =>
      match console.writeEvent running event with
      | (text, some error) => (text, some error)
      | (text, none) =>
          let (rest, error) := console.writeEvents (event.progressAfter running) others
          (text ++ rest, error)

end Console

end LocalizationAudit

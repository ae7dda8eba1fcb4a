import LocalizationAudit.Text.Blank
import LocalizationAudit.Text.LowerCase

/-!
Emoji that are written by name, between colons. A name that no emoji has stays, and its second colon
opens no other name.
-/

namespace LocalizationAudit

structure EmojiTable where
  entries : List (String × String)
  unbracketed : ∀ entry ∈ entries, '[' ∉ entry.1.toList

def EmojiTable.common : EmojiTable where
  entries := [("key", "🔑"), ("smile", "😄"), ("warning", "⚠"), ("house", "🏠"), ("heart", "❤")]
  unbracketed := by decide

-- A selector behind an emoji asks for a picture or for a symbol.
def emojiVariants : List (String × Char) :=
  [("-emoji", Char.ofNat 0xFE0F), ("-text", Char.ofNat 0xFE0E)]

def splitVariant (name : List Char) : List Char × List Char :=
  match emojiVariants.find? fun (ending, _) => ending.toList.isSuffixOf name with
  | some (ending, selector) => (name.take (name.length - ending.length), [selector])
  | none => (name, [])

def emojiOf? (emoji : EmojiTable) (name : List Char) : Option (List Char) :=
  let (name, selector) := splitVariant name
  (emoji.entries.lookup (String.ofList (lower name))).map (·.toList ++ selector)

def isEmojiNameChar (c : Char) : Bool :=
  c != ':' && !isBlank c

def replaceEmoji (emoji : EmojiTable) : List Char → List Char
  | [] => []
  | c :: rest =>
      if c == ':' then
        match _ : rest.dropWhile isEmojiNameChar with
        | ':' :: after =>
            let name := rest.takeWhile isEmojiNameChar
            (emojiOf? emoji name).getD (':' :: name ++ [':']) ++ replaceEmoji emoji after
        | _ => c :: replaceEmoji emoji rest
      else c :: replaceEmoji emoji rest
termination_by text => text.length
decreasing_by
  · have shorter := (List.dropWhile_suffix (l := rest) isEmojiNameChar).length_le
    rw [‹rest.dropWhile _ = ':' :: after›] at shorter
    exact Nat.lt_succ_of_lt shorter
  all_goals exact Nat.lt_succ_self _

end LocalizationAudit

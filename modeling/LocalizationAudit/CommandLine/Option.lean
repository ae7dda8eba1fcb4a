import LocalizationAudit.CommandLine.Error
import LocalizationAudit.Text.Similarity

/-!
The options of the command line, and how they are told from the other arguments. Short options may
be joined, and the value of a long one may follow an equals sign.
-/

namespace LocalizationAudit

inductive CommandOption where
  | version
  | help
  | path
  | showFiles
  | exclude
  | lproj
  | workers
  deriving DecidableEq, Repr

namespace CommandOption

def longName : CommandOption → String
  | version => "--version"
  | help => "--help"
  | path => "--path"
  | showFiles => "--show-files"
  | exclude => "--exclude"
  | lproj => "--lproj"
  | workers => "--workers"

def shortName? : CommandOption → Option Char
  | path => some 'p'
  | exclude => some 'e'
  | workers => some 'w'
  | _ => none

def takesValue : CommandOption → Bool
  | path => true
  | exclude => true
  | lproj => true
  | workers => true
  | _ => false

end CommandOption

def Command.options : Command → List CommandOption
  | .group => [.version, .help]
  | .scan => [.path, .showFiles, .exclude, .lproj, .workers, .help]

def Command.takesWordsBetween : Command → Bool
  | .group => false
  | .scan => true

namespace Command

def optionOfLongName? (command : Command) (name : String) : Option CommandOption :=
  command.options.find? (·.longName == name)

def optionOfShortName? (command : Command) (name : Char) : Option CommandOption :=
  command.options.find? (·.shortName? == some name)

end Command

structure GivenOption where
  option : CommandOption
  value : String := ""
  deriving DecidableEq, Repr

structure OptionArgument where
  given : List GivenOption := []
  awaiting : Option (CommandOption × String) := none
  deriving DecidableEq, Repr

def isOptionArgument (argument : List Char) : Bool :=
  match argument with
  | '-' :: _ :: _ => true
  | _ => false

def shortOptionName (name : Char) : String :=
  String.ofList ['-', name]

def readShortOptions (command : Command) : List Char → Except UsageError OptionArgument
  | [] => .ok {}
  | name :: rest =>
      match command.optionOfShortName? name with
      | none => .error (.noSuchOption command (shortOptionName name) [])
      | some option =>
          if option.takesValue then
            if rest.isEmpty then .ok { awaiting := some (option, shortOptionName name) }
            else .ok { given := [⟨option, String.ofList rest⟩] }
          else do
            let others ← readShortOptions command rest
            return { others with given := ⟨option, ""⟩ :: others.given }

def readLongOption (option : CommandOption) (attached : Option String) :
    Except UsageError OptionArgument :=
  match attached with
  | some value =>
      if option.takesValue then .ok { given := [⟨option, value⟩] }
      else .error (.valueRefused option.longName)
  | none =>
      if option.takesValue then .ok { awaiting := some (option, option.longName) }
      else .ok { given := [⟨option, ""⟩] }

def attachedValue? (argument : List Char) : Option String :=
  match argument.dropWhile (· != '=') with
  | [] => none
  | _ :: value => some (String.ofList value)

def readOption (command : Command) (argument : List Char) : Except UsageError OptionArgument :=
  let name := String.ofList (argument.takeWhile (· != '='))
  match command.optionOfLongName? name with
  | some option => readLongOption option (attachedValue? argument)
  | none =>
      match argument with
      | '-' :: '-' :: _ =>
          .error (.noSuchOption command name
            (closeWords name (command.options.map CommandOption.longName)))
      | _ => readShortOptions command (argument.drop 1)

structure Arguments where
  given : List GivenOption := []
  words : List String := []
  deriving DecidableEq, Repr

def Arguments.addOptions (arguments : Arguments) (given : List GivenOption) : Arguments :=
  { arguments with given := given ++ arguments.given }

def Arguments.addWord (arguments : Arguments) (word : String) : Arguments :=
  { arguments with words := word :: arguments.words }

def readArguments (command : Command) : List String → Except UsageError Arguments
  | [] => .ok {}
  | argument :: rest =>
      if argument == "--" then .ok { words := rest }
      else if isOptionArgument argument.toList then do
        let read ← readOption command argument.toList
        match read.awaiting, rest with
        | none, rest => return (← readArguments command rest).addOptions read.given
        | some (_, name), [] => throw (.argumentRequired name)
        | some (option, _), value :: rest =>
            return (← readArguments command rest).addOptions (read.given ++ [⟨option, value⟩])
      else if command.takesWordsBetween then do
        return (← readArguments command rest).addWord argument
      else .ok { words := argument :: rest }

end LocalizationAudit

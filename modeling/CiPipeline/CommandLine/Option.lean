import CiPipeline.Text.Quoted

/-!
The words of a command line. A word that begins with a dash is an option, with its value in the next word
or after an equals sign; the word `--` ends the options.
-/

namespace CiPipeline.CommandLine

/-- Why words are no request. -/
inductive UsageFault
  | noCommand
  | unknownCommand (name : String)
  | unknownOption (name : String)
  | missingValue (option : String)
  | needlessValue (option : String)
  | badValue (option value : String)
  | needlessWord (word : String)
  deriving DecidableEq, Repr

/-- The wording of a fault. -/
def UsageFault.message : UsageFault → String
  | noCommand => "Missing command."
  | unknownCommand name => "No such command " ++ Text.enclosed name ++ "."
  | unknownOption name => "No such option: " ++ name
  | missingValue option => "Option " ++ Text.enclosed option ++ " requires an argument."
  | needlessValue option => "Option " ++ Text.enclosed option ++ " does not take a value."
  | badValue option value =>
    "Invalid value for " ++ Text.enclosed option ++ ": " ++ Text.quoted value
  | needlessWord word => "Got unexpected extra argument (" ++ word ++ ")"

/-- An option that a command knows. -/
structure OptionForm where
  name : String
  takesValue : Bool := true

/-- An option that was given; one that takes no value has the empty one. -/
structure Given where
  name : String
  value : String := ""

/-- The options that were given, and the words beside them. -/
structure Words where
  given : List Given := []
  others : List String := []

namespace Words

/-- One more option before some words. -/
def withOption (option : Given) (words : Words) : Words :=
  { words with given := option :: words.given }

/-- One more word beside the options. -/
def withWord (word : String) (words : Words) : Words :=
  { words with others := word :: words.others }

/-- A word before its first equals sign, and after it. -/
def splitValue (word : String) : String × Option String :=
  let name := word.toList.takeWhile (· ≠ '=')
  (String.ofList name, ((word.toList.drop name.length).tail?).map String.ofList)

/-- Whether a word is an option: a dash with something after it. -/
def isOption (word : String) : Bool :=
  match word.toList with
  | '-' :: _ :: _ => true
  | _ => false

/--
Sorts words into options and others. Where `mixed` does not hold, options come first only, and everything
from the first other word on is left as it is.
-/
def sort (forms : List OptionForm) (mixed : Bool) : List String → Except UsageFault Words
  | [] => .ok {}
  | word :: rest =>
    if word = "--" then .ok { others := rest }
    else if !isOption word then
      if mixed then (sort forms mixed rest).map (withWord word) else .ok { others := word :: rest }
    else
      let (name, value?) := splitValue word
      match forms.find? (·.name == name), value?, rest with
      | none, _, _ => .error (.unknownOption name)
      | some { takesValue := false, .. }, some _, _ => .error (.needlessValue name)
      | some { takesValue := false, .. }, none, rest =>
        (sort forms mixed rest).map (withOption { name })
      | some _, some value, rest => (sort forms mixed rest).map (withOption { name, value })
      | some _, none, [] => .error (.missingValue name)
      | some _, none, value :: rest => (sort forms mixed rest).map (withOption { name, value })
termination_by words => words.length

/-- The last of some options that was given. -/
def last? (words : Words) (names : List String) : Option Given :=
  (words.given.filter fun option => names.contains option.name).getLast?

/-- The value of an option, the last one where it was given more than once. -/
def value? (words : Words) (name : String) : Option String :=
  (words.last? [name]).map Given.value

/-- Whether an option was given. -/
def has (words : Words) (name : String) : Bool :=
  (words.last? [name]).isSome

/-- Whether the first of two contrary options was given later than the second; none may be given. -/
def switch? (words : Words) (on off : String) : Option Bool :=
  (words.last? [on, off]).map fun option => option.name == on

end Words
end CiPipeline.CommandLine

import CiPipeline.Text.Base64
import CiPipeline.Yaml.Moment
import CiPipeline.Yaml.Numeral

/-!
Tags: what kind of value a node has. A node may be tagged by name; a plain scalar without a tag has the one
that its form tells, and then its value is what the form writes. A line feed at the end of a text does not
count for its form.
-/

namespace CiPipeline.Yaml

/-- The kind of value that a node has. -/
inductive Tag
  | null
  | bool
  | int
  | float
  | time
  | text
  | bytes
  | sequence
  | mapping
  | set
  /-- A sequence of pairs, each written as a mapping of one entry. -/
  | pairs
  /-- A key whose value is merged into its mapping. -/
  | merge
  /-- A key that stands for the mapping itself. -/
  | default
  | other (name : String)
  deriving DecidableEq, Repr

/-- The words for null; no text at all is null too. -/
def nullWords : List String := ["", "~", "null", "Null", "NULL"]

/-- The words for truth. -/
def trueWords : List String :=
  ["yes", "Yes", "YES", "true", "True", "TRUE", "on", "On", "ON"]

/-- The words for its contrary. -/
def falseWords : List String :=
  ["no", "No", "NO", "false", "False", "FALSE", "off", "Off", "OFF"]

namespace Tag

/-- What the names of the usual tags begin with. -/
def coreLead : String := "tag:yaml.org,2002:"

/-- The usual tags by their names. -/
def coreNames : List (String × Tag) :=
  [("null", null), ("bool", bool), ("int", int), ("float", float), ("timestamp", time), ("str", text),
    ("binary", bytes), ("seq", sequence), ("map", mapping), ("set", set), ("pairs", pairs),
    ("omap", pairs), ("merge", merge), ("value", default)]

/-- The tag with a full name. -/
def ofName (name : String) : Tag :=
  ((coreNames.find? fun entry => coreLead ++ entry.1 == name).map Prod.snd).getD (other name)

/-- The marks that have a tag of their own, for which there are no values. -/
def markWords : List String := ["!", "&", "*"]

/-- The tag of a scalar by its form. -/
def ofForm (s : String) : Tag :=
  if nullWords.contains s then null
  else if trueWords.contains s || falseWords.contains s then bool
  else if s = "<<" then merge
  else if s = "=" then default
  else if markWords.contains s then other (coreLead ++ "yaml")
  else if isFloat s.toList then float
  else if isInteger s.toList then int
  else if isTime s.toList then time
  else text

/-- The tag of a plain scalar. A line feed alone is a text. -/
def ofPlain (s : String) : Tag :=
  if s = "\n" then text else ofForm (String.ofList (withoutLineFeed s.toList))

/-- The truth value that a word stands for, in letters of either case. -/
def truthOf (s : String) : Except ValueFault Bool :=
  let word := String.ofList (Text.lowercase s.toList)
  if trueWords.contains word then .ok true
  else if falseWords.contains word then .ok false
  else .error (.notTruth word)

/-- The number that a text writes. What is no number has a mark, unless it is written by its own sign. -/
def numberOf (mark : Nat) (s : List Char) : Except ValueFault Value := do
  match ← floatValue s with
  | .nan => return .nan (if isSignOfNone s then 0 else mark)
  | x => return .float x

/-- The bytes that a text writes. -/
def bytesOf (s : List Char) : Except Fault Value :=
  match if s.all fun c => c.toNat < 0x80 then Text.Base64.decode? s else none with
  | some codes => .ok (.bytes codes)
  | none => .error .notBytes

/-- Whether a tag is one of collections. -/
def isCollection : Tag → Bool
  | sequence | mapping | set | pairs => true
  | _ => false

/-- The value of a text. -/
def valueOf (tag : Tag) (mark : Nat) (s : String) : Except Fault Value :=
  match tag with
  | null => .ok .null
  | bool => ((truthOf s).map Value.bool).mapError .value
  | int => ((integerValue s.toList).map Value.int).mapError .value
  | float => (numberOf mark s.toList).mapError .value
  | time => ((timeValue s.toList).map Value.time).mapError .value
  | text => .ok (.text s)
  | bytes => bytesOf s.toList
  | sequence | mapping | set | pairs => .error .wrongShape
  | merge | default => .error (.unknownTag s)
  | other name => .error (.unknownTag name)

end Tag
end CiPipeline.Yaml

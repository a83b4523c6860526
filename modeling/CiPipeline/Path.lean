/-!
Absolute paths as lists of their parts, and how a relative path leads from one to another. The part `..`
goes back one part and stops at the root.
-/

namespace CiPipeline

/-- An absolute path: its parts from the root on. -/
abbrev Path := List String

namespace Path

/-- The parts of a text between slashes. -/
def splitParts : List Char → List (List Char)
  | [] => [[]]
  | c :: rest =>
    if c = '/' then [] :: splitParts rest
    else
      match splitParts rest with
      | [] => [[c]]
      | part :: more => (c :: part) :: more

/-- The parts of a text between slashes, as texts. -/
def parts (text : String) : List String :=
  (splitParts text.toList).map String.ofList

/-- One part followed from a path. -/
def follow (path : Path) (part : String) : Path :=
  if part = "" ∨ part = "." then path
  else if part = ".." then path.dropLast
  else path ++ [part]

/-- Where a text that is read at a place starts: there, or at the root after a leading slash. -/
def start (place : Path) (text : String) : Path :=
  if text.toList.head? = some '/' then [] else place

/-- The path that a text means when it is read at a place. -/
def resolve (place : Path) (text : String) : Path :=
  (parts text).foldl follow (start place text)

/-- The text of a path. -/
def text (path : Path) : String :=
  "/" ++ "/".intercalate path

/-- The parts that a text names, those that lead nowhere left out. -/
def names (text : String) : List String :=
  (parts text).filter fun part => part != "" && part != "."

/-- The text of a path without the parts that lead nowhere. -/
def tidy (text : String) : String :=
  let lead := if text.toList.head? = some '/' then "/" else ""
  match names text with
  | [] => if lead.isEmpty then "." else lead
  | parts => lead ++ "/".intercalate parts

/-- The last part of a path. -/
def fileName (path : Path) : String :=
  path.getLast?.getD ""

/--
The ending of a file name: from its last point on, unless the point is the first or the last character.
-/
def suffix (name : String) : String :=
  let backwards := name.toList.reverse
  let ending := backwards.takeWhile (· ≠ '.')
  match ending, backwards.drop ending.length with
  | _ :: _, _ :: _ :: _ => String.ofList ('.' :: ending.reverse)
  | _, _ => ""

end Path
end CiPipeline

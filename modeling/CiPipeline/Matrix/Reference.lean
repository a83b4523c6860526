import CiPipeline.Text.Blank
import CiPipeline.Text.Substitution

/-!
References to the axes of a matrix inside a text, and their replacement. A reference is written between
doubled braces after a dollar sign. Each is replaced once, and nothing that was put in is read again.
-/

namespace CiPipeline.Matrix

/-- A character that an axis name may have in a reference. -/
def isAxisChar (c : Char) : Bool :=
  c.isAlphanum || c == '_' || c == '-'

/-- What opens a reference. -/
def opening : List Char := "$\x7b\x7b".toList

/-- What closes a reference. -/
def closing : List Char := "\x7d\x7d".toList

/-- What stands before the axis name in a reference. -/
def matrixLead : List Char := "matrix.".toList

/-- The axis that the reference at the front of a text names, and what follows the reference. -/
def readReference? (s : List Char) : Option (List Char × List Char) := do
  let s ← Text.after? opening s
  let s ← Text.after? matrixLead (s.dropWhile Text.isBlank)
  let axis := s.takeWhile isAxisChar
  guard (!axis.isEmpty)
  let rest ← Text.after? closing ((s.dropWhile isAxisChar).dropWhile Text.isBlank)
  return (axis, rest)

/--
The text with every reference replaced. The counter says how many characters still belong to the
reference that was replaced last, so the recursion is on the text itself.
-/
def interpolateFrom (value : List Char → List Char) : Nat → List Char → List Char
  | _, [] => []
  | skip + 1, _ :: rest => interpolateFrom value skip rest
  | 0, c :: rest =>
    match readReference? (c :: rest) with
    | some (axis, after) => value axis ++ interpolateFrom value (rest.length - after.length) rest
    | none => c :: interpolateFrom value 0 rest

/-- The text with each reference replaced by the value of its axis; an unknown axis has no text. -/
def interpolate (value : String → Option String) (text : String) : String :=
  let valueOf := fun axis => ((value (String.ofList axis)).getD "").toList
  String.ofList (interpolateFrom valueOf 0 text.toList)

end CiPipeline.Matrix

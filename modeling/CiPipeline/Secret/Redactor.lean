import CiPipeline.Text.Substitution

/-!
Masking of secret values. Longer values are masked first, so that of a secret which contains another
one nothing is left standing.
-/

namespace CiPipeline

/-- Stands where a secret stood. -/
def mask : String := "***"

/-- The values to mask: no value is empty or comes twice, and none comes after a shorter one. -/
structure Redactor where
  values : List String
  deriving DecidableEq, Repr

namespace Redactor

/-- The redactor that masks nothing. -/
def empty : Redactor := ⟨[]⟩

/-- Puts a value after all values that are not shorter. -/
def insertByLength (value : String) : List String → List String
  | [] => [value]
  | other :: rest =>
    if other.length < value.length then value :: other :: rest
    else other :: insertByLength value rest

/-- Masks one more value; an empty or known one changes nothing. -/
def add (redactor : Redactor) (value : String) : Redactor :=
  if value.isEmpty || redactor.values.contains value then redactor
  else ⟨insertByLength value redactor.values⟩

/-- Masks some more values. -/
def addAll (redactor : Redactor) (values : List String) : Redactor :=
  values.foldl add redactor

/-- The redactor of some values. -/
def ofList (values : List String) : Redactor :=
  empty.addAll values

/-- Masks one value in a text. -/
def maskValue (text : List Char) (value : String) : List Char :=
  Text.replaceAll value.toList mask.toList text

/-- The text with the values masked, one after the other. -/
def redact (redactor : Redactor) (text : String) : String :=
  String.ofList (redactor.values.foldl maskValue text.toList)

end Redactor
end CiPipeline

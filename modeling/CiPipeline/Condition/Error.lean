import CiPipeline.Glob

/-!
What can be wrong with the text of a condition.
-/

namespace CiPipeline

namespace ConditionError

/-- Why a text is no condition. -/
inductive Fault
  | unexpectedCharacter (position : Nat)
  | emptyExpression
  | unexpectedEnd
  | unexpected (text : String)
  | unknownFunction (name : String)
  | unknownEvent (name : String)
  /-- The argument of a function is no pattern. -/
  | pattern (error : PatternError)
  deriving DecidableEq, Repr

/-- The complaint about a name that is no kind of event. -/
def unknownEventText (name : String) : String :=
  Text.quoted name ++ " is not a valid EventKind"

/-- The wording of a fault. -/
def Fault.message : Fault → String
  | unexpectedCharacter position => "unexpected character at " ++ toString position
  | emptyExpression => "empty expression"
  | unexpectedEnd => "unexpected end of expression"
  | unexpected text => "unexpected " ++ Text.quoted text
  | unknownFunction name => "unknown function " ++ Text.quoted name
  | unknownEvent name => unknownEventText name
  | pattern error => error.message

end ConditionError

/-- A text that is no condition, and the reason. -/
structure ConditionError where
  expression : String
  fault : ConditionError.Fault
  deriving DecidableEq, Repr

/-- The wording of a condition error. -/
def ConditionError.message (error : ConditionError) : String :=
  "Invalid condition " ++ Text.quoted error.expression ++ ": " ++ error.fault.message

end CiPipeline

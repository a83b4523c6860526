import CiPipeline.Event
import CiPipeline.Outcome
import CiPipeline.RefFilter

/-!
Run-conditions: predicates on the event and on the outcomes of the jobs that are waited for. A condition
that mentions no status function holds only after success of all of those jobs, and some others can
hold only then as well; both are the strict conditions.
-/

namespace CiPipeline

/-- A question about the outcomes of the jobs that are waited for. -/
inductive StatusFunction
  | always
  | cancelled
  | failure
  | success
  deriving DecidableEq, Repr

namespace StatusFunction

/-- Every status function, in the order of their names. -/
def all : List StatusFunction := [always, cancelled, failure, success]

/-- The name of a status function in expressions. -/
def name : StatusFunction → String
  | always => "always"
  | cancelled => "cancelled"
  | failure => "failure"
  | success => "success"

/-- The answer to the question. -/
def holds (function : StatusFunction) (outcomes : List Outcome) : Bool :=
  match function with
  | always => true
  | cancelled => outcomes.any (· == .cancelled)
  | failure => outcomes.any (· == .failure)
  | success => outcomes.all (· == .success)

end StatusFunction

/-- A run-condition. -/
inductive Condition
  | status (function : StatusFunction)
  | isTag
  | isBranch
  /-- The short ref matches a pattern; with `branchOnly` a tag never does. -/
  | refMatches (pattern : RefPattern) (branchOnly : Bool)
  /-- The full ref begins with a text. -/
  | startsWith (lead : String)
  | eventIs (kind : EventKind)
  | and (left right : Condition)
  | or (left right : Condition)
  | not (inner : Condition)
  deriving DecidableEq

namespace Condition

/-- Whether the condition holds of an event and of the outcomes of the jobs that are waited for. -/
def holds (event : Event) (outcomes : List Outcome) : Condition → Bool
  | status function => function.holds outcomes
  | isTag => event.isTag
  | isBranch => event.isBranch
  | refMatches pattern branchOnly =>
    !(branchOnly && event.isTag) && (RefFilter.mk [pattern]).accepts event.shortRef
  | startsWith lead => event.refStartsWith lead
  | eventIs kind => event.kind == kind
  | and left right => left.holds event outcomes && right.holds event outcomes
  | or left right => left.holds event outcomes || right.holds event outcomes
  | not inner => !inner.holds event outcomes

/-- Whether a status function occurs in the condition. -/
def mentions (function : StatusFunction) : Condition → Bool
  | status f => f == function
  | and left right => left.mentions function || right.mentions function
  | or left right => left.mentions function || right.mentions function
  | not inner => inner.mentions function
  | _ => false

/-- The status functions that occur in the condition, in the order of their names. -/
def statusFunctions (condition : Condition) : List StatusFunction :=
  StatusFunction.all.filter fun function => condition.mentions function

/-- The conditions that a conjunction joins. -/
def conjuncts : Condition → List Condition
  | and left right => left.conjuncts ++ right.conjuncts
  | condition => [condition]

/-- The expression of a condition. -/
def text : Condition → String
  | status function => function.name ++ "()"
  | isTag => "is_tag()"
  | isBranch => "is_branch()"
  | refMatches pattern branchOnly =>
    (if branchOnly then "branch" else "ref_matches") ++ "(" ++ Text.enclosed pattern.text ++ ")"
  | startsWith lead => "starts_with(" ++ Text.enclosed lead ++ ")"
  | eventIs kind => "event(" ++ Text.enclosed kind.name ++ ")"
  | and left right => "(" ++ left.text ++ " && " ++ right.text ++ ")"
  | or left right => "(" ++ left.text ++ " || " ++ right.text ++ ")"
  | not inner => "!" ++ inner.text

/-- The status functions of a condition that may be absent. -/
def statusFunctionsOf (condition : Option Condition) : List StatusFunction :=
  (condition.map statusFunctions).getD []

/--
Whether the condition is strict: it can only hold after success of every job that is waited for. So it
is without any status function, and with `success()` as a term of its outermost conjunction.
-/
def requiresSuccess : Option Condition → Bool
  | none => true
  | some condition =>
    condition.statusFunctions.isEmpty || condition.conjuncts.contains (status .success)

/-- The condition that is evaluated: success is asked for where no status function is mentioned. -/
def effective : Option Condition → Condition
  | none => status .success
  | some condition =>
    if condition.statusFunctions.isEmpty then and (status .success) condition else condition

end Condition
end CiPipeline

/-!
How a job or a step ends, and the states through which a job comes to its end.
-/

namespace CiPipeline

/-- How a job or a step ended. -/
inductive Outcome
  | success
  | failure
  | skipped
  | cancelled
  deriving DecidableEq, Repr

namespace Outcome

/-- Every outcome. -/
def all : List Outcome := [success, failure, skipped, cancelled]

/-- The name of an outcome, as reports write it. -/
def name : Outcome → String
  | success => "success"
  | failure => "failure"
  | skipped => "skipped"
  | cancelled => "cancelled"

/-- The name of an outcome in capitals, as the console writes it. -/
def title : Outcome → String
  | success => "SUCCESS"
  | failure => "FAILURE"
  | skipped => "SKIPPED"
  | cancelled => "CANCELLED"

/-- The outcome with a given name. -/
def ofName? (name : String) : Option Outcome :=
  all.find? fun outcome => outcome.name == name

end Outcome

/-- Where a job stands during a run. -/
inductive JobState
  | pending
  | dispatchable
  | running
  | ended (outcome : Outcome)
  deriving DecidableEq, Repr

namespace JobState

/-- The name of a state. -/
def name : JobState → String
  | pending => "pending"
  | dispatchable => "dispatchable"
  | running => "running"
  | ended outcome => outcome.name

/-- A job in a terminal state has its outcome. -/
def outcome? : JobState → Option Outcome
  | ended outcome => some outcome
  | _ => none

/-- Nothing moves a job out of a terminal state. -/
def isTerminal (state : JobState) : Bool :=
  state.outcome?.isSome

end JobState
end CiPipeline

import CiPipeline.Job

/-!
The gate in front of a job. Once everything that a job waits for has ended, the gate decides whether
the job runs and with which of its steps.
-/

namespace CiPipeline

/-- Why a job does not run. -/
inductive Refusal
  /-- A strict job waited for something that did not succeed. -/
  | needsFailed (needs : List (InstanceId × Outcome))
  /-- Something that the job waited for was cancelled, and the condition does not ask about it. -/
  | needsCancelled (needs : List InstanceId)
  | conditionFalse (condition : Condition)
  deriving DecidableEq

namespace Refusal

/-- How a refused job ends. -/
def outcome : Refusal → Outcome
  | needsFailed _ | needsCancelled _ => .cancelled
  | conditionFalse _ => .skipped

/-- One need with how it ended. -/
def needText (id : InstanceId) (outcome : Outcome) : String :=
  id.text ++ " (" ++ outcome.name ++ ")"

/-- The wording of a refusal. -/
def reason : Refusal → String
  | needsFailed needs =>
    "needs " ++ ", ".intercalate (needs.map fun (id, outcome) => needText id outcome)
  | needsCancelled needs =>
    "needs " ++ ", ".intercalate (needs.map fun id => needText id .cancelled)
  | conditionFalse condition => "condition " ++ condition.text ++ " is false"

end Refusal

/-- What the gate decides about a job. -/
inductive Verdict
  | run (steps : List Selection)
  | refuse (refusal : Refusal)
  deriving DecidableEq

namespace Verdict

/-- Whether the job runs. -/
def isPermitted : Verdict → Bool
  | run _ => true
  | refuse _ => false

/-- How the job ends by the verdict alone. -/
def outcome? : Verdict → Option Outcome
  | run _ => none
  | refuse refusal => some refusal.outcome

/-- The steps that run. -/
def steps : Verdict → List Selection
  | run steps => steps
  | refuse _ => []

/-- The wording of a verdict. -/
def reason : Verdict → String
  | run _ => "ok"
  | refuse refusal => refusal.reason

end Verdict

/-- The gate of a run. It may take cancelled jobs for jobs that have simply ended. -/
structure Gate where
  event : Event
  cancelledSatisfiesNeeds : Bool := false
  deriving DecidableEq

namespace Gate

/-- How the jobs that a job waits for have ended. -/
abbrev NeedOutcomes := Table InstanceId Outcome

/-- The jobs that did not succeed, in their order. -/
def unsuccessful (needs : NeedOutcomes) : List (InstanceId × Outcome) :=
  (needs.entries.filter fun (_, outcome) => outcome != .success).mergeSort
    fun a b => a.1.le b.1

/-- The steps of a job whose own conditions hold. -/
def selectSteps (gate : Gate) (job : JobInstance) (needs : NeedOutcomes) : List Selection :=
  (Selection.ofSteps job.steps).filter fun selection =>
    match selection.step.condition with
    | none => true
    | some condition => condition.holds gate.event needs.values

/-- Decides about a job, given how everything that it waits for has ended. -/
def decide (gate : Gate) (job : JobInstance) (needs : NeedOutcomes) : Verdict :=
  let failed := unsuccessful needs
  let cancelled := (failed.filter fun (_, outcome) => outcome == .cancelled).map Prod.fst
  let asksAboutCancelled := (Condition.statusFunctionsOf job.condition).contains .cancelled
  let condition := Condition.effective job.condition
  if Condition.requiresSuccess job.condition && !failed.isEmpty then
    .refuse (.needsFailed failed)
  else if !gate.cancelledSatisfiesNeeds && !asksAboutCancelled && !cancelled.isEmpty then
    .refuse (.needsCancelled cancelled)
  else if condition.holds gate.event needs.values then
    .run (gate.selectSteps job needs)
  else .refuse (.conditionFalse condition)

end Gate
end CiPipeline

import CiPipeline.Graph.Progress

/-!
Sessions on the states of a graph: calls that write the states in place, one after the other. Calls come
in any order, and one that fails leaves whatever it has written by then.
-/

namespace CiPipeline.Graph

/-- Something that is done to the states in place. Also a failure has states that it leaves. -/
abbrev Action := EStateM TransitionError Progress

/-- A call that may change states. -/
inductive Call
  | markDispatchable (id : InstanceId)
  | markRunning (id : InstanceId)
  | markComplete (id : InstanceId) (outcome : Outcome)
  | cancelPending
  deriving DecidableEq, Repr

namespace Action

/-- Moves an instance from one state to another; it must be in the first one. -/
def move (id : InstanceId) (expected new : JobState) : Action Unit := do
  match (← get).get? id with
  | none => throw (.unknownNode id)
  | some current =>
    if current = expected then modify (·.insert id new)
    else throw (.illegal id current new)

/-- Cancels some instances one by one, whatever their states. -/
def cancelEach : List InstanceId → Action Unit
  | [] => pure ()
  | id :: rest => do
    modify (·.insert id (.ended .cancelled))
    cancelEach rest

/-- Goes through some instances and cancels each that it finds pending and strict. -/
def cancelStrict (graph : Graph) : List InstanceId → Action (List InstanceId)
  | [] => return []
  | child :: rest => do
    if (← get).get? child == some .pending && graph.isStrict child then
      modify (·.insert child (.ended .cancelled))
      return child :: (← cancelStrict graph rest)
    else cancelStrict graph rest

/-- Cancels behind the instances of a queue, which the cancelled ones join at its end. -/
def cancelBehind (graph : Graph) : Nat → List InstanceId → Action (List InstanceId)
  | 0, _ => return []
  | _ + 1, [] => return []
  | rounds + 1, id :: queue => do
    let reached ← cancelStrict graph (graph.dependents id)
    return reached ++ (← cancelBehind graph rounds (queue ++ reached))

/-- Ends an instance, unless it has ended, and cancels what is strict and pending behind it. -/
def complete (graph : Graph) (id : InstanceId) (outcome : Outcome) : Action (List InstanceId) := do
  match (← get).get? id with
  | none => throw (.unknownNode id)
  | some state =>
    if state.isTerminal then return []
    modify (·.insert id (.ended outcome))
    if outcome = .success then return []
    cancelBehind graph graph.nodes.length [id]

/-- Cancels whatever has not been started. -/
def cancelUnstarted : Action (List InstanceId) := do
  let ids := ((← get).filter fun _ state => isUnstarted state).keys
  cancelEach ids
  return ids

end Action

/-- Makes a call; the answer is what it has cancelled. -/
def perform (graph : Graph) : Call → Action (List InstanceId)
  | .markDispatchable id => do
    Action.move id .pending .dispatchable
    return []
  | .markRunning id => do
    Action.move id .dispatchable .running
    return []
  | .markComplete id outcome => Action.complete graph id outcome
  | .cancelPending => Action.cancelUnstarted

/-- The states that a call leaves, whether it fails or not. -/
def after (graph : Graph) (progress : Progress) (call : Call) : Progress :=
  match (graph.perform call).run progress with
  | .ok _ next => next
  | .error _ next => next

/-- The states after some calls on a fresh graph. -/
def session (graph : Graph) (calls : List Call) : Progress :=
  calls.foldl graph.after graph.fresh

end CiPipeline.Graph

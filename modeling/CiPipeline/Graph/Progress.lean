import CiPipeline.Graph

/-!
The states of the instances of a graph during a run, and the transitions between them. A state only
moves forward, and an instance that ends without success takes with it every strict instance that was
still pending behind it.
-/

namespace CiPipeline

/-- A transition that cannot be made. -/
inductive TransitionError
  | unknownNode (id : InstanceId)
  | illegal (id : InstanceId) (current new : JobState)
  deriving DecidableEq, Repr

/-- The wording of a transition error. -/
def TransitionError.message : TransitionError → String
  | unknownNode id => id.text
  | illegal id current new =>
    id.text ++ ": cannot move " ++ current.name ++ " -> " ++ new.name

namespace Graph

/-- The state of each instance. -/
abbrev Progress := Table InstanceId JobState

/-- Before anything has happened every instance is pending. -/
def fresh (graph : Graph) : Progress :=
  .ofList (graph.ids.map (·, .pending))

/-- Whether an instance has come to its end. -/
def isTerminal (progress : Progress) (id : InstanceId) : Bool :=
  (progress.get? id).any JobState.isTerminal

/-- The pending instances of which nothing that they wait for is still to end. -/
def ready (graph : Graph) (progress : Progress) : List InstanceId :=
  (graph.nodes.filter fun node =>
    progress.get? node.id == some .pending && node.needs.all (isTerminal progress)).map GraphNode.id

/-- Whether every instance has come to its end. -/
def isFinished (progress : Progress) : Bool :=
  progress.values.all JobState.isTerminal

/-- Moves an instance from one state to another; it must be in the first one. -/
def transition (progress : Progress) (id : InstanceId) (expected new : JobState) :
    Except TransitionError Progress :=
  match progress.get? id with
  | none => .error (.unknownNode id)
  | some current =>
    if current = expected then .ok (progress.insert id new)
    else .error (.illegal id current new)

/-- A pending instance is put in the queue. -/
def markDispatchable (progress : Progress) (id : InstanceId) : Except TransitionError Progress :=
  transition progress id .pending .dispatchable

/-- An instance of the queue is started. -/
def markRunning (progress : Progress) (id : InstanceId) : Except TransitionError Progress :=
  transition progress id .dispatchable .running

/-- The given instances are cancelled, whatever their state. -/
def cancelAll (progress : Progress) (ids : List InstanceId) : Progress :=
  ids.foldl (fun progress id => progress.insert id (.ended .cancelled)) progress

/-- The strict instances that wait for an instance and are still pending. -/
def strictPending (graph : Graph) (progress : Progress) (id : InstanceId) : List InstanceId :=
  (graph.dependents id).filter fun child =>
    progress.get? child == some .pending && graph.isStrict child

/--
Cancels what is strict and pending behind the instances of the queue, in the order of discovery. Each
instance enters the queue once, so as many rounds as there are instances suffice.
-/
def cascade (graph : Graph) : Nat → List InstanceId → Progress → Progress × List InstanceId
  | 0, _, progress => (progress, [])
  | _ + 1, [], progress => (progress, [])
  | rounds + 1, id :: queue, progress =>
    let reached := strictPending graph progress id
    let (last, more) := cascade graph rounds (queue ++ reached) (cancelAll progress reached)
    (last, reached ++ more)

/--
Records how an instance ended, and the instances that this cancels. An instance that has ended already
is left as it is.
-/
def markComplete (graph : Graph) (progress : Progress) (id : InstanceId) (outcome : Outcome) :
    Except TransitionError (Progress × List InstanceId) :=
  match progress.get? id with
  | none => .error (.unknownNode id)
  | some state =>
    if state.isTerminal then .ok (progress, [])
    else
      let progress := progress.insert id (.ended outcome)
      if outcome = .success then .ok (progress, [])
      else .ok (cascade graph graph.nodes.length [id] progress)

/-- Whether an instance in this state has not been started. -/
def isUnstarted (state : JobState) : Bool :=
  state == .pending || state == .dispatchable

/-- Cancels whatever has not been started. -/
def cancelPending (progress : Progress) : Progress × List InstanceId :=
  let ids := (progress.filter fun _ state => isUnstarted state).keys
  (cancelAll progress ids, ids)

end Graph
end CiPipeline

import CiPipeline.Graph.Level

/-!
The stages of a graph by counting. Beside each instance stands how much of what it waits for is still
to be passed, and a queue holds the instances for which nothing is left. Whatever is passed is counted
off for the instances that wait for it, which join the queue behind the stage that is being passed.
-/

namespace CiPipeline.Graph

/-- How much is left to be passed for each instance, and the instances whose turn has come. -/
structure Countdown where
  left : Table InstanceId Int
  queue : List InstanceId

/-- Before anything is passed all that an instance waits for is left. -/
def countdown (graph : Graph) : Countdown :=
  let left : Table InstanceId Int :=
    .ofList (graph.ids.map fun id => (id, ((graph.dependencies id).length : Int)))
  { left := left, queue := graph.ids.filter fun id => left.get? id == some 0 }

namespace Countdown

/-- One thing less is left for an instance; with the last one its turn has come. -/
def release (counts : Countdown) (id : InstanceId) : Countdown :=
  let left := (counts.left.get? id).getD 0 - 1
  { left := counts.left.insert id left
    queue := if left = 0 then counts.queue ++ [id] else counts.queue }

/-- Passes so many instances from the front of the queue. -/
def pass (graph : Graph) : Nat → Countdown → List InstanceId × Countdown
  | 0, counts => ([], counts)
  | number + 1, counts =>
    match counts.queue with
    | [] => ([], counts)
    | id :: rest =>
      let (passed, last) :=
        pass graph number ((graph.dependents id).foldl release { counts with queue := rest })
      (id :: passed, last)

/-- Passes stage after stage: one is what the queue holds when its turn comes. -/
def stages (graph : Graph) : Nat → Countdown → List (List InstanceId)
  | 0, _ => []
  | rounds + 1, counts =>
    if counts.queue.isEmpty then []
    else
      let (level, next) := pass graph counts.queue.length counts
      level :: stages graph rounds next

end Countdown
end CiPipeline.Graph

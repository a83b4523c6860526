import CiPipeline.Graph

/-!
The stages of a graph. Each stage needs earlier stages only, so what is inside one stage may run side
by side, and every instance stands in the earliest stage it can.
-/

namespace CiPipeline.Graph

/--
Passes the instances of a stage one by one, and collects those that wait for nothing but what has been
passed. An instance is collected when the last of what it waits for is passed, so it comes only once.
-/
def nextLevel (graph : Graph) : List InstanceId → List InstanceId → List InstanceId × List InstanceId
  | passed, [] => (passed, [])
  | passed, id :: rest =>
    let passed := id :: passed
    let found := (graph.dependents id).filter fun child =>
      (graph.dependencies child).all passed.contains
    let (last, more) := nextLevel graph passed rest
    (last, found ++ more)

/-- The stages from a given one on. -/
def levelsFrom (graph : Graph) : Nat → List InstanceId → List InstanceId → List (List InstanceId)
  | 0, _, _ => []
  | _ + 1, _, [] => []
  | rounds + 1, passed, level =>
    let (passed, next) := nextLevel graph passed level
    level :: levelsFrom graph rounds passed next

/-- The instances that wait for nothing. -/
def roots (graph : Graph) : List InstanceId :=
  (graph.nodes.filter fun node => node.needs.isEmpty).map GraphNode.id

/-- The stages of the graph. No stage is empty, so there are at most as many as instances. -/
def levels (graph : Graph) : List (List InstanceId) :=
  levelsFrom graph graph.nodes.length [] graph.roots

end CiPipeline.Graph

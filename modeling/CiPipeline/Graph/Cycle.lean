import CiPipeline.Graph

/-!
The search for a cycle. It goes down from each instance along what the instance waits for, keeps the
path it is on, and stops at the first instance that is on the path already.
-/

namespace CiPipeline.Graph

/-- A search that has found no cycle yet knows the instances from which none can be reached. -/
abbrev Search := Except (List InstanceId) (List InstanceId)

/-- The cycle that closes at `id`, given the path from the start of the search. -/
def closeCycle (path : List InstanceId) (id : InstanceId) : List InstanceId :=
  path.dropWhile (· ≠ id) ++ [id]

/--
Passes over an instance that the path leads to next: the path may close, the instance may be known to be
finished, or else it is visited.
-/
def enter (visit : List InstanceId → InstanceId → Search) (path done : List InstanceId)
    (id : InstanceId) : Search :=
  if path.contains id then .error (closeCycle path id)
  else if done.contains id then .ok done
  else visit done id

/--
Visits an instance and all that it waits for. The path never repeats an instance, so fuel for as many
instances as there are beyond the path suffices.
-/
def visit (needs : InstanceId → List InstanceId) :
    Nat → List InstanceId → List InstanceId → InstanceId → Search
  | 0, _, done, _ => .ok done
  | fuel + 1, path, done, id => do
    let path := path ++ [id]
    let done ← (needs id).foldlM (enter (visit needs fuel path) path) done
    return id :: done

/-- The first cycle among some instances, with its start repeated at its end. -/
def findCycle (ids : List InstanceId) (needs : InstanceId → List InstanceId) :
    Option (List InstanceId) :=
  match (InstanceId.sorted ids).foldlM (enter (visit needs ids.length []) []) [] with
  | .error cycle => some cycle
  | .ok _ => none

end CiPipeline.Graph

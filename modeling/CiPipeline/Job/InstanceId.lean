/-!
The identity of a job instance: the name of its template and the coordinate of the matrix at which it
stands.
-/

namespace CiPipeline

/-- A point of a matrix: a value for each axis, in the order of the axes. -/
abbrev Coordinate := List (String × String)

/-- The identity of one instance of a template. -/
structure InstanceId where
  template : String
  coordinate : Coordinate := []
  deriving DecidableEq, Repr

namespace InstanceId

/-- A name together with a coordinate; a name without one stands alone. -/
def label (name : String) (coordinate : Coordinate) : String :=
  match coordinate with
  | [] => name
  | _ =>
    name ++ " (" ++ ", ".intercalate (coordinate.map fun (axis, value) => axis ++ "=" ++ value) ++ ")"

/-- The text of an instance's identity. -/
def text (id : InstanceId) : String :=
  label id.template id.coordinate

/-- The texts by which instances are ordered: the template, then the coordinate pair by pair. -/
def sortKey (id : InstanceId) : List String :=
  id.template :: id.coordinate.flatMap fun (axis, value) => [axis, value]

/-- Whether some texts come before others or are the same, by the first at which they differ. -/
def inOrder : List String → List String → Bool
  | [], _ => true
  | _ :: _, [] => false
  | a :: as, b :: bs => if a = b then inOrder as bs else decide (a ≤ b)

/-- The order of instances. -/
def le (a b : InstanceId) : Bool :=
  inOrder a.sortKey b.sortKey

/-- Some instances in their order. -/
def sorted (ids : List InstanceId) : List InstanceId :=
  ids.mergeSort le

end InstanceId
end CiPipeline

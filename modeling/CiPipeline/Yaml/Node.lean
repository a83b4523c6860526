import CiPipeline.Yaml.Tag

/-!
The nodes of a document: scalars, sequences and mappings with their tags. They form a graph, in which a
node may be part of several others and even of itself, so the parts of a node are told by number.
-/

namespace CiPipeline.Yaml

/-- What a node holds. -/
inductive Content
  | scalar (text : String)
  | sequence (items : List Nat)
  | mapping (entries : List (Nat × Nat))
  deriving Repr

/-- A node of a document. -/
structure Node where
  tag : Tag
  content : Content
  deriving Repr

namespace Node

/-- The node of what is left out. -/
def absent : Node :=
  ⟨.null, .scalar ""⟩

/-- A node with another tag. -/
def withTag (tag : Tag) (node : Node) : Node :=
  { node with tag := tag }

/-- A mapping with other entries. -/
def withEntries (entries : List (Nat × Nat)) (node : Node) : Node :=
  { node with content := .mapping entries }

end Node

/-- The nodes of a document by their numbers, and the number of the one that is the document. -/
structure NodeGraph where
  nodes : Array Node
  root : Nat

namespace NodeGraph

/-- The node with a number. -/
def node (number : Nat) (graph : NodeGraph) : Node :=
  graph.nodes[number]?.getD .absent

/-- The tag of the node with a number. -/
def tag (number : Nat) (graph : NodeGraph) : Tag :=
  (graph.node number).tag

/-- The entries of the node with a number. -/
def entries (number : Nat) (graph : NodeGraph) : List (Nat × Nat) :=
  match (graph.node number).content with
  | .mapping entries => entries
  | _ => []

/-- The graph with a node changed. -/
def change (number : Nat) (f : Node → Node) (graph : NodeGraph) : NodeGraph :=
  { graph with nodes := graph.nodes.modify number f }

/-- The value of the first entry whose key stands for the mapping itself. -/
def default? (graph : NodeGraph) (entries : List (Nat × Nat)) : Option Nat :=
  (entries.find? fun entry => graph.tag entry.1 = .default).map Prod.snd

/--
The text of a node, looked for along the entries that stand for their mappings. A way that is longer than
there are nodes has no end.
-/
def textWithin (graph : NodeGraph) : Nat → Nat → Except Fault String
  | 0, _ => .error (.value .endless)
  | fuel + 1, number =>
    match (graph.node number).content with
    | .scalar text => .ok text
    | .sequence _ => .error .wrongShape
    | .mapping entries =>
      match graph.default? entries with
      | some value => textWithin graph fuel value
      | none => .error .wrongShape

/-- The text of the node with a number, if it is a scalar or stands for one. -/
def text (number : Nat) (graph : NodeGraph) : Except Fault String :=
  graph.textWithin (graph.nodes.size + 1) number

/--
The value of the node with a number, which its tag says to be a scalar. A time is never looked for in a
mapping.
-/
def scalar (number : Nat) (graph : NodeGraph) : Except Fault Value :=
  match graph.node number with
  | ⟨.merge, _⟩ | ⟨.default, _⟩ => .error (.unknownTag "")
  | ⟨.other name, _⟩ => .error (.unknownTag name)
  | ⟨.time, .mapping _⟩ => do
    let _ ← graph.text number
    throw (.value .timeInParts)
  | node => do node.tag.valueOf (number + 1) (← graph.text number)

end NodeGraph
end CiPipeline.Yaml

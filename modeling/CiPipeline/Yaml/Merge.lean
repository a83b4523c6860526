import CiPipeline.Yaml.Node

/-!
Entries that are merged into a mapping from others. They come before its own entries, which win; of
several mappings in a list the first wins. A key that stands for its mapping is a text where the mapping
is taken as one.
-/

namespace CiPipeline.Yaml.NodeGraph

/-- What the first entry for merging merges, and the entries without it. -/
def takeMerge (graph : NodeGraph) : List (Nat × Nat) → Option (Nat × List (Nat × Nat))
  | [] => none
  | (key, value) :: rest =>
    if graph.tag key = .merge then some (value, rest)
    else (takeMerge graph rest).map fun (merged, others) => (merged, (key, value) :: others)

/-- The graph in which the keys of some entries that stood for their mapping are texts. -/
def nameDefaults (entries : List (Nat × Nat)) (graph : NodeGraph) : NodeGraph :=
  entries.foldl (fun graph (key, _) =>
    if graph.tag key = .default then graph.change key (.withTag .text) else graph) graph

/-- Whether a node is a mapping, whatever its tag. -/
def isMapping (number : Nat) (graph : NodeGraph) : Bool :=
  match (graph.node number).content with
  | .mapping _ => true
  | _ => false

/--
The graph in which a mapping has all of its entries, given those that were merged into it so far. The entry
for merging is gone before its value is looked at, so a mapping may be merged into itself; the fuel is the
number of such entries.
-/
def gather (number : Nat) (merged : List (Nat × Nat)) : Nat → NodeGraph → Except Fault NodeGraph
  | 0, graph => .ok (finish graph)
  | fuel + 1, graph =>
    match graph.takeMerge (graph.entries number) with
    | none => .ok (finish graph)
    | some (value, others) => do
      let graph := graph.change number (.withEntries others)
      let (more, graph) ← match (graph.node value).content with
        | .scalar _ => .error .mergeOfOther
        | .mapping _ => do
          let graph ← gather value [] fuel graph
          pure (graph.entries value, graph)
        | .sequence items =>
          items.foldlM (fun (more, graph) item => do
            if !graph.isMapping item then throw Fault.mergeOfOther
            let graph ← gather item [] fuel graph
            return (graph.entries item ++ more, graph)) ([], graph)
      gather number (merged ++ more) fuel graph
where
  /-- The graph with the merged entries put in front. -/
  finish (graph : NodeGraph) : NodeGraph :=
    let graph := graph.nameDefaults (graph.entries number)
    if merged.isEmpty then graph
    else graph.change number (.withEntries (merged ++ graph.entries number))

/-- The number of entries for merging. -/
def mergeCount (graph : NodeGraph) : Nat :=
  graph.nodes.foldl (fun count node =>
    match node.content with
    | .mapping entries => count + entries.countP fun entry => graph.tag entry.1 = .merge
    | _ => count) 0

/-- The graph in which a mapping has all of its entries. -/
def withMerged (number : Nat) (graph : NodeGraph) : Except Fault NodeGraph :=
  match graph.takeMerge (graph.entries number) with
  | none => gather number [] 0 graph
  | some _ => gather number [] graph.mergeCount graph

end CiPipeline.Yaml.NodeGraph

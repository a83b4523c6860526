import CiPipeline.Value.Knot
import CiPipeline.Value.Scatter
import CiPipeline.Yaml.Composition
import CiPipeline.Yaml.Merge

/-!
The value that a text in YAML writes. A text holds one document. Its nodes are looked at from the outside
in: all that is next to a node comes before anything deeper, and the first fault counts. Of two entries of
a mapping with one key the later gives the value; a key is a scalar.
-/

namespace CiPipeline.Yaml

/-- What a node is to be: a value, or a collection of what other nodes are to be. -/
inductive Draft
  | value (v : Value)
  | list (items : List Nat)
  | pairs (entries : List (Nat × Nat))
  | set (items : List Nat)
  | mapping (entries : List (Nat × Nat))

/-- The nodes of a document as far as they were looked at. -/
structure Survey where
  graph : NodeGraph
  drafts : Array (Option Draft)
  /-- The collections into which nobody looked yet, the last first. -/
  waiting : List Nat := []

namespace Survey

/-- Nothing was looked at yet. -/
def fresh (graph : NodeGraph) : Survey where
  graph := graph
  drafts := Array.replicate graph.nodes.size none

/-- The draft of a node. -/
def draft? (number : Nat) (survey : Survey) : Option Draft :=
  (survey.drafts[number]?).join

/-- The survey with the draft of a node. -/
def withDraft (number : Nat) (draft : Draft) (survey : Survey) : Survey :=
  { survey with drafts := survey.drafts.setIfInBounds number (some draft) }

/-- The survey with a collection put off. -/
def putOff (number : Nat) (survey : Survey) : Survey :=
  { survey.withDraft number (.list []) with waiting := number :: survey.waiting }

/-- Looks at a node, unless that was done: the value of a scalar is made, a collection is put off. -/
def meet (survey : Survey) (number : Nat) : Except Fault Survey :=
  if (survey.draft? number).isSome then .ok survey
  else if (survey.graph.tag number).isCollection then .ok (survey.putOff number)
  else do return survey.withDraft number (.value (← survey.graph.scalar number))

/-- Looks at the key of an entry, which must be a scalar, and at its value. -/
def meetEntry (survey : Survey) (entry : Nat × Nat) : Except Fault Survey := do
  let survey ← survey.meet entry.1
  match survey.draft? entry.1 with
  | some (.value _) => survey.meet entry.2
  | _ => throw .compositeKey

/-- Looks at some mappings of one entry each. -/
def meetPairs : List Nat → Survey → Except Fault (List (Nat × Nat) × Survey)
  | [], survey => .ok ([], survey)
  | item :: rest, survey =>
    match (survey.graph.node item).content with
    | .mapping [(key, value)] => do
      let (pairs, survey) ← meetPairs rest (← (← survey.meet key).meet value)
      return ((key, value) :: pairs, survey)
    | _ => .error .wrongShape

/-- The entries of a mapping, merged ones among them, after a look at each. -/
def meetEntries (number : Nat) (survey : Survey) : Except Fault (List (Nat × Nat) × Survey) := do
  let graph ← survey.graph.withMerged number
  let entries := graph.entries number
  return (entries, ← entries.foldlM meetEntry { survey with graph := graph })

/-- Looks into a collection. -/
def enter (number : Nat) (survey : Survey) : Except Fault Survey :=
  match survey.graph.node number with
  | ⟨.sequence, .sequence items⟩ => do
    return (← items.foldlM meet survey).withDraft number (.list items)
  | ⟨.pairs, .sequence items⟩ => do
    let (pairs, survey) ← survey.meetPairs items
    return survey.withDraft number (.pairs pairs)
  | ⟨.set, .mapping _⟩ => do
    let (entries, survey) ← survey.meetEntries number
    return survey.withDraft number (.set (entries.map Prod.fst))
  | ⟨.mapping, .mapping _⟩ => do
    let (entries, survey) ← survey.meetEntries number
    return survey.withDraft number (.mapping entries)
  | _ => .error .wrongShape

/-- Looks into some collections, and then into those that were put off meanwhile. -/
def enterAll : Nat → List Nat → Survey → Except Fault Survey
  | 0, _, survey => .ok survey
  | fuel + 1, number :: rest, survey => do enterAll fuel rest (← survey.enter number)
  | fuel + 1, [], survey =>
    match survey.waiting.reverse with
    | [] => .ok survey
    | next => enterAll fuel next { survey with waiting := [] }

/-- The survey of a whole graph. No collection is put off twice. -/
def ofGraph (graph : NodeGraph) : Except Fault Survey := do
  enterAll (2 * graph.nodes.size + 1) [] (← (fresh graph).meet graph.root)

/-- Each of some scalars once. -/
def distinct (items : List Value) : List Value :=
  (Value.writeEntries (items.map fun item => (item, .null))).map Prod.fst

/-- The value of a node inside of others, which it may be a part of again. -/
def valueWithin (survey : Survey) : Nat → List Nat → Nat → Value
  | 0, _, _ => .null
  | fuel + 1, around, number =>
    if around.contains number then .again number
    else
      let part := valueWithin survey fuel (number :: around)
      match survey.draft? number with
      | none => .null
      | some (.value v) => v
      | some (.list items) => .knotted number (.list (items.map part))
      | some (.pairs entries) =>
        .knotted number (.list (entries.map fun (first, second) => .pair (part first) (part second)))
      | some (.set items) => .set (Value.scattered (distinct (items.map part)))
      | some (.mapping entries) =>
        .knotted number (.ofEntries (entries.map fun (key, value) => (part key, part value)))

/-- The value of the document. A way that goes through no node twice is no longer than there are nodes. -/
def value (survey : Survey) : Value :=
  survey.valueWithin (survey.graph.nodes.size + 1) [] survey.graph.root

end Survey

/-- The value of the only document of a text. -/
def read (s : String) : Except Fault Value := do
  return (← Survey.ofGraph (← NodeGraph.ofTokens (Token.ofText s))).value

end CiPipeline.Yaml

import CiPipeline.Yaml.Node
import CiPipeline.Yaml.Reader

/-!
The graph of nodes that some tokens compose. A node may have a name, and a reference by that name stands
for the node, also inside of it. Keys and values that are left out are null.
-/

namespace CiPipeline.Yaml

/-- What handles of tags stand for. -/
abbrev Handles := List (String × String)

/-- The handles that need no declaration. -/
def usualHandles : Handles :=
  [("!", "!"), ("!!", Tag.coreLead)]

/-- The anchor and the full name of the tag in front of a node. -/
structure Properties where
  anchor : Option String := none
  tagName : Option String := none

namespace Properties

/-- Whether nothing stands in front of the node. -/
def isEmpty (properties : Properties) : Bool :=
  properties.anchor.isNone && properties.tagName.isNone

/-- The tag that is named; a mark alone names none. -/
def tag? (properties : Properties) : Option Tag :=
  (properties.tagName.filter (· != "!")).map Tag.ofName

/-- The tag of a scalar. Its form counts if it is plain, or if a mark without a name says so. -/
def scalarTag (properties : Properties) (text : String) (plain : Bool) : Tag :=
  properties.tag?.getD
    (if plain || properties.tagName.isSome then Tag.ofPlain text else .text)

end Properties

/-- The full name of a tag. -/
def WrittenTag.fullName (handles : Handles) (written : WrittenTag) : Except Fault String :=
  match written.handle with
  | none => .ok written.suffix
  | some handle =>
    match handles.lookup handle with
    | some lead => .ok (lead ++ written.suffix)
    | none => .error (.unknownHandle handle)

/--
The properties in front of a node, and the tokens after them. A name of the node may come before its tag or
after it, so what follows a tag at the front is looked at before the tag is.
-/
def readProperties (handles : Handles) : List Token → Except Fault (Properties × List Token)
  | .anchor name :: .tag written :: rest => do
    return (⟨some name, some (← written.fullName handles)⟩, rest)
  | .tag written :: .anchor name :: rest => do
    return (⟨some name, some (← written.fullName handles)⟩, rest)
  | .tag _ :: .faulty fault :: _ => .error fault
  | .anchor name :: rest => .ok (⟨some name, none⟩, rest)
  | .tag written :: rest => do return (⟨none, some (← written.fullName handles)⟩, rest)
  | rest => .ok ({}, rest)

/-- Where the reading of nodes stands. -/
structure Cursor where
  tokens : List Token
  /-- The nodes so far; those that are still open have no content yet. -/
  nodes : Array Node := #[]
  /-- The numbers of the nodes that have names. -/
  named : List (String × Nat) := []

/-- Something that was read, and where that ends. -/
abbrev Parsed (α : Type) := α × Cursor

/-- Refuses the tokens that come next. -/
def refuseToken {α : Type} : List Token → Except Fault α
  | .faulty fault :: _ => .error fault
  | _ => .error .unexpectedToken

namespace Cursor

/-- The cursor before other tokens. -/
def before (cursor : Cursor) (tokens : List Token) : Cursor :=
  { cursor with tokens := tokens }

/-- The cursor after a token that must come next. -/
def expect (token : Token) (cursor : Cursor) : Except Fault Cursor :=
  match cursor.tokens with
  | [] => .error .unexpectedToken
  | next :: rest => if next = token then .ok (cursor.before rest) else refuseToken cursor.tokens

/-- Whether nothing comes before the next token: an entry, key or value that is left out is null. -/
def isLeftOut (cursor : Cursor) : Bool :=
  match cursor.tokens with
  | [] => true
  | token :: _ =>
    [.key, .value, .blockEnd, .comma, .closeSequence, .closeMapping].contains token

/-- Whether the entry of a sequence is left out. -/
def isEntryLeftOut (cursor : Cursor) : Bool :=
  cursor.isLeftOut || cursor.tokens.head? == some .entry

/-- Adds a node. -/
def addNode (node : Node) (cursor : Cursor) : Parsed Nat :=
  (cursor.nodes.size, { cursor with nodes := cursor.nodes.push node })

/-- Adds the node of what is left out. -/
def addAbsent (cursor : Cursor) : Parsed Nat :=
  cursor.addNode .absent

/-- Opens a node that may have a name; no other node of the document has it. -/
def openNode (anchor : Option String) (cursor : Cursor) : Except Fault (Parsed Nat) :=
  match anchor with
  | none => .ok cursor.addAbsent
  | some name =>
    if (cursor.named.lookup name).isSome then .error (.repeatedAnchor name)
    else
      let (number, cursor) := cursor.addAbsent
      .ok (number, { cursor with named := (name, number) :: cursor.named })

/-- Closes a node. -/
def closeNode (number : Nat) (node : Node) (cursor : Cursor) : Cursor :=
  { cursor with nodes := cursor.nodes.setIfInBounds number node }

/-- The node that has a name. -/
def nodeNamed (name : String) (cursor : Cursor) : Except Fault Nat :=
  match cursor.named.lookup name with
  | some number => .ok number
  | none => .error (.unknownAnchor name)

end Cursor

/-- How the content of a node begins. -/
inductive Beginning
  | scalar (text : String) (plain : Bool)
  | flowSequence
  | flowMapping
  | blockSequence
  /-- A sequence whose dashes are no deeper than the key of its entry. -/
  | levelSequence
  | blockMapping
  | absent

/--
How a node begins after its properties, and the tokens after that. Only in a block a block may begin, and
only as the entry of a mapping a sequence that is no deeper.
-/
def readBeginning (inBlock inMapping : Bool) (properties : Properties) :
    List Token → Except Fault (Beginning × List Token)
  | .scalar text plain :: rest => .ok (.scalar text plain, rest)
  | .openSequence :: rest => .ok (.flowSequence, rest)
  | .openMapping :: rest => .ok (.flowMapping, rest)
  | tokens =>
    match tokens with
    | .entry :: _ => if inMapping then .ok (.levelSequence, tokens) else absent tokens
    | .blockSequence :: rest => if inBlock then .ok (.blockSequence, rest) else absent tokens
    | .blockMapping :: rest => if inBlock then .ok (.blockMapping, rest) else absent tokens
    | _ => absent tokens
where
  /-- Properties alone are those of an empty scalar. -/
  absent (tokens : List Token) : Except Fault (Beginning × List Token) :=
    match tokens with
    | .faulty fault :: _ => .error fault
    | _ => if properties.isEmpty then .error .unexpectedToken else .ok (.absent, tokens)

mutual

/-- A node, or a reference to one. -/
def readNode (handles : Handles) (inBlock inMapping : Bool) :
    Nat → Cursor → Except Fault (Parsed Nat)
  | 0, _ => .error .unexpectedToken
  | fuel + 1, cursor =>
    match cursor.tokens with
    | .reference name :: rest => do return (← cursor.nodeNamed name, cursor.before rest)
    | tokens => do
      let (properties, rest) ← readProperties handles tokens
      let (beginning, rest) ← readBeginning inBlock inMapping properties rest
      let (number, cursor) ← (cursor.before rest).openNode properties.anchor
      let (node, cursor) ← readContent handles properties beginning fuel cursor
      return (number, cursor.closeNode number node)

/-- A node after its beginning. -/
def readContent (handles : Handles) (properties : Properties) (beginning : Beginning) :
    Nat → Cursor → Except Fault (Parsed Node)
  | 0, _ => .error .unexpectedToken
  | fuel + 1, cursor =>
    let sequence := fun items => Node.mk (properties.tag?.getD .sequence) (.sequence items)
    let mapping := fun entries => Node.mk (properties.tag?.getD .mapping) (.mapping entries)
    match beginning with
    | .scalar text plain => .ok (⟨properties.scalarTag text plain, .scalar text⟩, cursor)
    | .absent => .ok (⟨properties.scalarTag "" true, .scalar ""⟩, cursor)
    | .flowSequence => do
      let (items, cursor) ← flowItems handles true fuel cursor
      return (sequence items, cursor)
    | .flowMapping => do
      let (entries, cursor) ← flowEntries handles true fuel cursor
      return (mapping entries, cursor)
    | .levelSequence => do
      let (items, cursor) ← blockItems handles fuel cursor
      return (sequence items, cursor)
    | .blockSequence => do
      let (items, cursor) ← blockItems handles fuel cursor
      return (sequence items, ← cursor.expect .blockEnd)
    | .blockMapping => do
      let (entries, cursor) ← blockEntries handles fuel cursor
      return (mapping entries, ← cursor.expect .blockEnd)

/-- The items of a block sequence. -/
def blockItems (handles : Handles) : Nat → Cursor → Except Fault (Parsed (List Nat))
  | 0, _ => .error .unexpectedToken
  | fuel + 1, cursor =>
    match cursor.tokens with
    | .entry :: rest => do
      let cursor := cursor.before rest
      let (item, cursor) ←
        if cursor.isEntryLeftOut then .ok cursor.addAbsent
        else readNode handles true false fuel cursor
      let (items, cursor) ← blockItems handles fuel cursor
      return (item :: items, cursor)
    | _ => .ok ([], cursor)

/-- The entries of a block mapping. -/
def blockEntries (handles : Handles) : Nat → Cursor → Except Fault (Parsed (List (Nat × Nat)))
  | 0, _ => .error .unexpectedToken
  | fuel + 1, cursor =>
    match cursor.tokens with
    | .key :: _ => do
      let (entry, cursor) ← readEntry handles true fuel cursor
      let (entries, cursor) ← blockEntries handles fuel cursor
      return (entry :: entries, cursor)
    | _ => .ok ([], cursor)

/-- The items of a flow sequence up to its end; a pair is a mapping of its own. -/
def flowItems (handles : Handles) (first : Bool) :
    Nat → Cursor → Except Fault (Parsed (List Nat))
  | 0, _ => .error .unexpectedToken
  | fuel + 1, cursor => do
    if let .closeSequence :: rest := cursor.tokens then return ([], cursor.before rest)
    let cursor ← if first then .ok cursor else cursor.expect .comma
    match cursor.tokens with
    | .closeSequence :: rest => return ([], cursor.before rest)
    | .key :: _ =>
      let (entry, cursor) ← readEntry handles false fuel cursor
      let (pair, cursor) := cursor.addNode ⟨.mapping, .mapping [entry]⟩
      let (items, cursor) ← flowItems handles false fuel cursor
      return (pair :: items, cursor)
    | _ =>
      let (item, cursor) ← readNode handles false false fuel cursor
      let (items, cursor) ← flowItems handles false fuel cursor
      return (item :: items, cursor)

/-- The entries of a flow mapping up to its end. -/
def flowEntries (handles : Handles) (first : Bool) :
    Nat → Cursor → Except Fault (Parsed (List (Nat × Nat)))
  | 0, _ => .error .unexpectedToken
  | fuel + 1, cursor => do
    if let .closeMapping :: rest := cursor.tokens then return ([], cursor.before rest)
    let cursor ← if first then .ok cursor else cursor.expect .comma
    match cursor.tokens with
    | .closeMapping :: rest => return ([], cursor.before rest)
    | .key :: _ =>
      let (entry, cursor) ← readEntry handles false fuel cursor
      let (entries, cursor) ← flowEntries handles false fuel cursor
      return (entry :: entries, cursor)
    | _ =>
      let (key, cursor) ← readNode handles false false fuel cursor
      let (value, cursor) := cursor.addAbsent
      let (entries, cursor) ← flowEntries handles false fuel cursor
      return ((key, value) :: entries, cursor)

/-- One entry of a mapping: a key and its value, of which either may be left out. -/
def readEntry (handles : Handles) (inBlock : Bool) :
    Nat → Cursor → Except Fault (Parsed (Nat × Nat))
  | 0, _ => .error .unexpectedToken
  | fuel + 1, cursor => do
    let (key, cursor) ← readPart handles inBlock .key fuel cursor
    let (value, cursor) ← readPart handles inBlock .value fuel cursor
    return ((key, value), cursor)

/-- The key or the value of an entry, after the token that announces it. -/
def readPart (handles : Handles) (inBlock : Bool) (mark : Token) :
    Nat → Cursor → Except Fault (Parsed Nat)
  | 0, _ => .error .unexpectedToken
  | fuel + 1, cursor =>
    match cursor.expect mark with
    | .error _ => .ok cursor.addAbsent
    | .ok cursor =>
      if cursor.isLeftOut then .ok cursor.addAbsent
      else readNode handles inBlock inBlock fuel cursor

end

/-- The handles of a document: those that directives declare, and the usual ones beside them. -/
def readDirectives (versioned : Bool) (handles : Handles) :
    List Token → Except Fault (Handles × List Token)
  | .directive (.version major) :: rest =>
    if versioned then .error .repeatedDirective
    else if major = 1 then readDirectives true handles rest
    else .error .wrongVersion
  | .directive (.handle name lead) :: rest =>
    if (handles.lookup name).isSome then .error .repeatedDirective
    else readDirectives versioned ((name, lead) :: handles) rest
  | .directive (.other _) :: rest => readDirectives versioned handles rest
  | rest => .ok (handles ++ usualHandles, rest)

/-- Whether a document that was announced has no content. -/
def isDocumentLeftOut : List Token → Bool
  | [] | .directive _ :: _ | .documentStart :: _ | .documentEnd :: _ => true
  | _ => false

/-- The node of a document with its handles. Each token adds a few levels of reading at most. -/
def readRoot (handles : Handles) (tokens : List Token) : Except Fault (Parsed Nat) :=
  readNode handles true false (4 * tokens.length + 4) { tokens := tokens }

/-- The node of the document that some tokens begin with. -/
def firstDocument (tokens : List Token) : Except Fault (Parsed Nat) :=
  match tokens with
  | [] => .ok (Cursor.addAbsent { tokens := [] })
  | .directive _ :: _ | .documentStart :: _ => do
    let (handles, rest) ← readDirectives false [] tokens
    let content ← ({ tokens := rest } : Cursor).expect .documentStart
    if isDocumentLeftOut content.tokens then return content.addAbsent
    else readRoot handles content.tokens
  | _ => readRoot usualHandles tokens

/-- The graph of the only document of some tokens. -/
def NodeGraph.ofTokens (tokens : List Token) : Except Fault NodeGraph := do
  let (root, cursor) ← firstDocument tokens
  match cursor.tokens.dropWhile (· == .documentEnd) with
  | [] => return ⟨cursor.nodes, root⟩
  | rest =>
    match (← readDirectives false [] rest).2 with
    | .faulty fault :: _ => throw fault
    | _ => throw .severalDocuments

end CiPipeline.Yaml

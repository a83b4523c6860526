import CiPipeline.Yaml.Scalar

/-!
Literal and folded scalars. Such a scalar is made of the lines below its header that are indented deep
enough; the header may give the depth, and says what becomes of the line breaks at the end.
-/

namespace CiPipeline.Yaml

/-- What becomes of the line breaks at the end of a block. -/
inductive Chomping
  | clip
  | keep
  | strip
  deriving DecidableEq, Repr

/-- The header of a block. -/
structure BlockHeader where
  chomping : Chomping := .clip
  /-- The indentation relative to what the block is part of. -/
  indent : Option Nat := none

namespace BlockHeader

/-- The chomping that a character asks for. -/
def chomping? : Char → Option Chomping
  | '+' => some .keep
  | '-' => some .strip
  | _ => none

/-- The indentation that a character gives; zero is none. -/
def indent? (c : Char) : Option Nat :=
  (digit? 10 c).filter (0 < ·)

/-- Whether nothing but a comment follows. -/
def isComment (s : List Char) : Bool :=
  match s with
  | [] => true
  | ' ' :: rest => (rest.dropWhile (· == ' ')).head?.all (· == '#')
  | _ => false

/-- Reads the line of a header, after the character that makes it one. -/
def read (line : List Char) : Except Fault BlockHeader :=
  let ends (header : BlockHeader) (rest : List Char) : Except Fault BlockHeader :=
    if isComment rest then .ok header else .error .blockHeader
  match line with
  | [] => .ok {}
  | c :: rest =>
    match chomping? c, indent? c, rest with
    | some chomping, _, d :: rest' =>
      match indent? d with
      | some n => ends ⟨chomping, some n⟩ rest'
      | none => ends ⟨chomping, none⟩ rest
    | some chomping, _, [] => .ok ⟨chomping, none⟩
    | none, some n, d :: rest' =>
      match chomping? d with
      | some chomping => ends ⟨chomping, some n⟩ rest'
      | none => ends ⟨.clip, some n⟩ rest
    | none, some n, [] => .ok ⟨.clip, some n⟩
    | none, none, _ => ends {} line

end BlockHeader

/-- A line of a text, and the character that ends it. -/
structure RawLine where
  content : List Char
  ending : Option Char

namespace RawLine

/-- The lines of a text. The last one has no ending. -/
def ofText : List Char → List RawLine
  | [] => [⟨[], none⟩]
  | c :: rest =>
    if isBreak c then ⟨[], some c⟩ :: ofText rest
    else
      match ofText rest with
      | [] => [⟨[c], none⟩]
      | line :: more => { line with content := c :: line.content } :: more

/-- The number of characters of a line, its ending included. -/
def length (line : RawLine) : Nat :=
  line.content.length + line.ending.toList.length

/-- The number of spaces at the beginning of a line. -/
def spaces (line : RawLine) : Nat :=
  (line.content.takeWhile (· == ' ')).length

/-- Whether a line holds nothing but spaces. -/
def isBlank (line : RawLine) : Bool :=
  line.content.all (· == ' ')

end RawLine

/-- A line of a block: a blank one, or one with content. -/
inductive BlockLine
  | blank (ending : Option Char)
  | content (text : List Char) (ending : Option Char)

/-- What a line is to a block of a given depth; a line that is not deep enough is none of its lines. -/
def BlockLine.ofRaw? (depth : Nat) (line : RawLine) : Option BlockLine :=
  let rest := line.content.drop (min depth line.spaces)
  if rest.isEmpty then some (.blank line.ending)
  else if depth ≤ line.spaces then some (.content rest line.ending)
  else none

/-- A line with content, and the endings of the blank lines after it. -/
structure Row where
  text : List Char
  ending : Option Char
  blanks : List Char

namespace Row

/-- The rows of a block, after the endings of the blank lines before the first of them. -/
def ofLines : List BlockLine → List Char × List Row
  | [] => ([], [])
  | .blank ending :: rest =>
    let (blanks, rows) := ofLines rest
    (ending.toList ++ blanks, rows)
  | .content text ending :: rest =>
    let (blanks, rows) := ofLines rest
    ([], ⟨text, ending, blanks⟩ :: rows)

/-- Whether a row begins with something that is seen. -/
def isSolid (row : Row) : Bool :=
  row.text.head?.all fun c => c != ' ' && c != '\t'

/-- What stands between a row and the next one, before the blank lines. -/
def glue (folded : Bool) (row next : Row) : List Char :=
  if folded && row.ending == some '\n' && row.isSolid && next.isSolid then
    if row.blanks.isEmpty then [' '] else []
  else row.ending.toList

/-- The text of some rows. -/
def join (folded : Bool) (chomping : Chomping) : List Row → List Char
  | [] => []
  | [row] =>
    row.text ++
      match chomping with
      | .strip => []
      | .clip => row.ending.toList
      | .keep => row.ending.toList ++ row.blanks
  | row :: next :: rest =>
    row.text ++ glue folded row next ++ row.blanks ++ join folded chomping (next :: rest)

end Row

/-- The depth of a block: that of its first line with content, or of a blank line that is deeper. -/
def blockDepth (least : Nat) (lines : List RawLine) : Nat :=
  let first := (lines.dropWhile RawLine.isBlank).head?.toList
  (lines.takeWhile RawLine.isBlank ++ first).foldl (fun depth line => max depth line.spaces) least

/-- A block, given the text after the character that makes it one. -/
def readBlock (folded : Bool) (indent : Int) (s : List Char) : Except Fault (Span String) := do
  let header :: lines := RawLine.ofText s | throw .blockHeader
  let { chomping, indent := given } ← BlockHeader.read header.content
  let lines := if header.ending.isSome then lines else [⟨[], none⟩]
  let least := (max 1 (indent + 1)).toNat
  let depth := match given with
    | some n => least + n - 1
    | none => blockDepth least lines
  let members := (lines.map fun line => (line, BlockLine.ofRaw? depth line)).takeWhile (·.2.isSome)
  let (blanks, rows) := Row.ofLines (members.filterMap Prod.snd)
  let text := if rows.isEmpty && chomping != .keep then [] else blanks ++ Row.join folded chomping rows
  return ⟨String.ofList text,
    members.foldl (fun length member => length + member.1.length) header.length⟩

end CiPipeline.Yaml

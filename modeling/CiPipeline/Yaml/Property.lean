import CiPipeline.Text.Utf8
import CiPipeline.Yaml.Scalar

/-!
What stands beside the values of a text: anchors and references to them, tags, and directives in front of a
document.
-/

namespace CiPipeline.Yaml

/-- Characters of the names of anchors, handles and directives. -/
def isNameChar (c : Char) : Bool :=
  c.isAlphanum || c == '-' || c == '_'

/-- Whether a text ends or a space or a line break comes next. -/
def isSpaceNext (s : List Char) : Bool :=
  s.head?.all fun c => c == ' ' || isBreak c

/-- The characters that may follow the name of an anchor, blanks and line breaks apart. -/
def anchorEnds : List Char :=
  ['?', ':', ',', ']', '\x7d', '%', '@', Char.ofNat 0x60]

/-- The name of an anchor, given the text after its mark. -/
def readAnchor (s : List Char) : Except Fault (Span String) :=
  let name := s.takeWhile isNameChar
  let rest := s.dropWhile isNameChar
  if !name.isEmpty && (isBoundary rest || rest.head?.any anchorEnds.contains) then
    .ok ⟨String.ofList name, name.length⟩
  else .error .anchorName

/-- A tag as it is written: the handle before it, if it has one, and the rest of its name. -/
structure WrittenTag where
  handle : Option String
  suffix : String
  deriving DecidableEq, Repr

/-- The characters of the name of a tag that are neither letters nor digits. -/
def tagMarks : List Char :=
  "-;/?:@&=+$,_.!~*'()[]%".toList

/-- The bytes of the name of a tag. A percent sign and two hexadecimal digits are one byte. -/
def nameBytes? : List Char → Option (List Nat)
  | [] => some []
  | c :: rest =>
    if c = '%' then
      match rest with
      | high :: low :: rest => do
        return ((← digit? 16 high) * 16 + (← digit? 16 low)) :: (← nameBytes? rest)
      | _ => none
    else (nameBytes? rest).map (c.toNat :: ·)

/-- The name of a tag at the beginning of a text. -/
def readTagName (s : List Char) : Except Fault (Span String) :=
  match s.takeWhile fun c => c.isAlphanum || tagMarks.contains c with
  | [] => .error .tagName
  | written =>
    match (nameBytes? written).bind Text.Utf8.decode? with
    | some name => .ok ⟨name, written.length⟩
    | none => .error .tagName

/-- The handle of a tag at the beginning of a text: an exclamation mark, or a name between two of them. -/
def readHandle (s : List Char) : Except Fault (Span String) :=
  match s with
  | '!' :: ' ' :: _ => .ok ⟨"!", 1⟩
  | '!' :: rest =>
    let name := rest.takeWhile isNameChar
    match rest.dropWhile isNameChar with
    | '!' :: _ => .ok ⟨String.ofList ('!' :: name ++ ['!']), name.length + 2⟩
    | _ => .error .tagName
  | _ => .error .tagName

/-- A tag with a handle, given the text from its first mark on. -/
def readHandledTag (s : List Char) : Except Fault (Span WrittenTag) := do
  let word := (s.drop 1).takeWhile fun c => c != ' ' && !isBreak c
  let handle ← if word.contains '!' then readHandle s else .ok ⟨"!", 1⟩
  let suffix ← readTagName (s.drop handle.length)
  return ⟨⟨some handle.content, suffix.content⟩, handle.length + suffix.length⟩

/-- A tag, given the text from its first mark on. A name between angle brackets is a full one. -/
def readTag (s : List Char) : Except Fault (Span WrittenTag) := do
  let span ← match s.drop 1 with
    | '<' :: rest =>
      let name ← readTagName rest
      match rest.drop name.length with
      | '>' :: _ => .ok ⟨⟨none, name.content⟩, name.length + 3⟩
      | _ => .error .tagName
    | rest => if isBoundary rest then .ok ⟨⟨none, "!"⟩, 1⟩ else readHandledTag s
  if isSpaceNext (s.drop span.length) then return span else throw .tagName

/-- What a line in front of a document tells about it. -/
inductive Directive
  | version (major : Nat)
  | handle (name lead : String)
  | other (name : String)
  deriving DecidableEq, Repr

namespace Directive

/-- Refuses what stands at the end of a line, unless it is a comment after blanks. -/
def requireEnd (s : List Char) : Except Fault Unit :=
  let rest := s.dropWhile (· == ' ')
  if isSpaceNext s && rest.head?.all (· == '#') then .ok () else .error .directive

/-- A number at the beginning of a text, and the rest. -/
def readNumber (s : List Char) : Except Fault (Nat × List Char) :=
  match s.takeWhile Char.isDigit with
  | [] => .error .directive
  | digits =>
    if Number.maxIntDigits < digits.length then .error (.value (.tooManyDigits digits.length))
    else .ok (digitsValue digits, s.drop digits.length)

/-- The version that a line names: two numbers with a point between them. -/
def readVersion (s : List Char) : Except Fault Directive := do
  let (major, rest) ← readNumber s
  let '.' :: rest := rest | throw .directive
  let (_, rest) ← readNumber rest
  requireEnd rest
  return version major

/-- The handle that a line declares, and what it stands for. -/
def readDeclaration (s : List Char) : Except Fault Directive := do
  let name ← readHandle s
  let ' ' :: rest := s.drop name.length | throw .directive
  let rest := rest.dropWhile (· == ' ')
  let lead ← readTagName rest
  requireEnd (rest.drop lead.length)
  return handle name.content lead.content

/-- Reads the line of a directive, after the character that makes it one. -/
def read (line : List Char) : Except Fault Directive :=
  let name := line.takeWhile isNameChar
  let rest := line.dropWhile isNameChar
  let content := rest.dropWhile (· == ' ')
  if name.isEmpty || !isSpaceNext rest then .error .directive
  else
    match String.ofList name with
    | "YAML" => readVersion content
    | "TAG" => readDeclaration content
    | unknown => .ok (.other unknown)

end Directive
end CiPipeline.Yaml

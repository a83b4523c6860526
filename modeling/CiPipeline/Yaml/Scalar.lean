import CiPipeline.Yaml.Piece
import CiPipeline.Yaml.Tag

/-!
Plain and quoted scalars. Each reader is given the text from the scalar on, and tells how much of it the
scalar is.
-/

namespace CiPipeline.Yaml

open CiPipeline.Text (singleQuote doubleQuote)

/-- What a reader made of the beginning of a text, and how many characters that is. -/
structure Span (α : Type) where
  content : α
  length : Nat

/-- What something else makes of a span. -/
def Span.map {α β : Type} (f : α → β) (span : Span α) : Span β :=
  ⟨f span.content, span.length⟩

/-- The characters that structure a flow collection. -/
def flowIndicators : List Char := [',', '?', '[', ']', '\x7b', '\x7d']

/-- Whether a colon ends a plain scalar, by what follows it. -/
def isValueMark (inFlow : Bool) (rest : List Char) : Bool :=
  isBoundary rest || (inFlow && rest.head?.any [',', '[', ']', '\x7b', '\x7d'].contains)

/--
The pieces of a plain scalar, and maybe a gap after it. `inGap` tells whether a gap comes before, `column`
where the next character stands; outside flow collections a line must be indented deeper than `indent`.
-/
def plainPieces (inFlow : Bool) (indent : Int) (inGap : Bool) (column : Nat) :
    List Char → List Piece
  | [] => []
  | c :: rest =>
    if c = ' ' then .blank c :: plainPieces inFlow indent true (column + 1) rest
    else if isBreak c then
      if isSeparator rest then [] else .lineBreak c :: plainPieces inFlow indent true 0 rest
    else if c = '\t' || (c = ':' && isValueMark inFlow rest) then []
    else if inFlow && flowIndicators.contains c then []
    else if inGap && (c = '#' || (!inFlow && (column : Int) ≤ indent)) then []
    else
      let column := if isOrderMark c then column else column + 1
      .solid c :: plainPieces inFlow indent false column rest

/-- A plain scalar at a column. -/
def readPlain (inFlow : Bool) (indent : Int) (column : Nat) (s : List Char) : Span String :=
  let pieces := Piece.dropLastGap (plainPieces inFlow indent false column s)
  ⟨Piece.text pieces, pieces.length⟩

/-- A piece of a quoted scalar before the rest of it. -/
def prepend (piece : Piece) (length : Nat) (rest : Span (List Piece)) : Span (List Piece) :=
  ⟨piece :: rest.content, rest.length + length⟩

/-- The piece of an unescaped character in a quoted scalar, before what follows it. -/
def quotedPiece (c : Char) (after : List Char) : Except Fault Piece :=
  if isBreak c && isSeparator after then .error .separatorInQuote else .ok (.ofChar c)

/-- The pieces of a single-quoted scalar up to its quote; there a doubled quote stands for one. -/
def singlePieces : List Char → Except Fault (Span (List Piece))
  | [] => .error .unclosedQuote
  | [c] => if c = singleQuote then .ok ⟨[], 1⟩ else .error .unclosedQuote
  | c :: d :: rest =>
    if c = singleQuote then
      if d = singleQuote then (singlePieces rest).map (prepend (.solid c) 2) else .ok ⟨[], 1⟩
    else do return prepend (← quotedPiece c (d :: rest)) 1 (← singlePieces (d :: rest))

/-- The characters that escapes of one letter stand for. -/
def escapes : List (Char × Nat) :=
  [('0', 0x00), ('a', 0x07), ('b', 0x08), ('t', 0x09), ('\t', 0x09), ('n', 0x0a), ('v', 0x0b),
    ('f', 0x0c), ('r', 0x0d), ('e', 0x1b), (' ', 0x20), (doubleQuote, 0x22), ('\\', 0x5c),
    ('/', 0x2f), ('N', 0x85), ('_', 0xa0), ('L', 0x2028), ('P', 0x2029)]

/-- The number of hexadecimal digits after a letter of an escape. -/
def codeWidths : List (Char × Nat) :=
  [('x', 2), ('u', 4), ('U', 8)]

/-- The piece that an escape stands for, and the number of characters after the backslash. -/
def readEscape (s : List Char) : Except Fault (Span Piece) :=
  match s with
  | [] => .error .unclosedQuote
  | c :: rest =>
    match escapes.lookup c, codeWidths.lookup c with
    | some code, _ => .ok ⟨.coded code, 1⟩
    | none, some width =>
      let digits := rest.take width
      match digits.mapM (digit? 16) with
      | none => .error .unknownEscape
      | some values =>
        let code := values.foldl (fun number value => number * 16 + value) 0
        if digits.length < width then .error .unknownEscape
        else if 0x80000000 ≤ code then .error (.value .codeTooLong)
        else if 0x110000 ≤ code then .error (.value .codeTooGreat)
        else .ok ⟨.coded code, width + 1⟩
    | none, none =>
      if !isBreak c then .error .unknownEscape
      else if isSeparator rest then .error .separatorInQuote
      else .ok ⟨.joint, 1⟩

/-- The pieces of a double-quoted scalar up to its quote. The first number of characters is skipped. -/
def doublePieces : Nat → List Char → Except Fault (Span (List Piece))
  | _, [] => .error .unclosedQuote
  | skip + 1, _ :: rest => doublePieces skip rest
  | 0, c :: rest =>
    if c = doubleQuote then .ok ⟨[], 1⟩
    else if c = '\\' then do
      let escape ← readEscape rest
      return prepend escape.content (escape.length + 1) (← doublePieces escape.length rest)
    else do return prepend (← quotedPiece c rest) 1 (← doublePieces 0 rest)

/-- A quoted scalar, given the text after its first quote. -/
def readQuoted (double : Bool) (s : List Char) : Except Fault (Span String) := do
  let pieces ← if double then doublePieces 0 s else singlePieces s
  return ⟨Piece.text pieces.content, pieces.length⟩

end CiPipeline.Yaml

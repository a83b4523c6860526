import CiPipeline.Yaml.Token

/-!
Reading the tokens of a text. Indentation becomes tokens here: a collection opens where something is
indented deeper than before, and closes where something is not. What starts like any node may turn out to
be a key when a colon follows it on its line, so its place is kept until then.
-/

namespace CiPipeline.Yaml

/-- What may turn out to be a key: where it begins, and how many tokens come before it. -/
structure PossibleKey where
  tokensBefore : Nat
  /-- Nothing but a key can stand there. -/
  required : Bool
  index : Nat
  line : Nat
  column : Nat

/-- Where the reading of a text stands. -/
structure Reader where
  rest : List Char
  index : Nat := 0
  line : Nat := 0
  column : Nat := 0
  /-- The columns of the open block collections, the innermost first. -/
  columns : List Nat := []
  /-- The possible key of the innermost flow collection, or of the block around all of them. -/
  possible : Option PossibleKey := none
  /-- Those of the collections around it. -/
  outer : List (Option PossibleKey) := []
  keyAllowed : Bool := true
  /-- The tokens so far, the last first. -/
  tokens : List Token := []
  /-- How many tokens there are. -/
  count : Nat := 0

namespace Reader

/-- Whether a flow collection is open. -/
def inFlow (r : Reader) : Bool :=
  !r.outer.isEmpty

/-- The column of the innermost block collection; before any is open it is left of the first. -/
def indent (r : Reader) : Int :=
  (r.columns.head?.map Int.ofNat).getD (-1)

/-- The number of columns that some characters of a line take; marks of byte order take none. -/
def width (s : List Char) : Nat :=
  s.countP (!isOrderMark ·)

/-- The reader after some more characters. -/
def advance (n : Nat) (r : Reader) : Reader :=
  let passed := r.rest.take n
  let breaks := passed.countP isBreak
  { r with
    rest := r.rest.drop n
    index := r.index + n
    line := r.line + breaks
    column :=
      if breaks = 0 then r.column + width passed
      else width (passed.reverse.takeWhile (!isBreak ·)) }

/-- The reader with one more token. -/
def emit (token : Token) (r : Reader) : Reader :=
  { r with tokens := token :: r.tokens, count := r.count + 1 }

/-- The length of the spaces, comments and line breaks at the beginning of a text. -/
def gapLength (inComment : Bool) : List Char → Nat
  | [] => 0
  | c :: rest =>
    if isBreak c then gapLength false rest + 1
    else if inComment || c = ' ' then gapLength inComment rest + 1
    else if c = '#' then gapLength true rest + 1
    else 0

/-- The reader at the next token. A new line of a block may begin with a key. -/
def skipGap (r : Reader) : Reader :=
  let after := r.advance (gapLength false r.rest)
  if r.line < after.line && !r.inFlow then { after with keyAllowed := true } else after

/-- The farthest that a colon may be from the beginning of its key. -/
def maxKeyLength : Nat := 1024

/-- Whether a possible key can still be one: it is on this line, and not too far back. -/
def isFresh (r : Reader) (key : PossibleKey) : Bool :=
  key.line == r.line && r.index - key.index ≤ maxKeyLength

/-- A possible key as long as it can still be one. -/
def refresh (r : Reader) : Option PossibleKey → Except Fault (Option PossibleKey)
  | none => .ok none
  | some key =>
    if r.isFresh key then .ok (some key)
    else if key.required then .error .missingColon
    else .ok none

/-- The reader without the keys that can be none any more. -/
def dropStale (r : Reader) : Except Fault Reader := do
  return { r with possible := ← r.refresh r.possible, outer := ← r.outer.mapM r.refresh }

/-- Gives the possible key up. -/
def dropPossible (r : Reader) : Except Fault Reader :=
  if r.possible.any PossibleKey.required then .error .missingColon
  else .ok { r with possible := none }

/-- Notes that a key may begin here. -/
def notePossible (r : Reader) : Except Fault Reader :=
  if r.keyAllowed then do
    let r ← r.dropPossible
    return { r with
      possible := some {
        tokensBefore := r.count
        required := !r.inFlow && r.indent == r.column
        index := r.index
        line := r.line
        column := r.column } }
  else .ok r

/-- Closes the block collections that are indented deeper than a column. -/
def closeBlocks (column : Int) (r : Reader) : Reader :=
  if r.inFlow then r
  else
    let closed := r.columns.takeWhile fun (c : Nat) => decide (column < c)
    { r with
      columns := r.columns.drop closed.length
      tokens := List.replicate closed.length .blockEnd ++ r.tokens
      count := r.count + closed.length }

/-- Opens a block collection at the reader, unless one is open that deep or a flow collection is. -/
def openBlock (token : Token) (r : Reader) : Reader :=
  if !r.inFlow && r.indent < r.column then
    { r with columns := r.column :: r.columns }.emit token
  else r

/-- A marker between documents, which closes everything. -/
def documentMark (token : Token) (r : Reader) : Except Fault Reader := do
  let r ← (r.closeBlocks (-1)).dropPossible
  return { (r.advance 3).emit token with keyAllowed := false }

/-- The beginning of a flow collection. -/
def openFlow (token : Token) (r : Reader) : Except Fault Reader := do
  let r ← r.notePossible
  return { (r.advance 1).emit token with
    possible := none
    outer := r.possible :: r.outer
    keyAllowed := true }

/-- The end of a flow collection. -/
def closeFlow (token : Token) (r : Reader) : Except Fault Reader := do
  let r ← r.dropPossible
  match r.outer with
  | [] => throw .unexpectedToken
  | possible :: outer =>
    return { (r.advance 1).emit token with
      possible := possible
      outer := outer
      keyAllowed := false }

/-- A comma. -/
def comma (r : Reader) : Except Fault Reader := do
  let r ← r.dropPossible
  return { (r.advance 1).emit .comma with keyAllowed := true }

/-- The dash of an entry. A flow collection has none, which is left to those who read its nodes. -/
def entry (r : Reader) : Except Fault Reader := do
  if !r.inFlow && !r.keyAllowed then throw .misplacedEntry
  let r ← (r.openBlock .blockSequence).dropPossible
  return { (r.advance 1).emit .entry with keyAllowed := true }

/-- The question mark of a key. -/
def explicitKey (r : Reader) : Except Fault Reader := do
  if !r.inFlow && !r.keyAllowed then throw .misplacedKey
  let r ← (r.openBlock .blockMapping).dropPossible
  return { (r.advance 1).emit .key with keyAllowed := !r.inFlow }

/-- Turns what may be a key into one, and opens the block mapping that begins with it. -/
def confirmKey (key : PossibleKey) (r : Reader) : Reader :=
  let opens := !r.inFlow && r.indent < key.column
  let since := r.count - key.tokensBefore
  let announced := .key :: if opens then [.blockMapping] else []
  { r with
    possible := none
    columns := if opens then key.column :: r.columns else r.columns
    tokens := r.tokens.take since ++ announced ++ r.tokens.drop since
    count := r.count + announced.length }

/-- The colon of a value. -/
def value (r : Reader) : Except Fault Reader :=
  match r.possible with
  | some key => .ok { ((r.confirmKey key).advance 1).emit .value with keyAllowed := false }
  | none =>
    if !r.inFlow && !r.keyAllowed then .error .misplacedValue
    else .ok { ((r.openBlock .blockMapping).advance 1).emit .value with keyAllowed := !r.inFlow }

/-- A token with which a key may begin, after so many characters of its mark. -/
def keyLike (skipped : Nat) (span : Except Fault (Span Token)) (r : Reader) : Except Fault Reader := do
  let r ← r.notePossible
  let span ← span
  return { (r.advance (skipped + span.length)).emit span.content with keyAllowed := false }

/-- An anchor or a reference. -/
def named (token : String → Token) (rest : List Char) (r : Reader) : Except Fault Reader :=
  r.keyLike 1 ((readAnchor rest).map (Span.map token))

/-- A quoted scalar. -/
def quoted (double : Bool) (rest : List Char) (r : Reader) : Except Fault Reader :=
  r.keyLike 1 ((readQuoted double rest).map (Span.map (Token.scalar · false)))

/--
A plain scalar. It ends where no more of it comes after some blanks; these are behind the reader then, and
a key may begin on another line.
-/
def plain (r : Reader) : Except Fault Reader := do
  let r ← r.keyLike 0
    (.ok ((readPlain r.inFlow r.indent r.column r.rest).map (Token.scalar · true)))
  let gap := r.rest.takeWhile fun c => c == ' ' || isBreak c
  return { r.advance gap.length with keyAllowed := gap.any isBreak }

/-- A directive, which closes everything like a marker between documents. -/
def directive (rest : List Char) (r : Reader) : Except Fault Reader := do
  let r ← (r.closeBlocks (-1)).dropPossible
  let line := rest.takeWhile (!isBreak ·)
  let content ← Directive.read line
  return { (r.advance (line.length + 2)).emit (.directive content) with keyAllowed := false }

/-- A block, which is never a key. -/
def block (folded : Bool) (rest : List Char) (r : Reader) : Except Fault Reader := do
  let r ← r.dropPossible
  let span ← readBlock folded r.indent rest
  return { (r.advance (1 + span.length)).emit (.scalar span.content false) with keyAllowed := true }

/-- The characters that cannot begin a plain scalar, blanks and line breaks apart. -/
def indicators : List Char :=
  ['-', '?', ':', ',', '[', ']', '\x7b', '\x7d', '#', '&', '*', '!', '|', '>', Text.singleQuote,
    Text.doubleQuote, '%', '@', Char.ofNat 0x60]

/-- Whether a plain scalar begins here. A dash, and in a block some others, may begin one too. -/
def beginsPlain (r : Reader) (c : Char) (rest : List Char) : Bool :=
  if indicators.contains c then
    !isBoundary rest && (c = '-' || (!r.inFlow && (c = '?' || c = ':')))
  else c != '\t'

/-- Reads the token that begins with a character. -/
def token (r : Reader) (c : Char) (rest : List Char) : Except Fault Reader :=
  if r.column = 0 && c = '%' then r.directive rest
  else if r.column = 0 && isSeparator r.rest then
    r.documentMark (if c = '-' then .documentStart else .documentEnd)
  else if c = '[' then r.openFlow .openSequence
  else if c = '\x7b' then r.openFlow .openMapping
  else if c = ']' then r.closeFlow .closeSequence
  else if c = '\x7d' then r.closeFlow .closeMapping
  else if c = ',' then r.comma
  else if c = '-' && isBoundary rest then r.entry
  else if c = '?' && (r.inFlow || isBoundary rest) then r.explicitKey
  else if c = ':' && (r.inFlow || isBoundary rest) then r.value
  else if c = '*' then r.named .reference rest
  else if c = '&' then r.named .anchor rest
  else if c = '!' then r.keyLike 0 ((readTag r.rest).map (Span.map Token.tag))
  else if c = '|' && !r.inFlow then r.block false rest
  else if c = '>' && !r.inFlow then r.block true rest
  else if c = Text.singleQuote then r.quoted false rest
  else if c = Text.doubleQuote then r.quoted true rest
  else if r.beginsPlain c rest then r.plain
  else .error (.unexpectedCharacter c)

/-- The reader at the next token, or at the end of the text. -/
def approach (r : Reader) : Except Fault Reader := do
  let r ← r.skipGap.dropStale
  return r.closeBlocks r.column

/-- The possible keys that have not become stale. -/
def pending (r : Reader) : List PossibleKey :=
  (r.possible :: r.outer).filterMap fun key => key.filter r.isFresh

/-- How many tokens are certain: a possible key may still put others in front of those after it. -/
def certain (r : Reader) : Nat :=
  r.pending.foldl (fun count key => min count key.tokensBefore) r.count

/--
The tokens of a text that cannot be read further. The fault stands where it is found by one who reads no
more of the text than it takes to be certain of the next token.
-/
def brokenOff (fault : Fault) (r : Reader) : List Token :=
  (r.tokens.drop (r.count - r.certain)).reverse ++ [.faulty fault]

/-- The tokens of a text that ends here. -/
def finish (r : Reader) : Except Fault (List Token) := do
  return (← (r.closeBlocks (-1)).dropPossible).tokens.reverse

/-- The next token, after which the text goes on, or all tokens where it ends. -/
def step (r : Reader) : Except Fault (Reader ⊕ List Token) := do
  let here ← r.approach
  match here.rest with
  | [] => return .inr (← here.finish)
  | c :: rest => return .inl (← here.token c rest)

/-- The tokens of the rest of a text. Each token is one character at least, which bounds their number. -/
def readAll : Nat → Reader → List Token
  | 0, r => r.tokens.reverse
  | fuel + 1, r =>
    match r.step with
    | .ok (.inl r) => readAll fuel r
    | .ok (.inr tokens) => tokens
    | .error fault => r.brokenOff fault

end Reader

/-- The characters that may not stand in a text: most control characters. -/
def isForbidden (c : Char) : Bool :=
  let code := c.toNat
  !(code = 0x09 || code = 0x0a || code = 0x0d || code = 0x85 || (0x20 ≤ code && code ≤ 0x7e) ||
    (0xa0 ≤ code && code ≤ 0xfffd) || 0x10000 ≤ code)

/-- A text with each line break of one or two control characters written as a line feed. -/
def unifyBreaks : List Char → List Char
  | [] => []
  | '\r' :: '\n' :: rest => '\n' :: unifyBreaks rest
  | c :: rest => (if c = '\r' ∨ c.toNat = 0x85 then '\n' else c) :: unifyBreaks rest

/-- A text without the mark of byte order at its beginning. -/
def dropOrderMark (s : List Char) : List Char :=
  match s with
  | c :: rest => if isOrderMark c then rest else s
  | [] => []

/-- The tokens of a text, up to the first fault. -/
def Token.ofText (s : String) : List Token :=
  match s.toList.find? isForbidden with
  | some c => [.faulty (.unprintable c)]
  | none =>
    let chars := unifyBreaks (dropOrderMark s.toList)
    Reader.readAll (chars.length + 1) { rest := chars }

end CiPipeline.Yaml

import CiPipeline.Text.Blank
import CiPipeline.Text.Quoted

/-!
The tokens of expressions: operators, quoted texts and words, with any blanks between them. Reading goes
from left to right and takes the longest word.
-/

namespace CiPipeline.Condition

/-- A mark with a meaning of its own. -/
inductive Mark
  | and
  | or
  | not
  | openParen
  | closeParen
  | comma
  deriving DecidableEq, Repr

/-- How a mark is written. -/
def Mark.text : Mark → String
  | and => "&&"
  | or => "||"
  | not => "!"
  | openParen => "("
  | closeParen => ")"
  | comma => ","

/-- A token of an expression. -/
inductive Token
  | mark (mark : Mark)
  /-- A text between quotes, without the quotes. -/
  | quoted (content : String)
  | word (name : String)
  deriving DecidableEq, Repr

/-- The text of a token, as messages show it: a quoted text has lost its quotes. -/
def Token.text : Token → String
  | mark m => m.text
  | quoted content => content
  | word name => name

/-- A character that begins a word. -/
def isWordStart (c : Char) : Bool :=
  c.isAlpha || c == '_'

/-- A character that goes on with a word. -/
def isWordPart (c : Char) : Bool :=
  c.isAlphanum || c == '_'

/-- The quoted text that follows an opening quote, and its width up to the closing one. -/
def readQuoted? (quote : Char) (s : List Char) : Option (Token × Nat) :=
  let content := s.takeWhile (· ≠ quote)
  if content.length = s.length then none
  else some (.quoted (String.ofList content), content.length + 1)

/-- The token at the front of a text, and its width. -/
def readToken? : List Char → Option (Token × Nat)
  | '&' :: '&' :: _ => some (.mark .and, 2)
  | '|' :: '|' :: _ => some (.mark .or, 2)
  | '!' :: _ => some (.mark .not, 1)
  | '(' :: _ => some (.mark .openParen, 1)
  | ')' :: _ => some (.mark .closeParen, 1)
  | ',' :: _ => some (.mark .comma, 1)
  | c :: rest =>
    if c = Text.singleQuote ∨ c = Text.doubleQuote then
      (readQuoted? c rest).map fun (token, width) => (token, width + 1)
    else if isWordStart c then
      let tail := rest.takeWhile isWordPart
      some (.word (String.ofList (c :: tail)), tail.length + 1)
    else none
  | [] => none

/--
The tokens of a text. `skip` counts the characters that still belong to the token read last, `seen` is
where that token ended and `position` where the text stands; the failure is the end of the last token
before the one that cannot be read.
-/
def scanFrom : (skip seen position : Nat) → List Char → Except Nat (List Token)
  | _, _, _, [] => .ok []
  | skip + 1, seen, position, _ :: rest => scanFrom skip seen (position + 1) rest
  | 0, seen, position, c :: rest =>
    if Text.isBlank c then scanFrom 0 seen (position + 1) rest
    else
      match readToken? (c :: rest) with
      | none => .error seen
      | some (token, width) =>
        (scanFrom (width - 1) (position + width) (position + 1) rest).map (token :: ·)

/-- The tokens of an expression, or the position at which reading stopped. -/
def tokens (expression : String) : Except Nat (List Token) :=
  scanFrom 0 0 0 expression.toList

end CiPipeline.Condition

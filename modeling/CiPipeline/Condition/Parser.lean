import CiPipeline.Condition
import CiPipeline.Condition.Token
import CiPipeline.Error

/-!
Reading conditions from expressions. Negation binds tightest, then `&&`, then `||`, both of which group
to the left. Every function of the grammar descends with one unit of fuel; the number of tokens bounds
how deep and how long they can go, so the wrapper gives enough.
-/

namespace CiPipeline.Condition

open ConditionError (Fault)

/-- The function without argument that a name stands for. -/
def nullary? : String → Option Condition
  | "success" => some (status .success)
  | "failure" => some (status .failure)
  | "always" => some (status .always)
  | "cancelled" => some (status .cancelled)
  | "is_tag" => some isTag
  | "is_branch" => some isBranch
  | _ => none

/-- A condition on the kind of the event, by the name of the kind. -/
def ofKindName (name : String) : Except Fault Condition :=
  match EventKind.ofName? name with
  | some kind => .ok (eventIs kind)
  | none => .error (.unknownEvent name)

/-- A condition on the short ref, by the text of its pattern. -/
def ofPatternText (branchOnly : Bool) (text : String) : Except Fault Condition :=
  match RefPattern.ofText text with
  | .ok pattern => .ok (refMatches pattern branchOnly)
  | .error error => .error (.pattern error)

/-- The function of one argument that a name stands for. -/
def unary? : String → Option (String → Except Fault Condition)
  | "ref_matches" => some (ofPatternText false)
  | "branch" => some (ofPatternText true)
  | "starts_with" => some (.ok ∘ startsWith)
  | "event" => some ofKindName
  | _ => none

/-- The fault of finding the next token where another one is needed. -/
def unexpected : List Token → Fault
  | [] => .unexpectedEnd
  | token :: _ => .unexpected token.text

/-- Takes a token with a given text, whatever its kind. -/
def takeText (text : String) : List Token → Except Fault (List Token)
  | [] => .error .unexpectedEnd
  | token :: rest => if token.text = text then .ok rest else .error (.unexpected token.text)

/-- Takes a word. -/
def takeWord : List Token → Except Fault (String × List Token)
  | .word name :: rest => .ok (name, rest)
  | tokens => .error (unexpected tokens)

/-- Takes a quoted text. -/
def takeQuoted : List Token → Except Fault (String × List Token)
  | .quoted content :: rest => .ok (content, rest)
  | tokens => .error (unexpected tokens)

/-- Reads the call of a function. -/
def parseCall (tokens : List Token) : Except Fault (Condition × List Token) := do
  let (name, rest) ← takeWord tokens
  let rest ← takeText "(" rest
  match nullary? name with
  | some condition =>
    let rest ← takeText ")" rest
    return (condition, rest)
  | none =>
    match unary? name with
    | some build =>
      let (argument, rest) ← takeQuoted rest
      let rest ← takeText ")" rest
      return (← build argument, rest)
    | none => .error (.unknownFunction name)

mutual

/-- Reads conjunctions joined by `||`. -/
def parseOr : Nat → List Token → Except Fault (Condition × List Token)
  | 0, _ => .error .unexpectedEnd
  | fuel + 1, tokens => do
    let (left, rest) ← parseAnd fuel tokens
    parseOrTail fuel left rest

/-- Reads on after the conjunctions that `left` joins. -/
def parseOrTail : Nat → Condition → List Token → Except Fault (Condition × List Token)
  | 0, _, _ => .error .unexpectedEnd
  | fuel + 1, left, .mark .or :: rest => do
    let (right, rest) ← parseAnd fuel rest
    parseOrTail fuel (or left right) rest
  | _, left, rest => .ok (left, rest)

/-- Reads terms joined by `&&`. -/
def parseAnd : Nat → List Token → Except Fault (Condition × List Token)
  | 0, _ => .error .unexpectedEnd
  | fuel + 1, tokens => do
    let (left, rest) ← parseTerm fuel tokens
    parseAndTail fuel left rest

/-- Reads on after the terms that `left` joins. -/
def parseAndTail : Nat → Condition → List Token → Except Fault (Condition × List Token)
  | 0, _, _ => .error .unexpectedEnd
  | fuel + 1, left, .mark .and :: rest => do
    let (right, rest) ← parseTerm fuel rest
    parseAndTail fuel (and left right) rest
  | _, left, rest => .ok (left, rest)

/-- Reads a negation, a condition in parentheses or a call. -/
def parseTerm : Nat → List Token → Except Fault (Condition × List Token)
  | 0, _ => .error .unexpectedEnd
  | fuel + 1, .mark .not :: rest => do
    let (inner, rest) ← parseTerm fuel rest
    return (not inner, rest)
  | fuel + 1, .mark .openParen :: rest => do
    let (inner, rest) ← parseOr fuel rest
    let rest ← takeText ")" rest
    return (inner, rest)
  | _, tokens => parseCall tokens

end

/-- Fuel that suffices for a number of tokens: each of them is passed by at most three descents. -/
def sufficientFuel (count : Nat) : Nat :=
  3 * count + 3

/-- The condition that some tokens write. -/
def ofTokens (tokens : List Token) : Except Fault Condition := do
  if tokens.isEmpty then throw .emptyExpression
  let (condition, rest) ← parseOr (sufficientFuel tokens.length) tokens
  if rest.isEmpty then return condition else throw (unexpected rest)

/-- The condition that an expression writes. -/
def parse (expression : String) : Except ConfigurationError Condition :=
  match tokens expression with
  | .error position => .error (.condition ⟨expression, .unexpectedCharacter position⟩)
  | .ok tokens =>
    match ofTokens tokens with
    | .ok condition => .ok condition
    | .error (.pattern error) => .error (.pattern error)
    | .error fault => .error (.condition ⟨expression, fault⟩)

end CiPipeline.Condition

import CiPipeline.Glob

/-!
The regular expression of a glob, written while the glob is read. The reader goes from left to right
over single characters, and only knows whether what it read last may be quantified; characters that
mean something in an expression are escaped.
-/

namespace CiPipeline.Glob

/-- Whether a character is escaped in a regular expression. -/
def needsEscape (c : Char) : Bool :=
  ['(', ')', '[', ']', '{', '}', '?', '*', '+', '-', '|', '^', '$', '\\', '.', '&', '~', '#', ' ',
    '\t', '\n', '\r', '\x0b', '\x0c'].contains c

/-- A character as a regular expression. -/
def escape (c : Char) : List Char :=
  if needsEscape c then ['\\', c] else [c]

/-- The members of a class as members of a set. -/
def translateMembers : List Char → Except Fault (List Char)
  | low :: '-' :: high :: rest =>
    if high < low then .error (.reversedRange low high)
    else (translateMembers rest).map fun more => escape low ++ ('-' :: escape high) ++ more
  | c :: rest => (translateMembers rest).map (escape c ++ ·)
  | [] => .ok []

/-- The set of the class that follows an opening bracket, and the width up to the closing one. -/
def translateClass (s : List Char) : Except Fault (List Char × Nat) :=
  let body := s.takeWhile (· ≠ ']')
  if body.length = s.length then .error .unclosedClass
  else if body.isEmpty then .error .emptyClass
  else (translateMembers body).map fun members => ('[' :: (members ++ [']']), body.length + 1)

/-- What one step of the reader writes, how far it goes, and whether a quantifier may follow. -/
structure Translation where
  text : List Char
  width : Nat
  quantifiable : Bool
  deriving DecidableEq

/-- A quantifier is written as it is, where something stands before it that it can be for. -/
def translateMark (quantifiable : Bool) (position : Nat) (mark : Char) : Except Fault Translation :=
  if quantifiable then .ok ⟨[mark], 1, false⟩ else .error (.nothingToRepeat mark position)

/-- One step of the reader, at a position of the pattern. -/
def translateNext (quantifiable : Bool) (position : Nat) : List Char → Except Fault Translation
  | '*' :: '*' :: _ => .ok ⟨['.', '*'], 2, false⟩
  | '*' :: _ => .ok ⟨['[', '^', '/', ']', '*'], 1, false⟩
  | '?' :: _ => translateMark quantifiable position '?'
  | '+' :: _ => translateMark quantifiable position '+'
  | '[' :: rest => (translateClass rest).map fun (text, width) => ⟨text, width + 1, true⟩
  | '\\' :: [] => .error .danglingEscape
  | '\\' :: c :: _ => .ok ⟨escape c, 2, true⟩
  | c :: _ => .ok ⟨escape c, 1, true⟩
  | [] => .error .empty

/-- The expression of what is left of a pattern; the counter is that of `readItems`. -/
def translateFrom : Nat → Bool → Nat → List Char → Except Fault (List Char)
  | _, _, _, [] => .ok []
  | skip + 1, quantifiable, position, _ :: rest =>
    translateFrom skip quantifiable (position + 1) rest
  | 0, quantifiable, position, c :: rest => do
    let next ← translateNext quantifiable position (c :: rest)
    return next.text ++
      (← translateFrom (next.width - 1) next.quantifiable (position + 1) rest)

/-- The text of the regular expression of a pattern. -/
def expressionOf (pattern : String) : Except PatternError String :=
  let text :=
    if pattern.isEmpty then .error .empty else translateFrom 0 false 0 pattern.toList
  (text.map String.ofList).mapError (⟨pattern, ·⟩)

end CiPipeline.Glob

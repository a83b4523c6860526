/-!
Regular expressions without groups, alternatives, anchors, lazy counts and counts in braces: a row of
parts, each of which stands for one character, or with a count for none or many. A text is cut into
tokens first, so that an escaped character is never taken for a sign. What only larger expressions have
is refused.
-/

namespace CiPipeline

namespace Regex

/-- What stands for one character. -/
inductive Single
  /-- Any character but a line feed. -/
  | any
  /-- Exactly this character. -/
  | literal (c : Char)
  /-- Any character of one of the closed ranges. -/
  | oneOf (ranges : List (Char × Char))
  /-- Any character of none of the closed ranges. -/
  | noneOf (ranges : List (Char × Char))
  deriving DecidableEq, Repr

/-- How many characters a part stands for. -/
inductive Count
  | once
  | optional
  | many
  | anyNumber
  deriving DecidableEq, Repr

/-- One part of an expression. -/
structure Part where
  single : Single
  count : Count
  deriving DecidableEq, Repr

/-- Why a text is no such expression. -/
inductive Fault
  | danglingEscape
  /-- A letter or digit that is escaped does not stand for itself. -/
  | wordEscape (c : Char)
  | nothingToRepeat
  | multipleRepeat
  | unclosedSet
  | reversedRange (low high : Char)
  /-- A sign of larger expressions. -/
  | unsupported (sign : Char)
  deriving DecidableEq, Repr

/-- A character as it stands, or one behind an escape. -/
inductive Token
  | plain (c : Char)
  | escaped (c : Char)
  deriving DecidableEq, Repr

/-- How a token is written. -/
def Token.text : Token → List Char
  | plain c => [c]
  | escaped c => ['\\', c]

/-- The tokens of a text. -/
def tokens : List Char → Except Fault (List Token)
  | [] => .ok []
  | '\\' :: [] => .error .danglingEscape
  | '\\' :: c :: rest => (tokens rest).map (.escaped c :: ·)
  | c :: rest => (tokens rest).map (.plain c :: ·)

/-- The character that a token stands for where it is no sign. -/
def Token.literal : Token → Except Fault Char
  | plain c => .ok c
  | escaped c => if c.isAlphanum then .error (.wordEscape c) else .ok c

/--
The ranges of a set, and its width up to the closing bracket. A bracket that comes first is a character
of the set, and so is a hyphen before the closing one.
-/
def readMembers : Bool → List Token → Except Fault (List (Char × Char) × Nat)
  | _, [] => .error .unclosedSet
  | first, low :: .plain '-' :: high :: rest =>
    if low = .plain ']' ∧ ¬ first then .ok ([], 1)
    else if high = .plain ']' then do
      let c ← low.literal
      let (ranges, width) ← readMembers false (.plain '-' :: high :: rest)
      return ((c, c) :: ranges, width + 1)
    else do
      let c ← low.literal
      let d ← high.literal
      if d < c then throw (.reversedRange c d)
      let (ranges, width) ← readMembers false rest
      return ((c, d) :: ranges, width + 3)
  | first, member :: rest =>
    if member = .plain ']' ∧ ¬ first then .ok ([], 1)
    else do
      let c ← member.literal
      let (ranges, width) ← readMembers false rest
      return ((c, c) :: ranges, width + 1)

/-- The count that a sign gives to what stands before it. -/
def Count.ofSign? (c : Char) : Option Count :=
  if c = '?' then some .optional
  else if c = '+' then some .many
  else if c = '*' then some .anyNumber
  else none

/-- Whether some tokens begin with the sign of a count. -/
def startsWithCount : List Token → Bool
  | .plain c :: _ => (Count.ofSign? c).isSome
  | _ => false

/-- The signs of groups, alternatives, anchors and counts in braces. -/
def isForeign (c : Char) : Bool :=
  ['(', ')', '{', '|', '^', '$'].contains c

/-- What stands for one character at the front of some tokens, and its width. -/
def readSingle : List Token → Except Fault (Single × Nat)
  | [] => .error .nothingToRepeat
  | .plain '.' :: _ => .ok (.any, 1)
  | .plain '[' :: .plain '^' :: rest =>
    (readMembers true rest).map fun (ranges, width) => (.noneOf ranges, width + 2)
  | .plain '[' :: rest =>
    (readMembers true rest).map fun (ranges, width) => (.oneOf ranges, width + 1)
  | .plain c :: _ =>
    if (Count.ofSign? c).isSome then .error .nothingToRepeat
    else if isForeign c then .error (.unsupported c)
    else .ok (.literal c, 1)
  | .escaped c :: _ => (Token.literal (.escaped c)).map fun c => (.literal c, 1)

/-- The count at the front of some tokens, and its width. -/
def readCount : List Token → Except Fault (Count × Nat)
  | .plain c :: rest =>
    match Count.ofSign? c with
    | none => .ok (.once, 0)
    | some count => if startsWithCount rest then .error .multipleRepeat else .ok (count, 1)
  | _ => .ok (.once, 0)

/-- The parts of an expression; the counter says how many tokens still belong to the last one. -/
def readParts : Nat → List Token → Except Fault (List Part)
  | _, [] => .ok []
  | skip + 1, _ :: rest => readParts skip rest
  | 0, token :: rest => do
    let (single, width) ← readSingle (token :: rest)
    let (count, more) ← readCount (rest.drop (width - 1))
    return ⟨single, count⟩ :: (← readParts (width - 1 + more) rest)

end Regex

/-- A regular expression: its parts, in order. -/
abbrev Regex := List Regex.Part

/-- The regular expression that a text writes. -/
def Regex.read (text : String) : Except Regex.Fault Regex := do
  readParts 0 (← tokens text.toList)

end CiPipeline

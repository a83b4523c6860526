import CiPipeline.Text.Quoted

/-!
Ref globs and the text they are read from. A glob is a row of items: a star stands for any text without
a slash, two stars for any text without a line feed, and an atom for one character, or none, or many
when a `?` or `+` follows it.
-/

namespace CiPipeline

namespace Glob

/-- What one character of a name may be. -/
inductive Atom
  /-- Exactly this character. -/
  | char (c : Char)
  /-- Any character of one of the closed ranges. -/
  | oneOf (ranges : List (Char × Char))
  deriving DecidableEq, Repr

/-- Whether an atom admits a character. -/
def Atom.admits : Atom → Char → Bool
  | char c, d => d == c
  | oneOf ranges, d => ranges.any fun range => range.1 ≤ d && d ≤ range.2

/-- How many characters an atom stands for. -/
inductive Repeat
  | once
  | optional
  | many
  deriving DecidableEq, Repr

/-- One item of a glob. -/
inductive Item
  | star
  | doubleStar
  | atom (atom : Atom) (times : Repeat)
  deriving DecidableEq, Repr

/-- Why a text is no glob. -/
inductive Fault
  | empty
  | nothingToRepeat (mark : Char) (position : Nat)
  | unclosedClass
  | emptyClass
  | reversedRange (low high : Char)
  | danglingEscape
  deriving DecidableEq, Repr

/-- The wording of a fault. -/
def Fault.message : Fault → String
  | empty => "empty pattern"
  | nothingToRepeat mark position =>
    String.ofList [Text.singleQuote, mark, Text.singleQuote] ++ " at position " ++
      toString position ++ " has nothing to repeat"
  | unclosedClass => "unclosed character class"
  | emptyClass => "empty character class"
  | reversedRange low high => "reversed range " ++ String.ofList [low, '-', high]
  | danglingEscape => "dangling escape"

/--
The ranges of a class, from left to right: a hyphen between two characters makes a range of them, and
any other character stands for itself.
-/
def readRanges : List Char → Except Fault (List (Char × Char))
  | low :: '-' :: high :: rest =>
    if high < low then .error (.reversedRange low high)
    else (readRanges rest).map ((low, high) :: ·)
  | c :: rest => (readRanges rest).map ((c, c) :: ·)
  | [] => .ok []

/-- The class that follows an opening bracket, and its width up to the closing one. -/
def readClass (s : List Char) : Except Fault (Atom × Nat) :=
  let body := s.takeWhile (· ≠ ']')
  if body.length = s.length then .error .unclosedClass
  else if body.isEmpty then .error .emptyClass
  else (readRanges body).map fun ranges => (.oneOf ranges, body.length + 1)

/-- The atom at the front of a text, and its width. -/
def readAtom : List Char → Except Fault (Atom × Nat)
  | [] => .error .empty
  | '[' :: rest => (readClass rest).map fun (atom, width) => (atom, width + 1)
  | '\\' :: [] => .error .danglingEscape
  | '\\' :: c :: _ => .ok (.char c, 2)
  | c :: _ => .ok (.char c, 1)

/-- The count that a quantifier after an atom gives it, and the width of the quantifier. -/
def readRepeat : List Char → Repeat × Nat
  | '?' :: _ => (.optional, 1)
  | '+' :: _ => (.many, 1)
  | _ => (.once, 0)

/-- The item at the front of a text that stands at a position, and its width. -/
def readItem (position : Nat) : List Char → Except Fault (Item × Nat)
  | '*' :: '*' :: _ => .ok (.doubleStar, 2)
  | '*' :: _ => .ok (.star, 1)
  | '?' :: _ => .error (.nothingToRepeat '?' position)
  | '+' :: _ => .error (.nothingToRepeat '+' position)
  | s => do
    let (atom, width) ← readAtom s
    let (times, more) := readRepeat (s.drop width)
    return (.atom atom times, width + more)

/--
The items of a text. The counter says how many characters still belong to the item that was read last,
so the recursion is on the text itself.
-/
def readItems : Nat → Nat → List Char → Except Fault (List Item)
  | _, _, [] => .ok []
  | skip + 1, position, _ :: rest => readItems skip (position + 1) rest
  | 0, position, c :: rest => do
    let (item, width) ← readItem position (c :: rest)
    return item :: (← readItems (width - 1) (position + 1) rest)

end Glob

/-- A text that is no glob, and the reason. -/
structure PatternError where
  pattern : String
  fault : Glob.Fault
  deriving DecidableEq, Repr

/-- The wording of a pattern error. -/
def PatternError.message (error : PatternError) : String :=
  "Malformed pattern " ++ Text.quoted error.pattern ++ ": " ++ error.fault.message

/-- A glob: its items, in order. -/
abbrev Glob := List Glob.Item

/-- The glob that a text writes. -/
def Glob.parse (pattern : String) : Except PatternError Glob :=
  let read := if pattern.isEmpty then .error .empty else readItems 0 0 pattern.toList
  read.mapError (⟨pattern, ·⟩)

end CiPipeline

import CiPipeline.Yaml.Fault

/-!
Lines and their folding. A scalar that runs over several lines is read as pieces: characters that stand
for themselves, and gaps of blanks and line breaks that fold. One break folds to a space, and of several
the first is dropped.
-/

namespace CiPipeline.Yaml

/-- A character that ends a line. -/
def isBreak (c : Char) : Bool :=
  c.toNat ∈ [0x0a, 0x2028, 0x2029]

/-- The mark of byte order. -/
def isOrderMark (c : Char) : Bool :=
  c.toNat = 0xfeff

/-- Whether nothing or a gap comes next. -/
def isBoundary : List Char → Bool
  | [] => true
  | c :: _ => c = ' ' || c = '\t' || isBreak c

/-- Whether a marker between documents stands at the beginning of a line. -/
def isSeparator : List Char → Bool
  | '-' :: '-' :: '-' :: rest => isBoundary rest
  | '.' :: '.' :: '.' :: rest => isBoundary rest
  | _ => false

/-- A piece of a scalar. -/
inductive Piece
  | solid (c : Char)
  /-- A character that an escape gives by its code. -/
  | coded (code : Nat)
  | blank (c : Char)
  | lineBreak (c : Char)
  /-- An escaped line break, which joins two lines. -/
  | joint

namespace Piece

/-- Whether a piece belongs to a gap. -/
def isGap : Piece → Bool
  | blank _ | lineBreak _ | joint => true
  | _ => false

/-- The line break that a piece is. -/
def break? : Piece → Option Char
  | lineBreak c => some c
  | _ => none

/-- The blank that a piece is. -/
def blank? : Piece → Option Char
  | blank c => some c
  | _ => none

/-- Whether a piece joins two lines. -/
def isJoint : Piece → Bool
  | joint => true
  | _ => false

/-- The text of a gap without a joint. -/
def foldLines (gap : List Piece) : List Char :=
  match gap.filterMap break? with
  | [] => gap.filterMap blank?
  | ['\n'] => [' ']
  | '\n' :: more => more
  | breaks => breaks

/-- The text of a gap. After a joint only further line breaks remain. -/
def foldGap (gap : List Piece) : List Char :=
  foldLines (gap.takeWhile (!·.isJoint)) ++ (gap.dropWhile (!·.isJoint)).filterMap break?

/-- The text of some pieces, after a gap whose pieces are given the last first. -/
def fold (gap : List Piece) : List Piece → List Char
  | [] => foldGap gap.reverse
  | .solid c :: rest => foldGap gap.reverse ++ c :: fold [] rest
  | .coded code :: rest => foldGap gap.reverse ++ Text.ofCode code :: fold [] rest
  | piece :: rest => fold (piece :: gap) rest

/-- The text of some pieces. -/
def text (pieces : List Piece) : String :=
  String.ofList (fold [] pieces)

/-- The piece that an unescaped character is. -/
def ofChar (c : Char) : Piece :=
  if isBreak c then lineBreak c
  else if c = ' ' ∨ c = '\t' then blank c
  else solid c

/-- The pieces without the gap at their end. -/
def dropLastGap (pieces : List Piece) : List Piece :=
  (pieces.reverse.dropWhile isGap).reverse

end Piece
end CiPipeline.Yaml

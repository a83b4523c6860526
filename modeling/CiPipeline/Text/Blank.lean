/-!
Blank characters: the space, the separators and the control characters that lay text out. Trimming
and the splitting of expressions both speak of this one class.
-/

namespace CiPipeline.Text

/-- Whether a code point lies in one of the closed ranges. -/
def inRanges (ranges : List (Nat × Nat)) (code : Nat) : Bool :=
  ranges.any fun range => range.1 ≤ code && code ≤ range.2

/-- The blank code points, as closed ranges in rising order. -/
def blankRanges : List (Nat × Nat) :=
  [(0x09, 0x0d), (0x1c, 0x20), (0x85, 0x85), (0xa0, 0xa0), (0x1680, 0x1680), (0x2000, 0x200a),
    (0x2028, 0x2029), (0x202f, 0x202f), (0x205f, 0x205f), (0x3000, 0x3000)]

/-- A character that separates words without being seen. -/
def isBlank (c : Char) : Bool :=
  inRanges blankRanges c.toNat

/-- The text from its first character outside the class to its last one. -/
def trimWhile (p : Char → Bool) (s : List Char) : List Char :=
  ((s.dropWhile p).reverse.dropWhile p).reverse

/-- The text without the blanks at both of its ends. -/
def strip (s : String) : String :=
  String.ofList (trimWhile isBlank s.toList)

/-- A text in which nothing but blanks can be found, the empty text included. -/
def isAllBlank (s : String) : Bool :=
  s.toList.all isBlank

theorem isBlank_of_isWhitespace {c : Char} (h : c.isWhitespace = true) : isBlank c = true := by
  simp only [Char.isWhitespace, Bool.or_eq_true, decide_eq_true_eq] at h
  rcases h with ((h | h) | h) | h <;> subst h <;> decide

end CiPipeline.Text

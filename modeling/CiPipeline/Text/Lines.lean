/-!
Splitting a text into its lines. A line feed, a carriage return, the pair of them and the other
characters that end a line in running text all count, and the end of the last line is optional.
-/

namespace CiPipeline.Text

/-- A character after which a new line begins. -/
def isLineEnd (c : Char) : Bool :=
  c.toNat ∈ [0x0a, 0x0b, 0x0c, 0x0d, 0x1c, 0x1d, 0x1e, 0x85, 0x2028, 0x2029]

/-- The lines of a text, without the characters that end them. -/
def cutLines : List Char → List (List Char)
  | [] => []
  | '\r' :: '\n' :: rest => [] :: cutLines rest
  | c :: rest =>
    if isLineEnd c then [] :: cutLines rest
    else
      match cutLines rest with
      | [] => [[c]]
      | line :: more => (c :: line) :: more

/-- The lines of a text. -/
def lines (s : String) : List String :=
  (cutLines s.toList).map String.ofList

end CiPipeline.Text

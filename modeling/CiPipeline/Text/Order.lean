/-!
The sorted forms of a list of texts that messages show. Texts are ordered by code point, a text coming
after each of its beginnings.
-/

namespace CiPipeline.Text

/-- The texts in rising order, repetitions kept. -/
def sorted (texts : List String) : List String :=
  texts.mergeSort fun a b => decide (a ≤ b)

/-- The different texts in rising order. -/
def sortedSet (texts : List String) : List String :=
  sorted texts.eraseDups

/-- The different texts that occur more than once, in rising order. -/
def repeated (texts : List String) : List String :=
  sortedSet (texts.filter fun text => 1 < texts.count text)

end CiPipeline.Text

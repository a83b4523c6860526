import CiPipeline.Glob

/-!
Matching a name against a glob. The items are read once from left to right, each of them moving a set
of positions of the name forward; the name matches when its end is among the last ones. The work is
proportional to the product of both lengths, whatever the items.
-/

namespace CiPipeline.Glob

/--
A set of positions of a name: whether its start is in the set, and each character of the name with
whether the position after it is.
-/
structure Reach where
  start : Bool
  trail : List (Char × Bool)
  deriving DecidableEq, Repr

namespace Reach

/-- The set that holds the start of a name alone. -/
def atStart (name : List Char) : Reach where
  start := true
  trail := name.map (·, false)

/-- Moves marks over one admitted character; `before` says whether the position before it is marked. -/
def stepTrail (admits : Char → Bool) : Bool → List (Char × Bool) → List (Char × Bool)
  | _, [] => []
  | before, (c, here) :: rest => (c, before && admits c) :: stepTrail admits here rest

/-- The positions one admitted character after those of the set. -/
def step (admits : Char → Bool) (reach : Reach) : Reach where
  start := false
  trail := stepTrail admits reach.start reach.trail

/-- Spreads marks over admitted characters; `before` says whether the position before is reached. -/
def spreadTrail (admits : Char → Bool) : Bool → List (Char × Bool) → List (Char × Bool)
  | _, [] => []
  | before, (c, here) :: rest =>
    let reached := here || (before && admits c)
    (c, reached) :: spreadTrail admits reached rest

/-- The positions any number of admitted characters after those of the set. -/
def spread (admits : Char → Bool) (reach : Reach) : Reach where
  start := reach.start
  trail := spreadTrail admits reach.start reach.trail

/-- The positions of one set or the other, for the same name. -/
def union (a b : Reach) : Reach where
  start := a.start || b.start
  trail := List.zipWith (fun x y => (x.1, x.2 || y.2)) a.trail b.trail

/-- Whether the end of the name is in the set. -/
def atEnd (reach : Reach) : Bool :=
  (reach.trail.getLast?.map Prod.snd).getD reach.start

end Reach

/-- The positions after a piece that the item stands for. -/
def Item.advance (item : Item) (reach : Reach) : Reach :=
  match item with
  | star => reach.spread (· ≠ '/')
  | doubleStar => reach.spread (· ≠ '\n')
  | atom a .once => reach.step a.admits
  | atom a .optional => reach.union (reach.step a.admits)
  | atom a .many => (reach.step a.admits).spread a.admits

/-- Whether the glob matches the whole of a name. -/
def accepts (glob : Glob) (name : String) : Bool :=
  (glob.foldl (fun reach item => item.advance reach) (Reach.atStart name.toList)).atEnd

end CiPipeline.Glob

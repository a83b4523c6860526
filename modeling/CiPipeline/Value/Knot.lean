import CiPipeline.Value

/-!
Collections that hold themselves. A knot is opened by putting it wherever its content speaks of it, so that
what is taken out of a collection speaks of nothing outside; `opened_list` and `opened_mapping` say that
other collections are open already.
-/

namespace CiPipeline.Value

mutual

/-- A value with another one put where it speaks of the knot with a mark. -/
def tie (mark : Nat) (whole : Value) : Value → Value
  | list items => list (tieItems mark whole items)
  | pair first second => pair (tie mark whole first) (tie mark whole second)
  | mapping entries => mapping (tieEntries mark whole entries)
  | knot inner content => knot inner (if inner = mark then content else tie mark whole content)
  | again inner => if inner = mark then whole else again inner
  | null => null
  | bool b => bool b
  | int n => int n
  | float x => float x
  | nan m => nan m
  | time t => time t
  | text s => text s
  | bytes codes => bytes codes
  | set items => set items

/-- Some items with a value put where they speak of a knot. -/
def tieItems (mark : Nat) (whole : Value) : List Value → List Value
  | [] => []
  | item :: rest => tie mark whole item :: tieItems mark whole rest

/-- Some entries with a value put where they speak of a knot; their keys never do. -/
def tieEntries (mark : Nat) (whole : Value) : List (Value × Value) → List (Value × Value)
  | [] => []
  | (key, value) :: rest => (key, tie mark whole value) :: tieEntries mark whole rest

end

/-- A value as it is from outside: the collection that a knot is. -/
def opened : Value → Value
  | knot mark content => tie mark (knot mark content) content
  | value => value

/-- The items of a list. -/
def listed? (value : Value) : Option (List Value) :=
  match value.opened with
  | list items => some items
  | _ => none

/-- The values in a list, a pair or a set, in order. -/
def members? (value : Value) : Option (List Value) :=
  match value.opened with
  | list items | set items => some items
  | pair first second => some [first, second]
  | _ => none

/-- The entries of a mapping. -/
def entries? (value : Value) : Option (List (Value × Value)) :=
  match value.opened with
  | mapping entries => some entries
  | _ => none

@[simp] theorem opened_list (items : List Value) : (list items).opened = list items := rfl

@[simp] theorem opened_mapping (entries : List (Value × Value)) :
    (mapping entries).opened = mapping entries := rfl

@[simp] theorem listed?_list (items : List Value) : (list items).listed? = some items := rfl

@[simp] theorem members?_list (items : List Value) : (list items).members? = some items := rfl

@[simp] theorem entries?_mapping (entries : List (Value × Value)) :
    (mapping entries).entries? = some entries := rfl

mutual

/-- The marks of the knots around a value of which it speaks. -/
def loose : Value → List Nat
  | list items => looseItems items
  | pair first second => loose first ++ loose second
  | mapping entries => looseEntries entries
  | knot mark content => (loose content).filter (· ≠ mark)
  | again mark => [mark]
  | null | bool _ | int _ | float _ | nan _ | time _ | text _ | bytes _ | set _ => []

/-- The marks of which some items speak. -/
def looseItems : List Value → List Nat
  | [] => []
  | item :: rest => loose item ++ looseItems rest

/-- The marks of which the values of some entries speak. -/
def looseEntries : List (Value × Value) → List Nat
  | [] => []
  | (_, value) :: rest => loose value ++ looseEntries rest

end

/-- A collection with a mark: a knot if it speaks of itself or of others around it. -/
def knotted (mark : Nat) (content : Value) : Value :=
  if content.loose.isEmpty then content else knot mark content

end CiPipeline.Value

import CiPipeline.Calendar
import CiPipeline.Text.Quoted

/-!
Document values: scalars and collections as a decoded document holds them, and the text that each of them
has where a setting needs one. A collection may hold itself; it is a knot then.
-/

namespace CiPipeline

open CiPipeline.Number (Binary64)

/--
A value of a decoded document. The keys of a mapping are scalars, and so are the items of a set. Inside the
content of a knot, `again` with its mark stands for the knot.
-/
inductive Value
  | null
  | bool (b : Bool)
  | int (n : Int)
  | float (x : Binary64)
  /-- What is no number, and is the same as others only where they have its mark. -/
  | nan (mark : Nat)
  | time (t : CalendarTime)
  | text (s : String)
  | bytes (codes : List Nat)
  | list (items : List Value)
  | pair (first second : Value)
  | set (items : List Value)
  | mapping (entries : List (Value × Value))
  | knot (mark : Nat) (content : Value)
  | again (mark : Nat)
  deriving Repr, Inhabited

namespace Value

/-- The text of a truth value. -/
def boolText (b : Bool) : String :=
  if b then "True" else "False"

/-- The text of an integer, in decimal. -/
def intText (n : Int) : String :=
  String.ofList ((if n < 0 then ['-'] else []) ++ Nat.toDigits 10 n.natAbs)

/-- What is written in place of a collection inside its own text. -/
def ellipsis : Value → String
  | mapping _ => "\x7b...\x7d"
  | _ => "[...]"

mutual

/-- The text of a value inside another one, given the knots around it and what stands for them in there. -/
def quotedWithin (around : List (Nat × String)) : Value → String
  | null => "None"
  | bool b => boolText b
  | int n => intText n
  | float x => x.text
  | nan _ => Binary64.nan.text
  | time t => t.quoted
  | text s => Text.quoted s
  | bytes codes => Text.quotedBytes codes
  | list items => "[" ++ ", ".intercalate (quotedItems around items) ++ "]"
  | pair first second => "(" ++ quotedWithin around first ++ ", " ++ quotedWithin around second ++ ")"
  | set [] => "set()"
  | set (item :: items) => "\x7b" ++ ", ".intercalate (quotedItems around (item :: items)) ++ "\x7d"
  | mapping entries => "\x7b" ++ ", ".intercalate (quotedEntries around entries) ++ "\x7d"
  | knot mark content =>
    (around.lookup mark).getD (quotedWithin ((mark, content.ellipsis) :: around) content)
  | again mark => (around.lookup mark).getD ""

/-- The quoted texts of some values. -/
def quotedItems (around : List (Nat × String)) : List Value → List String
  | [] => []
  | item :: rest => quotedWithin around item :: quotedItems around rest

/-- The quoted texts of some entries, each with its key before a colon. -/
def quotedEntries (around : List (Nat × String)) : List (Value × Value) → List String
  | [] => []
  | (key, value) :: rest =>
    (quotedWithin around key ++ ": " ++ quotedWithin around value) :: quotedEntries around rest

end

/-- The text of a value as it stands inside others: texts are quoted there. -/
def quoted (value : Value) : String :=
  quotedWithin [] value

/-- The text of a value that stands alone: a text is itself, and a time is written as it is read. -/
def asText : Value → String
  | text s => s
  | time t => t.text
  | value => quoted value

/-- The integer of a value that counts: truth values count as one and zero. -/
def asInt? : Value → Option Int
  | bool b => some (if b then 1 else 0)
  | int n => some n
  | _ => none

/--
Whether two scalars are one key of a mapping. Numbers and truth values are compared by what they count,
so `1`, `true` and `1.0` are one key. Pairs of scalars are compared part by part.
-/
def sameKey : Value → Value → Bool
  | null, null => true
  | text a, text b => a == b
  | bytes a, bytes b => a == b
  | time a, time b => a.sameTime b
  | nan a, nan b => a == b
  | pair a b, pair c d => sameKey a c && sameKey b d
  | float a, float b => a.sameValue b
  | float a, b => (asInt? b).any a.isInt
  | a, float b => (asInt? a).any b.isInt
  | a, b =>
    match asInt? a, asInt? b with
    | some m, some n => m == n
    | _, _ => false

/-- Some entries with one value written: in the place of its key, or at the end. -/
def writeEntry (key value : Value) : List (Value × Value) → List (Value × Value)
  | [] => [(key, value)]
  | (k, old) :: rest =>
    if sameKey k key then (k, value) :: rest else (k, old) :: writeEntry key value rest

/-- Some entries written one after the other, so that each key has one value. -/
def writeEntries (entries : List (Value × Value)) : List (Value × Value) :=
  entries.foldl (fun written entry => writeEntry entry.1 entry.2 written) []

/-- A mapping from some entries, written one after the other. -/
def ofEntries (entries : List (Value × Value)) : Value :=
  mapping (writeEntries entries)

/-- A mapping with textual keys. -/
def ofFields (fields : List (String × Value)) : Value :=
  ofEntries (fields.map fun (name, value) => (text name, value))

/-- The value of a textual key among some entries. -/
def field? (name : String) : List (Value × Value) → Option Value
  | [] => none
  | (text key, value) :: rest => if key = name then some value else field? name rest
  | _ :: rest => field? name rest

end Value
end CiPipeline

import CiPipeline.Value

/-!
Document values as JSON text in ASCII: on one line, or with every item on a line of its own. Keys are
written by their text, and so is what JSON has no form for.
-/

namespace CiPipeline.Value

/-- A unit of sixteen bits, by its code. -/
def jsonUnit (n : Nat) : List Char :=
  '\\' :: 'u' :: Text.hexDigits 4 n

/-- One character inside a JSON text. -/
def jsonChar (c : Char) : List Char :=
  let code := Text.codeOf c
  if c = Text.doubleQuote ∨ c = '\\' then ['\\', c]
  else if c = '\n' then ['\\', 'n']
  else if c = '\r' then ['\\', 'r']
  else if c = '\t' then ['\\', 't']
  else if code = 0x08 then ['\\', 'b']
  else if code = 0x0c then ['\\', 'f']
  else if 0x20 ≤ code ∧ code < 0x7f then [c]
  else if code < 0x10000 then jsonUnit code
  else
    let rest := code - 0x10000
    jsonUnit (0xd800 + rest / 0x400) ++ jsonUnit (0xdc00 + rest % 0x400)

/-- A text in JSON. -/
def jsonText (s : String) : String :=
  String.ofList (Text.doubleQuote :: s.toList.flatMap jsonChar ++ [Text.doubleQuote])

/-- A number in JSON, and the usual names of what is no number. -/
def jsonFloat : Number.Binary64 → String
  | .nan => "NaN"
  | .infinite negative => if negative then "-Infinity" else "Infinity"
  | x => x.text

/-- How the items of a list or mapping are set apart: on one line, or indented on lines of their own. -/
inductive JsonLayout
  | line
  | indented (depth : Nat)

namespace JsonLayout

/-- The layout inside an item. -/
def inner : JsonLayout → JsonLayout
  | line => line
  | indented depth => indented (depth + 1)

/-- A line feed and the indentation of a depth. -/
def newLine (depth : Nat) : String :=
  "\n" ++ String.ofList (List.replicate (2 * depth) ' ')

/-- Items between two brackets; an empty list of them stays on its line. -/
def enclose (layout : JsonLayout) (before after : String) (items : List String) : String :=
  match layout, items with
  | _, [] => before ++ after
  | line, items => before ++ ", ".intercalate items ++ after
  | indented depth, items =>
    before ++ newLine (depth + 1) ++ ("," ++ newLine (depth + 1)).intercalate items ++
      newLine depth ++ after

end JsonLayout

mutual

/-- A value in JSON. -/
def json (layout : JsonLayout) : Value → String
  | null => "null"
  | bool b => if b then "true" else "false"
  | int n => intText n
  | float x => jsonFloat x
  | time t => jsonText t.text
  | text s => jsonText s
  | nan _ => jsonFloat .nan
  | list items => layout.enclose "[" "]" (jsonItems layout.inner items)
  | mapping entries => layout.enclose "\x7b" "\x7d" (jsonEntries layout.inner entries)
  | value => jsonText value.asText

/-- Some items in JSON. -/
def jsonItems (layout : JsonLayout) : List Value → List String
  | [] => []
  | item :: rest => json layout item :: jsonItems layout rest

/-- Some entries in JSON. -/
def jsonEntries (layout : JsonLayout) : List (Value × Value) → List String
  | [] => []
  | (key, value) :: rest =>
    (jsonText key.asText ++ ": " ++ json layout value) :: jsonEntries layout rest

end

end CiPipeline.Value

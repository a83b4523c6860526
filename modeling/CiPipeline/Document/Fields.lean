import CiPipeline.Document.Scalar
import CiPipeline.Table
import CiPipeline.Value.Knot

/-!
Readings of the collections of a document: lists, mappings with names as keys, and objects, which are
mappings of a fixed set of fields.
-/

namespace CiPipeline

/-- The step of the way that a key of a mapping is: an index of 64 bits, or its text. -/
def Value.place (key : Value) : Place :=
  match key, key.asInt? with
  | .text s, _ => .field (Text.withoutHalves s)
  | key, some n =>
    if Document.fitsInt64 n then .index n
    else if Number.isTooLong n then .field "<unprintable int object>"
    else .field key.quoted
  | key, none => .field key.quoted

namespace Document

variable {α : Type}

/-- The entries of a mapping in a document. -/
abbrev Fields := List (Value × Value)

/-- A value that may be null. -/
def optional (read : Value → Reading α) : Value → Reading (Option α)
  | .null => .meaning none
  | value => some <$> read value

/-- The items of a list, each read at its index. -/
def readItems (read : Value → Reading α) (items : List Value) : Reading (List α) :=
  .all (items.zipIdx.map fun (item, index) => (read item).inside (.index index))

/-- A list; a set and a pair are read as one. -/
def listOf (read : Value → Reading α) (value : Value) : Reading (List α) :=
  match value.members? with
  | some items => readItems read items
  | none => .fail .listType

/-- A reading of several parts, of which there must be one. -/
def requireSome (reading : Reading (List α)) : Reading (List α) :=
  reading.andThen fun parts => if parts.isEmpty then .fail .tooShort else .meaning parts

/-- A reading of several entries, of which there must be one. -/
def requireEntry (reading : Reading (Table String α)) : Reading (Table String α) :=
  reading.andThen fun table => if table.entries.isEmpty then .fail .tooShort else .meaning table

/-- One entry of a mapping whose keys are names. -/
def readNamed (read : Value → Reading α) (key value : Value) : Reading (String × α) :=
  let name := (readText key).inside (.field "[key]")
  ((Prod.mk <$> name).seq (read value)).inside key.place

/-- A mapping whose keys are names. Of keys that are one name the last gives the value. -/
def mappingOf (read : Value → Reading α) (value : Value) : Reading (Table String α) :=
  match value.entries? with
  | some entries => Table.ofList <$> .all (entries.map fun (key, value) => readNamed read key value)
  | none => .fail .dictType

/-- A mapping as variables: keys and values of any kind count by their text. -/
def readVariables (value : Value) : Reading (Table String String) :=
  match value.entries? with
  | some entries =>
    if Value.anyEntryTooLong entries then .fail .valueTooLong
    else .meaning (.ofList (entries.map fun (key, value) => (key.asText, value.asText)))
  | none => .fail .dictType

/-- A field that must be there. -/
def required (name : String) (read : Value → Reading α) (fields : Fields) : Reading α :=
  (((Value.field? name fields).map read).getD (.fail .missing)).inside (.field name)

/-- A field with a meaning to fall back on where it is absent. -/
def defaulted (name : String) (fallback : α) (read : Value → Reading α) (fields : Fields) :
    Reading α :=
  match Value.field? name fields with
  | some value => (read value).inside (.field name)
  | none => .meaning fallback

/-- The issue of a key that is no field. Bytes are one only beside the same name as a text. -/
def stranger? (known : List String) (fields : Fields) (key : Value) : Option Issue :=
  let isField := fun name => known.contains name && (Value.field? name fields).isSome
  match readText key with
  | .meaning name => if isField name then none else some ⟨[key.place], .extraForbidden⟩
  | .refused _ => some ⟨[key.place], .invalidKey⟩

/-- The issues of the keys that are no field of an object. -/
def strangers (known : List String) (fields : Fields) : List Issue :=
  fields.filterMap fun (key, _) => stranger? known fields key

/-- Whether a key is a text that no bytes hold. -/
def isUnnameable : Value → Bool
  | .text s => Text.hasHalf s
  | _ => false

/-- An object with some known fields. One with a key that cannot be a name is not looked at further. -/
def objectOf (known : Fields → List String) (read : Fields → Reading α) (value : Value) : Reading α :=
  match value.entries? with
  | some fields =>
    if fields.any fun entry => isUnnameable entry.1 then .fail .stringUnicode
    else (read fields).alongside (strangers (known fields) fields)
  | none => .fail .modelType

end Document
end CiPipeline

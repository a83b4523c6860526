import CiPipeline.Yaml.Block
import CiPipeline.Yaml.Property

/-!
The tokens of a text in YAML. Indentation is told by tokens of its own, so that nothing after this has to
look at columns.
-/

namespace CiPipeline.Yaml

/-- A token. -/
inductive Token
  | directive (content : Directive)
  | documentStart
  | documentEnd
  | blockSequence
  | blockMapping
  | blockEnd
  | entry
  | key
  | value
  | openSequence
  | closeSequence
  | openMapping
  | closeMapping
  | comma
  /-- A name for the node that follows. -/
  | anchor (name : String)
  /-- The node that has a name. -/
  | reference (name : String)
  | tag (written : WrittenTag)
  /-- A scalar; one in plain style is resolved by its form, any other is a text. -/
  | scalar (text : String) (plain : Bool)
  /-- The text cannot be read from here on. -/
  | faulty (fault : Fault)
  deriving DecidableEq, Repr

end CiPipeline.Yaml

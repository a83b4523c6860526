import CiPipeline.Glob.Match

/-!
Filters of ref names. A filter is a list of patterns, each a glob that a leading `!` negates; the last
pattern that matches a name decides, and a name that none matches is refused.
-/

namespace CiPipeline

/-- The rule that a pattern text writes: whether it is negated, and its glob. -/
def readRule (text : String) : Except PatternError (Bool × Glob) :=
  match text.toList with
  | '!' :: rest => (Glob.parse (String.ofList rest)).map (true, ·)
  | _ => (Glob.parse text).map (false, ·)

/-- A pattern: its text, together with the rule that the text writes. -/
structure RefPattern where
  text : String
  rule : Bool × Glob
  readRule_eq : readRule text = .ok rule
  deriving DecidableEq

namespace RefPattern

/-- The pattern that a text writes. -/
def ofText (text : String) : Except PatternError RefPattern :=
  match h : readRule text with
  | .ok rule => .ok ⟨text, rule, h⟩
  | .error error => .error error

/-- Whether the pattern takes names out rather than in. -/
def isNegated (pattern : RefPattern) : Bool :=
  pattern.rule.1

/-- Whether the glob of the pattern matches a name. -/
def accepts (pattern : RefPattern) (name : String) : Bool :=
  pattern.rule.2.accepts name

theorem ofText_text (pattern : RefPattern) : ofText pattern.text = .ok pattern := by
  obtain ⟨text, rule, h⟩ := pattern
  unfold ofText
  split
  · next rule' h' =>
    have : rule' = rule := Except.ok.inj (h'.symm.trans h)
    subst this
    rfl
  · next error h' => exact absurd (h'.symm.trans h) (by simp)

theorem text_of_ofText {text : String} {pattern : RefPattern} (h : ofText text = .ok pattern) :
    pattern.text = text := by
  unfold ofText at h
  split at h
  · cases h; rfl
  · simp at h

end RefPattern

/-- A filter: its patterns in order. -/
structure RefFilter where
  patterns : List RefPattern
  deriving DecidableEq

namespace RefFilter

/-- The filter that some pattern texts write; the first malformed one is reported. -/
def ofTexts (texts : List String) : Except PatternError RefFilter :=
  (texts.mapM RefPattern.ofText).map (⟨·⟩)

/-- The texts of the patterns. -/
def texts (filter : RefFilter) : List String :=
  filter.patterns.map RefPattern.text

/-- Whether the filter admits a name: the last pattern that matches decides. -/
def accepts (filter : RefFilter) (name : String) : Bool :=
  filter.patterns.foldl
    (fun admitted pattern => if pattern.accepts name then !pattern.isNegated else admitted) false

end RefFilter
end CiPipeline

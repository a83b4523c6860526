import CiPipeline.Proofs.Condition.Grammar

/-!
The expression of a condition, read again. Its tokens are written down beside its text: the text is
split into them, and they derive the condition. Every condition stands there as a term, since joins are
put between parentheses; so none of them is taken apart by what stands around it.
-/

namespace CiPipeline.Condition

/-- The texts that stand between quotes in the expression of a condition, as far as it is given them. -/
def arguments : Condition → List String
  | refMatches pattern _ => [pattern.text]
  | startsWith lead => [lead]
  | and left right => left.arguments ++ right.arguments
  | or left right => left.arguments ++ right.arguments
  | not inner => inner.arguments
  | _ => []

/-- No argument holds the quote that encloses it. -/
def Quotable (condition : Condition) : Prop :=
  ∀ argument ∈ condition.arguments, Text.singleQuote ∉ argument.toList

instance (condition : Condition) : Decidable condition.Quotable :=
  inferInstanceAs (Decidable (∀ argument ∈ condition.arguments, _))

/-- The tokens of a call without argument. -/
def callTokens (name : String) : List Token :=
  [.word name, .mark .openParen, .mark .closeParen]

/-- The tokens of a call with an argument. -/
def callTokensWith (name argument : String) : List Token :=
  [.word name, .mark .openParen, .quoted argument, .mark .closeParen]

/-- The tokens of two terms that are joined between parentheses. -/
def joinTokens (join : Mark) (left right : List Token) : List Token :=
  .mark .openParen :: (left ++ .mark join :: right ++ [.mark .closeParen])

/-- The tokens of the expression of a condition. -/
def textTokens : Condition → List Token
  | status function => callTokens function.name
  | isTag => callTokens "is_tag"
  | isBranch => callTokens "is_branch"
  | refMatches pattern branchOnly =>
    callTokensWith (if branchOnly then "branch" else "ref_matches") pattern.text
  | startsWith lead => callTokensWith "starts_with" lead
  | eventIs kind => callTokensWith "event" kind.name
  | and left right => joinTokens .and left.textTokens right.textTokens
  | or left right => joinTokens .or left.textTokens right.textTokens
  | not inner => .mark .not :: inner.textTokens

/-! ## The tokens derive the condition -/

section Derivation

variable {name argument : String} {condition left right : Condition}

theorem derives_callTokens (hname : nullary? name = some condition) :
    Derives ReadsAs .term (callTokens name) condition :=
  .call hname rfl rfl

theorem derives_callTokensWith {build : String → Except ConditionError.Fault Condition}
    (hname : unary? name = some build) (hargument : build argument = .ok condition) :
    Derives ReadsAs .term (callTokensWith name argument) condition :=
  .callWith hname rfl hargument rfl

theorem ofPatternText_text (pattern : RefPattern) (branchOnly : Bool) :
    ofPatternText branchOnly pattern.text = .ok (refMatches pattern branchOnly) := by
  rw [ofPatternText, RefPattern.ofText_text]

theorem ofKindName_name (kind : EventKind) : ofKindName kind.name = .ok (eventIs kind) := by
  rw [ofKindName, EventKind.ofName?_name]

theorem derives_textTokens (condition : Condition) :
    Derives ReadsAs .term condition.textTokens condition := by
  induction condition with
  | status function => cases function <;> exact derives_callTokens rfl
  | isTag => exact derives_callTokens rfl
  | isBranch => exact derives_callTokens rfl
  | refMatches pattern branchOnly =>
      have hargument := ofPatternText_text pattern branchOnly
      cases branchOnly with
      | false => exact derives_callTokensWith rfl hargument
      | true => exact derives_callTokensWith rfl hargument
  | startsWith lead => exact derives_callTokensWith rfl rfl
  | eventIs kind => exact derives_callTokensWith rfl (ofKindName_name kind)
  | and left right hleft hright =>
      exact .group (.ofConjunction (.conjoin (.ofTerm hleft) hright)) rfl
  | or left right hleft hright =>
      exact .group (.disjoin (.ofConjunction (.ofTerm hleft)) (.ofTerm hright)) rfl
  | not inner hinner => exact .negate hinner

end Derivation

/-! ## The text is split into the tokens -/

/-- The names of the functions that conditions call. -/
def functionNames : List String :=
  ["success", "failure", "always", "cancelled", "is_tag", "is_branch", "ref_matches", "branch",
    "starts_with", "event"]

section Splitting

variable {name argument : String} {rest : List Char} {more : List Token}

theorem spells_mark (mark : Mark) (hrest : Spells rest more) :
    Spells (mark.text.toList ++ rest) (.mark mark :: more) :=
  .token (.mark mark) trivial hrest

theorem spells_enclosed (hargument : Text.singleQuote ∉ argument.toList)
    (hrest : Spells rest more) :
    Spells ((Text.enclosed argument).toList ++ rest) (.quoted argument :: more) := by
  have hwritten : Token.Written (.quoted (String.ofList argument.toList))
      (Text.singleQuote :: (argument.toList ++ [Text.singleQuote])) :=
    .quoted (Or.inl rfl) hargument
  rw [String.ofList_toList] at hwritten
  rw [Text.enclosed, String.toList_ofList]
  exact .token hwritten trivial hrest

theorem written_word {first : Char} {tail : List Char} (hfirst : isWordStart first = true)
    (htail : tail.all isWordPart = true) :
    Token.Written (.word (String.ofList (first :: tail))) (first :: tail) :=
  .word hfirst fun _ => List.all_eq_true.mp htail _

/-- The names of functions are words. -/
theorem written_functionName {name : String} (hname : name ∈ functionNames) :
    Token.Written (.word name) name.toList := by
  simp only [functionNames, List.mem_cons, List.not_mem_nil, or_false] at hname
  rcases hname with rfl | rfl | rfl | rfl | rfl | rfl | rfl | rfl | rfl | rfl <;>
    exact written_word (by decide) (by decide)

/-- A word is over where a parenthesis opens. -/
theorem spells_opened (hname : Token.Written (.word name) name.toList)
    (hrest : Spells rest more) :
    Spells (name.toList ++ '(' :: rest) (.word name :: .mark .openParen :: more) := by
  refine .token hname ?_ (spells_mark .openParen hrest)
  rintro c ⟨⟩
  decide

theorem spells_callTokens {call : String} (hname : name ∈ functionNames)
    (hcall : call.toList = name.toList ++ ['(', ')']) (hrest : Spells rest more) :
    Spells (call.toList ++ rest) (callTokens name ++ more) := by
  have hclosed := spells_opened (written_functionName hname) (spells_mark .closeParen hrest)
  rw [hcall, List.append_assoc]
  exact hclosed

theorem spells_callTokensWith {opening : String} (hname : name ∈ functionNames)
    (hopening : opening.toList = name.toList ++ ['('])
    (hargument : Text.singleQuote ∉ argument.toList) (hrest : Spells rest more) :
    Spells ((opening ++ Text.enclosed argument ++ ")").toList ++ rest)
      (callTokensWith name argument ++ more) := by
  have hclosed := spells_opened (written_functionName hname)
    (spells_enclosed hargument (spells_mark .closeParen hrest))
  simp only [String.toList_append, hopening, List.append_assoc]
  exact hclosed

theorem spells_joinTokens {join : Mark} {glue left right : String} {first second : List Token}
    (hglue : glue.toList = ' ' :: (join.text.toList ++ [' ']))
    (hleft : ∀ {rest more}, Spells rest more → Spells (left.toList ++ rest) (first ++ more))
    (hright : ∀ {rest more}, Spells rest more → Spells (right.toList ++ rest) (second ++ more))
    (hrest : Spells rest more) :
    Spells (("(" ++ left ++ glue ++ right ++ ")").toList ++ rest)
      (joinTokens join first second ++ more) := by
  have hclosed := hright (spells_mark .closeParen hrest)
  have hjoined := spells_mark join (.blank (c := ' ') (by decide) hclosed)
  have hopened := spells_mark .openParen (hleft (.blank (c := ' ') (by decide) hjoined))
  simp only [joinTokens, String.toList_append, hglue, List.append_assoc, List.cons_append,
    List.nil_append]
  exact hopened

/-- The text of a condition is split into its tokens, whatever follows. -/
theorem spells_text {condition : Condition} (hquotable : condition.Quotable)
    (hrest : Spells rest more) :
    Spells (condition.text.toList ++ rest) (condition.textTokens ++ more) := by
  induction condition generalizing rest more with
  | status function =>
      rw [text, textTokens]
      cases function <;> exact spells_callTokens (by decide) rfl hrest
  | isTag => exact spells_callTokens (by decide) rfl hrest
  | isBranch => exact spells_callTokens (by decide) rfl hrest
  | refMatches pattern branchOnly =>
      have hpattern := hquotable pattern.text List.mem_cons_self
      rw [text, textTokens]
      cases branchOnly <;> exact spells_callTokensWith (by decide) rfl hpattern hrest
  | startsWith lead =>
      have hlead := hquotable lead List.mem_cons_self
      rw [text, textTokens]
      exact spells_callTokensWith (by decide) rfl hlead hrest
  | eventIs kind =>
      have hkind : Text.singleQuote ∉ kind.name.toList := by cases kind <;> decide
      rw [text, textTokens]
      exact spells_callTokensWith (by decide) rfl hkind hrest
  | and left right hleft hright =>
      obtain ⟨hquoteLeft, hquoteRight⟩ := List.forall_mem_append.mp hquotable
      rw [text, textTokens]
      exact spells_joinTokens rfl (hleft hquoteLeft) (hright hquoteRight) hrest
  | or left right hleft hright =>
      obtain ⟨hquoteLeft, hquoteRight⟩ := List.forall_mem_append.mp hquotable
      rw [text, textTokens]
      exact spells_joinTokens rfl (hleft hquoteLeft) (hright hquoteRight) hrest
  | not inner hinner =>
      have hnegated := spells_mark .not (hinner hquotable hrest)
      rw [text, String.toList_append, List.append_assoc]
      exact hnegated

end Splitting

/-- The expression of a condition whose arguments hold no single quote is read as just that condition. -/
theorem parse_text {condition : Condition} (hquotable : condition.Quotable) :
    parse condition.text = .ok condition := by
  have hspells := spells_text hquotable .nil
  rw [List.append_nil, List.append_nil] at hspells
  exact parse_eq_ok_iff.mpr
    ⟨condition.textTokens, hspells, .ofConjunction (.ofTerm condition.derives_textTokens)⟩

/-- A pattern for the tags of versions. -/
def versionPattern : RefPattern where
  text := "v*"
  rule := (false, [.atom (.char 'v') .once, .star])
  readRule_eq := by cbv

/-- Negations and both joins, with an argument that holds marks, the other quote and a line feed. -/
def nestedCondition : Condition :=
  .or (.not (.not (.and (.refMatches versionPattern true) (.startsWith "a) ||\n\"b"))))
    (.or (.eventIs .pullRequest) (.status .always))

theorem parse_text_nested :
    nestedCondition.Quotable ∧
      nestedCondition.text =
        "(!!(branch('v*') && starts_with('a) ||\n\"b')) || (event('pull_request') || always()))" ∧
      parse nestedCondition.text = .ok nestedCondition :=
  ⟨by decide, by cbv, parse_text (by decide)⟩

end CiPipeline.Condition

import CiPipeline.Proofs.Condition.Grammar

/-!
How an expression may be laid out. A layout puts blanks around written tokens, and at least one between
two words. Reading gives back the tokens of every layout, whatever its blanks are, and fails at every text
that no layout has.
-/

namespace CiPipeline.Condition

/-- A token as it stands in an expression: behind a gap of blanks, in one of the ways to write it. -/
structure PlacedToken where
  gap : List Char
  token : Token
  lexeme : List Char
  blank_gap : ∀ c ∈ gap, Text.isBlank c = true
  written : token.Written lexeme

/-- A token that goes on as long as characters of words follow. -/
def Token.IsWord : Token → Prop
  | word _ => True
  | _ => False

/-- Of two neighbours that are both words the second one stands behind a blank. -/
def PlacedToken.Apart (first second : PlacedToken) : Prop :=
  first.token.IsWord → second.token.IsWord → second.gap ≠ []

/-- Tokens of an expression with the blanks around them. -/
structure Layout where
  placed : List PlacedToken
  /-- The blanks behind the last token. -/
  trail : List Char
  blank_trail : ∀ c ∈ trail, Text.isBlank c = true
  apart : placed.IsChain PlacedToken.Apart

namespace Layout

/-- The text of some placed tokens. -/
def spell (placed : List PlacedToken) (trail : List Char) : List Char :=
  placed.flatMap (fun own => own.gap ++ own.lexeme) ++ trail

/-- The expression that a layout is. -/
def text (layout : Layout) : String :=
  String.ofList (spell layout.placed layout.trail)

/-- The tokens that are laid out. -/
def tokens (layout : Layout) : List Token :=
  layout.placed.map PlacedToken.token

end Layout

variable {s rest : List Char} {found : List Token}

/-! ## Where words end -/

/-- The codes of the characters that go on with a word. -/
theorem code_of_wordPart {c : Char} (hpart : isWordPart c = true) :
    (48 ≤ c.toNat ∧ c.toNat ≤ 57) ∨ (65 ≤ c.toNat ∧ c.toNat ≤ 122) := by
  simp only [isWordPart, Char.isAlphanum, Char.isDigit, Bool.or_eq_true, Bool.and_eq_true,
    decide_eq_true_eq, UInt32.le_iff_toNat_le] at hpart
  rcases hpart with (halpha | hdigit) | hscore
  · exact Or.inr (code_of_wordStart (by simp [isWordStart, halpha]))
  · exact Or.inl hdigit
  · exact Or.inr (code_of_wordStart (by simp [isWordStart, hscore]))

theorem not_wordPart_of_blank {c : Char} (hblank : Text.isBlank c = true) :
    isWordPart c = false := by
  rw [← Bool.not_eq_true]
  intro hpart
  have hcode := code_of_wordPart hpart
  simp only [Text.isBlank, Text.inRanges, Text.blankRanges, List.any_cons, List.any_nil,
    Bool.or_eq_true, Bool.and_eq_true, decide_eq_true_eq, Bool.or_false] at hblank
  omega

theorem wordPart_of_wordStart {c : Char} (hstart : isWordStart c = true) : isWordPart c = true := by
  rw [isWordStart, Bool.or_eq_true] at hstart
  rw [isWordPart, Char.isAlphanum, Bool.or_eq_true, Bool.or_eq_true]
  exact hstart.imp_left Or.inl

/-- A token begins with a character of words just if it is a word. -/
theorem Token.Written.isWord_iff {token : Token} {c : Char} {more : List Char}
    (hwritten : token.Written (c :: more)) : token.IsWord ↔ isWordPart c = true := by
  generalize hlexeme : c :: more = lexeme at hwritten
  cases hwritten with
  | mark mark =>
      refine iff_of_false id ?_
      cases mark <;> cases hlexeme <;> decide
  | quoted hquote _ =>
      cases hlexeme
      refine iff_of_false id ?_
      rcases hquote with rfl | rfl
      · decide
      · decide
  | word hfirst _ =>
      cases hlexeme
      exact iff_of_true trivial (wordPart_of_wordStart hfirst)

theorem Token.endsBefore_iff {token : Token} :
    token.EndsBefore rest ↔ (token.IsWord → ∀ c ∈ rest.head?, isWordPart c = false) := by
  cases token with
  | word name => exact ⟨fun hends _ => hends, fun hends => hends trivial⟩
  | mark mark => exact iff_of_true trivial False.elim
  | quoted content => exact iff_of_true trivial False.elim

/-- A word ends before blanks, and before a token behind blanks that is set apart from it. -/
theorem PlacedToken.endsBefore_spell {own : PlacedToken} {more : List PlacedToken}
    {trail : List Char} (hapart : (own :: more).IsChain Apart)
    (htrail : ∀ c ∈ trail, Text.isBlank c = true) :
    own.token.EndsBefore (Layout.spell more trail) := by
  rw [Token.endsBefore_iff]
  intro hword c hc
  cases more with
  | nil =>
      have hmem : c ∈ trail := List.mem_of_mem_head? hc
      exact not_wordPart_of_blank (htrail c hmem)
  | cons next more =>
      obtain ⟨first, tail, hlexeme, _⟩ := next.written.exists_cons
      cases hgap : next.gap with
      | cons blank gap =>
          have hhead : blank = c := by simpa [Layout.spell, hgap] using hc
          have hblank : Text.isBlank blank = true := next.blank_gap blank (by simp [hgap])
          exact not_wordPart_of_blank (hhead ▸ hblank)
      | nil =>
          have hhead : first = c := by simpa [Layout.spell, hgap, hlexeme] using hc
          have hnext : ¬ next.token.IsWord := fun hnext =>
            (List.isChain_cons_cons.mp hapart).1 hword hnext hgap
          have hwritten := next.written
          rw [hlexeme] at hwritten
          rw [← hhead, ← Bool.not_eq_true]
          exact fun hpart => hnext (hwritten.isWord_iff.mpr hpart)

/-! ## Layouts are what is split into tokens -/

theorem Spells.of_blanks (hblank : ∀ c ∈ s, Text.isBlank c = true) (hrest : Spells rest found) :
    Spells (s ++ rest) found := by
  induction s with
  | nil => exact hrest
  | cons c s ih =>
      apply Spells.blank (hblank c List.mem_cons_self)
      exact ih fun other hother => hblank other (List.mem_cons_of_mem c hother)

theorem spells_spell {placed : List PlacedToken} {trail : List Char}
    (hapart : placed.IsChain PlacedToken.Apart) (htrail : ∀ c ∈ trail, Text.isBlank c = true) :
    Spells (Layout.spell placed trail) (placed.map PlacedToken.token) := by
  induction placed with
  | nil =>
      rw [Layout.spell, List.flatMap_nil, List.nil_append, ← List.append_nil trail]
      exact .of_blanks htrail .nil
  | cons own more ih =>
      have hmore := ih hapart.tail
      have htext : Layout.spell (own :: more) trail =
          own.gap ++ (own.lexeme ++ Layout.spell more trail) := by
        simp [Layout.spell]
      rw [htext, List.map_cons]
      apply Spells.of_blanks own.blank_gap
      exact .token own.written (PlacedToken.endsBefore_spell hapart htrail) hmore

/-- The tokens of a layout are those into which its text is split. -/
theorem Layout.spells (layout : Layout) : Spells layout.text.toList layout.tokens := by
  rw [text, String.toList_ofList]
  exact spells_spell layout.apart layout.blank_trail

/-- A layout with one more blank in front. -/
def Layout.afterBlank (c : Char) (hblank : Text.isBlank c = true) : Layout → Layout
  | ⟨[], trail, htrail, _⟩ => {
      placed := []
      trail := c :: trail
      blank_trail := by simpa [hblank] using htrail
      apart := .nil }
  | ⟨own :: more, trail, htrail, hapart⟩ => {
      placed :=
        { own with
          gap := c :: own.gap
          blank_gap := by simpa [hblank] using own.blank_gap } :: more
      trail := trail
      blank_trail := htrail
      apart := by
        cases more with
        | nil => exact .singleton _
        | cons next more =>
            obtain ⟨hfirst, hrest⟩ := List.isChain_cons_cons.mp hapart
            exact List.isChain_cons_cons.mpr ⟨hfirst, hrest⟩ }

/-- Every text that is split into tokens is a layout of them. -/
theorem Spells.exists_layout (hspells : Spells s found) :
    ∃ layout : Layout, Layout.spell layout.placed layout.trail = s ∧ layout.tokens = found := by
  induction hspells with
  | nil => exact ⟨⟨[], [], by simp, .nil⟩, rfl, rfl⟩
  | @blank c rest found hblank _ ih =>
      obtain ⟨layout, rfl, rfl⟩ := ih
      refine ⟨layout.afterBlank c hblank, ?_, ?_⟩
      · obtain ⟨placed, trail, _, _⟩ := layout
        cases placed with
        | nil => rfl
        | cons own more => rfl
      · obtain ⟨placed, trail, _, _⟩ := layout
        cases placed with
        | nil => rfl
        | cons own more => rfl
  | @token token lexeme rest found hwritten hends _ ih =>
      obtain ⟨⟨placed, trail, htrail, hapart⟩, rfl, rfl⟩ := ih
      have hchain : List.IsChain PlacedToken.Apart
          (⟨[], token, lexeme, by simp, hwritten⟩ :: placed) := by
        cases placed with
        | nil => exact .singleton _
        | cons next more =>
            refine List.isChain_cons_cons.mpr ⟨?_, hapart⟩
            intro hword hnext hgap
            obtain ⟨first, tail, hlexeme, _⟩ := next.written.exists_cons
            have hnextWritten := next.written
            rw [hlexeme] at hnextWritten
            have hpart := hnextWritten.isWord_iff.mp hnext
            have hstop := Token.endsBefore_iff.mp hends hword first
              (by simp [Layout.spell, hgap, hlexeme])
            exact absurd hpart (by simp [hstop])
      exact ⟨⟨_, trail, htrail, hchain⟩, by simp [Layout.spell], rfl⟩

/-- Reading gives some tokens just for the layouts of these tokens. -/
theorem tokens_eq_ok_iff_layout {expression : String} :
    tokens expression = .ok found ↔
      ∃ layout : Layout, layout.text = expression ∧ layout.tokens = found := by
  rw [tokens_eq_ok_iff]
  constructor
  · intro hspells
    obtain ⟨layout, htext, htokens⟩ := hspells.exists_layout
    exact ⟨layout, by rw [Layout.text, htext, String.ofList_toList], htokens⟩
  · rintro ⟨layout, rfl, rfl⟩
    exact layout.spells

/-- Layout does not count. Of tokens that are laid out with any blanks before, between and behind them,
though with one at least between two words, reading gives back just these tokens. A text that is no
layout is refused, and no condition is read from it. -/
theorem tokens_of_layouts :
    (∀ layout : Layout, tokens layout.text = .ok layout.tokens) ∧
    ∀ expression : String, (¬ ∃ layout : Layout, layout.text = expression) ↔
      ∃ position, tokens expression = .error position ∧
        parse expression = .error (.condition ⟨expression, .unexpectedCharacter position⟩) := by
  refine ⟨fun layout => tokens_eq_ok_iff_layout.mpr ⟨layout, rfl, rfl⟩, ?_⟩
  intro expression
  cases htokens : tokens expression with
  | ok found =>
      obtain ⟨layout, htext, _⟩ := tokens_eq_ok_iff_layout.mp htokens
      refine iff_of_false (fun hnone => hnone ⟨layout, htext⟩) ?_
      rintro ⟨position, ⟨⟩, _⟩
  | error position =>
      refine iff_of_true ?_ ⟨position, rfl, by rw [parse, htokens]⟩
      rintro ⟨layout, htext⟩
      cases htokens.symm.trans (tokens_eq_ok_iff_layout.mpr ⟨layout, htext, rfl⟩)

theorem doubleQuote_not_mem : Text.doubleQuote ∉ ['i', 't', Text.singleQuote, 's'] := by
  decide

/-- A word with an ideographic space before it, a quoted text right behind it and two words behind
tabs, with a line feed at the end. -/
def spacedLayout : Layout where
  placed := [
    ⟨[Char.ofNat 0x3000], .word "branch", ['b', 'r', 'a', 'n', 'c', 'h'],
      List.all_eq_true.mp rfl, .word rfl (List.all_eq_true.mp rfl)⟩,
    ⟨[], .quoted "it's", ['"', 'i', 't', Text.singleQuote, 's', '"'],
      List.all_eq_true.mp rfl, .quoted (Or.inr rfl) doubleQuote_not_mem⟩,
    ⟨[], .mark .and, ['&', '&'], List.all_eq_true.mp rfl, .mark .and⟩,
    ⟨['\t'], .word "a", ['a'], List.all_eq_true.mp rfl, .word rfl (List.all_eq_true.mp rfl)⟩,
    ⟨['\t'], .word "b1", ['b', '1'], List.all_eq_true.mp rfl, .word rfl (List.all_eq_true.mp rfl)⟩]
  trail := ['\n']
  blank_trail := List.all_eq_true.mp rfl
  apart := by
    refine .cons_cons ?_ (.cons_cons ?_ (.cons_cons ?_ (.cons_cons ?_ (.singleton _))))
    · exact fun _ hword => hword.elim
    · exact fun hword => hword.elim
    · exact fun hword => hword.elim
    · exact fun _ _ => List.cons_ne_nil _ _

/-- The words of a layout are told apart, and a quote that is not closed leaves no layout. -/
theorem tokens_of_layouts_spaced :
    tokens spacedLayout.text =
      .ok [.word "branch", .quoted "it's", .mark .and, .word "a", .word "b1"] ∧
    ¬ ∃ layout : Layout, layout.text = "success() && 'a" := by
  obtain ⟨hlaid, hother⟩ := tokens_of_layouts
  exact ⟨hlaid spacedLayout, (hother "success() && 'a").mpr ⟨12, by cbv, by cbv⟩⟩

end CiPipeline.Condition

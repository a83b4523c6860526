import CiPipeline.RefFilter
import CiPipeline.Proofs.Except

/-!
Which pattern of a filter decides. A filter is read from its texts one by one, and the answer for a name
changes only at a pattern that matches it, so the last of these decides: the others may be left out, or
put in anywhere.
-/

namespace CiPipeline

namespace RefPattern

/-- A text writes a negated pattern: it begins with the mark of negation. -/
def IsNegated (text : String) : Prop :=
  text.toList.head? = some '!'

instance (text : String) : Decidable (IsNegated text) :=
  inferInstanceAs (Decidable (text.toList.head? = some '!'))

/-- The text of the glob of a pattern: what follows the mark of negation, if there is one. -/
def globText (text : String) : String :=
  if IsNegated text then String.ofList text.toList.tail else text

/-- The glob that a pattern text writes matches a name. -/
def Matches (text name : String) : Prop :=
  ∃ glob, Glob.parse (globText text) = .ok glob ∧ glob.accepts name = true

theorem any_toOption_iff {text name : String} :
    (Glob.parse (globText text)).toOption.any (·.accepts name) = true ↔ Matches text name := by
  constructor
  · exact exists_of_any_toOption
  · rintro ⟨glob, hglob, haccepts⟩
    rw [hglob]
    exact haccepts

instance (text name : String) : Decidable (Matches text name) :=
  decidable_of_iff _ any_toOption_iff

theorem readRule_globText (text : String) :
    readRule text = (Glob.parse (globText text)).map (decide (IsNegated text), ·) := by
  unfold readRule
  split
  · next rest htext =>
      have hnegated : IsNegated text := by simp [IsNegated, htext]
      rw [globText, if_pos hnegated, htext, decide_eq_true hnegated, List.tail_cons]
  · next hother =>
      have hplain : ¬ IsNegated text := by
        intro hnegated
        obtain ⟨rest, htext⟩ := List.head?_eq_some_iff.mp hnegated
        exact hother rest htext
      rw [globText, if_neg hplain, decide_eq_false hplain]

/-- A text writes a pattern if a glob stands behind the mark of negation. -/
theorem exists_text_eq {text : String} {glob : Glob}
    (hglob : Glob.parse (globText text) = .ok glob) : ∃ pattern : RefPattern, pattern.text = text := by
  have hrule : readRule text = .ok (decide (IsNegated text), glob) := by
    rw [readRule_globText, hglob]
    rfl
  exact ⟨⟨text, _, hrule⟩, rfl⟩

section Pattern

variable (pattern : RefPattern)

theorem exists_parse_globText : ∃ glob, Glob.parse (globText pattern.text) = .ok glob ∧
    (decide (IsNegated pattern.text), glob) = pattern.rule := by
  apply map_eq_ok_iff.mp
  rw [← readRule_globText]
  exact pattern.readRule_eq

theorem isNegated_eq_true_iff : pattern.isNegated = true ↔ IsNegated pattern.text := by
  obtain ⟨glob, _, hrule⟩ := pattern.exists_parse_globText
  rw [isNegated, ← hrule, decide_eq_true_eq]

theorem accepts_eq_true_iff (name : String) :
    pattern.accepts name = true ↔ Matches pattern.text name := by
  obtain ⟨glob, hglob, hrule⟩ := pattern.exists_parse_globText
  rw [Matches, accepts, ← hrule, hglob]
  simp

end Pattern
end RefPattern

namespace RefFilter

open RefPattern

/-- A filter is read from the texts of its patterns, and from no other ones. -/
theorem ofTexts_eq_ok_iff {texts : List String} {filter : RefFilter} :
    ofTexts texts = .ok filter ↔ texts = filter.texts := by
  constructor
  · intro hfilter
    obtain ⟨patterns, hpatterns, rfl⟩ := map_eq_ok_iff.mp hfilter
    have htexts : patterns.map RefPattern.text = texts.map id :=
      map_eq_map_of_mapM (fun _ _ => text_of_ofText) hpatterns
    rw [List.map_id] at htexts
    exact htexts.symm
  · rintro rfl
    obtain ⟨patterns⟩ := filter
    apply map_eq_ok_iff.mpr
    refine ⟨patterns, ?_, rfl⟩
    rw [texts]
    induction patterns with
    | nil => rfl
    | cons pattern rest ih =>
        rw [List.map_cons, List.mapM_cons, ofText_text, ok_bind, ih]
        rfl

/-! ## Patterns one after the other -/

/-- Some pattern takes a name in, and none behind it takes it out again. -/
def TakesIn (name : String) (patterns : List RefPattern) : Prop :=
  ∃ before pattern after, patterns = before ++ pattern :: after ∧
    pattern.isNegated = false ∧ pattern.accepts name = true ∧
    ∀ later ∈ after, later.isNegated = true → ¬ later.accepts name = true

section Patterns

variable {before after patterns : List RefPattern} {pattern : RefPattern} {name : String}

theorem takesIn_cons_iff :
    TakesIn name (pattern :: patterns) ↔
      TakesIn name patterns ∨ pattern.isNegated = false ∧ pattern.accepts name = true ∧
        ∀ later ∈ patterns, later.isNegated = true → ¬ later.accepts name = true := by
  constructor
  · rintro ⟨before, taking, after, heq, htakes⟩
    cases before with
    | nil =>
        cases heq
        exact Or.inr htakes
    | cons first before =>
        cases heq
        exact Or.inl ⟨before, taking, after, rfl, htakes⟩
  · rintro (⟨before, taking, after, rfl, htakes⟩ | htakes)
    · exact ⟨pattern :: before, taking, after, rfl, htakes⟩
    · exact ⟨[], pattern, patterns, rfl, htakes⟩

/-- The answer after some patterns, for what was the answer before them: a pattern takes the name in,
or it was in already and none takes it out. -/
theorem foldl_eq_true_iff {admitted : Bool} :
    patterns.foldl (fun admitted pattern =>
        if pattern.accepts name then !pattern.isNegated else admitted) admitted = true ↔
      TakesIn name patterns ∨ admitted = true ∧
        ∀ later ∈ patterns, later.isNegated = true → ¬ later.accepts name = true := by
  induction patterns generalizing admitted with
  | nil => simp [TakesIn]
  | cons pattern rest ih =>
      rw [List.foldl_cons, ih, takesIn_cons_iff, or_assoc]
      apply or_congr Iff.rfl
      rw [List.forall_mem_cons]
      by_cases hmatches : pattern.accepts name = true
      · cases hnegated : pattern.isNegated <;> simp [hmatches]
      · simp [hmatches]

/-- A pattern that does not match may stand anywhere. -/
theorem accepts_insert (hmiss : ¬ pattern.accepts name = true) :
    (RefFilter.mk (before ++ pattern :: after)).accepts name =
      (RefFilter.mk (before ++ after)).accepts name := by
  simp only [accepts, List.foldl_append, List.foldl_cons, if_neg hmiss]

theorem accepts_eq_true_iff :
    (RefFilter.mk patterns).accepts name = true ↔ TakesIn name patterns := by
  rw [accepts, foldl_eq_true_iff]
  simp

/-- What is said of the patterns, said of their texts. -/
theorem takesIn_iff_texts :
    TakesIn name patterns ↔
      ∃ before text after, patterns.map RefPattern.text = before ++ text :: after ∧
        ¬ IsNegated text ∧ Matches text name ∧
        ∀ later ∈ after, ¬ (IsNegated later ∧ Matches later name) := by
  simp only [TakesIn, List.map_eq_append_iff, List.map_eq_cons_iff]
  constructor
  · rintro ⟨before, pattern, after, rfl, hplain, htakes, hlater⟩
    refine ⟨before.map RefPattern.text, pattern.text, after.map RefPattern.text,
      ⟨before, _, rfl, rfl, pattern, after, rfl, rfl, rfl⟩, ?_, ?_, ?_⟩
    · simp [← pattern.isNegated_eq_true_iff, hplain]
    · exact (pattern.accepts_eq_true_iff name).mp htakes
    · rw [List.forall_mem_map]
      intro later hmem
      rw [← later.isNegated_eq_true_iff, ← later.accepts_eq_true_iff, not_and]
      exact hlater later hmem
  · rintro ⟨_, _, _, ⟨before, _, rfl, rfl, pattern, after, rfl, rfl, rfl⟩, hplain, htakes, hlater⟩
    refine ⟨before, pattern, after, rfl, ?_, (pattern.accepts_eq_true_iff name).mpr htakes, ?_⟩
    · rwa [← Bool.not_eq_true, pattern.isNegated_eq_true_iff]
    · intro later hmem
      have hkeeps := hlater later.text (List.mem_map_of_mem hmem)
      rwa [← later.isNegated_eq_true_iff, ← later.accepts_eq_true_iff, not_and] at hkeeps

end Patterns

/-- The last pattern that matches decides: a filter admits a name exactly if one of its texts takes the
name in and no later one takes it out. So a text that does not match the name may be put in anywhere or
left out, and a filter of negated texts alone admits no name. -/
theorem last_matching_pattern_decides {texts : List String} {filter : RefFilter}
    (hfilter : ofTexts texts = .ok filter) (name : String) :
    (filter.accepts name = true ↔
      ∃ before text after, texts = before ++ text :: after ∧
        ¬ IsNegated text ∧ Matches text name ∧
        ∀ later ∈ after, ¬ (IsNegated later ∧ Matches later name)) ∧
    (∀ before after text glob, texts = before ++ after →
      Glob.parse (globText text) = .ok glob → ¬ Matches text name →
      ∃ longer, ofTexts (before ++ text :: after) = .ok longer ∧
        longer.accepts name = filter.accepts name) ∧
    (∀ before after text, texts = before ++ text :: after → ¬ Matches text name →
      ∃ shorter, ofTexts (before ++ after) = .ok shorter ∧
        shorter.accepts name = filter.accepts name) ∧
    ((∀ text ∈ texts, IsNegated text) → filter.accepts name = false) := by
  obtain ⟨patterns⟩ := filter
  obtain rfl := ofTexts_eq_ok_iff.mp hfilter
  have hdecides : (RefFilter.mk patterns).accepts name = true ↔
      ∃ before text after, patterns.map RefPattern.text = before ++ text :: after ∧
        ¬ IsNegated text ∧ Matches text name ∧
        ∀ later ∈ after, ¬ (IsNegated later ∧ Matches later name) :=
    accepts_eq_true_iff.trans takesIn_iff_texts
  refine ⟨hdecides, ?_, ?_, ?_⟩
  · intro before after text glob heq hglob hmiss
    obtain ⟨front, behind, rfl, rfl, rfl⟩ := List.map_eq_append_iff.mp heq
    obtain ⟨pattern, rfl⟩ := exists_text_eq hglob
    refine ⟨⟨front ++ pattern :: behind⟩, ofTexts_eq_ok_iff.mpr (by simp [texts]), ?_⟩
    exact accepts_insert (mt (pattern.accepts_eq_true_iff name).mp hmiss)
  · intro before after text heq hmiss
    obtain ⟨front, behind, rfl, rfl, hbehind⟩ := List.map_eq_append_iff.mp heq
    obtain ⟨pattern, rest, rfl, rfl, rfl⟩ := List.map_eq_cons_iff.mp hbehind
    refine ⟨⟨front ++ rest⟩, ofTexts_eq_ok_iff.mpr (by simp [texts]), ?_⟩
    exact (accepts_insert (mt (pattern.accepts_eq_true_iff name).mp hmiss)).symm
  · intro hnegated
    rw [← Bool.not_eq_true, hdecides]
    rintro ⟨before, text, after, heq, hplain, _⟩
    apply hplain
    apply hnegated
    rw [texts, heq]
    simp

/-- Releases without the early ones, but with one of these, and the main branch. -/
def releaseTexts : List String :=
  ["release/**", "!release/**-alpha", "release/2.0-alpha", "main"]

theorem last_matching_pattern_decides_release :
    ∃ filter, ofTexts releaseTexts = .ok filter ∧ filter.accepts "release/2.0-alpha" = true ∧
      (∃ shorter, ofTexts ["release/**", "!release/**-alpha", "release/2.0-alpha"] = .ok shorter ∧
        shorter.accepts "release/2.0-alpha" = true) ∧
      ∃ longer, ofTexts ("!v*" :: releaseTexts) = .ok longer ∧
        longer.accepts "release/2.0-alpha" = true := by
  have hread : (ofTexts releaseTexts).toOption.isSome = true := by decide
  obtain ⟨filter, hsome⟩ := Option.isSome_iff_exists.mp hread
  have hfilter : ofTexts releaseTexts = .ok filter := toOption_eq_some_iff.mp hsome
  obtain ⟨hdecides, hinsert, hdelete, _⟩ :=
    last_matching_pattern_decides hfilter "release/2.0-alpha"
  have hadmits : filter.accepts "release/2.0-alpha" = true := by
    apply hdecides.mpr
    exact ⟨["release/**", "!release/**-alpha"], "release/2.0-alpha", ["main"], rfl, by decide,
      by decide, by decide⟩
  refine ⟨filter, hfilter, hadmits, ?_, ?_⟩
  · obtain ⟨shorter, hshorter, hsame⟩ :=
      hdelete ["release/**", "!release/**-alpha", "release/2.0-alpha"] [] "main" rfl (by decide)
    exact ⟨shorter, hshorter, hsame.trans hadmits⟩
  · obtain ⟨longer, hlonger, hsame⟩ := hinsert [] releaseTexts "!v*" _ rfl rfl (by decide)
    exact ⟨longer, hlonger, hsame.trans hadmits⟩

end RefFilter
end CiPipeline

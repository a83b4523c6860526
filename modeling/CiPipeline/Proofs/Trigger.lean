import CiPipeline.Trigger

/-!
One ref in its spellings. A qualified ref is decided like its bare name with the type said beside it, and
a bare name without a type runs if it would run as a tag or as a branch. The branch that a pull request
aims at may be qualified or bare.
-/

namespace CiPipeline

/-- A name that nothing qualifies. -/
structure IsBare (name : String) : Prop where
  not_tag : ¬ tagLead.toList <+: name.toList
  not_branch : ¬ branchLead.toList <+: name.toList

instance (name : String) : Decidable (IsBare name) :=
  decidable_of_iff (¬ tagLead.toList <+: name.toList ∧ ¬ branchLead.toList <+: name.toList)
    ⟨fun h => ⟨h.1, h.2⟩, fun h => ⟨h.1, h.2⟩⟩

variable {name : String}

namespace Event

/-- The same event for a ref, with the type that is said beside it. -/
def about (event : Event) (ref : String) (refType : Option String) : Event :=
  { event with ref := ref, refType := refType }

/-- The same event with a branch that it aims at. -/
def into (event : Event) (baseRef : String) : Event :=
  { event with baseRef := some baseRef }

variable (event : Event) (refType : Option String)

theorem refStartsWith_eq_true_iff {lead : String} :
    event.refStartsWith lead = true ↔ lead.toList <+: event.ref.toList :=
  List.isPrefixOf_iff_prefix

theorem refStartsWith_append (lead name : String) :
    (event.about (lead ++ name) refType).refStartsWith lead = true := by
  rw [refStartsWith_eq_true_iff, about, String.toList_append]
  exact List.prefix_append _ _

theorem refStartsWith_of_not_prefix {lead ref : String} (hlead : ¬ lead.toList <+: ref.toList) :
    (event.about ref refType).refStartsWith lead = false := by
  rw [← Bool.not_eq_true, refStartsWith_eq_true_iff]
  exact hlead

/-- What qualifies a tag does not stand in front of a qualified branch. -/
theorem not_tagLead_prefix_branch (name : String) :
    ¬ tagLead.toList <+: (branchLead ++ name).toList := by
  rw [String.toList_append]
  intro hprefix
  have hshort : tagLead.toList <+: branchLead.toList :=
    List.prefix_of_prefix_length_le hprefix (List.prefix_append _ _) (by decide)
  exact absurd hshort (by decide)

theorem after?_append (lead name : String) :
    Text.after? lead.toList (lead ++ name).toList = some name.toList :=
  Text.after?_eq_some_iff.mpr String.toList_append

theorem shortRef_tag (name : String) :
    (event.about (tagLead ++ name) refType).shortRef = name := by
  simp only [shortRef, about, after?_append, String.ofList_toList]

theorem shortRef_branch (name : String) :
    (event.about (branchLead ++ name) refType).shortRef = name := by
  have hno := Text.after?_eq_none_iff.mpr (not_tagLead_prefix_branch name)
  simp only [shortRef, about, hno, after?_append, String.ofList_toList]

theorem shortRef_bare (hbare : IsBare name) : (event.about name refType).shortRef = name := by
  have htag := Text.after?_eq_none_iff.mpr hbare.not_tag
  have hbranch := Text.after?_eq_none_iff.mpr hbare.not_branch
  simp only [shortRef, about, htag, hbranch]

end Event

/-! ## Pushes -/

namespace PushTrigger

variable (rule : PushTrigger) {event : Event} {refType : Option String}

theorem candidates_tag (name : String) :
    rule.candidates (event.about (tagLead ++ name) refType) = [(.tag, rule.tags)] := by
  have htag : (event.about (tagLead ++ name) refType).isTag = true := by
    rw [Event.isTag, Event.refStartsWith_append, Bool.true_or]
  rw [candidates, if_pos htag]

/-- A type that calls a qualified branch a tag is believed. -/
theorem candidates_branch (name : String) (hrefType : refType ≠ some "tag") :
    rule.candidates (event.about (branchLead ++ name) refType) = [(.branch, rule.branches)] := by
  have htag : (event.about (branchLead ++ name) refType).isTag = false := by
    rw [Event.isTag, Event.refStartsWith_of_not_prefix _ _ (Event.not_tagLead_prefix_branch name),
      Bool.false_or]
    exact beq_eq_false_iff_ne.mpr hrefType
  have hbranch : (event.about (branchLead ++ name) refType).isBranch = true := by
    rw [Event.isBranch, Event.refStartsWith_append, Bool.true_or]
  rw [candidates, if_neg (by simp [htag]), if_pos hbranch]

theorem candidates_bare (hbare : IsBare name) :
    rule.candidates (event.about name refType) =
      if refType = some "tag" then [(.tag, rule.tags)]
      else if refType = some "branch" then [(.branch, rule.branches)]
      else [(.tag, rule.tags), (.branch, rule.branches)] := by
  have htag : (event.about name refType).isTag = (refType == some "tag") := by
    rw [Event.isTag, Event.refStartsWith_of_not_prefix _ _ hbare.not_tag, Bool.false_or]
    rfl
  have hbranch : (event.about name refType).isBranch = (refType == some "branch") := by
    rw [Event.isBranch, Event.refStartsWith_of_not_prefix _ _ hbare.not_branch, Bool.false_or]
    rfl
  simp only [candidates, htag, hbranch, beq_iff_eq]

/-- A push is decided by its short name and by the filters that this is held against. -/
theorem decide_congr {other : Event} (hname : event.shortRef = other.shortRef)
    (hcandidates : rule.candidates event = rule.candidates other) :
    rule.decide event = rule.decide other := by
  rw [decide, decide, hname, hcandidates]

theorem runs_firstMatch_iff {candidates : List (RefNoun × Option RefFilter)} :
    (firstMatch name candidates).runs = true ↔
      ∃ candidate ∈ candidates, ∃ filter, candidate.2 = some filter ∧ filter.accepts name = true := by
  induction candidates with
  | nil => simp [firstMatch, TriggerDecision.runs]
  | cons first rest ih =>
      obtain ⟨noun, _ | filter⟩ := first
      · simp [firstMatch, ih]
      · rw [firstMatch]
        split
        · next haccepts => simp [TriggerDecision.runs, haccepts]
        · next hrefuses => simp [ih, hrefuses]

/-- A push that is held against the filters of two others runs if one of them does. -/
theorem runs_decide_iff {first second : Event} (hfirst : event.shortRef = first.shortRef)
    (hsecond : event.shortRef = second.shortRef)
    (hcandidates : rule.candidates event = rule.candidates first ++ rule.candidates second) :
    (rule.decide event).runs = true ↔
      (rule.decide first).runs = true ∨ (rule.decide second).runs = true := by
  unfold decide
  split
  · simp [TriggerDecision.runs]
  · simp only [runs_firstMatch_iff, hcandidates, ← hfirst, ← hsecond, List.mem_append,
      or_and_right, exists_or]

end PushTrigger

/-! ## Pull requests -/

namespace PullRequestTrigger

theorem targetName_branch (name : String) : targetName (branchLead ++ name) = name := by
  simp only [targetName, Event.after?_append, String.ofList_toList]

theorem targetName_bare (hbare : IsBare name) : targetName name = name := by
  simp only [targetName, Text.after?_eq_none_iff.mpr hbare.not_branch]

/-- The branch that a pull request aims at counts by its name. -/
theorem decide_into (rule : PullRequestTrigger) (event : Event) (hbare : IsBare name)
    (hname : name ≠ "") :
    rule.decide (event.into name) = rule.decide (event.into (branchLead ++ name)) := by
  have hsome : name.isEmpty = false := by simpa using hname
  have hlong : (branchLead ++ name).isEmpty = false := by simp [hname]
  simp only [decide, Event.into, hsome, hlong, targetName_branch, targetName_bare hbare]

end PullRequestTrigger

/-! ## All rules -/

namespace TriggerRules

/-- The rules say something of events of a kind. -/
def Declares (rules : TriggerRules) : EventKind → Prop
  | .push => rules.push.isSome = true
  | .pullRequest => rules.pullRequest.isSome = true
  | .manual => rules.manual = true

section Rules

variable (rules : TriggerRules) {event other : Event}

/-- Events of one kind that no rule tells apart are decided alike. -/
theorem decide_congr (hkind : event.kind = other.kind)
    (hpush : ∀ rule : PushTrigger, rule.decide event = rule.decide other)
    (hpullRequest : ∀ rule : PullRequestTrigger, rule.decide event = rule.decide other) :
    rules.decide event = rules.decide other := by
  simp only [decide, hkind, hpush, hpullRequest]

/-- Refs with one short name that are held against the same filters are decided alike; only pushes
look at the ref at all. -/
theorem decide_about_congr {ref own : String} {refType ownType : Option String}
    (hname : (event.about ref refType).shortRef = (event.about own ownType).shortRef)
    (hcandidates : ∀ rule : PushTrigger,
      rule.candidates (event.about ref refType) = rule.candidates (event.about own ownType)) :
    rules.decide (event.about ref refType) = rules.decide (event.about own ownType) :=
  rules.decide_congr rfl (fun rule => rule.decide_congr hname (hcandidates rule)) fun _ => rfl

theorem runs_bare_iff (event : Event) (hbare : IsBare name) :
    (rules.decide (event.about name none)).runs = true ↔
      (rules.decide (event.about name (some "tag"))).runs = true ∨
        (rules.decide (event.about name (some "branch"))).runs = true := by
  cases hkind : event.kind with
  | push =>
      cases hrule : rules.push with
      | none => simp [decide, Event.about, hkind, hrule, TriggerDecision.runs]
      | some rule =>
          have hruns : (rule.decide (event.about name none)).runs = true ↔
              (rule.decide (event.about name (some "tag"))).runs = true ∨
                (rule.decide (event.about name (some "branch"))).runs = true := by
            refine rule.runs_decide_iff ?_ ?_ ?_
            · simp only [Event.shortRef_bare _ _ hbare]
            · simp only [Event.shortRef_bare _ _ hbare]
            · simp [rule.candidates_bare hbare]
          simpa [decide, Event.about, hkind, hrule] using hruns
  | pullRequest => simp [decide, Event.about, hkind, PullRequestTrigger.decide]
  | manual => simp [decide, Event.about, hkind]

theorem runs_of_not_declares (hundeclared : ¬ rules.Declares event.kind) :
    (rules.decide event).runs = false := by
  cases hkind : event.kind with
  | push =>
      have hnone : rules.push = none := by simpa [Declares, hkind] using hundeclared
      simp [decide, hkind, hnone, TriggerDecision.runs]
  | pullRequest =>
      have hnone : rules.pullRequest = none := by simpa [Declares, hkind] using hundeclared
      simp [decide, hkind, hnone, TriggerDecision.runs]
  | manual =>
      have hoff : rules.manual = false := by simpa [Declares, hkind] using hundeclared
      simp [decide, hkind, hoff, TriggerDecision.runs]

end Rules

/-- The spelling of a ref does not count. A qualified tag is decided like the bare name that is said to be
a tag, and a qualified branch like the bare name that is said to be a branch; what is said beside a
qualified ref changes nothing, unless a branch is called a tag. The bare name without a type runs if it
runs as one of the two. Where a pull request aims may be qualified or bare, and its ref and the type of
it do not count. What is not declared never runs. -/
theorem spellings_decided_alike (rules : TriggerRules) (event : Event) {name : String}
    (hbare : IsBare name) :
    (∀ refType, rules.decide (event.about (tagLead ++ name) refType) =
      rules.decide (event.about name (some "tag"))) ∧
    (∀ refType, refType ≠ some "tag" →
      rules.decide (event.about (branchLead ++ name) refType) =
        rules.decide (event.about name (some "branch"))) ∧
    ((rules.decide (event.about name none)).runs = true ↔
      (rules.decide (event.about name (some "tag"))).runs = true ∨
        (rules.decide (event.about name (some "branch"))).runs = true) ∧
    (name ≠ "" →
      rules.decide (event.into name) = rules.decide (event.into (branchLead ++ name))) ∧
    (event.kind = .pullRequest → ∀ ref refType,
      rules.decide (event.about ref refType) = rules.decide event) ∧
    (¬ rules.Declares event.kind → (rules.decide event).runs = false) := by
  refine ⟨?_, ?_, rules.runs_bare_iff event hbare, ?_, ?_, rules.runs_of_not_declares⟩
  · intro refType
    apply rules.decide_about_congr
    · rw [Event.shortRef_tag, Event.shortRef_bare _ _ hbare]
    · intro rule
      rw [rule.candidates_tag, rule.candidates_bare hbare, if_pos rfl]
  · intro refType hrefType
    apply rules.decide_about_congr
    · rw [Event.shortRef_branch, Event.shortRef_bare _ _ hbare]
    · intro rule
      rw [rule.candidates_branch name hrefType, rule.candidates_bare hbare,
        if_neg (by decide), if_pos rfl]
  · intro hname
    exact rules.decide_congr rfl (fun _ => rfl) fun rule => rule.decide_into event hbare hname
  · intro hkind ref refType
    simp only [decide, Event.about, hkind, PullRequestTrigger.decide]

/-- Tags of releases run, but not those of candidates for one, and so do pull requests into a filtered
branch. -/
def releaseRules : TriggerRules where
  push := some { tags := (RefFilter.ofTexts ["v*", "!v*-rc"]).toOption }
  pullRequest := some { branches := (RefFilter.ofTexts ["main"]).toOption }

/-- A push, about whatever ref. -/
def somePush : Event where
  kind := .push
  ref := ""

/-- A pull request, into whatever branch. -/
def openedRequest : Event where
  kind := .pullRequest
  ref := "topic"
  action := some "opened"

theorem spellings_decided_alike_release :
    releaseRules.decide (somePush.about (tagLead ++ "v2") (some "branch")) =
        .pushMatched .tag "v2" ["v*", "!v*-rc"] ∧
      releaseRules.decide (somePush.about (branchLead ++ "v2") none) = .pushUnmatched "v2" ∧
      (releaseRules.decide (somePush.about "v2" none)).runs = true ∧
      releaseRules.decide ((openedRequest.into (branchLead ++ "main")).about "v2" (some "tag")) =
        .pullRequestAdmitted "opened" "main" ∧
      (releaseRules.decide { kind := .manual, ref := "v2" }).runs = false := by
  have hversion : IsBare "v2" := by decide
  have hmain : IsBare "main" := by decide
  obtain ⟨htags, hbranches, hbare, _⟩ := spellings_decided_alike releaseRules somePush hversion
  obtain ⟨_, _, _, hinto, _⟩ := spellings_decided_alike releaseRules openedRequest hmain
  obtain ⟨_, _, _, _, hanyRef, _⟩ :=
    spellings_decided_alike releaseRules (openedRequest.into (branchLead ++ "main")) hmain
  obtain ⟨_, _, _, _, _, hundeclared⟩ :=
    spellings_decided_alike releaseRules { kind := .manual, ref := "v2" } hversion
  refine ⟨?_, ?_, hbare.mpr (Or.inl (by decide)), ?_, hundeclared (by simp [Declares, releaseRules])⟩
  · rw [htags]
    decide
  · rw [hbranches none (by decide)]
    decide
  · rw [hanyRef rfl, ← hinto (by decide)]
    decide

end TriggerRules
end CiPipeline

import CiPipeline.Condition

/-!
What a condition learns of the jobs that are waited for. It asks about them by status functions only,
and these are listed wherever they stand in the condition, below joins and negations. Main statement:
where the answers to the listed questions are the same, so is the value of the condition.
-/

namespace CiPipeline

theorem StatusFunction.mem_all (function : StatusFunction) : function ∈ all := by
  cases function <;> decide

namespace Condition

variable {condition : Condition} {function : StatusFunction}

/-- A condition stands somewhere in another one. -/
inductive Within (part : Condition) : Condition → Prop
  | self : Within part part
  | andLeft {left right : Condition} (hleft : Within part left) : Within part (and left right)
  | andRight {left right : Condition} (hright : Within part right) : Within part (and left right)
  | orLeft {left right : Condition} (hleft : Within part left) : Within part (or left right)
  | orRight {left right : Condition} (hright : Within part right) : Within part (or left right)
  | negated {inner : Condition} (hinner : Within part inner) : Within part (not inner)

theorem mem_statusFunctions_iff :
    function ∈ condition.statusFunctions ↔ condition.mentions function = true := by
  simp [statusFunctions, function.mem_all]

theorem within_of_mentions (hmentions : condition.mentions function = true) :
    (status function).Within condition := by
  induction condition with
  | status own =>
      obtain rfl : own = function := eq_of_beq hmentions
      exact .self
  | and left right hleft hright =>
      rcases Bool.or_eq_true_iff.mp hmentions with hmentions | hmentions
      · exact .andLeft (hleft hmentions)
      · exact .andRight (hright hmentions)
  | or left right hleft hright =>
      rcases Bool.or_eq_true_iff.mp hmentions with hmentions | hmentions
      · exact .orLeft (hleft hmentions)
      · exact .orRight (hright hmentions)
  | not inner hinner => exact .negated (hinner hmentions)
  | isTag | isBranch | refMatches _ _ | startsWith _ | eventIs _ => cases hmentions

theorem mentions_of_within (hwithin : (status function).Within condition) :
    condition.mentions function = true := by
  induction hwithin with
  | self => exact beq_self_eq_true function
  | andLeft _ hleft | orLeft _ hleft => exact Bool.or_eq_true_iff.mpr (Or.inl hleft)
  | andRight _ hright | orRight _ hright => exact Bool.or_eq_true_iff.mpr (Or.inr hright)
  | negated _ hinner => exact hinner

/-- Two states of affairs upstream that answer alike to every status function of a condition give it
the same value. -/
theorem holds_congr {event : Event} {outcomes others : List Outcome}
    (hagree : ∀ function, condition.mentions function = true →
      function.holds outcomes = function.holds others) :
    condition.holds event outcomes = condition.holds event others := by
  induction condition with
  | status own => exact hagree own (beq_self_eq_true own)
  | and left right hleft hright | or left right hleft hright =>
      have hfirst := hleft fun function hmentions =>
        hagree function (Bool.or_eq_true_iff.mpr (Or.inl hmentions))
      have hsecond := hright fun function hmentions =>
        hagree function (Bool.or_eq_true_iff.mpr (Or.inr hmentions))
      simp only [holds, hfirst, hsecond]
  | not inner hinner => exact congrArg _ (hinner hagree)
  | isTag | isBranch | refMatches _ _ | startsWith _ | eventIs _ => rfl

/-- The status functions of a condition are those that stand in it, and all that it learns of the jobs
waited for are their answers: of two lists of outcomes on which these agree, both make it true or none
does. So without status functions the outcomes play no part; and without `cancelled()` it is enough
that the lists agree on success and on failure, as far as these are asked for. -/
theorem statusFunctions_are_only_channel (condition : Condition) (event : Event) :
    (∀ function, function ∈ condition.statusFunctions ↔ (status function).Within condition) ∧
    (∀ outcomes others,
      (∀ function ∈ condition.statusFunctions,
        function.holds outcomes = function.holds others) →
      condition.holds event outcomes = condition.holds event others) ∧
    (condition.statusFunctions = [] →
      ∀ outcomes others, condition.holds event outcomes = condition.holds event others) ∧
    (.cancelled ∉ condition.statusFunctions → ∀ outcomes others,
      (.success ∈ condition.statusFunctions →
        (outcomes.all (· == .success)) = others.all (· == .success)) →
      (.failure ∈ condition.statusFunctions →
        (outcomes.any (· == .failure)) = others.any (· == .failure)) →
      condition.holds event outcomes = condition.holds event others) := by
  have hchannel : ∀ outcomes others,
      (∀ function ∈ condition.statusFunctions,
        function.holds outcomes = function.holds others) →
      condition.holds event outcomes = condition.holds event others := by
    intro outcomes others hagree
    exact holds_congr fun function hmentions =>
      hagree function (mem_statusFunctions_iff.mpr hmentions)
  refine ⟨?_, hchannel, ?_, ?_⟩
  · intro function
    rw [mem_statusFunctions_iff]
    exact ⟨within_of_mentions, mentions_of_within⟩
  · intro hnone outcomes others
    apply hchannel
    simp [hnone]
  · intro hcancelled outcomes others hsuccess hfailure
    apply hchannel
    intro function hfunction
    cases function with
    | always => rfl
    | cancelled => exact absurd hfunction hcancelled
    | failure => exact hfailure hfunction
    | success => exact hsuccess hfunction

/-- Something failed, or not everything succeeded. -/
def unrest : Condition :=
  or (status .failure) (not (status .success))

/-- On a manual request the unrest after a cancelled job is that after a skipped one, and a condition
on the ref is what it is after any jobs. -/
theorem statusFunctions_are_only_channel_unrest :
    unrest.statusFunctions = [.failure, .success] ∧
      (unrest.holds ⟨.manual, "main", none, none, none⟩ [.success, .cancelled] =
        unrest.holds ⟨.manual, "main", none, none, none⟩ [.skipped]) ∧
      (isTag.holds ⟨.manual, "main", none, none, none⟩ [.failure] =
        isTag.holds ⟨.manual, "main", none, none, none⟩ []) := by
  have hfunctions : unrest.statusFunctions = [.failure, .success] := by decide
  have hcancelled : .cancelled ∉ unrest.statusFunctions := by decide
  obtain ⟨_, _, _, hunrest⟩ := statusFunctions_are_only_channel unrest _
  obtain ⟨_, _, hignores, _⟩ := statusFunctions_are_only_channel isTag _
  exact ⟨hfunctions, hunrest hcancelled _ _ (fun _ => rfl) (fun _ => rfl), hignores rfl _ _⟩

end Condition
end CiPipeline

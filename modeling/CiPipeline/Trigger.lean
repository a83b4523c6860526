import CiPipeline.Event
import CiPipeline.RefFilter
import CiPipeline.Text.Order

/-!
Which events start a run. What is not declared is refused, and each decision names the rule or the
lack of one that made it.
-/

namespace CiPipeline

/-- Filters of pushes. Without any filter every push is admitted. -/
structure PushTrigger where
  tags : Option RefFilter := none
  branches : Option RefFilter := none
  deriving DecidableEq

/-- The actions on a pull request that count where none are declared. -/
def defaultPullRequestTypes : List String := ["opened", "reopened", "synchronize"]

/-- Filters of pull requests: their actions, and the branches they aim at. -/
structure PullRequestTrigger where
  branches : Option RefFilter := none
  types : List String := defaultPullRequestTypes
  deriving DecidableEq

/-- The events that start a run of a pipeline. -/
structure TriggerRules where
  push : Option PushTrigger := none
  pullRequest : Option PullRequestTrigger := none
  manual : Bool := false
  deriving DecidableEq

/-- What a ref names. -/
inductive RefNoun
  | tag
  | branch
  deriving DecidableEq, Repr

/-- The word for what a ref names. -/
def RefNoun.word : RefNoun → String
  | tag => "tag"
  | branch => "branch"

/-- A decision about an event, with what it rests on. -/
inductive TriggerDecision
  | manualEnabled
  | manualUndeclared
  | pushUndeclared
  | pushUnfiltered
  | pushMatched (noun : RefNoun) (name : String) (patterns : List String)
  | pushUnmatched (name : String)
  | pullRequestUndeclared
  | actionRefused (action : Option String) (types : List String)
  | targetMissing
  | targetUnmatched (target : String)
  | pullRequestAdmitted (action : String) (target : String)
  deriving DecidableEq, Repr

namespace TriggerDecision

/-- Whether the event starts a run. -/
def runs : TriggerDecision → Bool
  | manualEnabled | pushUnfiltered | pushMatched .. | pullRequestAdmitted .. => true
  | _ => false

/-- The wording of a decision. -/
def reason : TriggerDecision → String
  | manualEnabled => "manual runs enabled"
  | manualUndeclared => "manual runs not declared"
  | pushUndeclared => "push events not declared"
  | pushUnfiltered => "push declared without filters"
  | pushMatched noun name patterns =>
    noun.word ++ " " ++ Text.quoted name ++ " matches " ++ Text.quotedList patterns
  | pushUnmatched name => "ref " ++ Text.quoted name ++ " matches no push filter"
  | pullRequestUndeclared => "pull_request events not declared"
  | actionRefused action types =>
    "action " ++ (action.map Text.quoted).getD "None" ++ " not in " ++
      Text.quotedList (Text.sortedSet types)
  | targetMissing => "pull request has no target branch"
  | targetUnmatched target => "target " ++ Text.quoted target ++ " matches no branch filter"
  | pullRequestAdmitted action target =>
    "pull request " ++ action ++ " into " ++ Text.quoted target

end TriggerDecision

namespace PushTrigger

/-- The filters that a ref is held against: that of its type, or both where the type is unknown. -/
def candidates (rule : PushTrigger) (event : Event) : List (RefNoun × Option RefFilter) :=
  if event.isTag then [(.tag, rule.tags)]
  else if event.isBranch then [(.branch, rule.branches)]
  else [(.tag, rule.tags), (.branch, rule.branches)]

/-- The decision of the first filter that admits a name. -/
def firstMatch (name : String) : List (RefNoun × Option RefFilter) → TriggerDecision
  | [] => .pushUnmatched name
  | (noun, some filter) :: rest =>
    if filter.accepts name then .pushMatched noun name filter.texts else firstMatch name rest
  | (_, none) :: rest => firstMatch name rest

/-- The decision about a push. -/
def decide (rule : PushTrigger) (event : Event) : TriggerDecision :=
  if rule.tags.isNone && rule.branches.isNone then .pushUnfiltered
  else firstMatch event.shortRef (rule.candidates event)

end PushTrigger

namespace PullRequestTrigger

/-- The name of the branch that a pull request aims at. -/
def targetName (baseRef : String) : String :=
  match Text.after? branchLead.toList baseRef.toList with
  | some name => String.ofList name
  | none => baseRef

/-- The decision about a pull request. -/
def decide (rule : PullRequestTrigger) (event : Event) : TriggerDecision :=
  match event.action with
  | none => .actionRefused none rule.types
  | some action =>
    if !rule.types.contains action then .actionRefused (some action) rule.types
    else
      match event.baseRef with
      | none => .targetMissing
      | some baseRef =>
        if baseRef.isEmpty then .targetMissing
        else
          let target := targetName baseRef
          match rule.branches with
          | some filter =>
            if filter.accepts target then .pullRequestAdmitted action target
            else .targetUnmatched target
          | none => .pullRequestAdmitted action target

end PullRequestTrigger

namespace TriggerRules

/-- The decision about an event. -/
def decide (rules : TriggerRules) (event : Event) : TriggerDecision :=
  match event.kind with
  | .push => (rules.push.map (·.decide event)).getD .pushUndeclared
  | .pullRequest => (rules.pullRequest.map (·.decide event)).getD .pullRequestUndeclared
  | .manual => if rules.manual then .manualEnabled else .manualUndeclared

end TriggerRules
end CiPipeline

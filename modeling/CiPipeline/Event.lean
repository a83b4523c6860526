import CiPipeline.Text.Substitution

/-!
The event that asks for a run: a push, a pull request or a manual request, with the ref it is about.
A ref may be fully qualified, or bare with its type said beside it.
-/

namespace CiPipeline

/-- What happened to ask for a run. -/
inductive EventKind
  | push
  | pullRequest
  | manual
  deriving DecidableEq, Repr

namespace EventKind

/-- Every kind of event. -/
def all : List EventKind := [push, pullRequest, manual]

/-- The name of a kind, as declarations and reports write it. -/
def name : EventKind → String
  | push => "push"
  | pullRequest => "pull_request"
  | manual => "manual"

/-- The kind with a given name. -/
def ofName? (name : String) : Option EventKind :=
  all.find? fun kind => kind.name == name

theorem ofName?_name (kind : EventKind) : ofName? kind.name = some kind := by
  cases kind <;> decide

end EventKind

/-- What qualifies a tag. -/
def tagLead : String := "refs/tags/"

/-- What qualifies a branch. -/
def branchLead : String := "refs/heads/"

/--
An event. For a pull request `baseRef` is the branch it aims at and `action` what was done to it;
`refType` says whether a bare ref is a tag or a branch.
-/
structure Event where
  kind : EventKind
  ref : String
  baseRef : Option String := none
  action : Option String := none
  refType : Option String := none
  deriving DecidableEq, Repr

namespace Event

/-- Whether the ref begins with a text. -/
def refStartsWith (event : Event) (lead : String) : Bool :=
  lead.toList.isPrefixOf event.ref.toList

/-- The ref is a tag: it is qualified as one, or said to be one. -/
def isTag (event : Event) : Bool :=
  event.refStartsWith tagLead || event.refType == some "tag"

/-- The ref is a branch: it is qualified as one, or said to be one. -/
def isBranch (event : Event) : Bool :=
  event.refStartsWith branchLead || event.refType == some "branch"

/-- The ref without what qualifies it. -/
def shortRef (event : Event) : String :=
  match Text.after? tagLead.toList event.ref.toList with
  | some name => String.ofList name
  | none =>
    match Text.after? branchLead.toList event.ref.toList with
    | some name => String.ofList name
    | none => event.ref

end Event
end CiPipeline

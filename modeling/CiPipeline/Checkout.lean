import CiPipeline.Event
import CiPipeline.Text.Blank
import CiPipeline.Text.Lines
import CiPipeline.Text.Order

/-!
The ref of a checkout: a tag at its head comes before the branch, and the branch before the bare commit.
-/

namespace CiPipeline

/-- Why a checkout does not answer. -/
inductive CheckoutError
  /-- The question has no answer there. -/
  | failed
  /-- Nothing is installed that could answer. -/
  | notInstalled
  deriving DecidableEq, Repr

/-- A checkout, by its answers to questions in words. -/
structure Checkout where
  answer : List String → Except CheckoutError String

namespace Checkout

/-- The answer to a question, without the blanks around it. -/
def ask (checkout : Checkout) (question : List String) : Except CheckoutError String :=
  (checkout.answer question).map Text.strip

/-- The tags at the head, in rising order. -/
def tagsAtHead (checkout : Checkout) : Except CheckoutError (List String) :=
  (checkout.ask ["tag", "--points-at", "HEAD"]).map fun tags => Text.sorted (Text.lines tags)

/-- The branch that is checked out; a detached head has none. -/
def currentBranch (checkout : Checkout) : Except CheckoutError (Option String) :=
  (checkout.ask ["rev-parse", "--abbrev-ref", "HEAD"]).map fun name =>
    if name = "HEAD" then none else some name

/-- The ref that is checked out. -/
def currentRef (checkout : Checkout) : Except CheckoutError String := do
  match (← checkout.tagsAtHead).getLast? with
  | some tag => return tagLead ++ tag
  | none =>
    match (← checkout.currentBranch).filter (!·.isEmpty) with
    | some branch => return branchLead ++ branch
    | none => checkout.ask ["rev-parse", "HEAD"]

end Checkout
end CiPipeline

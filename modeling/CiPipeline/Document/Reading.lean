import CiPipeline.Document.Issue

/-!
Readings of the parts of a document. Parts are read side by side, so that a refused document names
everything that is wrong with it; `seq_eq_meaning_iff` says that a whole has a meaning only when each of
its parts has one.
-/

namespace CiPipeline

/-- What reading a part of a document gives: what the part means, or the issues found in it. -/
inductive Reading (α : Type)
  | meaning (a : α)
  | refused (found : List Issue)

namespace Reading

variable {α β : Type}

/-- The issues of a reading. -/
def issues : Reading α → List Issue
  | meaning _ => []
  | refused found => found

/-- Two readings side by side: the issues of both count. -/
def seq : Reading (α → β) → Reading α → Reading β
  | meaning f, meaning a => meaning (f a)
  | f, x => refused (f.issues ++ x.issues)

instance : Applicative Reading where
  pure := meaning
  seq f x := seq f (x ())

theorem seq_eq_meaning_iff {f : Reading (α → β)} {x : Reading α} {b : β} :
    f.seq x = meaning b ↔ ∃ g a, f = meaning g ∧ x = meaning a ∧ g a = b := by
  cases f <;> cases x <;> simp [seq]

/-- One issue, at the place that is being read. -/
def fail (kind : Issue.Kind) : Reading α :=
  refused [⟨[], kind⟩]

/-- The same reading seen from one step further out. -/
def inside (step : Place) : Reading α → Reading α
  | meaning a => meaning a
  | refused found => refused (found.map (Issue.inside step))

/-- A reading beside issues that were found apart from it. -/
def alongside (reading : Reading α) : List Issue → Reading α
  | [] => reading
  | found => refused (found ++ reading.issues)

/-- A second look at what a part means, taken only where the part has a meaning. -/
def andThen (reading : Reading α) (look : α → Reading β) : Reading β :=
  match reading with
  | meaning a => look a
  | refused found => refused found

/-- Some readings side by side. -/
def all : List (Reading α) → Reading (List α)
  | [] => meaning []
  | reading :: rest => (List.cons <$> reading).seq (all rest)

end Reading
end CiPipeline

import CryptoVaultHub.Semantics.ProcessPool

/-!
# Statements that can fail

A statement of a service reads and changes the shared state in one atomic
operation. It can take effect and return, throw without effect, or take effect
and throw because its answer was lost. `Statement.perform` gives the three
endings; `Statement.perform_cases` is the one fact about them that invariants
need. `ProcessPool.ofStatements` interleaves services written this way.
-/

namespace CryptoVaultHub

/-- How a statement ends. -/
inductive Ending where
  | done
  | failed
  | lost
deriving DecidableEq

/-- The shared state a statement leaves when it takes effect, and the points at
which its process continues. A process with no further point has ended. -/
structure Statement (Shared Process : Type) where
  after : Shared
  next : Option Process
  thrown : Option Process := none

variable {Shared Process Answer Start : Type}

namespace Statement

/-- One ending of a statement in the state `before`. -/
def perform (statement : Statement Shared Process) (before : Shared) :
    Ending → Shared × Option Process
  | .done => (statement.after, statement.next)
  | .failed => (before, statement.thrown)
  | .lost => (statement.after, statement.thrown)

/-- A statement of one kind of process, as one of a larger kind. -/
def map {Point : Type} (wrap : Point → Process) (statement : Statement Shared Point) :
    Statement Shared Process :=
  { after := statement.after
    next := statement.next.map wrap
    thrown := statement.thrown.map wrap }

/-- A statement of one part of the shared state, in the whole of it. -/
def within {Whole : Type} (put : Shared → Whole) (statement : Statement Shared Process) :
    Statement Whole Process :=
  { after := put statement.after
    next := statement.next
    thrown := statement.thrown }

/-- A statement has its effect and returns or throws, or it throws without effect. -/
theorem perform_cases {statement : Statement Shared Process} {before after : Shared}
    {ending : Ending} {process : Option Process}
    (performed : statement.perform before ending = (after, process)) :
    (after = statement.after ∧ (ending = .done ∧ process = statement.next ∨
        ending = .lost ∧ process = statement.thrown)) ∨
      (ending = .failed ∧ after = before ∧ process = statement.thrown) := by
  rcases ending with _ | _ | _
  · cases performed
    exact .inl ⟨rfl, .inl ⟨rfl, rfl⟩⟩
  · cases performed
    exact .inr ⟨rfl, rfl, rfl⟩
  · cases performed
    exact .inl ⟨rfl, .inr ⟨rfl, rfl⟩⟩

variable {ending : Ending}

/-- A statement that had its effect has not failed. -/
theorem ne_failed {process next thrown : Option Process}
    (effective : ending = .done ∧ process = next ∨ ending = .lost ∧ process = thrown) :
    ending ≠ .failed := by
  rcases effective with ⟨done, _⟩ | ⟨lost, _⟩
  · simp [done]
  · simp [lost]

/-- A statement that throws without effect. -/
def refused (statement : Statement Shared Process) (before : Shared) : Statement Shared Process :=
  { after := before, next := statement.thrown, thrown := statement.thrown }

variable {statement : Statement Shared Process}

/-- A refused statement ends as one that failed. -/
theorem perform_refused {before : Shared} (ending : Ending) :
    (statement.refused before).perform before ending = statement.perform before .failed := by
  cases ending <;> rfl

variable {process : Option Process}

/-- A property that holds before a statement and after its effect holds after any ending. -/
theorem perform_shared (Property : Shared → Prop) {before after : Shared}
    (performed : statement.perform before ending = (after, process)) (unchanged : Property before)
    (changed : Property statement.after) : Property after := by
  obtain ⟨rfl, _⟩ | ⟨_, rfl, _⟩ := perform_cases performed
  · exact changed
  · exact unchanged

/-- Where a process goes on, it knows what its statement left, if each of its two points does. -/
theorem perform_process {Knows : Shared → Process → Prop} {statement : Statement Shared Process}
    {before after : Shared} {ending : Ending} {process : Option Process}
    (performed : statement.perform before ending = (after, process))
    (next : ∀ later, statement.next = some later → Knows statement.after later)
    (thrown : ∀ later, statement.thrown = some later →
      Knows before later ∧ Knows statement.after later) :
    ∀ later, process = some later → Knows after later := by
  intro later goes
  obtain ⟨rfl, ⟨_, rfl⟩ | ⟨_, rfl⟩⟩ | ⟨_, rfl, rfl⟩ := perform_cases performed
  · exact next later goes
  · exact (thrown later goes).2
  · exact (thrown later goes).1

/-- A statement of a larger kind of process ends as the one that it wraps. -/
theorem perform_map {Point : Type} {wrap : Point → Process} {statement : Statement Shared Point}
    {before after : Shared}
    (performed : (statement.map wrap).perform before ending = (after, process)) :
    ∃ point, statement.perform before ending = (after, point) ∧ process = point.map wrap := by
  cases ending <;> cases performed <;> exact ⟨_, rfl, rfl⟩

/-- A statement of a part of the state ends in the whole as it ends there. -/
theorem perform_within {Whole : Type} {put : Shared → Whole} {before : Shared} {after : Whole}
    (performed : (statement.within put).perform (put before) ending = (after, process)) :
    ∃ part, statement.perform before ending = (part, process) ∧ after = put part := by
  cases ending <;> cases performed <;> exact ⟨_, rfl, rfl⟩

end Statement

/-- What one step of a process takes from outside: the ending of its statement and
what the statement reads outside the shared state. -/
structure Input (Answer : Type) where
  ending : Ending
  answer : Answer

/-- The pool of the processes of a service. -/
def ProcessPool.ofStatements (Initial : Shared → Prop)
    (statement : Shared → Process → Answer → Statement Shared Process)
    (start : Shared → Start → Option (Shared × Option Process)) :
    ProcessPool Shared Process (Input Answer) Start where
  Initial := Initial
  next shared process input :=
    some ((statement shared process input.answer).perform shared input.ending)
  start := start

end CryptoVaultHub

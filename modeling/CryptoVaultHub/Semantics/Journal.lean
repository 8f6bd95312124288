import CryptoVaultHub.Semantics.Execution

/-!
# Calls of a contract with rollback and re-entrancy

A contract runs atomically up to its next external call. While that call runs,
foreign code can call the contract again, to any depth, and a call that fails
restores the point it started from, the contract's own calls included. A
`Journal` holds the current point of the contract and the frames of the call
stack with the points they restore.

`RelyGuarantee` collects the obligations of a contract's two kinds of atomic
segments: from an entry point to an external call, and from the reply to the
next one. `RelyGuarantee.steps` turns them into a fact about every journal: the
current point and every point on the stack are good, and each extends the one
below it.
-/

namespace CryptoVaultHub

/-- A contract as its atomic segments. A segment that reverts is `none`;
otherwise it ends the call or waits for an external call. -/
structure CallMachine (Point Call Pending Reply : Type) where
  Initial : Point → Prop
  dispatch : Point → Call → Option (Point × Option Pending)
  resume : Point → Pending → Reply → Option (Point × Option Pending)
  succeeded : Reply → Bool

/-- An unfinished call: one of the contract, waiting for an external call it
made, or one of foreign code. -/
inductive Frame (Point Pending : Type) where
  | waiting (pending : Pending) (entry made : Point)
  | foreign (snapshot : Point)

/-- The current point of a contract and its call stack, innermost call first. -/
structure Journal (Point Pending : Type) where
  current : Point
  frames : List (Frame Point Pending)

/-- What can happen next. -/
inductive JournalAction (Call Reply : Type) where
  | call (call : Call)
  | enter
  | leave
  | revert
  | reply (reply : Reply)

variable {Point Call Pending Reply : Type}

/-- The journal after a segment of a call that began at `entry`. -/
def Journal.settle (frames : List (Frame Point Pending)) (entry : Point) :
    Option (Point × Option Pending) → Journal Point Pending
  | none => ⟨entry, frames⟩
  | some (next, none) => ⟨next, frames⟩
  | some (next, some pending) => ⟨next, .waiting pending entry next :: frames⟩

namespace CallMachine

variable (machine : CallMachine Point Call Pending Reply)

/-- Where the contract continues after a reply: a failed callee leaves nothing behind. -/
def replied (current made : Point) (reply : Reply) : Point :=
  if machine.succeeded reply then current else made

/-- One action of the journal. A call can come from outside or from whatever
foreign code is running. -/
def step (journal : Journal Point Pending) :
    JournalAction Call Reply → Option (Journal Point Pending)
  | .call call =>
    some (Journal.settle journal.frames journal.current (machine.dispatch journal.current call))
  | .enter => some ⟨journal.current, .foreign journal.current :: journal.frames⟩
  | .leave =>
    match journal.frames with
    | .foreign _ :: rest => some ⟨journal.current, rest⟩
    | _ => none
  | .revert =>
    match journal.frames with
    | .foreign snapshot :: rest => some ⟨snapshot, rest⟩
    | _ => none
  | .reply reply =>
    match journal.frames with
    | .waiting pending entry made :: rest =>
      some (Journal.settle rest entry
        (machine.resume (machine.replied journal.current made reply) pending reply))
    | _ => none

/-- The transition system of a contract that no call is running in at first. -/
def system : TransitionSystem (Journal Point Pending) (JournalAction Call Reply) where
  Initial journal := machine.Initial journal.current ∧ journal.frames = []
  step := machine.step

end CallMachine

/-- The obligations of the segments of a contract. `Good` holds of every point,
`Extends` of a point and any later one of the same or an enclosing call, and
`Waits` of a call's entry point, the point of its external call and what it
waits for. -/
structure RelyGuarantee (machine : CallMachine Point Call Pending Reply) where
  Good : Point → Prop
  Extends : Point → Point → Prop
  Waits : Point → Point → Pending → Prop
  refl : ∀ point, Extends point point
  trans : ∀ {first second third}, Extends first second → Extends second third →
    Extends first third
  dispatched : ∀ {entry call next pending}, Good entry →
    machine.dispatch entry call = some (next, pending) →
    Good next ∧ Extends entry next ∧ ∀ waits ∈ pending, Waits entry next waits
  resumed : ∀ {entry made current waits reply next pending}, Good current →
    Extends entry made → Extends made current → Waits entry made waits →
    machine.resume current waits reply = some (next, pending) →
    Good next ∧ Extends entry next ∧ ∀ waits ∈ pending, Waits entry next waits

namespace RelyGuarantee

variable {machine : CallMachine Point Call Pending Reply} (rules : RelyGuarantee machine)

/-- Every point of a stack is good and extended by the one above it; `base` is
the point below the stack. -/
def Linked (base : Point) : Point → List (Frame Point Pending) → Prop
  | current, [] => rules.Extends base current
  | current, .foreign snapshot :: rest =>
    rules.Good snapshot ∧ rules.Extends snapshot current ∧ Linked base snapshot rest
  | current, .waiting pending entry made :: rest =>
    rules.Good entry ∧ rules.Good made ∧ rules.Extends entry made ∧
      rules.Extends made current ∧ rules.Waits entry made pending ∧ Linked base entry rest

variable {rules}

/-- A stack stays linked below a later point. -/
theorem Linked.extend {base current next : Point} {frames : List (Frame Point Pending)}
    (linked : rules.Linked base current frames) (extended : rules.Extends current next) :
    rules.Linked base next frames := by
  cases frames with
  | nil => exact rules.trans linked extended
  | cons frame rest =>
    cases frame with
    | foreign snapshot =>
      obtain ⟨good, below, linkedRest⟩ := linked
      exact ⟨good, rules.trans below extended, linkedRest⟩
    | waiting pending entry made =>
      obtain ⟨goodEntry, goodMade, called, below, waits, linkedRest⟩ := linked
      exact ⟨goodEntry, goodMade, called, rules.trans below extended, waits, linkedRest⟩

/-- The current point extends the base of its stack. -/
theorem Linked.extends {base current : Point} {frames : List (Frame Point Pending)}
    (linked : rules.Linked base current frames) : rules.Extends base current := by
  induction frames generalizing current with
  | nil => exact linked
  | cons frame rest ih =>
    cases frame with
    | foreign snapshot =>
      obtain ⟨_, below, linkedRest⟩ := linked
      exact rules.trans (ih linkedRest) below
    | waiting pending entry made =>
      obtain ⟨_, _, called, below, _, linkedRest⟩ := linked
      exact rules.trans (rules.trans (ih linkedRest) called) below

variable (rules)

/-- The invariant of a journal above a base point. -/
def Holds (base : Point) (journal : Journal Point Pending) : Prop :=
  rules.Good journal.current ∧ rules.Linked base journal.current journal.frames

variable {rules}

/-- A settled segment keeps the invariant of the stack its call began on. -/
theorem settle_holds {base entry : Point} {frames : List (Frame Point Pending)}
    {outcome : Option (Point × Option Pending)} (good : rules.Good entry)
    (linked : rules.Linked base entry frames)
    (segment : ∀ next pending, outcome = some (next, pending) →
      rules.Good next ∧ rules.Extends entry next ∧
        ∀ waits ∈ pending, rules.Waits entry next waits) :
    rules.Holds base (Journal.settle frames entry outcome) := by
  match outcome with
  | none => exact ⟨good, linked⟩
  | some (next, none) =>
    obtain ⟨goodNext, extended, -⟩ := segment next none rfl
    exact ⟨goodNext, linked.extend extended⟩
  | some (next, some pending) =>
    obtain ⟨goodNext, extended, waits⟩ := segment next (some pending) rfl
    exact ⟨goodNext, good, goodNext, extended, rules.refl next, waits pending rfl, linked⟩

/-- Every action keeps the invariant. -/
theorem step_holds {base : Point} {journal next : Journal Point Pending}
    {action : JournalAction Call Reply} (holds : rules.Holds base journal)
    (transition : machine.system.step journal action = some next) : rules.Holds base next := by
  obtain ⟨good, linked⟩ := holds
  cases action with
  | call call =>
    simp only [CallMachine.system, CallMachine.step, Option.some.injEq] at transition
    subst transition
    exact settle_holds good linked fun _ _ => rules.dispatched good
  | enter =>
    simp only [CallMachine.system, CallMachine.step, Option.some.injEq] at transition
    subst transition
    exact ⟨good, good, rules.refl _, linked⟩
  | leave =>
    simp only [CallMachine.system, CallMachine.step] at transition
    split at transition
    · rename_i snapshot rest stack
      cases transition
      rw [stack] at linked
      obtain ⟨_, below, linkedRest⟩ := linked
      exact ⟨good, linkedRest.extend below⟩
    · cases transition
  | revert =>
    simp only [CallMachine.system, CallMachine.step] at transition
    split at transition
    · rename_i snapshot rest stack
      cases transition
      rw [stack] at linked
      obtain ⟨goodSnapshot, _, linkedRest⟩ := linked
      exact ⟨goodSnapshot, linkedRest⟩
    · cases transition
  | reply reply =>
    simp only [CallMachine.system, CallMachine.step] at transition
    split at transition
    · rename_i pending entry made rest stack
      cases transition
      rw [stack] at linked
      obtain ⟨goodEntry, goodMade, called, below, waits, linkedRest⟩ := linked
      refine settle_holds goodEntry linkedRest fun _ _ continued => ?_
      -- A failed callee is resumed at the point of the call itself.
      cases outcome : machine.succeeded reply with
      | true =>
        simp only [CallMachine.replied, outcome, if_true] at continued
        exact rules.resumed good called below waits continued
      | false =>
        simp only [CallMachine.replied, outcome, Bool.false_eq_true, if_false] at continued
        exact rules.resumed goodMade called (rules.refl made) waits continued
    · cases transition

/-- Along every run that begins between two calls, the journal stays linked
above the point it began at. -/
theorem steps {Allowed : Journal Point Pending → JournalAction Call Reply → Prop}
    {start finish : Journal Point Pending} (good : rules.Good start.current)
    (idle : start.frames = []) (run : machine.system.Steps Allowed start finish) :
    rules.Holds start.current finish := by
  refine run.invariant ?_ ?_
  · refine ⟨good, ?_⟩
    rw [idle]
    exact rules.refl _
  · exact fun _ _ _ holds _ transition => step_holds holds transition

end RelyGuarantee

end CryptoVaultHub

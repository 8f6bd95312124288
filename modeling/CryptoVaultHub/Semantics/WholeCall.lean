import CryptoVaultHub.Semantics.Journal

/-!
# Whole calls of a contract

`Journal` describes everything that can happen around a contract. `Completes`
picks out one call of it, from its entry to the action that ends it, and says
what the last external call of it was answered and whether it succeeded.
Meanwhile foreign code runs above the stack the call was made on, and makes
only the calls it is permitted.

An `Interference` says what those calls can do to the point of the contract.
Then the call is a chain of its own segments, each resumed where foreign code
has left the point of the one before: `Completes.segments`.
-/

namespace CryptoVaultHub

variable {Point Call Pending Reply : Type}

/-- A stack on top of other frames. -/
def Journal.above (frames : List (Frame Point Pending)) (journal : Journal Point Pending) :
    Journal Point Pending :=
  ⟨journal.current, journal.frames ++ frames⟩

theorem Journal.settle_above (inner frames : List (Frame Point Pending)) (entry : Point)
    (outcome : Option (Point × Option Pending)) :
    Journal.settle (inner ++ frames) entry outcome =
      (Journal.settle inner entry outcome).above frames := by
  rcases outcome with _ | ⟨point, _ | pending⟩ <;> rfl

namespace CallMachine

variable (machine : CallMachine Point Call Pending Reply)

/-! ## One call -/

/-- Whether a segment ends its call, and with success. -/
def ended : Option (Point × Option Pending) → Option Bool
  | none => some false
  | some (_, none) => some true
  | some (_, some _) => none

/-- The segment that follows a reply, when the innermost call waits for one. -/
def segmentAfter (journal : Journal Point Pending) (reply : Reply) :
    Option (Option (Point × Option Pending)) :=
  match journal.frames with
  | .waiting pending _ made :: _ =>
    some (machine.resume (machine.replied journal.current made reply) pending reply)
  | _ => none

/-- The run is above `depth`, and makes only permitted calls. -/
def During (Permitted : Point → Call → Prop) (depth : Nat) (journal : Journal Point Pending) :
    JournalAction Call Reply → Prop
  | .call call => depth < journal.frames.length ∧ Permitted journal.current call
  | .enter | .leave | .revert | .reply _ => depth < journal.frames.length

instance (Permitted : Point → Call → Prop) [∀ point call, Decidable (Permitted point call)]
    (depth : Nat) (journal : Journal Point Pending) :
    ∀ action : JournalAction Call Reply, Decidable (During Permitted depth journal action)
  | .call call =>
    inferInstanceAs (Decidable (depth < journal.frames.length ∧ Permitted journal.current call))
  | .enter | .leave | .revert | .reply _ => inferInstanceAs (Decidable (depth < _))

/-- One call of the contract from its entry to its end, with the answer to its last
external call. -/
inductive Completes (Permitted : Point → Call → Prop) (start : Journal Point Pending)
    (call : Call) : Option Reply → Bool → Journal Point Pending → Prop where
  | atOnce {success : Bool} {finish : Journal Point Pending}
      (begins : machine.step start (.call call) = some finish)
      (ends : ended (machine.dispatch start.current call) = some success) :
      Completes Permitted start call none success finish
  | later {success : Bool} {finish waiting last : Journal Point Pending} {reply : Reply}
      {segment : Option (Point × Option Pending)}
      (begins : machine.step start (.call call) = some waiting)
      (runs : machine.system.Steps (During Permitted start.frames.length) waiting last)
      (running : start.frames.length < last.frames.length)
      (replies : machine.step last (.reply reply) = some finish)
      (back : finish.frames.length = start.frames.length)
      (follows : machine.segmentAfter last reply = some segment)
      (ends : ended segment = some success) :
      Completes Permitted start call (some reply) success finish

/-- The segments of one call, from the first one's outcome on, with the last answer and the
point a successful call leaves. Between two of them only what `Between` allows has happened. -/
inductive Segments (Between : Point → Point → Prop) :
    Option (Point × Option Pending) → Option Reply → Option Point → Prop where
  | reverted : Segments Between none none none
  | returned {point} : Segments Between (some (point, none)) none (some point)
  | waited {made current pending reply answer result} (between : Between made current)
      (continued : Segments Between (machine.resume current pending reply) answer result) :
      Segments Between (some (made, some pending)) (some (answer.getD reply)) result

/-- What permitted calls do to the point of the contract, from their entry to any of their
external calls or their end; `Waits` is what such a call relies on while it waits. -/
structure Interference (Permitted : Point → Call → Prop) where
  Between : Point → Point → Prop
  Waits : Point → Point → Pending → Prop
  refl : ∀ point, Between point point
  trans : ∀ {first second third}, Between first second → Between second third →
    Between first third
  dispatched : ∀ {entry call next pending}, Permitted entry call →
    machine.dispatch entry call = some (next, pending) →
    Between entry next ∧ ∀ waits ∈ pending, Waits entry next waits
  resumed : ∀ {entry made current waits reply next pending}, Between entry made →
    Between made current → Waits entry made waits →
    machine.resume current waits reply = some (next, pending) →
    Between entry next ∧ ∀ waits ∈ pending, Waits entry next waits

open Classical in
/-- The contract, with all calls failing but the permitted ones. -/
noncomputable def restrict (Permitted : Point → Call → Prop) :
    CallMachine Point Call Pending Reply :=
  { machine with
    dispatch := fun point call =>
      if Permitted point call then machine.dispatch point call else none }

variable {machine} {Permitted : Point → Call → Prop}

/-- An interference is a rely-guarantee invariant of the restricted contract. -/
def Interference.rules (interference : machine.Interference Permitted) :
    RelyGuarantee (machine.restrict Permitted) where
  Good _ := True
  Extends := interference.Between
  Waits := interference.Waits
  refl := interference.refl
  trans := interference.trans
  dispatched := by
    intro entry call next pending _ dispatches
    simp only [restrict] at dispatches
    split at dispatches
    · rename_i permitted
      exact ⟨trivial, interference.dispatched permitted dispatches⟩
    · cases dispatches
  resumed := by
    intro entry made current waits reply next pending _ before after relies resumes
    exact ⟨trivial, interference.resumed before after relies resumes⟩

/-- A call that succeeds is over, or waits at a point from which it succeeds. -/
theorem Segments.succeeded {Between : Point → Point → Prop}
    {segment : Option (Point × Option Pending)} {answer : Option Reply} {after : Point}
    (segments : machine.Segments Between segment answer (some after)) :
    (segment = some (after, none) ∧ answer = none) ∨
      ∃ made pending current reply later, segment = some (made, some pending) ∧
        answer = some (later.getD reply) ∧ Between made current ∧
        machine.Segments Between (machine.resume current pending reply) later (some after) := by
  cases segments with
  | returned => exact .inl ⟨rfl, rfl⟩
  | @waited made current pending reply later _ between continued =>
    exact .inr ⟨made, pending, current, reply, later, rfl, rfl, between, continued⟩

/-! ## What happens while a call waits -/

/-- Permitted actions above other frames act on the stack alone, until they reach the frames
below it. -/
theorem step_above {frames inner : List (Frame Point Pending)} {depth : Nat}
    {current : Point} {next : Journal Point Pending} {action : JournalAction Call Reply}
    (allowed : During Permitted depth ⟨current, inner ++ frames⟩ action)
    (transition : machine.step ⟨current, inner ++ frames⟩ action = some next) :
    (∃ above, next = above.above frames ∧
      (machine.restrict Permitted).step ⟨current, inner⟩ action = some above) ∨
    (inner = [] ∧ (action = .leave ∨ action = .revert ∨ ∃ reply, action = .reply reply)) := by
  cases action with
  | call call =>
    simp only [step, Option.some.injEq, Journal.settle_above] at transition
    refine .inl ⟨_, transition.symm, ?_⟩
    simp [step, restrict, allowed.2]
  | enter =>
    simp only [step, Option.some.injEq] at transition
    exact .inl ⟨⟨current, .foreign current :: inner⟩, transition.symm, rfl⟩
  | leave =>
    rcases inner with _ | ⟨⟨⟩ | snapshot, rest⟩
    · exact .inr ⟨rfl, .inl rfl⟩
    · cases transition
    · simp only [step, List.cons_append, Option.some.injEq] at transition
      exact .inl ⟨⟨current, rest⟩, transition.symm, rfl⟩
  | revert =>
    rcases inner with _ | ⟨⟨⟩ | snapshot, rest⟩
    · exact .inr ⟨rfl, .inr (.inl rfl)⟩
    · cases transition
    · simp only [step, List.cons_append, Option.some.injEq] at transition
      exact .inl ⟨⟨snapshot, rest⟩, transition.symm, rfl⟩
  | reply reply =>
    rcases inner with _ | ⟨⟨pending, entry, made⟩ | snapshot, rest⟩
    · exact .inr ⟨rfl, .inr (.inr ⟨reply, rfl⟩)⟩
    · simp only [step, List.cons_append, Option.some.injEq, Journal.settle_above] at transition
      exact .inl ⟨_, transition.symm, rfl⟩
    · cases transition

/-- The state of a call that waits: the segments up to here, and what has happened since. -/
structure Underway (interference : machine.Interference Permitted)
    (start : Journal Point Pending) (call : Call) (journal : Journal Point Pending) : Prop where
  waits : ∃ inner pending made,
    journal.frames = inner ++ .waiting pending start.current made :: start.frames ∧
    interference.rules.Holds made ⟨journal.current, inner⟩ ∧
    ∀ answer result,
      machine.Segments interference.Between (some (made, some pending)) answer result →
      machine.Segments interference.Between (machine.dispatch start.current call) answer result

/-- As long as the stack is above the one the call was made on, the call is underway. -/
def UnderwayAbove (interference : machine.Interference Permitted)
    (start : Journal Point Pending) (call : Call) (journal : Journal Point Pending) : Prop :=
  start.frames.length < journal.frames.length → Underway interference start call journal

section Calls

variable {interference : machine.Interference Permitted}
  {start finish journal next : Journal Point Pending} {call : Call}

/-- The chain of a call goes on with a segment, after a reply to the call itself. -/
structure Continues (interference : machine.Interference Permitted)
    (start : Journal Point Pending) (call : Call) (journal next : Journal Point Pending)
    (reply : Reply) (segment : Option (Point × Option Pending)) : Prop where
  follows : machine.segmentAfter journal reply = some segment
  settled : next = Journal.settle start.frames start.current segment
  chain : ∀ answer result, machine.Segments interference.Between segment answer result →
    machine.Segments interference.Between (machine.dispatch start.current call)
      (some (answer.getD reply)) result

/-- Every action happens above the waiting call, or answers it. -/
theorem Underway.step (underway : Underway interference start call journal)
    {action : JournalAction Call Reply}
    (allowed : During Permitted start.frames.length journal action)
    (transition : machine.step journal action = some next) :
    Underway interference start call next ∨ ∃ reply segment, action = .reply reply ∧
      Continues interference start call journal next reply segment := by
  obtain ⟨inner, pending, made, stack, holds, chain⟩ := underway.waits
  obtain ⟨current, frames⟩ := journal
  obtain rfl : frames = inner ++ .waiting pending start.current made :: start.frames := stack
  obtain ⟨above, rfl, moved⟩ | ⟨rfl, rfl | rfl | ⟨reply, rfl⟩⟩ := step_above allowed transition
  · exact .inl ⟨above.frames, pending, made, rfl, RelyGuarantee.step_holds holds moved, chain⟩
  · cases transition
  · cases transition
  · refine .inr ⟨reply, _, rfl, rfl, (Option.some.inj transition).symm, ?_⟩
    intro answer result continued
    refine chain _ result (.waited ?_ continued)
    -- A failed callee leaves the point of the external call.
    unfold CallMachine.replied
    split
    · exact holds.2
    · exact interference.refl made

/-- A segment that waits leaves the call underway. -/
theorem Continues.underway {reply : Reply} {segment : Option (Point × Option Pending)}
    (continues : Continues interference start call journal next reply segment)
    (waits : start.frames.length < next.frames.length) :
    Underway interference start call next := by
  obtain ⟨-, rfl, chain⟩ := continues
  rcases segment with _ | ⟨point, _ | pending⟩
  · simp [Journal.settle] at waits
  · simp [Journal.settle] at waits
  · refine ⟨[], pending, point, rfl, ⟨trivial, interference.refl point⟩, ?_⟩
    intro answer result segments
    have continued := chain answer result segments
    cases segments
    exact continued

/-- A call is underway when its first segment waits. -/
theorem Underway.begin (begins : machine.step start (.call call) = some next)
    (waits : start.frames.length < next.frames.length) :
    Underway interference start call next := by
  simp only [CallMachine.step, Option.some.injEq] at begins
  subst begins
  rcases segment : machine.dispatch start.current call with _ | ⟨point, _ | pending⟩
  · simp [segment, Journal.settle] at waits
  · simp [segment, Journal.settle] at waits
  · refine ⟨[], pending, point, rfl, ⟨trivial, interference.refl point⟩, ?_⟩
    rw [segment]
    exact fun _ _ => id

/-- A segment that ends its call leaves its result or nothing. -/
theorem settle_of_ended (start : Journal Point Pending)
    {segment : Option (Point × Option Pending)} {success : Bool}
    (ends : ended segment = some success) :
    ∃ result, machine.Segments interference.Between segment none result ∧
      success = result.isSome ∧
      Journal.settle start.frames start.current segment =
        ⟨result.getD start.current, start.frames⟩ := by
  rcases segment with _ | ⟨point, _ | pending⟩
  · cases ends
    exact ⟨none, .reverted, rfl, rfl⟩
  · cases ends
    exact ⟨some point, .returned, rfl, rfl⟩
  · cases ends

/-- A call is the chain of its segments, and what is left of it is its result or nothing. -/
theorem Completes.segments (interference : machine.Interference Permitted)
    {answer : Option Reply} {success : Bool}
    (completes : machine.Completes Permitted start call answer success finish) :
    ∃ result,
      machine.Segments interference.Between (machine.dispatch start.current call) answer result ∧
        success = result.isSome ∧ finish = ⟨result.getD start.current, start.frames⟩ := by
  cases completes with
  | atOnce begins ends =>
    obtain ⟨result, segments, outcome, settled⟩ := settle_of_ended start ends
    simp only [CallMachine.step, Option.some.injEq] at begins
    exact ⟨result, segments, outcome, begins.symm.trans settled⟩
  | @later success finish waiting last reply segment begins runs running replies back follows
      ends =>
      have kept : UnderwayAbove interference start call last := by
        refine runs.invariant (fun waits => .begin begins waits) ?_
        intro journal action next holds allowed transition above
        have before : start.frames.length < journal.frames.length := by
          cases action with
          | call => exact allowed.1
          | enter | leave | revert | reply => exact allowed
        obtain underway | ⟨reply, segment, -, continues⟩ := (holds before).step allowed transition
        · exact underway
        · exact continues.underway above
      have allowed : During Permitted start.frames.length last (.reply reply) := running
      obtain underway | ⟨_, _, ⟨⟩, continues⟩ := (kept running).step allowed replies
      · obtain ⟨inner, pending, made, stack, -⟩ := underway.waits
        simp only [stack, List.length_append, List.length_cons] at back
        omega
      · cases follows.symm.trans continues.follows
        obtain ⟨result, segments, outcome, settled⟩ := settle_of_ended start ends
        exact ⟨result, continues.chain none result segments, outcome,
          continues.settled.trans settled⟩

end Calls

/-- A replay of a call that ends with the reply after the last of some actions. -/
theorem exists_completes_of_run [∀ point call, Decidable (Permitted point call)]
    {start : Journal Point Pending} {call : Call} (actions : List (JournalAction Call Reply))
    (reply : Reply) (success : Bool) (check : Journal Point Pending → Bool)
    (passed : ((machine.step start (.call call)).any fun waiting =>
      (machine.system.run (During Permitted start.frames.length) waiting actions).any fun last =>
        decide (start.frames.length < last.frames.length) &&
        (machine.segmentAfter last reply).any (fun segment => ended segment == some success) &&
        (machine.step last (.reply reply)).any fun finish =>
          decide (finish.frames.length = start.frames.length) && check finish) = true) :
    ∃ finish, machine.Completes Permitted start call (some reply) success finish ∧
      check finish = true := by
  obtain ⟨waiting, begins, passed⟩ := (Option.any_eq_true _ _).mp passed
  obtain ⟨last, runs, passed⟩ := TransitionSystem.exists_steps_of_run actions _ passed
  simp only [Bool.and_eq_true, decide_eq_true_eq, Option.any_eq_true, beq_iff_eq] at passed
  obtain ⟨⟨running, segment, follows, ends⟩, finish, replies, back, holds⟩ := passed
  exact ⟨finish, .later begins runs running replies back follows ends, holds⟩

end CallMachine

end CryptoVaultHub

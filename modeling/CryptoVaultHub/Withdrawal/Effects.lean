import CryptoVaultHub.Withdrawal.Services
import CryptoVaultHub.Withdrawal.Statements

/-!
# What a step can change

A step of a service leaves the records alone or applies its statement, and what
begins from outside only adds a new withdrawal and moves jobs. `setsStatus` is the
status update that an action performs, if it performs one; the conditions on runs
are stated in terms of it.
-/

namespace CryptoVaultHub.Withdrawal

abbrev State := PoolState Shared Process
abbrev Action := PoolAction Input Start

/-! ## Steps of the services -/

/-- How a step changes the records and continues. -/
inductive Performed (shared : Shared) (step : Step) (outcome : Outcome) :
    Shared → Option Process → Prop where
  | done {after : Shared} (answered : outcome = .done)
      (applied : step.write.apply shared = some after) :
      Performed shared step outcome after step.next
  | thrown (raised : outcome = .failed ∨ step.write.apply shared = none) :
      Performed shared step outcome shared step.thrown
  | lost {after : Shared} (unanswered : outcome = .lost)
      (applied : step.write.apply shared = some after) :
      Performed shared step outcome after step.thrown

theorem perform_cases {settings : Settings} {shared after : Shared} {before : Process}
    {input : Input} {process : Option Process}
    (moved : (services settings).next shared before input = some (after, process)) :
    Performed shared (before.step settings shared input.answer) input.outcome after process := by
  simp only [services, Option.some.injEq] at moved
  generalize before.step settings shared input.answer = step at moved ⊢
  cases ended : input.outcome with
  | done =>
    rw [ended, Step.perform] at moved
    cases applied : step.write.apply shared with
    | none =>
      rw [applied] at moved
      cases moved
      exact .thrown (Or.inr applied)
    | some result =>
      rw [applied] at moved
      cases moved
      exact .done rfl applied
  | failed =>
    rw [ended, Step.perform] at moved
    cases moved
    exact .thrown (Or.inl rfl)
  | lost =>
    rw [ended, Step.perform] at moved
    cases applied : step.write.apply shared with
    | none =>
      rw [applied] at moved
      cases moved
      exact .thrown (Or.inr applied)
    | some result =>
      rw [applied] at moved
      cases moved
      exact .lost rfl applied

variable {shared after : Shared} {process : Option Process}

/-- A step leaves the records alone or applies its statement. -/
theorem Performed.shared_cases {step : Step} {outcome : Outcome}
    (performed : Performed shared step outcome after process) :
    after = shared ∨ (outcome ≠ .failed ∧ step.write.apply shared = some after) := by
  cases performed with
  | done answered applied => exact Or.inr ⟨by simp [answered], applied⟩
  | thrown => exact Or.inl rfl
  | lost unanswered applied => exact Or.inr ⟨by simp [unanswered], applied⟩

/-- A step continues at one of its two points. -/
theorem Performed.process_cases {step : Step} {outcome : Outcome}
    (performed : Performed shared step outcome after process) :
    (process = step.next ∧ step.write.apply shared = some after) ∨ process = step.thrown := by
  cases performed with
  | done _ applied => exact Or.inl ⟨rfl, applied⟩
  | thrown => exact Or.inr rfl
  | lost => exact Or.inr rfl

/-- A step whose statement succeeds continues at its next point. -/
theorem Performed.of_done {step : Step} (performed : Performed shared step .done after process)
    (succeeds : (step.write.apply shared).isSome = true) :
    process = step.next ∧ step.write.apply shared = some after := by
  cases performed with
  | done _ applied => exact ⟨rfl, applied⟩
  | thrown raised =>
    obtain failed | raised := raised
    · cases failed
    · rw [raised] at succeeds
      cases succeeds
  | lost unanswered => cases unanswered

/-- The status update that an action performs, with the process it belongs to. -/
def setsStatus (settings : Settings) (state : State) :
    Action → Option (Nat × WithdrawalId × Status)
  | .advance pid input =>
    match state.process? pid with
    | none => none
    | some process =>
      if input.outcome = .failed then none
      else
        match (process.step settings state.shared input.answer).write with
        | .setStatus id status expected =>
          if (state.shared.find? id).any fun row => row.matches expected then
            some (pid, id, status)
          else none
        | _ => none
  | _ => none

variable {settings : Settings} {state : State} {input : Input} {id : WithdrawalId} {status : Status}

theorem setsStatus_of_write {pid : Nat} {process : Process} {expected : Option Status}
    {row : WithdrawalRow} (running : state.process? pid = some process)
    (reported : input.outcome ≠ .failed)
    (write : (process.step settings state.shared input.answer).write =
      .setStatus id status expected) (found : state.shared.find? id = some row)
    (fits : row.matches expected = true) :
    setsStatus settings state (.advance pid input) = some (pid, id, status) := by
  simp [setsStatus, running, reported, write, found, fits]

/-- An update that failed is not performed. -/
theorem reported_of_setsStatus {pid : Nat} {update : Nat × WithdrawalId × Status}
    (sets : setsStatus settings state (.advance pid input) = some update) :
    input.outcome ≠ .failed := by
  simp only [setsStatus] at sets
  split at sets
  · cases sets
  · split at sets
    · cases sets
    · assumption

/-- The update that a step performs is its statement. -/
theorem write_of_setsStatus {pid owner : Nat} {process : Process}
    (running : state.process? pid = some process)
    (sets : setsStatus settings state (.advance pid input) = some (owner, id, status)) :
    owner = pid ∧ ∃ expected row,
      (process.step settings state.shared input.answer).write = .setStatus id status expected ∧
        state.shared.find? id = some row ∧ row.matches expected = true := by
  simp only [setsStatus, running] at sets
  split at sets
  · cases sets
  · split at sets
    · rename_i target value expected write
      split at sets
      · rename_i found
        cases sets
        obtain ⟨row, exists_, fits⟩ := (Option.any_eq_true _ _).mp found
        exact ⟨rfl, expected, row, write, exists_, fits⟩
      · cases sets
    · cases sets

variable {before : Process}

/-- A step changes a status only by the update it performs. -/
theorem status?_advance {pid : Nat} {after : Shared} (running : state.process? pid = some before)
    (moved : (services settings).next state.shared before input = some (after, process))
    (id : WithdrawalId) :
    after.status? id = state.shared.status? id ∨
      ∃ status, setsStatus settings state (.advance pid input) = some (pid, id, status) ∧
        after.status? id = some status := by
  obtain rfl | ⟨reported, applied⟩ := (perform_cases moved).shared_cases
  · exact Or.inl rfl
  · obtain same | ⟨status, expected, row, write, found, fits, set⟩ := status?_apply applied id
    · exact Or.inl same
    · exact Or.inr ⟨status, setsStatus_of_write running reported write found fits, set⟩

/-- A step adds a broadcast only by sending it. -/
theorem broadcastsOf_advance
    (moved : (services settings).next shared before input = some (after, process))
    (id : WithdrawalId) :
    after.broadcastsOf id = shared.broadcastsOf id ∨
      ∃ sent, (before.step settings shared input.answer).write = .broadcast sent ∧
        sent.withdrawalId = id ∧ after.broadcastsOf id = shared.broadcastsOf id ++ [sent] := by
  obtain rfl | ⟨_, applied⟩ := (perform_cases moved).shared_cases
  · exact Or.inl rfl
  · exact broadcastsOf_apply applied id

theorem request?_advance
    (moved : (services settings).next shared before input = some (after, process))
    (id : WithdrawalId) : after.request? id = shared.request? id := by
  obtain rfl | ⟨_, applied⟩ := (perform_cases moved).shared_cases
  · rfl
  · exact request?_apply applied id

theorem extends_advance
    (moved : (services settings).next shared before input = some (after, process)) :
    shared.Extends after := by
  obtain rfl | ⟨_, applied⟩ := (perform_cases moved).shared_cases
  · exact .refl after
  · exact extends_apply applied

/-! ## What begins from outside -/

variable {begun : Start}

/-- A request adds a row; nothing else that begins from outside changes the
withdrawals, their operations or their broadcasts. -/
theorem start_cases (started : start shared begun = some (after, process)) :
    (∃ request status, shared.find? request.id = none ∧
        (status = .pendingApproval ∨ status = .rejected) ∧
        after = { shared with
          withdrawals := shared.withdrawals ++ [⟨request, status, none, none⟩] }) ∨
      (after.withdrawals = shared.withdrawals ∧ after.operations = shared.operations ∧
        after.broadcasts = shared.broadcasts) := by
  cases begun with
  | create request isRejected =>
    simp only [start] at started
    split at started
    · cases started
    · rename_i absent
      cases started
      left
      refine ⟨request, _, by simpa using absent, ?_, rfl⟩
      cases isRejected
      · exact Or.inl rfl
      · exact Or.inr rfl
  | execute job | confirm job =>
    simp only [start] at started
    split at started
    · split at started
      · cases started
        exact Or.inr ⟨rfl, rfl, rfl⟩
      · cases started
    · cases started
  | approve | cancel | submit | expireStale | poll | promote | promoteConfirm | stall
  | stallConfirm | stallOut | stallOutConfirm =>
    cases started
    exact Or.inr ⟨rfl, rfl, rfl⟩

/-- The row of a withdrawal after one that was not there is added. -/
theorem find?_append {shared : Shared} {row : WithdrawalRow} (id : WithdrawalId)
    (absent : shared.find? row.request.id = none) :
    ({ shared with withdrawals := shared.withdrawals ++ [row] } : Shared).find? id =
      if row.request.id = id then some row else shared.find? id := by
  by_cases same : row.request.id = id
  · subst same
    unfold Shared.find? at absent ⊢
    simp [List.find?_append, absent]
  · simp [Shared.find?, List.find?_append, same]

/-- A new withdrawal waits for approval or is rejected. -/
theorem status?_start (started : start shared begun = some (after, process)) (id : WithdrawalId) :
    after.status? id = shared.status? id ∨
      shared.status? id = none ∧
        (after.status? id = some .pendingApproval ∨ after.status? id = some .rejected) := by
  obtain ⟨request, status, absent, fresh, rfl⟩ | ⟨same, _, _⟩ := start_cases started
  · rw [Shared.status?, find?_append id absent, Shared.status?]
    by_cases own : request.id = id
    · subst own
      right
      simpa [absent] using fresh
    · left
      simp [own]
  · left
    simp only [Shared.status?, Shared.find?, same]

/-- A status that no new withdrawal has was there before. -/
theorem status?_of_start (started : start shared begun = some (after, process))
    (current : after.status? id = some status)
    (old : status ≠ .pendingApproval ∧ status ≠ .rejected) : shared.status? id = some status := by
  obtain same | ⟨_, waiting | rejected⟩ := status?_start started id
  · rw [← same, current]
  · rw [waiting] at current
    exact absurd (Option.some.inj current).symm old.1
  · rw [rejected] at current
    exact absurd (Option.some.inj current).symm old.2

/-- A status that was there is not changed from outside. -/
theorem status?_start_of_some (started : start shared begun = some (after, process))
    (current : shared.status? id = some status) : after.status? id = some status := by
  obtain same | ⟨absent, _⟩ := status?_start started id
  · rw [same, current]
  · rw [current] at absent
    cases absent

/-- A launch changes no request, but it can add one. -/
theorem request?_start (started : start shared begun = some (after, process)) (id : WithdrawalId) :
    after.request? id = shared.request? id ∨ shared.request? id = none := by
  obtain ⟨request, status, absent, _, rfl⟩ | ⟨same, _, _⟩ := start_cases started
  · by_cases own : request.id = id
    · subst own
      right
      simp [Shared.request?, absent]
    · left
      rw [Shared.request?, find?_append id absent, if_neg own, Shared.request?]
  · left
    simp only [Shared.request?, Shared.find?, same]

theorem operations_start (started : start shared begun = some (after, process)) :
    after.operations = shared.operations := by
  obtain ⟨_, _, _, _, rfl⟩ | ⟨_, same, _⟩ := start_cases started
  · rfl
  · exact same

theorem extends_start (started : start shared begun = some (after, process)) :
    shared.Extends after := by
  constructor
  · intro id request found
    obtain same | absent := request?_start started id
    · rw [same, found]
    · rw [found] at absent
      cases absent
  · intro operation stored
    exact ⟨operation, (operations_start started).symm ▸ stored, .refl operation⟩

theorem broadcasts_start (started : start shared begun = some (after, process)) :
    after.broadcasts = shared.broadcasts := by
  obtain ⟨_, _, _, _, rfl⟩ | ⟨_, _, same⟩ := start_cases started
  · rfl
  · exact same

theorem broadcastsOf_start (started : start shared begun = some (after, process))
    (id : WithdrawalId) : after.broadcastsOf id = shared.broadcastsOf id := by
  rw [Shared.broadcastsOf, broadcasts_start started, Shared.broadcastsOf]

end CryptoVaultHub.Withdrawal

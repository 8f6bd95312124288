import CryptoVaultHub.Withdrawal.Records

/-!
# What a statement can change

For one withdrawal, each observation of the records (its status, its broadcasts,
its request, the signature of its co-sign operation) is changed by one kind of
statement only. `Shared.Extends` collects what no statement takes back.
-/

namespace CryptoVaultHub.Withdrawal

/-! ## Rows -/

namespace Shared

theorem find?_id {shared : Shared} {id : WithdrawalId} {row : WithdrawalRow}
    (found : shared.find? id = some row) : row.request.id = id := by
  have named := List.find?_some found
  exact of_decide_eq_true named

/-- The row that a client's call reads. -/
theorem request?_of_findOwned {shared : Shared} {id : WithdrawalId} {clientId : ClientId}
    {row : WithdrawalRow} (owned : shared.findOwned id clientId = some row) :
    row.request.id = id ∧ shared.request? id = some row.request := by
  have present := (Option.filter_eq_some_iff.mp owned).1
  refine ⟨find?_id present, ?_⟩
  rw [request?, present]
  rfl

variable {shared : Shared} {updated id : WithdrawalId} {change : WithdrawalRow → WithdrawalRow}

/-- The row of a withdrawal after an update of some row. -/
theorem find?_updateRow (keeps : ∀ row, (change row).request = row.request) :
    (shared.updateRow updated change).find? id =
      (shared.find? id).map fun row => if id = updated then change row else row := by
  have untouched : ((fun row : WithdrawalRow => decide (row.request.id = id)) ∘ fun row =>
      if row.request.id = updated then change row else row) =
        fun row => decide (row.request.id = id) := by
    ext row
    simp only [Function.comp_apply]
    split <;> simp [keeps]
  unfold find? updateRow
  rw [List.find?_map, untouched]
  apply Option.map_congr
  intro row found
  have named : row.request.id = id := find?_id found
  rw [named]

/-- An update of a row that leaves its status alone. -/
theorem status?_updateRow (keeps : ∀ row, (change row).request = row.request)
    (same : ∀ row, (change row).status = row.status) :
    (shared.updateRow updated change).status? id = shared.status? id := by
  rw [status?, find?_updateRow keeps, status?, Option.map_map]
  apply Option.map_congr
  intro row _
  simp only [Function.comp_apply]
  split <;> simp [same]

/-- An update of a row leaves what was requested alone. -/
theorem request?_updateRow (keeps : ∀ row, (change row).request = row.request) :
    (shared.updateRow updated change).request? id = shared.request? id := by
  rw [request?, find?_updateRow keeps, request?, Option.map_map]
  apply Option.map_congr
  intro row _
  simp only [Function.comp_apply]
  split <;> simp [keeps]

end Shared

variable {shared after : Shared} {write : Write}

/-- Only a status update changes a status, and only of the row it matches. -/
theorem status?_apply (applied : write.apply shared = some after) (id : WithdrawalId) :
    after.status? id = shared.status? id ∨
      ∃ status expected row, write = .setStatus id status expected ∧ shared.find? id = some row ∧
        row.matches expected = true ∧ after.status? id = some status := by
  cases write with
  | setStatus updated status expected =>
    simp only [Write.apply, Option.some.injEq] at applied
    subst applied
    have keeps : ∀ row : WithdrawalRow,
        (if row.matches expected = true then { row with status := status } else row).request =
          row.request := by
      intro row
      split <;> rfl
    cases found : shared.find? id with
    | none =>
      left
      simp [Shared.status?, Shared.find?_updateRow keeps, found]
    | some row =>
      by_cases written : id = updated ∧ row.matches expected = true
      · obtain ⟨rfl, fits⟩ := written
        right
        refine ⟨status, expected, row, rfl, rfl, fits, ?_⟩
        simp [Shared.status?, Shared.find?_updateRow keeps, found, fits]
      · left
        simp only [Shared.status?, Shared.find?_updateRow keeps, found, Option.map_some]
        split
        · rename_i same
          have unlike : ¬ row.matches expected = true := fun fits => written ⟨same, fits⟩
          simp [unlike]
        · rfl
  | setTransaction updated txHash sequenceId =>
    simp only [Write.apply, Option.some.injEq] at applied
    subst applied
    left
    apply Shared.status?_updateRow
    · exact fun _ => rfl
    · exact fun _ => rfl
  | insertOperation operation =>
    simp only [Write.apply] at applied
    split at applied
    · cases applied
    · cases applied
      exact Or.inl rfl
  | skip | signOperation | expireOperation | broadcast | addExecute | addConfirm | completeJob
  | failJob | completeConfirm | failConfirm =>
    cases applied
    exact Or.inl rfl

/-- An update without an expected status sets the status of a row that is there. -/
theorem status?_setStatus {id : WithdrawalId} {status found : Status}
    (applied : (Write.setStatus id status none).apply shared = some after)
    (current : shared.status? id = some found) : after.status? id = some status := by
  cases applied
  obtain ⟨row, present, _⟩ := Option.map_eq_some_iff.mp current
  rw [Shared.status?, Shared.find?_updateRow, present]
  · simp [WithdrawalRow.matches]
  · intro row
    split <;> rfl

/-- Only a broadcast adds to the broadcasts of a withdrawal. -/
theorem broadcastsOf_apply (applied : write.apply shared = some after) (id : WithdrawalId) :
    after.broadcastsOf id = shared.broadcastsOf id ∨
      ∃ sent, write = .broadcast sent ∧ sent.withdrawalId = id ∧
        after.broadcastsOf id = shared.broadcastsOf id ++ [sent] := by
  cases write with
  | broadcast sent =>
    cases applied
    by_cases own : sent.withdrawalId = id
    · right
      exact ⟨sent, rfl, own, by simp [Shared.broadcastsOf, own]⟩
    · left
      simp [Shared.broadcastsOf, own]
  | insertOperation operation =>
    simp only [Write.apply] at applied
    split at applied
    · cases applied
    · cases applied
      exact Or.inl rfl
  | skip | setStatus | setTransaction | signOperation | expireOperation | addExecute | addConfirm
  | completeJob | failJob | completeConfirm | failConfirm =>
    cases applied
    exact Or.inl rfl

/-- No statement changes what was requested. -/
theorem request?_apply (applied : write.apply shared = some after) (id : WithdrawalId) :
    after.request? id = shared.request? id := by
  cases write with
  | setStatus updated status expected =>
    cases applied
    apply Shared.request?_updateRow
    intro row
    split <;> rfl
  | setTransaction updated txHash sequenceId =>
    cases applied
    apply Shared.request?_updateRow
    exact fun _ => rfl
  | insertOperation operation =>
    simp only [Write.apply] at applied
    split at applied
    · cases applied
    · cases applied
      rfl
  | skip | broadcast | signOperation | expireOperation | addExecute | addConfirm | completeJob
  | failJob | completeConfirm | failConfirm =>
    cases applied
    rfl

/-! ## Co-sign operations -/

/-- A later form of a co-sign operation: only its status changes and its signature
is filled in. -/
structure CoSignOperation.Continues (before after : CoSignOperation) : Prop where
  operationId : after.operationId = before.operationId
  withdrawalId : after.withdrawalId = before.withdrawalId
  operationHash : after.operationHash = before.operationHash
  inputs : after.inputs = before.inputs
  signed : before.clientSignature.isSome → after.clientSignature.isSome

theorem CoSignOperation.Continues.refl (operation : CoSignOperation) :
    operation.Continues operation :=
  ⟨rfl, rfl, rfl, rfl, id⟩

/-- A change of one operation that keeps what it was made from. -/
theorem operations_updateOperation {shared : Shared} {operationId : OperationId}
    {change : CoSignOperation → CoSignOperation}
    (continues : ∀ operation : CoSignOperation, operation.Continues (change operation)) :
    List.Forall₂ CoSignOperation.Continues shared.operations
      (shared.updateOperation operationId change).operations := by
  rw [Shared.updateOperation, List.forall₂_map_right_iff, List.forall₂_same]
  intro operation _
  split
  · exact continues operation
  · exact .refl operation

/-- A statement continues the stored operations, and may insert one. -/
theorem operations_apply (applied : write.apply shared = some after) :
    List.Forall₂ CoSignOperation.Continues shared.operations after.operations ∨
      ∃ operation, write = .insertOperation operation ∧
        after.operations = shared.operations ++ [operation] := by
  have kept : List.Forall₂ CoSignOperation.Continues shared.operations shared.operations :=
    List.forall₂_same.mpr fun operation _ => CoSignOperation.Continues.refl operation
  cases write with
  | insertOperation operation =>
    simp only [Write.apply] at applied
    split at applied
    · cases applied
    · cases applied
      exact Or.inr ⟨operation, rfl, rfl⟩
  | signOperation operationId signature =>
    cases applied
    left
    apply operations_updateOperation
    exact fun _ => ⟨rfl, rfl, rfl, rfl, fun _ => rfl⟩
  | expireOperation operationId =>
    cases applied
    left
    apply operations_updateOperation
    exact fun _ => ⟨rfl, rfl, rfl, rfl, id⟩
  | skip | setStatus | setTransaction | broadcast | addExecute | addConfirm | completeJob | failJob
  | completeConfirm | failConfirm =>
    cases applied
    exact Or.inl kept

/-- A stored operation stays, in a later form. -/
theorem operation_apply {operation : CoSignOperation} (applied : write.apply shared = some after)
    (stored : operation ∈ shared.operations) :
    ∃ later ∈ after.operations, operation.Continues later := by
  obtain continued | ⟨inserted, _, added⟩ := operations_apply applied
  · obtain ⟨index, within, rfl⟩ := List.getElem_of_mem stored
    have within' : index < after.operations.length := continued.length_eq ▸ within
    exact ⟨_, List.getElem_mem within', (List.forall₂_iff_get.mp continued).2 index within within'⟩
  · exact ⟨operation, by simp [added, stored], .refl operation⟩

/-- What only grows in the records: the requests, and the co-sign operations with
their signatures. -/
structure Shared.Extends (before after : Shared) : Prop where
  requests : ∀ id request, before.request? id = some request → after.request? id = some request
  operations : ∀ operation ∈ before.operations, ∃ later ∈ after.operations,
    operation.Continues later

theorem Shared.Extends.refl (shared : Shared) : shared.Extends shared :=
  ⟨fun _ _ found => found, fun operation stored => ⟨operation, stored, .refl operation⟩⟩

theorem extends_apply (applied : write.apply shared = some after) : shared.Extends after :=
  ⟨fun id _ found => (request?_apply applied id).trans found,
    fun _ stored => operation_apply applied stored⟩

/-- A signature is never taken back. -/
theorem Shared.Signed.extend {before after : Shared} {id : WithdrawalId}
    (signed : before.Signed id) (extend : before.Extends after) : after.Signed id := by
  obtain ⟨operation, stored, own, given⟩ := signed
  obtain ⟨later, stays, continues⟩ := extend.operations operation stored
  exact ⟨later, stays, continues.withdrawalId.trans own, continues.signed given⟩

end CryptoVaultHub.Withdrawal

import CryptoVaultHub.CoreWallet.WithdrawalCreation

/-!
# Idempotency keys of withdrawals

Calls of `createWithdrawal` over the table of withdrawals, interleaved at its two statements there:
the lookup of the client's row with the key, and the insertion, many reads later, under a unique
index that knows no clients. Both compare keys up to the collation of the table.

A row remembers the request that created it, and each answer the rows that were there when it was
given; neither is in the program.
-/

namespace CryptoVaultHub.CoreWallet

open List Option

/-! ## Model -/

/-- A row of `withdrawals` with its request. -/
structure WithdrawalEntry where
  row : CreatedWithdrawal
  request : WithdrawalParams

inductive CreationOutcome where
  | returned (entry : WithdrawalEntry)
  | refused (failure : Failure)
  | duplicateKey

structure CreationAnswer where
  request : WithdrawalParams
  outcome : CreationOutcome
  entries : List WithdrawalEntry

structure WithdrawalTable where
  entries : List WithdrawalEntry
  answers : List CreationAnswer

def WithdrawalTable.answer (table : WithdrawalTable) (request : WithdrawalParams)
    (outcome : CreationOutcome) : WithdrawalTable :=
  { table with answers := table.answers ++ [⟨request, outcome, table.entries⟩] }

def WithdrawalTable.insert (table : WithdrawalTable) (entry : WithdrawalEntry) : WithdrawalTable :=
  { table with entries := table.entries ++ [entry] }

/-- The reads of a request that found no row, without its statements on the table. -/
def CreationEnvironment.unseen (environment : CreationEnvironment) : CreationEnvironment :=
  { environment with
    existing := none
    ending := fun
      | .existing | .insert | .insertRejected => .done
      | statement => environment.ending statement }

/-- The row that `createWithdrawal` inserts. -/
def newWithdrawal (environment : CreationEnvironment) (request : WithdrawalParams) :
    Except Failure CreatedWithdrawal :=
  match createWithdrawal environment.unseen request ⟨[], [], []⟩ with
  | .ok result _ => .ok result.withdrawal
  | .error failure _ => .error failure

inductive CreationPoint where
  | lookup
  | validate
  | insert (row : CreatedWithdrawal)

structure CreationCall where
  request : WithdrawalParams
  point : CreationPoint

section Collation

variable (collation : String → String)

/-- A row has the key of a request. -/
@[reducible] def CreatedWithdrawal.HasKey (row : CreatedWithdrawal) (request : WithdrawalParams) : Prop :=
  collation row.idempotencyKey = collation request.idempotencyKey

/-- `findFirst` with the key and the client. -/
def WithdrawalTable.existingByKey (table : WithdrawalTable) (request : WithdrawalParams) :
    Option WithdrawalEntry :=
  table.entries.find? fun entry =>
    entry.row.HasKey collation request ∧ entry.row.clientId = request.clientId

/-- Whether the unique index refuses the key of a request. -/
def WithdrawalTable.taken (table : WithdrawalTable) (request : WithdrawalParams) : Bool :=
  table.entries.any fun entry => entry.row.HasKey collation request

/-- One statement of `createWithdrawal`; a call whose statement fails answers with that. -/
def CreationCall.next (table : WithdrawalTable) (call : CreationCall)
    (input : Input CreationEnvironment) : WithdrawalTable × Option CreationCall :=
  let request := call.request
  match call.point with
  | .lookup =>
    match input.ending, table.existingByKey collation request with
    | .done, some entry => (table.answer request (.returned entry), none)
    | .done, none => (table, some ⟨request, .validate⟩)
    | _, _ => (table.answer request (.refused .database), none)
  | .validate =>
    match newWithdrawal input.answer request with
    | .ok row => (table, some ⟨request, .insert row⟩)
    | .error failure => (table.answer request (.refused failure), none)
  | .insert row =>
    match input.ending, table.taken collation request with
    | .done, true => (table.answer request .duplicateKey, none)
    | .done, false =>
      ((table.insert ⟨row, request⟩).answer request (.returned ⟨row, request⟩), none)
    | .lost, false => ((table.insert ⟨row, request⟩).answer request (.refused .database), none)
    | _, _ => (table.answer request (.refused .database), none)

def withdrawalCreation :
    ProcessPool WithdrawalTable CreationCall (Input CreationEnvironment) WithdrawalParams where
  Initial table := table.entries = [] ∧ table.answers = []
  next table call input := some (call.next collation table input)
  start table request := some (table, some ⟨request, .lookup⟩)

end Collation

abbrev CreationState := PoolState WithdrawalTable CreationCall

abbrev CreationAction := PoolAction (Input CreationEnvironment) WithdrawalParams

/-! ## The property -/

/-- Two requests agree in all but the client and the key. -/
structure WithdrawalParams.SameParameters (request other : WithdrawalParams) : Prop where
  chainId : request.chainId = other.chainId
  tokenId : request.tokenId = other.tokenId
  toAddressId : request.toAddressId = other.toAddressId
  amount : request.amount = other.amount
  sourceWallet : request.sourceWallet = other.sourceWallet

section Property

variable (collation : String → String)

/-- A row is the withdrawal of the client and the key of a request. -/
@[reducible] def WithdrawalEntry.Of (entry : WithdrawalEntry) (request : WithdrawalParams) : Prop :=
  entry.row.HasKey collation request ∧ entry.row.clientId = request.clientId

/-- What an answer owes to the rows that are there. -/
structure CreationAnswer.Proper (answer : CreationAnswer) : Prop where
  repeated : ∀ entry ∈ answer.entries, entry.Of collation answer.request →
    entry.request.SameParameters answer.request → answer.outcome = .returned entry
  different : ∀ entry ∈ answer.entries, entry.Of collation answer.request →
    ¬ entry.request.SameParameters answer.request → ∀ other, answer.outcome ≠ .returned other
  own : ∀ entry, answer.outcome = .returned entry → entry.row.clientId = answer.request.clientId
  undisturbed : ∀ entry ∈ answer.entries, entry.row.HasKey collation answer.request →
    entry.row.clientId ≠ answer.request.clientId → answer.outcome ≠ .duplicateKey

/-- At most one withdrawal of a client has a key, and every answer is proper, unless the database
failed. -/
structure WithdrawalTable.Idempotent (table : WithdrawalTable) : Prop where
  unique : table.entries.Pairwise fun entry other =>
    ¬ (entry.row.clientId = other.row.clientId ∧
      collation entry.row.idempotencyKey = collation other.row.idempotencyKey)
  proper : ∀ answer ∈ table.answers,
    answer.outcome = .refused .database ∨ answer.Proper collation

/-- The rows that a statement should not meet: for a lookup one of another request, for a refusal
one of the same request, for an insertion any with the key, apart from one of the client's other
requests. -/
def CreationCall.Meets (table : WithdrawalTable) (call : CreationCall)
    (input : Input CreationEnvironment) : Prop :=
  match call.point with
  | .lookup => input.ending = .done →
      ∀ entry ∈ table.entries, entry.Of collation call.request →
        entry.request.SameParameters call.request
  | .validate =>
    match newWithdrawal input.answer call.request with
    | .ok _ => True
    | .error failure => failure ≠ .database →
        ∀ entry ∈ table.entries, entry.Of collation call.request →
          ¬ entry.request.SameParameters call.request
  | .insert _ => input.ending = .done →
      ∀ entry ∈ table.entries, entry.row.HasKey collation call.request →
        entry.row.clientId = call.request.clientId ∧
          ¬ entry.request.SameParameters call.request

def CreationState.Undisputed (state : CreationState) : CreationAction → Prop
  | .advance pid input => ∀ call ∈ state.process? pid, call.Meets collation state.shared input
  | _ => True

end Property

/-! ## The row of a request -/

section Rows

variable {environment : CreationEnvironment} {request : WithdrawalParams} {before after : Records}
  {result : CreationResult}

/-- A row is of the client of a request, with its key. -/
structure CreatedWithdrawal.For (row : CreatedWithdrawal) (request : WithdrawalParams) :
    Prop where
  clientId : row.clientId = request.clientId
  idempotencyKey : row.idempotencyKey = request.idempotencyKey

theorem insertWithdrawal_ok {ending : Ending} {row : CreatedWithdrawal}
    (ran : insertWithdrawal ending row before = .ok result after) : result.withdrawal = row := by
  rw [insertWithdrawal, bind_ok] at ran
  obtain ⟨_, _, _, returned⟩ := ran
  obtain ⟨rfl, _⟩ := pure_ok.mp returned
  rfl

theorem rejectWithdrawal_ok {whitelisted : WhitelistedAddress}
    (ran : rejectWithdrawal environment request whitelisted before = .ok result after) :
    result.withdrawal.For request := by
  rw [rejectWithdrawal, bind_ok] at ran
  obtain ⟨_, _, _, inserted⟩ := ran
  rw [insertWithdrawal_ok inserted]
  exact ⟨rfl, rfl⟩

theorem acceptWithdrawal_ok {whitelisted : WhitelistedAddress}
    (ran : acceptWithdrawal environment request whitelisted before = .ok result after) :
    result.withdrawal.For request := by
  rw [acceptWithdrawal, bind_ok] at ran
  obtain ⟨token, _, _, ran⟩ := ran
  cases token with
  | none => exact absurd ran throw_ok
  | some token =>
    simp only [bind_ok] at ran
    obtain ⟨_, _, _, _, _, _, _, _, _, wallet, _, _, ran⟩ := ran
    cases wallet with
    | none => exact absurd ran throw_ok
    | some wallet =>
      cases parsed : environment.parseUnits request.amount token.decimals with
      | none =>
        simp only [parsed] at ran
        exact absurd ran throw_ok
      | some amountParsed =>
        simp only [parsed, bind_ok] at ran
        obtain ⟨_, _, _, _, _, _, inserted⟩ := ran
        rw [insertWithdrawal_ok inserted]
        exact ⟨rfl, rfl⟩

/-- What a call that found no row returns is a row for its request. -/
theorem createWithdrawal_ok (fresh : environment.existing = none)
    (ran : createWithdrawal environment request before = .ok result after) :
    result.withdrawal.For request := by
  rw [createWithdrawal, bind_ok, fresh] at ran
  obtain ⟨existing, _, answered, ran⟩ := ran
  obtain ⟨_, rfl, _⟩ := read_ok.mp answered
  rw [bind_ok] at ran
  obtain ⟨whitelisted, _, _, ran⟩ := ran
  cases whitelisted with
  | none => exact absurd ran throw_ok
  | some whitelisted =>
    simp only [bind_ok] at ran
    obtain ⟨_, _, _, _, _, _, screening, _, _, ran⟩ := ran
    split at ran
    · exact rejectWithdrawal_ok ran
    · exact acceptWithdrawal_ok ran

theorem newWithdrawal_ok {row : CreatedWithdrawal}
    (validated : newWithdrawal environment request = .ok row) : row.For request := by
  rw [newWithdrawal] at validated
  split at validated
  · rename_i ran
    cases validated
    exact createWithdrawal_ok rfl ran
  · cases validated

end Rows

/-! ## What a statement leaves -/

section Statements

variable {collation : String → String} {table : WithdrawalTable} {call : CreationCall}
  {input : Input CreationEnvironment}

/-- A call is about to insert a row for its request. -/
def CreationCall.Prepared (call : CreationCall) : Prop :=
  ∀ row, call.point = .insert row → row.For call.request

/-- What a statement does to the table: nothing, an answer, a row, or a row and an answer. -/
inductive WithdrawalTable.Changes (table : WithdrawalTable) (request : WithdrawalParams) :
    WithdrawalTable → Prop where
  | unchanged : table.Changes request table
  | answered (outcome : CreationOutcome) : table.Changes request (table.answer request outcome)
  | inserted (row : CreatedWithdrawal) (outcome : CreationOutcome) :
      table.Changes request ((table.insert ⟨row, request⟩).answer request outcome)

theorem CreationCall.next_changes :
    table.Changes call.request (call.next collation table input).1 := by
  obtain ⟨request, point⟩ := call
  cases point with
  | lookup =>
    simp only [CreationCall.next]
    split
    · exact .answered _
    · exact .unchanged
    · exact .answered _
  | validate =>
    simp only [CreationCall.next]
    split
    · exact .unchanged
    · exact .answered _
  | insert row =>
    simp only [CreationCall.next]
    split
    · exact .answered _
    · exact .inserted _ _
    · exact .inserted _ _
    · exact .answered _

variable {request : WithdrawalParams}

/-- What was not idempotent stays so. -/
theorem WithdrawalTable.Idempotent.of_changes {after : WithdrawalTable}
    (holds : after.Idempotent collation) (changes : table.Changes request after) :
    table.Idempotent collation := by
  obtain ⟨unique, proper⟩ := holds
  cases changes with
  | unchanged => exact ⟨unique, proper⟩
  | answered outcome =>
    exact ⟨unique, fun answer member => proper answer (mem_append_left _ member)⟩
  | inserted row outcome =>
    exact ⟨(pairwise_append.mp unique).1,
      fun answer member => proper answer (mem_append_left _ member)⟩

theorem WithdrawalTable.Idempotent.answer_iff (holds : table.Idempotent collation)
    {outcome : CreationOutcome} :
    (table.answer request outcome).Idempotent collation ↔
      outcome = .refused .database ∨
        CreationAnswer.Proper collation ⟨request, outcome, table.entries⟩ := by
  constructor
  · intro after
    exact after.proper ⟨request, outcome, table.entries⟩
      (mem_append_right _ (mem_singleton_self _))
  · intro proper
    refine ⟨holds.unique, ?_⟩
    intro answer member
    obtain old | new := mem_append.mp member
    · exact holds.proper answer old
    · cases mem_singleton.mp new
      exact proper

/-- No two rows have one key, whoever their clients are. -/
def WithdrawalTable.KeysUnique (collation : String → String) (table : WithdrawalTable) : Prop :=
  (table.entries.map fun entry => collation entry.row.idempotencyKey).Nodup

theorem WithdrawalTable.KeysUnique.eq_of_hasKey (unique : table.KeysUnique collation)
    {entry other : WithdrawalEntry} (member : entry ∈ table.entries)
    (otherMember : other ∈ table.entries) (key : entry.row.HasKey collation request)
    (otherKey : other.row.HasKey collation request) : entry = other :=
  inj_on_of_nodup_map unique member otherMember (key.trans otherKey.symm)

theorem WithdrawalTable.not_hasKey_of_taken (free : table.taken collation request = false) :
    ∀ entry ∈ table.entries, ¬ entry.row.HasKey collation request := by
  simpa [WithdrawalTable.taken] using free

theorem WithdrawalTable.KeysUnique.insert (unique : table.KeysUnique collation)
    {request : WithdrawalParams} {row : CreatedWithdrawal} (isFor : row.For request)
    (free : table.taken collation request = false) :
    (table.insert ⟨row, request⟩).KeysUnique collation := by
  have absent := WithdrawalTable.not_hasKey_of_taken free
  rw [WithdrawalTable.KeysUnique, WithdrawalTable.insert, map_append, nodup_append]
  refine ⟨unique, nodup_singleton _, ?_⟩
  rintro key member other isNew rfl
  obtain ⟨entry, inTable, same⟩ := mem_map.mp member
  rw [mem_singleton.mp isNew] at same
  exact absent entry inTable (same.trans (congrArg collation isFor.idempotencyKey))

/-- A new row keeps the property, and the answer with it. -/
theorem WithdrawalTable.Idempotent.insert (holds : table.Idempotent collation)
    {request : WithdrawalParams} {row : CreatedWithdrawal} (isFor : row.For request)
    (free : table.taken collation request = false) {outcome : CreationOutcome}
    (answers : outcome = .refused .database ∨ outcome = .returned ⟨row, request⟩) :
    ((table.insert ⟨row, request⟩).answer request outcome).Idempotent collation := by
  have absent := WithdrawalTable.not_hasKey_of_taken free
  have inserted : (table.insert ⟨row, request⟩).Idempotent collation := by
    refine ⟨pairwise_append.mpr ⟨holds.unique, pairwise_singleton _ _, ?_⟩,
      holds.proper⟩
    rintro entry member other isNew ⟨-, same⟩
    cases mem_singleton.mp isNew
    rw [isFor.idempotencyKey] at same
    exact absent entry member same
  apply inserted.answer_iff.mpr
  refine answers.imp_right ?_
  rintro rfl
  have isNew : ∀ entry ∈ (table.insert ⟨row, request⟩).entries,
      entry.row.HasKey collation request → entry = ⟨row, request⟩ := by
    intro entry member key
    obtain old | new := mem_append.mp member
    · exact absurd key (absent entry old)
    · exact mem_singleton.mp new
  constructor
  · rintro entry member ⟨key, -⟩ -
    rw [isNew entry member key]
  · rintro entry member ⟨key, -⟩ differs
    rw [isNew entry member key] at differs
    exact absurd ⟨rfl, rfl, rfl, rfl, rfl⟩ differs
  · rintro entry ⟨⟩
    exact isFor.clientId
  · rintro entry - - - ⟨⟩

/-- The client's row with the key is returned to the request that created it, up to the client
and the key. -/
theorem CreationCall.lookup_iff (unique : table.KeysUnique collation) {found : WithdrawalEntry}
    (isFound : table.existingByKey collation request = some found) :
    CreationAnswer.Proper collation ⟨request, .returned found, table.entries⟩ ↔
      ∀ entry ∈ table.entries, entry.Of collation request →
        entry.request.SameParameters request := by
  have member := mem_of_find?_eq_some isFound
  have isOf : found.Of collation request := by
    have passed := find?_some isFound
    exact of_decide_eq_true passed
  constructor
  · intro proper entry entryMember entryOf
    by_contra differs
    exact proper.different entry entryMember entryOf differs found rfl
  · intro same
    constructor
    · intro entry entryMember entryOf _
      rw [unique.eq_of_hasKey member entryMember isOf.1 entryOf.1]
    · intro entry entryMember entryOf differs
      exact absurd (same entry entryMember entryOf) differs
    · rintro entry ⟨⟩
      exact isOf.2
    · rintro entry - - - ⟨⟩

/-- A call is refused with respect to the rows of its own client only. -/
theorem CreationCall.refused_iff {failure : Failure} :
    CreationAnswer.Proper collation ⟨request, .refused failure, table.entries⟩ ↔
      ∀ entry ∈ table.entries, entry.Of collation request →
        ¬ entry.request.SameParameters request := by
  constructor
  · intro proper entry member isOf same
    cases proper.repeated entry member isOf same
  · intro differ
    constructor
    · intro entry member isOf same
      exact absurd same (differ entry member isOf)
    · rintro entry - - - other ⟨⟩
    · rintro entry ⟨⟩
    · rintro entry - - - ⟨⟩

theorem CreationCall.duplicate_iff :
    CreationAnswer.Proper collation ⟨request, .duplicateKey, table.entries⟩ ↔
      ∀ entry ∈ table.entries, entry.row.HasKey collation request →
        entry.row.clientId = request.clientId ∧ ¬ entry.request.SameParameters request := by
  constructor
  · intro proper entry member key
    have own : entry.row.clientId = request.clientId := by
      by_contra foreign
      exact proper.undisturbed entry member key foreign rfl
    refine ⟨own, ?_⟩
    intro same
    cases proper.repeated entry member ⟨key, own⟩ same
  · intro differ
    constructor
    · intro entry member isOf same
      exact absurd same (differ entry member isOf.1).2
    · rintro entry - - - other ⟨⟩
    · rintro entry ⟨⟩
    · intro entry member key foreign
      exact absurd (differ entry member key).1 foreign

/-- A statement keeps the property exactly when it meets no row that it should not. -/
theorem CreationCall.next_idempotent_iff (unique : table.KeysUnique collation)
    (prepared : call.Prepared) (holds : table.Idempotent collation) :
    (call.next collation table input).1.Idempotent collation ↔
      call.Meets collation table input := by
  obtain ⟨request, point⟩ := call
  obtain ⟨ending, environment⟩ := input
  have failed : (table.answer request (.refused .database)).Idempotent collation :=
    holds.answer_iff.mpr (.inl rfl)
  cases point with
  | lookup =>
    cases ending with
    | failed | lost =>
      exact ⟨fun _ => by rintro ⟨⟩, fun _ => failed⟩
    | done =>
      cases found : table.existingByKey collation request with
      | none =>
        simp only [CreationCall.next, CreationCall.Meets, found, holds, true_iff]
        intro _ entry member isOf
        have absent := find?_eq_none.mp found entry member
        exact absurd (decide_eq_true isOf) absent
      | some entry =>
        simp only [CreationCall.next, CreationCall.Meets, found, holds.answer_iff,
          lookup_iff unique found]
        simp
  | validate =>
    cases validated : newWithdrawal environment request with
    | ok row => simp [CreationCall.next, CreationCall.Meets, validated, holds]
    | error failure =>
      simp only [CreationCall.next, CreationCall.Meets, validated, holds.answer_iff,
        refused_iff, CreationOutcome.refused.injEq]
      exact or_iff_not_imp_left
  | insert row =>
    have isFor := prepared row rfl
    cases taken : table.taken collation request with
    | true =>
      cases ending with
      | failed | lost =>
        simp only [CreationCall.next, CreationCall.Meets, taken, failed, true_iff]
        rintro ⟨⟩
      | done =>
        simp only [CreationCall.next, CreationCall.Meets, taken, holds.answer_iff,
          duplicate_iff]
        simp
    | false =>
      have absent := WithdrawalTable.not_hasKey_of_taken taken
      have meets : CreationCall.Meets collation table ⟨request, .insert row⟩
          ⟨ending, environment⟩ :=
        fun _ entry member key => absurd key (absent entry member)
      cases ending with
      | failed => simpa only [CreationCall.next, taken, failed, true_iff] using meets
      | done =>
        simp only [CreationCall.next, taken, meets, iff_true]
        exact holds.insert isFor taken (.inr rfl)
      | lost =>
        simp only [CreationCall.next, taken, meets, iff_true]
        exact holds.insert isFor taken (.inl rfl)

end Statements

/-! ## Runs -/

def creationOutline (collation : String → String) :
    ProofOutline WithdrawalTable CreationCall where
  Global := WithdrawalTable.KeysUnique collation
  Local _ call := call.Prepared
  Apart _ _ := True
  apart_symm _ := trivial

section Runs

variable {collation : String → String} {table : WithdrawalTable} {call : CreationCall}
  {input : Input CreationEnvironment}

theorem CreationCall.next_keysUnique (unique : table.KeysUnique collation)
    (prepared : call.Prepared) : (call.next collation table input).1.KeysUnique collation := by
  obtain ⟨request, point⟩ := call
  cases point with
  | lookup =>
    simp only [CreationCall.next]
    split <;> exact unique
  | validate =>
    simp only [CreationCall.next]
    split <;> exact unique
  | insert row =>
    have isFor := prepared row rfl
    simp only [CreationCall.next]
    split
    · exact unique
    · rename_i free
      exact unique.insert isFor free
    · rename_i free
      exact unique.insert isFor free
    · exact unique

theorem CreationCall.next_prepared {later : CreationCall}
    (goes : (call.next collation table input).2 = some later) : later.Prepared := by
  obtain ⟨request, point⟩ := call
  cases point with
  | lookup =>
    simp only [CreationCall.next] at goes
    split at goes <;> cases goes
    rintro row ⟨⟩
  | validate =>
    simp only [CreationCall.next] at goes
    split at goes
    · rename_i validated
      cases goes
      rintro row ⟨⟩
      exact newWithdrawal_ok validated
    · cases goes
  | insert row =>
    simp only [CreationCall.next] at goes
    split at goes <;> cases goes

theorem creation_holds {Allowed : CreationState → CreationAction → Prop} {state : CreationState}
    (reached : (withdrawalCreation collation).system.Reachable Allowed state) :
    (creationOutline collation).Holds state := by
  refine ProofOutline.reachable reached ?_ ?_ ?_
  · rintro table ⟨noEntries, -⟩
    change (table.entries.map _).Nodup
    rw [noEntries]
    exact nodup_nil
  · intro state request table process holds _ started
    cases started
    refine ⟨holds.global, ?_, ?_, fun _ _ _ _ _ _ => trivial⟩
    · rintro call ⟨⟩ row ⟨⟩
    · exact fun other call _ running => holds.locals other call running
  · intro state pid call input table process holds _ found moved
    have same : call.next collation state.shared input = (table, process) := Option.some.inj moved
    obtain rfl : (call.next collation state.shared input).1 = table := congrArg Prod.fst same
    obtain rfl : (call.next collation state.shared input).2 = process := congrArg Prod.snd same
    refine ⟨?_, ?_, ?_, fun _ _ _ _ _ _ => trivial⟩
    · exact CreationCall.next_keysUnique holds.global (holds.locals pid call found)
    · exact fun later goes => CreationCall.next_prepared goes
    · exact fun other call _ running => holds.locals other call running

/-- The keys of withdrawals are idempotent in exactly the runs in which no statement meets a row
that it should not. -/
theorem creation_idempotent_iff {state : CreationState}
    (reached : (withdrawalCreation collation).system.Reachable
      TransitionSystem.Unrestricted state) :
    state.shared.Idempotent collation ↔
      (withdrawalCreation collation).system.Reachable
        (CreationState.Undisputed collation) state := by
  refine @TransitionSystem.Reachable.property_iff _ _ _ (CreationState.Undisputed collation)
    (fun state => state.shared.Idempotent collation) state reached ?_ ?_ ?_
  · rintro start ⟨⟨noEntries, noAnswers⟩, -⟩
    constructor
    · rw [noEntries]
      exact .nil
    · rw [noAnswers]
      rintro answer ⟨⟩
  · intro state action next before holds transition
    cases action with
    | launch request =>
      obtain ⟨table, process, started, rfl⟩ := ProcessPool.step_launch transition
      cases started
      exact ⟨fun _ => trivial, fun _ => holds⟩
    | advance pid input =>
      obtain ⟨call, table, process, found, moved, rfl⟩ := ProcessPool.step_advance transition
      have outline := creation_holds before
      have same : call.next collation state.shared input = (table, process) :=
        Option.some.inj moved
      obtain rfl : (call.next collation state.shared input).1 = table := congrArg Prod.fst same
      have keeps : (call.next collation state.shared input).1.Idempotent collation ↔
          call.Meets collation state.shared input :=
        CreationCall.next_idempotent_iff outline.global (outline.locals pid call found) holds
      simpa [CreationState.Undisputed, found] using keeps
    | crash pid =>
      obtain ⟨call, found, rfl⟩ := ProcessPool.step_crash transition
      exact ⟨fun _ => trivial, fun _ => holds⟩
  · intro state action next transition holds
    cases action with
    | launch request =>
      obtain ⟨table, process, started, rfl⟩ := ProcessPool.step_launch transition
      cases started
      exact holds
    | advance pid input =>
      obtain ⟨call, table, process, found, moved, rfl⟩ := ProcessPool.step_advance transition
      have same : call.next collation state.shared input = (table, process) :=
        Option.some.inj moved
      obtain rfl : (call.next collation state.shared input).1 = table := congrArg Prod.fst same
      exact holds.of_changes CreationCall.next_changes
    | crash pid =>
      obtain ⟨call, found, rfl⟩ := ProcessPool.step_crash transition
      exact holds

end Runs

/-! ## Requests with one key -/

deriving instance DecidableEq for WithdrawalParams

deriving instance DecidableEq for WithdrawalEntry

deriving instance DecidableEq for CreationOutcome

instance (request other : WithdrawalParams) : Decidable (request.SameParameters other) :=
  decidable_of_iff (request.chainId = other.chainId ∧ request.tokenId = other.tokenId ∧
      request.toAddressId = other.toAddressId ∧ request.amount = other.amount ∧
      request.sourceWallet = other.sourceWallet)
    ⟨fun ⟨chain, token, address, amount, wallet⟩ => ⟨chain, token, address, amount, wallet⟩,
      fun same => ⟨same.chainId, same.tokenId, same.toAddressId, same.amount, same.sourceWallet⟩⟩

instance (collation : String → String) (table : WithdrawalTable) (call : CreationCall)
    (input : Input CreationEnvironment) : Decidable (call.Meets collation table input) := by
  unfold CreationCall.Meets
  split
  · infer_instance
  · split <;> infer_instance
  · infer_instance

instance (collation : String → String) (state : CreationState) :
    DecidablePred (state.Undisputed collation) := fun action => by
  unfold CreationState.Undisputed
  split <;> infer_instance

def emptyTable : CreationState := ⟨⟨[], []⟩, []⟩

theorem emptyTable_initial : (withdrawalCreation id).system.Initial emptyTable :=
  ⟨⟨rfl, rfl⟩, rfl⟩

/-- Statements of a call, with the answers of a client whose destination is not traced. -/
def creationSteps (pid steps : Nat) : List CreationAction :=
  List.replicate steps (.advance pid ⟨.done, sampleCreation true⟩)

theorem creation_idempotent_sample :
    ∃ state, (withdrawalCreation id).system.Reachable TransitionSystem.Unrestricted state ∧
      state.shared.entries.length = 1 ∧ state.shared.answers.length = 2 ∧
        state.shared.Idempotent id := by
  obtain ⟨state, reached, one, two⟩ : ∃ state,
      (withdrawalCreation id).system.Reachable (CreationState.Undisputed id) state ∧
        state.shared.entries.length = 1 ∧ state.shared.answers.length = 2 :=
    TransitionSystem.exists_reachable emptyTable_initial
      (.launch sampleParams :: creationSteps 0 3 ++ .launch sampleParams :: creationSteps 1 1) (by decide +kernel)
  exact ⟨state, reached.unrestricted, one, two,
    (creation_idempotent_iff reached.unrestricted).mpr reached⟩

/-- A second client cannot use the key of the first; a request that overlaps with its repetition
fails; and a request with other parameters is given the withdrawal of the first. -/
theorem creation_not_idempotent :
    (∃ state, (withdrawalCreation id).system.Reachable TransitionSystem.Unrestricted state ∧
      ∃ answer ∈ state.shared.answers, answer.request = { sampleParams with clientId := 2 } ∧
        answer.outcome = .duplicateKey ∧ ¬ state.shared.Idempotent id) ∧
    (∃ state, (withdrawalCreation id).system.Reachable TransitionSystem.Unrestricted state ∧
      ∃ answer ∈ state.shared.answers, answer.request = sampleParams ∧
        answer.outcome = .duplicateKey ∧ ¬ state.shared.Idempotent id) ∧
    ∃ state, (withdrawalCreation id).system.Reachable TransitionSystem.Unrestricted state ∧
      ∃ answer ∈ state.shared.answers, answer.request = { sampleParams with amount := "6" } ∧
        answer.outcome = .returned ⟨sampleRow, sampleParams⟩ ∧ ¬ state.shared.Idempotent id := by
  refine ⟨?_, ?_, ?_⟩
  · obtain ⟨state, reached, passed⟩ : ∃ state,
        (withdrawalCreation id).system.Reachable TransitionSystem.Unrestricted state ∧
          decide (∃ answer ∈ state.shared.answers,
            answer.request = { sampleParams with clientId := 2 } ∧
            answer.outcome = .duplicateKey ∧ ∃ entry ∈ answer.entries,
              entry.row.HasKey id answer.request ∧
                entry.row.clientId ≠ answer.request.clientId) = true :=
      TransitionSystem.exists_reachable_of_run emptyTable_initial
        (.launch sampleParams :: creationSteps 0 3 ++
          .launch { sampleParams with clientId := 2 } :: creationSteps 1 3) _ (by decide +kernel)
    obtain ⟨answer, member, request, outcome, entry, isEntry, key, foreign⟩ :=
      of_decide_eq_true passed
    refine ⟨state, reached, answer, member, request, outcome, ?_⟩
    intro idempotent
    obtain failed | proper := idempotent.proper answer member
    · rw [outcome] at failed
      cases failed
    · exact proper.undisturbed entry isEntry key foreign outcome
  · obtain ⟨state, reached, passed⟩ : ∃ state,
        (withdrawalCreation id).system.Reachable TransitionSystem.Unrestricted state ∧
          decide (∃ answer ∈ state.shared.answers, answer.request = sampleParams ∧
            answer.outcome = .duplicateKey ∧ ∃ entry ∈ answer.entries,
              entry.Of id answer.request ∧ entry.request.SameParameters answer.request) = true :=
      TransitionSystem.exists_reachable_of_run emptyTable_initial
        (.launch sampleParams :: .launch sampleParams :: creationSteps 0 2 ++
          creationSteps 1 3 ++ creationSteps 0 1) _ (by decide +kernel)
    obtain ⟨answer, member, request, outcome, entry, isEntry, isOf, same⟩ :=
      of_decide_eq_true passed
    refine ⟨state, reached, answer, member, request, outcome, ?_⟩
    intro idempotent
    obtain failed | proper := idempotent.proper answer member
    · rw [outcome] at failed
      cases failed
    · have returned := proper.repeated entry isEntry isOf same
      rw [outcome] at returned
      cases returned
  · obtain ⟨state, reached, passed⟩ : ∃ state,
        (withdrawalCreation id).system.Reachable TransitionSystem.Unrestricted state ∧
          decide (∃ answer ∈ state.shared.answers,
            answer.request = { sampleParams with amount := "6" } ∧
            answer.outcome = .returned ⟨sampleRow, sampleParams⟩ ∧ ∃ entry ∈ answer.entries,
              entry.Of id answer.request ∧
                ¬ entry.request.SameParameters answer.request) = true :=
      TransitionSystem.exists_reachable_of_run emptyTable_initial
        (.launch sampleParams :: creationSteps 0 3 ++
          .launch { sampleParams with amount := "6" } :: creationSteps 1 1) _ (by decide +kernel)
    obtain ⟨answer, member, request, outcome, entry, isEntry, isOf, differs⟩ :=
      of_decide_eq_true passed
    refine ⟨state, reached, answer, member, request, outcome, ?_⟩
    intro idempotent
    obtain failed | proper := idempotent.proper answer member
    · rw [outcome] at failed
      cases failed
    · exact proper.different entry isEntry isOf differs _ outcome

end CryptoVaultHub.CoreWallet

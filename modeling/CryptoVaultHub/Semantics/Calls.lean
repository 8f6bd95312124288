import CryptoVaultHub.Semantics.Statement

/-!
# Calls that can fail between their statements

A call is a chain of statements on a store. Each statement takes effect on its own, and an error
ends the call without taking back what earlier statements have done. `Call.statement` gives one
statement its ending, and `Call.act` is one that always succeeds; `bind_cases` and `bind_ok` say how
far a call has come, and `Keeps` carries a property of the store through a call.
-/

namespace CryptoVaultHub

variable {Store Failure Value Result : Type}

/-- From a store to a value or an error, and the store that is left. -/
def Call (Store Failure Value : Type) : Type :=
  Store → Except Failure Value × Store

namespace Call

def pure (value : Value) : Call Store Failure Value :=
  fun store => (.ok value, store)

/-- An error of the first part ends the call. -/
def bind (first : Call Store Failure Value) (rest : Value → Call Store Failure Result) :
    Call Store Failure Result := fun store =>
  match first store with
  | (.ok value, after) => rest value after
  | (.error failure, after) => (.error failure, after)

instance : Monad (Call Store Failure) where
  pure := Call.pure
  bind := Call.bind

/-- One statement: it throws by itself and changes nothing, or it ends as it is told, with the
given error if its answer does not arrive. -/
def statement (ending : Ending) (unanswered : Failure)
    (body : Store → Except Failure (Value × Store)) : Call Store Failure Value := fun store =>
  match body store with
  | .error failure => (.error failure, store)
  | .ok (value, after) =>
    match ending with
    | .done => (.ok value, after)
    | .failed => (.error unanswered, store)
    | .lost => (.error unanswered, after)

def fail (failure : Failure) : Call Store Failure Value :=
  fun store => (.error failure, store)

/-- A statement that always takes effect. -/
def act (body : Store → Store × Value) : Call Store Failure Value :=
  fun store => (.ok (body store).2, (body store).1)

def refuseIf (refused : Bool) (failure : Failure) : Call Store Failure Unit :=
  if refused then fail failure else Pure.pure ()

variable {first : Call Store Failure Value} {rest : Value → Call Store Failure Result}
  {store after : Store}

theorem bind_apply_ok {value : Value} (returned : first store = (.ok value, after)) :
    (first >>= rest) store = rest value after := by
  simp only [Bind.bind, Call.bind, returned]

theorem bind_apply_error {failure : Failure} (thrown : first store = (.error failure, after)) :
    (first >>= rest) store = (.error failure, after) := by
  simp only [Bind.bind, Call.bind, thrown]

@[simp] theorem fail_apply (failure : Failure) :
    (fail failure : Call Store Failure Value) store = (.error failure, store) := rfl

@[simp] theorem act_bind_apply (body : Store → Store × Value) :
    (act body >>= rest) store = rest (body store).2 (body store).1 := rfl

theorem refuseIf_apply (refused : Bool) (failure : Failure) :
    (refuseIf refused failure : Call Store Failure Unit) store =
      (if refused then .error failure else .ok (), store) := by
  cases refused <;> rfl

theorem refuseIf_bind_apply (refused : Bool) (failure : Failure)
    (next : Unit → Call Store Failure Result) :
    (refuseIf refused failure >>= next) store =
      if refused then (.error failure, store) else next () store := by
  cases refused <;> rfl

/-- A chain that fails at last leaves what its first part has left. -/
theorem bind_fail_store (failure : Failure) :
    ((first >>= fun _ => (fail failure : Call Store Failure Result)) store).2 =
      (first store).2 := by
  rcases executed : first store with ⟨thrown | value, after⟩
  · rw [bind_apply_error executed]
  · rw [bind_apply_ok executed, fail_apply]

/-- The first part throws, or the rest goes on from what it has left. -/
theorem bind_cases (first : Call Store Failure Value) (rest : Value → Call Store Failure Result)
    (store : Store) :
    (∃ failure after, first store = (.error failure, after) ∧
        (first >>= rest) store = (.error failure, after)) ∨
      ∃ value after, first store = (.ok value, after) ∧
        (first >>= rest) store = rest value after := by
  rcases executed : first store with ⟨failure | value, after⟩
  · exact .inl ⟨failure, after, rfl, bind_apply_error executed⟩
  · exact .inr ⟨value, after, rfl, bind_apply_ok executed⟩

/-- A chain that returns has got through its first part. -/
theorem bind_ok {result : Result} (returned : ((first >>= rest) store).1 = .ok result) :
    ∃ value after, first store = (.ok value, after) ∧ (rest value after).1 = .ok result := by
  obtain ⟨failure, after, -, thrown⟩ | ⟨value, after, executed, continued⟩ :=
    bind_cases first rest store
  · rw [thrown] at returned
    cases returned
  · rw [continued] at returned
    exact ⟨value, after, executed, returned⟩

section Statements

variable {ending : Ending} {unanswered : Failure} {body : Store → Except Failure (Value × Store)}

theorem statement_error {failure : Failure} (refused : body store = .error failure) :
    statement ending unanswered body store = (.error failure, store) := by
  simp only [statement, refused]

theorem statement_ok {value : Value} (takes : body store = .ok (value, after)) :
    statement ending unanswered body store =
      match ending with
      | .done => (.ok value, after)
      | .failed => (.error unanswered, store)
      | .lost => (.error unanswered, after) := by
  simp only [statement, takes]

/-- A statement that returns was done. -/
theorem statement_returned {value : Value}
    (returned : statement ending unanswered body store = (.ok value, after)) :
    body store = .ok (value, after) ∧ ending = .done := by
  simp only [statement] at returned
  split at returned
  · cases returned
  · rename_i takes
    cases ending with
    | done =>
      cases returned
      exact ⟨takes, rfl⟩
    | failed | lost => cases returned

end Statements

/-- The call leaves the property to the store, however it ends. -/
def Keeps (Property : Store → Prop) (call : Call Store Failure Value) : Prop :=
  ∀ store, Property store → Property (call store).2

variable {Property : Store → Prop}

theorem Keeps.pure (value : Value) :
    Keeps Property (Pure.pure value : Call Store Failure Value) :=
  fun _ holds => holds

theorem Keeps.fail (failure : Failure) :
    Keeps Property (Call.fail failure : Call Store Failure Value) :=
  fun _ holds => holds

theorem Keeps.act {body : Store → Store × Value}
    (kept : ∀ store, Property store → Property (body store).1) :
    Keeps Property (Call.act body : Call Store Failure Value) :=
  kept

theorem Keeps.refuseIf (refused : Bool) (failure : Failure) :
    Keeps Property (Call.refuseIf refused failure) := by
  cases refused
  · exact Keeps.pure ()
  · exact Keeps.fail failure

/-- What the first part leaves, the rest keeps. -/
theorem bind_holds (holds : Property (first store).2)
    (continued : ∀ value, (rest value).Keeps Property) : Property ((first >>= rest) store).2 := by
  obtain ⟨failure, after, executed, thrown⟩ | ⟨value, after, executed, goes⟩ :=
    bind_cases first rest store
  · rw [executed] at holds
    rw [thrown]
    exact holds
  · rw [executed] at holds
    rw [goes]
    exact continued value after holds

theorem Keeps.bind (keeps : first.Keeps Property)
    (continued : ∀ value, (rest value).Keeps Property) : (first >>= rest).Keeps Property :=
  fun store holds => bind_holds (keeps store holds) continued

theorem Keeps.statement {ending : Ending} {unanswered : Failure}
    {body : Store → Except Failure (Value × Store)}
    (kept : ∀ store value after, Property store → body store = .ok (value, after) →
      Property after) : (Call.statement ending unanswered body).Keeps Property := by
  intro store holds
  rcases takes : body store with failure | ⟨value, after⟩
  · rw [statement_error takes]
    exact holds
  · rw [statement_ok takes]
    cases ending with
    | done | lost => exact kept store value after holds takes
    | failed => exact holds

end Call

end CryptoVaultHub

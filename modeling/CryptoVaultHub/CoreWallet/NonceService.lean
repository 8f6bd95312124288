import CryptoVaultHub.Semantics.Statement

/-!
# Handing out nonces

`acquireNonce` takes a lock with a lifetime, reads the cached nonce or asks the chain for
the number of its pending transactions, stores the next nonce, and returns. The lock is
released by the caller after it has submitted its transaction. The nonces of one address on
one chain are modelled; different ones share nothing.

Which nonces were returned, and which of them were reset since then, is not in the program; no
statement depends on it.
-/

namespace CryptoVaultHub.CoreWallet

open TransitionSystem

/-- A returned nonce, and whether the cache was reset since then. -/
structure Acquisition where
  nonce : Nat
  wasReset : Bool
deriving DecidableEq

/-- The keys `nonce_lock:<chain>:<address>` and `nonce:<chain>:<address>`. A lock value is
drawn at random; its model is the number of values drawn before. -/
structure Nonces where
  lock : Option Nat
  cached : Option Nat
  drawn : Nat
  issued : List Acquisition
deriving DecidableEq

/-- The points of `acquireNonce` and of the `release` that it returns. -/
inductive AcquirePoint where
  | waitForLock
  | readCache
  | getProvider
  | getTransactionCount
  | store (nonce : Nat)
  | answer (nonce : Nat)
  | releaseLock
deriving DecidableEq

structure Caller where
  lockValue : Nat
  point : AcquirePoint
deriving DecidableEq

/-- Whether the deadline has passed, and the number of pending transactions. -/
structure NonceAnswer where
  late : Bool
  pending : Nat

/-- A caller goes on at a point. -/
def Caller.goTo (caller : Caller) (point : AcquirePoint) : Option Caller :=
  some { caller with point := point }

/-- `acquireNonce`. An error in the critical section releases the lock. -/
def Caller.statement (nonces : Nonces) (caller : Caller) (answer : NonceAnswer) :
    Statement Nonces Caller :=
  match caller.point with
  | .waitForLock =>
    if answer.late then { after := nonces, next := none }
    else
      match nonces.lock with
      | none =>
        { after := { nonces with lock := some caller.lockValue }
          next := caller.goTo .readCache }
      | some _ => { after := nonces, next := caller.goTo .waitForLock }
  | .readCache =>
    { after := nonces
      next :=
        match nonces.cached with
        | some nonce => caller.goTo (.store nonce)
        | none => caller.goTo .getProvider
      thrown := caller.goTo .releaseLock }
  | .getProvider =>
    { after := nonces
      next := caller.goTo .getTransactionCount
      thrown := caller.goTo .releaseLock }
  | .getTransactionCount =>
    { after := nonces
      next := caller.goTo (.store answer.pending)
      thrown := caller.goTo .releaseLock }
  | .store nonce =>
    { after := { nonces with cached := some (nonce + 1) }
      next := caller.goTo (.answer nonce)
      thrown := caller.goTo .releaseLock }
  | .answer nonce =>
    { after := { nonces with issued := nonces.issued ++ [⟨nonce, false⟩] }
      next := caller.goTo .releaseLock }
  | .releaseLock =>
    { after :=
        if nonces.lock = some caller.lockValue then { nonces with lock := none } else nonces
      next := none }

/-- `resetNonce`. -/
def Nonces.reset (nonces : Nonces) : Nonces :=
  { nonces with
    cached := none
    issued := nonces.issued.map fun acquisition => { acquisition with wasReset := true } }

/-- A caller of `acquireNonce` or of `resetNonce`, and the ends of the lifetimes. -/
inductive NonceStart where
  | acquireNonce
  | resetNonce
  | expireLock
  | expireNonce
deriving DecidableEq

def Nonces.start (nonces : Nonces) : NonceStart → Option (Nonces × Option Caller)
  | .acquireNonce =>
    some ({ nonces with drawn := nonces.drawn + 1 }, some ⟨nonces.drawn, .waitForLock⟩)
  | .resetNonce => some (nonces.reset, none)
  | .expireLock => some ({ nonces with lock := none }, none)
  | .expireNonce => some ({ nonces with cached := none }, none)

/-- Nobody has called yet. -/
structure Nonces.Initial (nonces : Nonces) : Prop where
  lock : nonces.lock = none
  cached : nonces.cached = none
  issued : nonces.issued = []

def nonceService : ProcessPool Nonces Caller (Input NonceAnswer) NonceStart :=
  .ofStatements Nonces.Initial Caller.statement Nonces.start

abbrev NonceState := PoolState Nonces Caller

abbrev NonceAction := PoolAction (Input NonceAnswer) NonceStart

/-! ## The property and the condition -/

/-- No two acquisitions have returned the same nonce, unless the first was reset. -/
@[reducible] def Nonces.Distinct (nonces : Nonces) : Prop :=
  nonces.issued.Pairwise fun first second => first.nonce = second.nonce → first.wasReset = true

/-- The nonces that were handed out and not reset. -/
def Nonces.outstanding (nonces : Nonces) : List Nat :=
  (nonces.issued.filter fun acquisition => !acquisition.wasReset).map Acquisition.nonce

/-- The caller is between taking the lock and returning. -/
def Caller.inside (caller : Caller) : Bool :=
  match caller.point with
  | .waitForLock | .releaseLock => false
  | .readCache | .getProvider | .getTransactionCount | .store _ | .answer _ => true

/-- The lock outlives the critical section, and the chain counts what was handed out. -/
def NonceState.healthy (state : NonceState) : NonceAction → Bool
  | .launch .expireLock =>
    state.every fun _ caller =>
      !(caller.inside && decide (state.shared.lock = some caller.lockValue))
  | .advance pid input =>
    (state.process? pid).all fun caller =>
      decide (caller.point ≠ .getTransactionCount) || decide (input.ending ≠ .done) ||
        state.shared.outstanding.all fun nonce => nonce < input.answer.pending
  | .launch .acquireNonce | .launch .resetNonce | .launch .expireNonce | .crash _ => true

@[reducible] def NonceState.Healthy (state : NonceState) (action : NonceAction) : Prop :=
  NonceState.healthy state action = true

/-! ## One caller at a time -/

variable {nonces after : Nonces}

/-- The nonce is above every nonce that was handed out. -/
def Nonces.Above (nonces : Nonces) (nonce : Nat) : Prop :=
  ∀ issued ∈ nonces.outstanding, issued < nonce

/-- What a caller knows at its point. -/
def Caller.Knows (nonces : Nonces) (caller : Caller) : Prop :=
  caller.lockValue < nonces.drawn ∧
    (caller.inside = true → nonces.lock = some caller.lockValue) ∧
      match caller.point with
      | .store nonce => nonces.Above nonce
      | .answer nonce => nonces.Above nonce ∧ ∀ cached ∈ nonces.cached, nonce < cached
      | .waitForLock | .readCache | .getProvider | .getTransactionCount | .releaseLock => True

/-- What holds of the keys and the record. -/
structure Nonces.Consistent (nonces : Nonces) : Prop where
  cached : ∀ cached ∈ nonces.cached, nonces.Above cached
  distinct : nonces.Distinct

def exclusion : ProofOutline Nonces Caller where
  Global := Nonces.Consistent
  Local := fun nonces caller => caller.Knows nonces
  Apart first second := first.lockValue ≠ second.lockValue
  apart_symm := Ne.symm

theorem Nonces.Above.mono {nonce : Nat} (above : nonces.Above nonce)
    (fewer : after.outstanding ⊆ nonces.outstanding) : after.Above nonce :=
  fun issued member => above issued (fewer member)

@[simp] theorem Nonces.outstanding_reset : nonces.reset.outstanding = [] := by
  simp [Nonces.outstanding, Nonces.reset]

theorem Nonces.outstanding_append (nonce : Nat) :
    Nonces.outstanding { nonces with issued := nonces.issued ++ [⟨nonce, false⟩] } =
      nonces.outstanding ++ [nonce] := by
  simp [Nonces.outstanding]

/-- What a step leaves to a caller that holds the lock: no new nonce and no new cached one. -/
structure Nonces.Leaves (before after : Nonces) (lockValue : Nat) : Prop where
  lock : after.lock = some lockValue
  outstanding : after.outstanding ⊆ before.outstanding
  cached : ∀ cached ∈ after.cached, cached ∈ before.cached

/-- A caller is left alone by a step that leaves it the lock. -/
theorem Caller.Knows.leave {caller : Caller} (knows : caller.Knows nonces)
    (drawn : nonces.drawn ≤ after.drawn)
    (leaves : caller.inside = true → nonces.lock = some caller.lockValue →
      nonces.Leaves after caller.lockValue) : caller.Knows after := by
  obtain ⟨lockValue, point⟩ := caller
  obtain ⟨fresh, holds, claims⟩ := knows
  refine ⟨fresh.trans_le drawn, fun inside => (leaves inside (holds inside)).lock, ?_⟩
  cases point with
  | store nonce => exact claims.mono (leaves rfl (holds rfl)).outstanding
  | answer nonce =>
    have left := leaves rfl (holds rfl)
    exact ⟨claims.1.mono left.outstanding,
      fun cached now => claims.2 cached (left.cached cached now)⟩
  | waitForLock | readCache | getProvider | getTransactionCount | releaseLock => trivial

/-- A statement takes nothing from another caller that holds the lock. -/
theorem Caller.statement_leaves {caller : Caller} (knows : caller.Knows nonces)
    (answer : NonceAnswer) {other : Nat} (different : other ≠ caller.lockValue)
    (held : nonces.lock = some other) :
    nonces.Leaves (caller.statement nonces answer).after other := by
  obtain ⟨lockValue, point⟩ := caller
  have same : nonces.Leaves nonces other :=
    ⟨held, List.Subset.refl _, fun _ now => now⟩
  have outside : ∀ {point : AcquirePoint}, Caller.inside ⟨lockValue, point⟩ = true →
      (⟨lockValue, point⟩ : Caller).Knows nonces → False := by
    intro point inside known
    have own := known.2.1 inside
    exact different (Option.some.inj (held.symm.trans own))
  cases point with
  | waitForLock =>
    simp only [Caller.statement]
    split
    · exact same
    · rw [held]
      exact same
  | readCache | getProvider | getTransactionCount => exact same
  | store nonce => exact (outside rfl knows).elim
  | answer nonce => exact (outside rfl knows).elim
  | releaseLock =>
    have kept : nonces.lock ≠ some lockValue := by
      rw [held]
      exact fun equal => different (Option.some.inj equal)
    simp only [Caller.statement, if_neg kept]
    exact same

/-- A nonce above all others is handed out. -/
theorem Nonces.Consistent.issue {nonce : Nat} (consistent : nonces.Consistent)
    (above : nonces.Above nonce) (next : ∀ cached ∈ nonces.cached, nonce < cached) :
    Nonces.Consistent { nonces with issued := nonces.issued ++ [⟨nonce, false⟩] } where
  cached := by
    intro cached now issued member
    rw [Nonces.outstanding_append] at member
    rcases List.mem_append.mp member with before | new
    · exact consistent.cached cached now issued before
    · rw [List.mem_singleton.mp new]
      exact next cached now
  distinct := by
    refine List.pairwise_append.mpr ⟨consistent.distinct, List.pairwise_singleton .., ?_⟩
    intro first before second new same
    have equal : first.nonce = nonce := by rw [same, List.mem_singleton.mp new]
    by_contra outstanding
    have member : first.nonce ∈ nonces.outstanding :=
      List.mem_map.mpr ⟨first, List.mem_filter.mpr ⟨before, by simpa using outstanding⟩, rfl⟩
    have less := above first.nonce member
    omega

theorem Caller.statement_consistent {caller : Caller} (consistent : nonces.Consistent)
    (knows : caller.Knows nonces) (answer : NonceAnswer) :
    (caller.statement nonces answer).after.Consistent := by
  obtain ⟨lockValue, point⟩ := caller
  obtain ⟨_, _, claims⟩ := knows
  cases point with
  | waitForLock =>
    simp only [Caller.statement]
    split
    · exact consistent
    · split
      · exact ⟨consistent.cached, consistent.distinct⟩
      · exact consistent
  | readCache | getProvider | getTransactionCount => exact consistent
  | store nonce =>
    refine ⟨?_, consistent.distinct⟩
    rintro cached ⟨⟩ issued member
    exact (claims issued member).trans (Nat.lt_succ_self nonce)
  | answer nonce => exact consistent.issue claims.1 claims.2
  | releaseLock =>
    simp only [Caller.statement]
    split
    · exact ⟨consistent.cached, consistent.distinct⟩
    · exact consistent

/-- What a caller knows after a statement; only the count of the chain has to be right. -/
theorem Caller.statement_next {caller later : Caller} {answer : NonceAnswer}
    (consistent : nonces.Consistent) (knows : caller.Knows nonces)
    (counts : caller.point = .getTransactionCount → nonces.Above answer.pending)
    (continues : (caller.statement nonces answer).next = some later) :
    later.lockValue = caller.lockValue ∧ later.Knows (caller.statement nonces answer).after := by
  obtain ⟨lockValue, point⟩ := caller
  obtain ⟨fresh, holds, claims⟩ := knows
  cases point with
  | waitForLock =>
    simp only [Caller.statement] at continues ⊢
    split at continues
    · cases continues
    · rename_i early
      rw [if_neg early]
      split at continues
      · cases continues
        exact ⟨rfl, fresh, fun _ => rfl, trivial⟩
      · cases continues
        exact ⟨rfl, fresh, (nomatch ·), trivial⟩
  | readCache =>
    simp only [Caller.statement] at continues
    split at continues
    · rename_i nonce cached
      cases continues
      exact ⟨rfl, fresh, fun _ => holds rfl, consistent.cached nonce cached⟩
    · cases continues
      exact ⟨rfl, fresh, fun _ => holds rfl, trivial⟩
  | getProvider =>
    cases continues
    exact ⟨rfl, fresh, fun _ => holds rfl, trivial⟩
  | getTransactionCount =>
    cases continues
    exact ⟨rfl, fresh, fun _ => holds rfl, counts rfl⟩
  | store nonce =>
    cases continues
    refine ⟨rfl, fresh, fun _ => holds rfl, claims, ?_⟩
    rintro cached ⟨⟩
    exact Nat.lt_succ_self nonce
  | answer nonce =>
    cases continues
    exact ⟨rfl, fresh, (nomatch ·), trivial⟩
  | releaseLock => cases continues

/-- An error leads to the release of the lock. -/
theorem Caller.statement_thrown {caller later : Caller} {answer : NonceAnswer}
    (thrown : (caller.statement nonces answer).thrown = some later) :
    later = ⟨caller.lockValue, .releaseLock⟩ := by
  obtain ⟨lockValue, point⟩ := caller
  cases point with
  | waitForLock =>
    simp only [Caller.statement] at thrown
    split at thrown
    · cases thrown
    · split at thrown <;> cases thrown
  | readCache | getProvider | getTransactionCount | store =>
    cases thrown
    rfl
  | answer | releaseLock => cases thrown

theorem Caller.statement_drawn (caller : Caller) (answer : NonceAnswer) :
    (caller.statement nonces answer).after.drawn = nonces.drawn := by
  obtain ⟨lockValue, point⟩ := caller
  cases point with
  | waitForLock =>
    simp only [Caller.statement]
    split
    · rfl
    · split <;> rfl
  | readCache | getProvider | getTransactionCount | store | answer => rfl
  | releaseLock =>
    simp only [Caller.statement]
    split <;> rfl

/-! ## The run -/

/-- While the lock outlives the critical section and the chain counts what was handed out, no
nonce is handed out twice. -/
theorem nonces_distinct {state : NonceState}
    (reached : nonceService.system.Reachable NonceState.Healthy state) :
    state.shared.Distinct := by
  have joint : exclusion.Holds state := by
    refine ProofOutline.reachable reached ?_ ?_ ?_
    · rintro nonces ⟨lock, cached, issued⟩
      refine ⟨by simp [cached], ?_⟩
      rw [Nonces.Distinct, issued]
      exact List.Pairwise.nil
    · intro before begun shared process holds healthy started
      cases begun with
      | acquireNonce =>
        cases started
        refine ⟨⟨holds.global.cached, holds.global.distinct⟩, ?_, ?_, ?_⟩
        · rintro caller ⟨⟩
          exact ⟨Nat.lt_succ_self _, (nomatch ·), trivial⟩
        · intro pid caller _ running
          refine (holds.locals pid caller running).leave (Nat.le_succ _) ?_
          exact fun _ held => ⟨held, List.Subset.refl _, fun _ now => now⟩
        · rintro caller pid other ⟨⟩ _ running
          exact (holds.locals pid other running).1.ne'
      | resetNonce =>
        cases started
        refine ⟨⟨by simp [Nonces.reset], ?_⟩, by simp, ?_, by simp⟩
        · refine List.pairwise_map.mpr (List.pairwise_of_forall ?_)
          exact fun _ _ _ => rfl
        · intro pid caller _ running
          refine (holds.locals pid caller running).leave (Nat.le_refl _) ?_
          exact fun _ held => ⟨held, by simp, by simp [Nonces.reset]⟩
      | expireLock =>
        cases started
        refine ⟨⟨holds.global.cached, holds.global.distinct⟩, by simp, ?_, by simp⟩
        intro pid caller _ running
        refine (holds.locals pid caller running).leave (Nat.le_refl _) ?_
        intro inside held
        have kept := PoolState.every_apply healthy running
        simp [inside, held] at kept
      | expireNonce =>
        cases started
        refine ⟨⟨by simp, holds.global.distinct⟩, by simp, ?_, by simp⟩
        intro pid caller _ running
        refine (holds.locals pid caller running).leave (Nat.le_refl _) ?_
        exact fun _ held => ⟨held, List.Subset.refl _, by simp⟩
    · intro before pid caller input shared next holds healthy running moved
      have knows := holds.locals pid caller running
      have drawn : (caller.statement before.shared input.answer).after.drawn =
          before.shared.drawn := caller.statement_drawn input.answer
      have released : ∀ shared : Nonces, before.shared.drawn ≤ shared.drawn →
          (⟨caller.lockValue, .releaseLock⟩ : Caller).Knows shared :=
        fun shared least => ⟨knows.1.trans_le least, (nomatch ·), trivial⟩
      have apart : ∀ point : Caller, point.lockValue = caller.lockValue →
          ∀ other right, other ≠ pid → before.process? other = some right →
            point.lockValue ≠ right.lockValue := by
        intro point same other right different runs
        rw [same]
        exact holds.apart pid other caller right different.symm running runs
      obtain ⟨rfl, ending⟩ | ⟨_, rfl, rfl⟩ := Statement.perform_cases (Option.some.inj moved)
      · have own : ∀ point, next = some point → point.lockValue = caller.lockValue ∧
            point.Knows (caller.statement before.shared input.answer).after := by
          intro point continues
          rcases ending with ⟨done, rfl⟩ | ⟨_, rfl⟩
          · refine Caller.statement_next holds.global knows ?_ continues
            intro asks issued member
            have counted : before.shared.outstanding.all
                (fun nonce => nonce < input.answer.pending) = true := by
              simpa [NonceState.Healthy, NonceState.healthy, running, asks, done] using healthy
            exact of_decide_eq_true (List.all_eq_true.mp counted issued member)
          · rw [Caller.statement_thrown continues]
            exact ⟨rfl, released _ drawn.ge⟩
        refine ⟨Caller.statement_consistent holds.global knows _, fun point now => (own point now).2,
          ?_, fun point other right now => apart point (own point now).1 other right⟩
        intro other point different runs
        refine (holds.locals other point runs).leave drawn.ge ?_
        intro _ held
        exact Caller.statement_leaves knows input.answer
          (holds.apart other pid point caller different runs running) held
      · have own : ∀ point, (caller.statement before.shared input.answer).thrown = some point →
            point = ⟨caller.lockValue, .releaseLock⟩ := fun _ => Caller.statement_thrown
        refine ⟨holds.global, ?_, fun other point _ runs => holds.locals other point runs, ?_⟩
        · intro point thrown
          rw [own point thrown]
          exact released _ (Nat.le_refl _)
        · intro point other right thrown
          exact apart point (by rw [own point thrown]) other right
  exact joint.global.distinct

/-! ## Two callers -/

def sampleNonces : Nonces := ⟨none, none, 0, []⟩

theorem sampleNonces_initial : nonceService.system.Initial ⟨sampleNonces, []⟩ :=
  ⟨⟨rfl, rfl, rfl⟩, rfl⟩

/-- A caller goes on; the chain has five pending transactions. -/
def acquires (pid : Nat) : NonceAction :=
  .advance pid ⟨.done, ⟨false, 5⟩⟩

/-- The second caller reads the nonce that the first has stored. -/
theorem nonces_distinct_sample :
    ∃ state : NonceState, state.shared.issued.map Acquisition.nonce = [5, 6] ∧
      state.shared.Distinct := by
  obtain ⟨state, reached, issued⟩ : ∃ state,
      nonceService.system.Reachable NonceState.Healthy state ∧
      state.shared.issued.map Acquisition.nonce = [5, 6] :=
    exists_reachable sampleNonces_initial
      ([.launch .acquireNonce, .launch .acquireNonce] ++ List.replicate 7 (acquires 0) ++
        List.replicate 5 (acquires 1)) (by decide +kernel)
  exact ⟨state, issued, nonces_distinct reached⟩

/-- The lock expires while the first caller waits for the chain: the second one finds no cached
nonce either, and both return 5. -/
theorem nonce_handed_out_twice :
    ¬ ∀ state : NonceState, nonceService.system.Reachable Unrestricted state →
      state.shared.Distinct := by
  intro always
  obtain ⟨state, reached, twice⟩ : ∃ state, nonceService.system.Reachable Unrestricted state ∧
      ¬ state.shared.Distinct :=
    exists_reachable sampleNonces_initial
      ([.launch .acquireNonce, .launch .acquireNonce] ++ List.replicate 3 (acquires 0) ++
        [.launch .expireLock] ++ List.replicate 6 (acquires 1) ++ List.replicate 3 (acquires 0)) (by decide +kernel)
  exact twice (always state reached)

end CryptoVaultHub.CoreWallet

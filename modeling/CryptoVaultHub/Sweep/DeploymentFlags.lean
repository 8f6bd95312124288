import CryptoVaultHub.Sweep.Forwarding

/-!
# The flags of deposit addresses

The cron marks an address as deployed when it has sent the transaction, and nothing looks at the
address again. `flags_truthful` says what may become of deployments for the flag to stay true, and
when the reconciliation after a deployment takes only what the deployment has moved. That a sweep
needs code holds whatever happens.
-/

namespace CryptoVaultHub.Sweep

open TransitionSystem

variable {fleet after : Fleet} {hash : TxHash}

/-! ## The property -/

/-- The row of a deployment was closed. -/
def Fleet.isClosed (fleet : Fleet) (hash : TxHash) : Bool :=
  fleet.deployRows.any fun row => row.txHash = hash && row.status ≠ .submitted

/-- A deployment of the forwarder is not yet mined, dropped or reconciled. -/
def Fleet.isLiveTx (fleet : Fleet) (forwarder : Address) (tx : DeployTx) : Bool :=
  tx.forwarderAddress = forwarder && tx.outcome = .pending && !fleet.isClosed tx.hash

def Fleet.isLive (fleet : Fleet) (forwarder : Address) : Bool :=
  fleet.deployTxs.any (fleet.isLiveTx forwarder)

/-- An address has code or is being deployed. -/
def Fleet.isCovered (fleet : Fleet) (forwarder : Address) : Bool :=
  forwarder ∈ fleet.shared.deployed || fleet.isLive forwarder

/-- The flags are true, so that the cron selects every address without code and without a deployment
in flight; a deployment swept only what it moved; and no forwarder is swept before it has code. -/
structure FleetState.Truthful (state : FleetState) : Prop where
  flags : ∀ row ∈ state.shared.addresses, row.isDeployed = true →
    state.shared.isCovered row.address = true
  swept : ∀ row ∈ state.shared.shared.deposits, row.status = .swept → ∀ hash,
    row.sweepTxHash = some hash → (state.shared.deployTx? hash).isSome = true →
      state.shared.shared.movedBy row.inflow hash = true
  code : ∀ hash tx, state.shared.shared.tx? hash = some tx →
    tx.forwarderAddress ∈ state.shared.shared.deployed

/-! ## The condition -/

/-- Some address row of the forwarder is marked. -/
def Fleet.isFlagged (fleet : Fleet) (forwarder : Address) : Bool :=
  fleet.addresses.any fun row => row.isDeployed && row.address = forwarder

/-- A deployment besides this one is in flight. -/
def Fleet.isLiveBesides (fleet : Fleet) (hash : TxHash) (forwarder : Address) : Bool :=
  fleet.deployTxs.any fun tx => tx.hash ≠ hash && fleet.isLiveTx forwarder tx

/-- A deployment can come to nothing: its forwarder has code, is not marked, or has another one. -/
def Fleet.canEnd (fleet : Fleet) (hash : TxHash) : Bool :=
  (fleet.deployTx? hash).all fun tx =>
    tx.forwarderAddress ∈ fleet.shared.deployed || !fleet.isFlagged tx.forwarderAddress ||
      fleet.isLiveBesides hash tx.forwarderAddress

/-- What a statement that takes effect has to find: the reconciler times out only deployments that
can come to nothing, the cron marks an address that is still being deployed, and its reconciliation
follows a successful deployment and takes deposits that were forwarded. -/
def FleetProcess.settles (fleet : Fleet) : FleetProcess → Bool
  | .close (.timeOut row _) => fleet.canEnd row.txHash
  | .deploy (.markDeployed row _ _) => fleet.isCovered row.address
  | .deploy (.reconcile row _ hash) =>
    fleet.deployReceipt? hash = some true && fleet.shared.deposits.all fun deposit =>
      !fleet.taken row.address deposit || fleet.wasForwarded deposit
  | .base _ | .track _ | .deploy _ | .close _ => true

/-- The condition on the actions: a deployment reverts or is dropped only if it can. -/
def FleetState.settling (state : FleetState) : FleetAction → Bool
  | .advance pid input =>
    (state.process? pid).all fun process =>
      input.ending = .failed || process.settles state.shared
  | .launch (.mineDeploy hash ok) => ok || state.shared.canEnd hash
  | .launch (.dropDeploy hash) => state.shared.canEnd hash
  | .launch _ | .crash _ => true

@[reducible] def FleetState.Settling (state : FleetState) (action : FleetAction) : Prop :=
  FleetState.settling state action = true

/-! ## Covered addresses -/

/-- Every marked address has code or is being deployed. -/
def Fleet.Flagged (fleet : Fleet) : Prop :=
  ∀ row ∈ fleet.addresses, row.isDeployed = true → fleet.isCovered row.address = true

theorem isLiveTx_iff {forwarder : Address} {tx : DeployTx} :
    fleet.isLiveTx forwarder tx = true ↔ tx.forwarderAddress = forwarder ∧
      tx.outcome = .pending ∧ fleet.isClosed tx.hash = false := by
  simp [Fleet.isLiveTx, and_assoc]

theorem isCovered_iff {forwarder : Address} : fleet.isCovered forwarder = true ↔
    forwarder ∈ fleet.shared.deployed ∨
      ∃ tx ∈ fleet.deployTxs, fleet.isLiveTx forwarder tx = true := by
  simp [Fleet.isCovered, Fleet.isLive]

theorem isCovered_of_isLive {forwarder : Address} (live : fleet.isLive forwarder = true) :
    fleet.isCovered forwarder = true := by
  simp [Fleet.isCovered, live]

/-- Every deployment in flight stays in flight, or its forwarder gets code. -/
theorem Fleet.Flagged.mono (flagged : fleet.Flagged)
    (addresses : after.addresses = fleet.addresses)
    (deployed : ∀ forwarder ∈ fleet.shared.deployed, forwarder ∈ after.shared.deployed)
    (live : ∀ tx ∈ fleet.deployTxs, fleet.isLiveTx tx.forwarderAddress tx = true →
      after.isCovered tx.forwarderAddress = true) : after.Flagged := by
  intro row member marked
  rw [addresses] at member
  rcases isCovered_iff.mp (flagged row member marked) with code | ⟨tx, inside, flight⟩
  · exact isCovered_iff.mpr (.inl (deployed _ code))
  · have forwarder := (isLiveTx_iff.mp flight).1
    rw [← forwarder] at flight ⊢
    exact live tx inside flight

/-- A deployment that can come to nothing does, while the others stay in flight. -/
theorem Fleet.Flagged.ends (flagged : fleet.Flagged) (sound : fleet.Sound)
    (ends : fleet.canEnd hash = true) (addresses : after.addresses = fleet.addresses)
    (deployed : after.shared.deployed = fleet.shared.deployed)
    (live : ∀ tx ∈ fleet.deployTxs, tx.hash ≠ hash →
      fleet.isLiveTx tx.forwarderAddress tx = true →
        after.isLive tx.forwarderAddress = true) : after.Flagged := by
  have stays : ∀ tx ∈ fleet.deployTxs, tx.hash ≠ hash → ∀ forwarder,
      fleet.isLiveTx forwarder tx = true → after.isCovered forwarder = true := by
    intro tx inside other forwarder flight
    have own := (isLiveTx_iff.mp flight).1
    rw [← own] at flight ⊢
    exact isCovered_of_isLive (live tx inside other flight)
  intro row member marked
  rw [addresses] at member
  rcases isCovered_iff.mp (flagged row member marked) with code | ⟨tx, inside, flight⟩
  · exact isCovered_iff.mpr (.inl (deployed ▸ code))
  · by_cases same : tx.hash = hash
    · have known := sound.known tx inside
      rw [same] at known
      have forwarder := (isLiveTx_iff.mp flight).1
      have marks : fleet.isFlagged row.address = true :=
        List.any_eq_true.mpr ⟨row, member, by simp [marked]⟩
      simp only [Fleet.canEnd, known, Option.all_some, forwarder, Bool.or_eq_true,
        decide_eq_true_eq, Bool.not_eq_true'] at ends
      rcases ends with (code | unmarked) | besides
      · exact isCovered_iff.mpr (.inl (deployed ▸ code))
      · rw [unmarked] at marks
        cases marks
      · obtain ⟨other, among, both⟩ := List.any_eq_true.mp besides
        simp only [Bool.and_eq_true, decide_eq_true_eq] at both
        exact stays other among both.1 _ both.2
    · exact stays tx inside same _ flight

/-- The address of a listed row that is marked is covered. -/
theorem Fleet.Flagged.markDeployed {row : Undeployed} (flagged : fleet.Flagged)
    (lists : fleet.Lists row) (covered : fleet.isCovered row.address = true) :
    (fleet.markDeployed row.id).Flagged := by
  intro later member marked
  obtain ⟨position, there⟩ := List.mem_iff_getElem?.mp member
  simp only [Fleet.markDeployed, List.getElem?_modify] at there
  obtain ⟨before, found, rfl⟩ := Option.map_eq_some_iff.mp there
  by_cases same : row.id = position
  · obtain ⟨listed, known, address⟩ := lists
    rw [same, found] at known
    cases known
    simp only [same, if_true]
    rw [address]
    exact covered
  · simp only [same, if_false] at marked ⊢
    exact flagged before (List.mem_of_getElem? found) marked

theorem isClosed_closeDeployRow {row : BatchRow} {status : GasTankStatus} {other : TxHash}
    (batches : fleet.Batches [row]) (different : other ≠ row.txHash) :
    (fleet.closeDeployRow row.id status).isClosed other = fleet.isClosed other := by
  obtain ⟨found, there, own⟩ := batches row (List.mem_singleton_self row)
  have inside := (List.getElem?_eq_some_iff.mp there).1
  have here : fleet.deployRows[row.id] = found := (List.getElem?_eq_some_iff.mp there).2
  simp only [Fleet.isClosed, Fleet.closeDeployRow]
  rw [Bool.eq_iff_iff, List.any_eq_true, List.any_eq_true]
  constructor
  · rintro ⟨later, member, closed⟩
    obtain ⟨position, still⟩ := List.mem_iff_getElem?.mp member
    rw [List.getElem?_modify] at still
    obtain ⟨before, known, rfl⟩ := Option.map_eq_some_iff.mp still
    by_cases same : row.id = position
    · rw [← same, there] at known
      cases known
      simp only [same, if_true, Bool.and_eq_true, decide_eq_true_eq, own] at closed
      exact absurd closed.1.symm different
    · simp only [same, if_false] at closed
      exact ⟨before, List.mem_of_getElem? known, closed⟩
  · rintro ⟨before, member, closed⟩
    obtain ⟨position, known⟩ := List.mem_iff_getElem?.mp member
    have apart : row.id ≠ position := by
      intro same
      rw [← same, there] at known
      cases known
      simp only [own, Bool.and_eq_true, decide_eq_true_eq] at closed
      exact different closed.1.symm
    refine ⟨before, List.mem_iff_getElem?.mpr ⟨position, ?_⟩, closed⟩
    simp [known, apart]

/-- The other deployments are in flight as before. -/
theorem isLive_closeDeployRow {row : BatchRow} {status : GasTankStatus}
    (batches : fleet.Batches [row]) {tx : DeployTx} (inside : tx ∈ fleet.deployTxs)
    (different : tx.hash ≠ row.txHash)
    (flight : fleet.isLiveTx tx.forwarderAddress tx = true) :
    (fleet.closeDeployRow row.id status).isLive tx.forwarderAddress = true := by
  obtain ⟨own, waits, isOpen⟩ := isLiveTx_iff.mp flight
  refine List.any_eq_true.mpr ⟨tx, inside, isLiveTx_iff.mpr ⟨own, waits, ?_⟩⟩
  rw [isClosed_closeDeployRow batches different, isOpen]

/-- The other deployments are in flight as before, also when one has ended. -/
theorem isLive_setOutcome {outcome : DeployOutcome} {tx : DeployTx}
    (inside : tx ∈ fleet.deployTxs) (different : tx.hash ≠ hash)
    (flight : fleet.isLiveTx tx.forwarderAddress tx = true) :
    (fleet.setOutcome hash outcome).isLive tx.forwarderAddress = true := by
  refine List.any_eq_true.mpr ⟨tx, ?_, flight⟩
  exact List.mem_map.mpr ⟨tx, inside, if_neg different⟩

/-! ## Steps -/

theorem DeployPoint.statement_sound {point : DeployPoint} {answer : FleetAnswer}
    (sound : fleet.Sound) (knows : point.Knows fleet)
    (settles : (FleetProcess.deploy point).settles fleet = true) :
    (point.statement fleet answer).after.Sound := by
  have extended := point.statement_extends fleet answer
  cases point with
  | findUndeployed | groupDeposits | findChain | findWallets | getCode | getBalance | findNative =>
    exact sound
  | markFound | markDeployed | logSubmit => exact sound.frame rfl rfl
  | submit row rest =>
    simp only [DeployPoint.statement]
    split
    · exact sound
    · rename_i fresh
      exact sound.addDeployTx fresh
  | reconcile row rest hash =>
    simp only [FleetProcess.settles, Bool.and_eq_true, decide_eq_true_eq] at settles
    obtain ⟨mined, forwarded⟩ := settles
    have keeps : ∀ deposit : Deposit,
        ({ deposit with status := .swept, sweepTxHash := some hash } : Deposit).SameRecord
          deposit := fun deposit => ⟨rfl, rfl, rfl, rfl⟩
    refine sound.put extended.shared (sound.consistent.updateDeposits keeps ?_)
      (.updateDeposits keeps ?_)
    · intro _ _ _ _ status
      cases status
    · intro id deposit other found chosen label
      cases label
      have moved := List.all_eq_true.mp forwarded deposit (List.mem_of_getElem? found)
      rw [chosen, Bool.not_true, Bool.false_or] at moved
      have own : deposit.forwarderAddress = row.address := by
        simp only [Fleet.taken, Bool.and_eq_true, decide_eq_true_eq] at chosen
        exact chosen.1.1.1
      have deploys : fleet.Deploys hash deposit.forwarderAddress := own ▸ knows.2
      exact .inr (.inr (sound.movedBy deploys mined found moved))

theorem DeployPoint.statement_flagged {point : DeployPoint} {answer : FleetAnswer}
    (flagged : fleet.Flagged) (knows : point.Knows fleet)
    (settles : (FleetProcess.deploy point).settles fleet = true) :
    (point.statement fleet answer).after.Flagged := by
  cases point with
  | findUndeployed | groupDeposits | findChain | findWallets | getCode | getBalance | findNative
  | reconcile => exact flagged
  | markFound row rest =>
    exact flagged.markDeployed (knows.1 row List.mem_cons_self)
      (isCovered_iff.mpr (.inl knows.2))
  | markDeployed row rest hash =>
    exact flagged.markDeployed (knows.1 row List.mem_cons_self) settles
  | submit row rest =>
    simp only [DeployPoint.statement]
    split
    · exact flagged
    · refine flagged.mono rfl (fun _ code => code) ?_
      intro tx inside flight
      exact isCovered_iff.mpr (.inr ⟨tx, List.mem_append_left _ inside, flight⟩)
  | logSubmit row rest hash =>
    refine flagged.mono rfl (fun _ code => code) ?_
    intro tx inside flight
    refine isCovered_iff.mpr (.inr ⟨tx, inside, ?_⟩)
    have same : (statement fleet (.logSubmit row rest hash) answer).after.isClosed tx.hash =
        fleet.isClosed tx.hash := by
      simp [statement, Fleet.isClosed]
    rw [Fleet.isLiveTx, same]
    exact flight

theorem ClosePoint.statement_flagged {point : ClosePoint} {answer : FleetAnswer}
    (flagged : fleet.Flagged) (sound : fleet.Sound) (knows : point.Knows fleet)
    (settles : (FleetProcess.close point).settles fleet = true) :
    (point.statement fleet answer).after.Flagged := by
  cases point with
  | findRows | getReceipt => exact flagged
  | timeOut row rest =>
    have batches : fleet.Batches [row] := fun other member =>
      knows other (List.mem_singleton.mp member ▸ List.mem_cons_self)
    exact flagged.ends sound settles rfl rfl fun tx inside different flight =>
      isLive_closeDeployRow batches inside different flight
  | close row ok rest =>
    have batches : fleet.Batches [row] := fun other member =>
      knows.1 other (List.mem_singleton.mp member ▸ List.mem_cons_self)
    refine flagged.mono rfl (fun _ code => code) ?_
    intro tx inside flight
    have different : tx.hash ≠ row.txHash := by
      intro same
      have receipt := knows.2
      rw [← same, Fleet.deployReceipt?, sound.known tx inside, Option.bind_some,
        (isLiveTx_iff.mp flight).2.1] at receipt
      cases receipt
    exact isCovered_of_isLive (isLive_closeDeployRow batches inside different flight)

/-- What the services keep of deployments and flags. -/
structure Fleet.Settled (fleet : Fleet) : Prop where
  sound : fleet.Sound
  flagged : fleet.Flagged

theorem FleetProcess.statement_settled {process : FleetProcess} {input : Input FleetAnswer}
    {next : Option FleetProcess} (settled : fleet.Settled) (knows : process.Knows fleet)
    (settles : input.ending = .failed ∨ process.settles fleet = true)
    (performed : (process.statement fleet input.answer).perform fleet input.ending =
      (after, next)) : after.Settled := by
  have moves := FleetProcess.statement_moves settled.sound.consistent knows performed
  cases process with
  | base process =>
    obtain ⟨shared, point, ended, rfl, _, part, fresh⟩ := Fleet.perform_base performed
    have carries : fleet.Carries shared := by
      rcases fresh with rfl | ⟨_, fresh⟩
      · cases part
        exact .of_same rfl rfl rfl
      · exact Statement.perform_shared fleet.Carries part (.of_same rfl rfl rfl)
          (Process.statement_carries knows fresh)
    refine ⟨settled.sound.put moves.extended.shared moves.consistent carries,
      settled.flagged.mono rfl (fun _ code => moves.extended.shared.deployed code) ?_⟩
    intro tx inside flight
    exact isCovered_iff.mpr (.inr ⟨tx, inside, flight⟩)
  | track point =>
    obtain ⟨later, whole, rfl⟩ := Statement.perform_map performed
    refine Statement.perform_shared Fleet.Settled whole settled ?_
    cases point with
    | select | getBlockNumber | getReceipt | publish => exact settled
    | update id verdict rest =>
      refine ⟨settled.sound.put (Shared.extends_updateDeposits fun row => ⟨rfl, rfl, rfl, rfl⟩)
        ?_ (.updateDeposits (fun row => ⟨rfl, rfl, rfl, rfl⟩)
          fun _ _ _ _ _ label => .inl label), settled.flagged⟩
      refine settled.sound.consistent.updateDeposits (fun row => ⟨rfl, rfl, rfl, rfl⟩) ?_
      intro _ _ _ _ status
      cases verdict <;> cases status
  | deploy point =>
    obtain ⟨later, whole, rfl⟩ := Statement.perform_map performed
    rcases settles with failed | settles
    · rw [failed] at whole
      cases whole
      exact settled
    · exact Statement.perform_shared Fleet.Settled whole settled
        ⟨DeployPoint.statement_sound settled.sound knows settles,
          DeployPoint.statement_flagged settled.flagged knows settles⟩
  | close point =>
    obtain ⟨later, whole, rfl⟩ := Statement.perform_map performed
    rcases settles with failed | settles
    · rw [failed] at whole
      cases whole
      exact settled
    · refine Statement.perform_shared Fleet.Settled whole settled ⟨?_,
        ClosePoint.statement_flagged settled.flagged settled.sound knows settles⟩
      cases point <;> exact settled.sound.frame rfl rfl

/-- A deployment that came to nothing. -/
theorem Fleet.Settled.setOutcome {tx : DeployTx} {outcome : DeployOutcome}
    (settled : fleet.Settled) (found : fleet.deployTx? hash = some tx)
    (waits : tx.outcome = .pending) (fails : outcome ≠ .succeeded)
    (ends : fleet.canEnd hash = true) : (fleet.setOutcome hash outcome).Settled :=
  ⟨settled.sound.setOutcome found waits fails,
    settled.flagged.ends settled.sound ends rfl rfl fun _ inside different flight =>
      isLive_setOutcome inside different flight⟩

theorem fleetStart_settled {state : FleetState} {begun : FleetStart} {next : Option FleetProcess}
    (settled : state.shared.Settled) (allowed : FleetState.Settling state (.launch begun))
    (started : state.shared.start begun = some (after, next)) : after.Settled := by
  have moves := fleetStart_moves settled.sound.consistent started
  cases begun with
  | base begun =>
    simp only [Fleet.start] at started
    split at started
    · rename_i outside
      obtain ⟨⟨shared, process⟩, begins, same⟩ := Option.map_eq_some_iff.mp started
      cases same
      refine ⟨settled.sound.put moves.extended.shared moves.consistent
        (start_carries outside begins),
        settled.flagged.mono rfl (fun _ code => moves.extended.shared.deployed code) ?_⟩
      intro tx inside flight
      exact isCovered_iff.mpr (.inr ⟨tx, inside, flight⟩)
    · cases started
  | track | deploy | close =>
    cases started
    exact settled
  | insertAddress clientId address =>
    cases started
    refine ⟨settled.sound.frame rfl rfl, ?_⟩
    intro row member marked
    rcases List.mem_append.mp member with before | last
    · exact settled.flagged row before marked
    · rw [List.mem_singleton.mp last] at marked
      cases marked
  | mineDeploy hash ok =>
    obtain ⟨mined, changed, same⟩ := Option.map_eq_some_iff.mp started
    cases same
    obtain ⟨tx, found, taken⟩ := Option.bind_eq_some_iff.mp changed
    split at taken
    · cases taken
    · rename_i waits
      have waits := not_not.mp waits
      split at taken
      · rename_i creates
        cases taken
        refine ⟨settled.sound.create found waits creates.2,
          settled.flagged.mono rfl (fun _ code => List.mem_cons_of_mem _ code) ?_⟩
        intro other inside flight
        by_cases same : other.hash = hash
        · have known := settled.sound.known other inside
          rw [same, found] at known
          cases known
          exact isCovered_iff.mpr (.inl List.mem_cons_self)
        · exact isCovered_iff.mpr (.inr ⟨other,
            List.mem_map.mpr ⟨other, inside, if_neg same⟩, flight⟩)
      · rename_i fails
        cases taken
        refine settled.setOutcome found waits (by simp) ?_
        by_cases good : ok = true
        · have code : tx.forwarderAddress ∈ state.shared.shared.deployed := by
            by_contra codeless
            exact fails ⟨good, codeless⟩
          simp [Fleet.canEnd, found, code]
        · simpa [FleetState.Settling, FleetState.settling, good] using allowed
  | dropDeploy hash =>
    obtain ⟨mined, changed, same⟩ := Option.map_eq_some_iff.mp started
    cases same
    obtain ⟨tx, found, taken⟩ := Option.bind_eq_some_iff.mp changed
    split at taken
    · cases taken
    · rename_i waits
      cases taken
      exact settled.setOutcome found (not_not.mp waits) (by simp) allowed

/-! ## Along runs -/

def deployments : ProofOutline Fleet FleetProcess where
  Global := Fleet.Settled
  Local := FleetProcess.Knows
  Apart _ _ := True
  apart_symm _ := trivial

theorem deployments_hold {state : FleetState}
    (reached : fleetServices.system.Reachable FleetState.Settling state) :
    deployments.Holds state := by
  refine ProofOutline.reachable reached ?_ ?_ ?_
  · intro fleet initial
    refine ⟨initial.sound, ?_⟩
    intro row member
    rw [initial.2.1] at member
    cases member
  · intro before begun fleet process holds allowed started
    have moves := fleetStart_moves (Fleet.Settled.sound holds.global).consistent started
    exact ⟨fleetStart_settled holds.global allowed started, moves.knows,
      fun other point _ running => (holds.locals other point running).extend moves.extended,
      fun _ _ _ _ _ _ => trivial⟩
  · intro before pid process input fleet next holds allowed running moved
    have knows : process.Knows before.shared := holds.locals pid process running
    have performed := Option.some.inj moved
    have moves := FleetProcess.statement_moves (Fleet.Settled.sound holds.global).consistent knows
      performed
    have settles : input.ending = .failed ∨ process.settles before.shared = true := by
      simpa [FleetState.Settling, FleetState.settling, running] using allowed
    exact ⟨FleetProcess.statement_settled holds.global knows settles performed, moves.knows,
      fun other point _ runs => (holds.locals other point runs).extend moves.extended,
      fun _ _ _ _ _ _ => trivial⟩

/-- As long as deployments come to nothing only where they can, and what the cron writes after
sending one is still so, the flags are true wherever a run arrives. -/
theorem flags_truthful {state : FleetState}
    (reached : fleetServices.system.Reachable FleetState.Settling state) : state.Truthful := by
  have settled : state.shared.Settled := (deployments_hold reached).global
  refine ⟨settled.flagged, ?_, ?_⟩
  · intro row member _ hash label deployed
    obtain ⟨id, found⟩ := List.mem_iff_getElem?.mp member
    rcases settled.sound.labelled found label with sent | moved
    · rw [settled.sound.disjoint sent] at deployed
      cases deployed
    · exact moved
  · intro hash tx found
    exact (settled.sound.consistent.sent found).2.1

/-- A deposit and its address, whose deployment is sent and marked. -/
def sampleDeployment : List FleetAction :=
  [.launch (.base (.pay 8 1 5)), .launch (.base (.insert 1 0 0)), .launch (.insertAddress 1 8),
    .launch .deploy] ++ List.replicate 8 (sampleStep 3 .confirmed)

/-- The deployment succeeds, and the deposit is marked as swept by it. -/
theorem flags_truthful_sample :
    ∃ state : FleetState, state.shared.addresses = [⟨1, 8, true⟩] ∧
      state.shared.statuses = [.swept] ∧ state.Truthful := by
  obtain ⟨state, reached, marked, swept⟩ : ∃ state,
      fleetServices.system.Reachable FleetState.Settling state ∧
      state.shared.addresses = [⟨1, 8, true⟩] ∧ state.shared.statuses = [.swept] :=
    exists_reachable sampleFleet_initial
      (sampleDeployment ++ [.launch (.mineDeploy 100 true)] ++
        List.replicate 3 (sampleStep 3 .confirmed)) (by decide +kernel)
  exact ⟨state, marked, swept, flags_truthful reached⟩

/-- The deployment reverts after its address was marked. -/
theorem reverted_deployment_marked :
    ¬ ∀ state : FleetState, fleetServices.system.Reachable Unrestricted state →
      state.Truthful := by
  intro always
  obtain ⟨state, reached, marked, uncovered⟩ : ∃ state,
      fleetServices.system.Reachable Unrestricted state ∧
      state.shared.addresses = [⟨1, 8, true⟩] ∧
        state.shared.isCovered 8 = false :=
    exists_reachable sampleFleet_initial
      (sampleDeployment ++ [.launch (.mineDeploy 100 false)]) (by decide +kernel)
  have covered := (always state reached).flags ⟨1, 8, true⟩ (by simp [marked]) rfl
  rw [uncovered] at covered
  cases covered

end CryptoVaultHub.Sweep

import CryptoVaultHub.Sweep.FleetBookkeeping

/-!
# What deployments forward

A forwarder forwards its native balance when it is created, and the cron then writes the hash of the
deployment on the deposits. `Fleet.Sound` relates deployments, inflows and deposits: a forwarder has
at most one successful deployment, an inflow that is with a deployment is with the one of its own
forwarder, and a deposit has the hash of a deployment only if it was forwarded by it.
-/

namespace CryptoVaultHub.Sweep

open List Option

variable {fleet after : Fleet} {hash : TxHash}

/-- How deployments, inflows and deposits relate. -/
structure Fleet.Sound (fleet : Fleet) : Prop where
  consistent : fleet.shared.Consistent
  known : ∀ tx ∈ fleet.deployTxs, fleet.deployTx? tx.hash = some tx
  disjoint : ∀ {hash : TxHash}, (fleet.shared.tx? hash).isSome = true →
    fleet.deployTx? hash = none
  created : ∀ {hash : TxHash} {tx : DeployTx}, fleet.deployTx? hash = some tx →
    tx.outcome = .succeeded → tx.forwarderAddress ∈ fleet.shared.deployed
  single : ∀ {first second : TxHash} {left right : DeployTx},
    fleet.deployTx? first = some left → fleet.deployTx? second = some right →
    left.outcome = .succeeded → right.outcome = .succeeded →
    left.forwarderAddress = right.forwarderAddress → first = second
  carried : ∀ {index : Nat} {inflow : Inflow} {hash : TxHash},
    fleet.shared.inflows[index]? = some inflow → inflow.place = .moved hash →
      (fleet.shared.tx? hash).isSome = true ∨ ∃ tx, fleet.deployTx? hash = some tx ∧
        tx.outcome = .succeeded ∧ tx.forwarderAddress = inflow.forwarderAddress
  labelled : ∀ {id : Nat} {row : Deposit} {hash : TxHash},
    fleet.shared.deposits[id]? = some row → row.sweepTxHash = some hash →
      (fleet.shared.tx? hash).isSome = true ∨ fleet.shared.movedBy row.inflow hash = true

theorem Fleet.Initial.sound (initial : fleet.Initial) : fleet.Sound where
  consistent := Shared.Initial.consistent initial.1
  known := by simp [initial.2.2.1]
  disjoint := by simp [Fleet.deployTx?, initial.2.2.1]
  created := by simp [Fleet.deployTx?, initial.2.2.1]
  single := by simp [Fleet.deployTx?, initial.2.2.1]
  carried := by simp [initial.1.1]
  labelled := by simp [initial.1.2.2.2.1]

/-- Only address rows and the rows of deployments are free to change. -/
theorem Fleet.Sound.frame (sound : fleet.Sound) (shared : after.shared = fleet.shared)
    (deployTxs : after.deployTxs = fleet.deployTxs) : after.Sound := by
  have deployTx? : after.deployTx? = fleet.deployTx? := by
    funext hash
    rw [Fleet.deployTx?, deployTxs, Fleet.deployTx?]
  constructor
  · exact shared ▸ sound.consistent
  · rw [deployTxs, deployTx?]
    exact sound.known
  · rw [deployTx?, shared]
    exact sound.disjoint
  · rw [deployTx?, shared]
    exact sound.created
  · rw [deployTx?]
    exact sound.single
  · rw [deployTx?, shared]
    exact sound.carried
  · rw [shared]
    exact sound.labelled

/-! ## What the sweeps leave -/

/-- A step of the services, as the deployments see it: the hash of a deployment is not sent, no
inflow is given to a deployment, and a hash is written on a deposit only if it was sent or has moved
the deposit. -/
structure Fleet.Carries (fleet : Fleet) (shared : Shared) : Prop where
  sent : ∀ {hash : TxHash}, (shared.tx? hash).isSome = true →
    (fleet.shared.tx? hash).isSome = true ∨ fleet.deployTx? hash = none
  inflows : ∀ {index : Nat} {later : Inflow} {hash : TxHash}, shared.inflows[index]? = some later →
    later.place = .moved hash → (shared.tx? hash).isSome = true ∨
      ∃ before : Inflow, fleet.shared.inflows[index]? = some before ∧ before.place = .moved hash ∧
        before.forwarderAddress = later.forwarderAddress
  labels : ∀ {id : Nat} {later : Deposit} {hash : TxHash}, shared.deposits[id]? = some later →
    later.sweepTxHash = some hash → (shared.tx? hash).isSome = true ∨
      shared.movedBy later.inflow hash = true ∨
      ∃ before : Deposit, fleet.shared.deposits[id]? = some before ∧
        before.sweepTxHash = some hash ∧ before.inflow = later.inflow

theorem Fleet.Carries.of_same {shared : Shared} (sent : shared.sent = fleet.shared.sent)
    (inflows : shared.inflows = fleet.shared.inflows)
    (deposits : shared.deposits = fleet.shared.deposits) : fleet.Carries shared where
  sent := by
    intro hash found
    rw [Shared.tx?, sent] at found
    exact .inl found
  inflows := by
    intro index later hash found place
    exact .inr ⟨later, inflows ▸ found, place, rfl⟩
  labels := by
    intro id later hash found label
    exact .inr (.inr ⟨later, deposits ▸ found, label, rfl⟩)

theorem Fleet.Carries.updateDeposits {chosen : Nat → Deposit → Bool} {change : Deposit → Deposit}
    (keeps : ∀ row, (change row).SameRecord row)
    (labels : ∀ (id : Nat) (row : Deposit) (hash : TxHash),
      fleet.shared.deposits[id]? = some row → chosen id row = true →
      (change row).sweepTxHash = some hash → row.sweepTxHash = some hash ∨
        (fleet.shared.tx? hash).isSome = true ∨ fleet.shared.movedBy row.inflow hash = true) :
    fleet.Carries (fleet.shared.updateDeposits chosen change) where
  sent found := .inl found
  inflows found place := .inr ⟨_, found, place, rfl⟩
  labels := by
    intro id later hash found label
    rw [getElem?_updateDeposits] at found
    obtain ⟨row, before, rfl⟩ := map_eq_some_iff.mp found
    by_cases taken : chosen id row = true
    · rw [if_pos taken] at label ⊢
      have inflow : (change row).inflow = row.inflow := (keeps row).2.1
      rw [inflow]
      rcases labels id row hash before taken label with old | sent | moved
      · exact .inr (.inr ⟨row, before, old, rfl⟩)
      · exact .inl sent
      · exact .inr (.inl moved)
    · rw [if_neg taken] at label ⊢
      exact .inr (.inr ⟨row, before, label, rfl⟩)

theorem Fleet.Sound.put {shared : Shared} (sound : fleet.Sound)
    (extended : fleet.shared.Extends shared) (consistent : shared.Consistent)
    (carries : fleet.Carries shared) : (fleet.put shared).Sound where
  consistent := consistent
  known := sound.known
  disjoint := by
    intro hash sent
    rcases carries.sent sent with before | unknown
    · exact sound.disjoint before
    · exact unknown
  created found succeeded := extended.deployed (sound.created found succeeded)
  single := sound.single
  carried := by
    intro index later hash found place
    rcases carries.inflows found place with sent | ⟨before, there, moved, same⟩
    · exact .inl sent
    · rcases sound.carried there moved with sent | ⟨tx, known, succeeded, forwarder⟩
      · obtain ⟨tx, known⟩ := isSome_iff_exists.mp sent
        obtain ⟨receipt, still, _⟩ := extended.sent known
        exact .inl (isSome_of_eq_some still)
      · exact .inr ⟨tx, known, succeeded, forwarder.trans same⟩
  labelled := by
    intro id later hash found label
    rcases carries.labels found label with sent | moved | ⟨before, there, old, same⟩
    · exact .inl sent
    · exact .inr moved
    · rcases sound.labelled there old with sent | moved
      · obtain ⟨tx, known⟩ := isSome_iff_exists.mp sent
        obtain ⟨receipt, still, _⟩ := extended.sent known
        exact .inl (isSome_of_eq_some still)
      · exact .inr (extended.movedBy (same ▸ moved))

theorem Sweeper.statement_carries {sweeper : Sweeper} {answer : Answer}
    (knows : sweeper.Knows fleet.shared)
    (fresh : ¬ ((Process.sweep sweeper).isSubmit = true ∧
      (fleet.deployTx? answer.hash).isSome = true)) :
    fleet.Carries (sweeper.statement fleet.shared answer).after := by
  obtain ⟨clientId, lockValue, point⟩ := sweeper
  cases point with
  | setLock =>
    simp only [Sweeper.statement]
    split
    · exact .of_same rfl rfl rfl
    · exact .of_same rfl rfl rfl
  | findDeposits | findChain | findGasTank | findTokens | findAddress | getCode | readBalance
  | resolveParentWallet | logSubmit | publish | getLock | delLock => exact .of_same rfl rfl rfl
  | submit visit flush rest =>
    have unknown : fleet.deployTx? answer.hash = none := by
      by_contra deployed
      exact fresh ⟨rfl, isSome_iff_ne_none.mpr deployed⟩
    simp only [Sweeper.statement]
    split
    · exact .of_same rfl rfl rfl
    · refine ⟨?_, fun found place => .inr ⟨_, found, place, rfl⟩,
        fun found label => .inr (.inr ⟨_, found, label, rfl⟩)⟩
      intro other found
      simp only [Shared.tx?, List.find?_append, find?_singleton, Sweeper.tx] at found
      by_cases same : answer.hash = other
      · exact .inr (same ▸ unknown)
      · left
        simpa [Shared.tx?, same] using found
  | markPending visit flush rest hash =>
    refine .updateDeposits (fun row => ⟨rfl, rfl, rfl, rfl⟩) ?_
    intro id row other _ _ label
    obtain ⟨tx, found, _⟩ := knows.2
    cases label
    exact .inr (.inl (isSome_of_eq_some found))
  | markFailed visit flush rest =>
    exact .updateDeposits (fun row => ⟨rfl, rfl, rfl, rfl⟩) fun _ _ _ _ _ label => .inl label

theorem ReconcilePoint.statement_carries {point : ReconcilePoint} {answer : Answer}
    (knows : point.Knows fleet.shared) :
    fleet.Carries (point.statement fleet.shared answer).after := by
  cases point with
  | findRows | getReceipt | timeOut | close | findPending | findTokens | readBalance =>
    exact .of_same rfl rfl rfl
  | cascadeFailed | cascadeSwept =>
    exact .updateDeposits (fun row => ⟨rfl, rfl, rfl, rfl⟩) fun _ _ _ _ _ label => .inl label
  | adoptOrphans cascade rest =>
    refine .updateDeposits (fun row => ⟨rfl, rfl, rfl, rfl⟩) ?_
    intro id row other _ _ label
    obtain ⟨tx, found, _⟩ := bind_eq_some_iff.mp knows.2.receipt
    cases label
    exact .inr (.inl (isSome_of_eq_some found))

theorem Process.statement_carries {process : Process} {answer : Answer}
    (knows : process.Knows fleet.shared)
    (fresh : ¬ (process.isSubmit = true ∧ (fleet.deployTx? answer.hash).isSome = true)) :
    fleet.Carries (process.statement fleet.shared answer).after := by
  cases process with
  | sweep sweeper => exact Sweeper.statement_carries knows fresh
  | reconcile point => exact ReconcilePoint.statement_carries knows

theorem start_carries {begun : Start} {shared : Shared} {next : Option Process}
    (outside : begun.isForeign = true)
    (started : fleet.shared.start begun = some (shared, next)) : fleet.Carries shared := by
  cases begun with
  | sweep | reconcile | expireLock =>
    cases started
    exact .of_same rfl rfl rfl
  | deploy | track => cases outside
  | pay forwarder tokenId amount =>
    simp only [Shared.start] at started
    split at started
    · cases started
      refine ⟨.inl, ?_, fun found label => .inr (.inr ⟨_, found, label, rfl⟩)⟩
      intro index later hash found place
      rcases getElem?_snoc found with before | ⟨_, rfl⟩
      · exact .inr ⟨later, before, place, rfl⟩
      · cases place
    · cases started
  | revert index =>
    simp only [Shared.start] at started
    split at started
    · cases started
      refine ⟨.inl, ?_, fun found label => .inr (.inr ⟨_, found, label, rfl⟩)⟩
      intro other later hash found place
      rw [getElem?_modify] at found
      obtain ⟨before, there, rfl⟩ := map_eq_some_iff.mp found
      by_cases same : index = other
      · simp [same] at place
      · simp only [same, if_false] at place ⊢
        exact .inr ⟨before, there, place, rfl⟩
    · cases started
  | mine hash ok =>
    obtain ⟨mined, changed, same⟩ := map_eq_some_iff.mp started
    cases same
    obtain ⟨tx, found, _, deposits, _, _, _, inflows⟩ := inflows_mine changed
    refine ⟨?_, ?_, ?_⟩
    · intro other sent
      rw [tx?_mine changed, isSome_map] at sent
      exact .inl sent
    · intro index later other there place
      rw [inflows] at there
      split at there
      · rw [getElem?_map] at there
        obtain ⟨before, inside, rfl⟩ := map_eq_some_iff.mp there
        simp only [SweepTx.flush] at place ⊢
        split at place
        · cases place
          left
          have own : tx.hash = hash := by simpa using find?_some found
          rw [tx?_mine changed, isSome_map, own, found]
          rfl
        · rename_i kept
          rw [if_neg kept]
          exact .inr ⟨before, inside, place, rfl⟩
      · exact .inr ⟨later, there, place, rfl⟩
    · intro id later other there label
      exact .inr (.inr ⟨later, deposits ▸ there, label, rfl⟩)
  | insert clientId projectId index =>
    obtain ⟨inflow, found, same⟩ := map_eq_some_iff.mp started
    cases same
    refine ⟨.inl, fun found place => .inr ⟨_, found, place, rfl⟩, ?_⟩
    intro id later hash there label
    rcases getElem?_snoc there with before | ⟨_, rfl⟩
    · exact .inr (.inr ⟨later, before, label, rfl⟩)
    · cases label

/-! ## What becomes of deployments -/

/-- A deployment is sent with a new hash. -/
theorem Fleet.Sound.addDeployTx {forwarder : Address} (sound : fleet.Sound)
    (fresh : ¬ fleet.knows hash = true) :
    Fleet.Sound { fleet with deployTxs := fleet.deployTxs ++ [⟨hash, forwarder, .pending⟩] } := by
  simp only [Fleet.knows, Bool.or_eq_true, not_or, Bool.not_eq_true, isSome_eq_false_iff,
    isNone_iff_eq_none] at fresh
  have extended : fleet.Extends
      { fleet with deployTxs := fleet.deployTxs ++ [⟨hash, forwarder, .pending⟩] } :=
    Fleet.extends_addDeployTx _
  have old : ∀ {other : TxHash} {tx : DeployTx}, tx.outcome ≠ .pending →
      Fleet.deployTx? { fleet with deployTxs := fleet.deployTxs ++ [⟨hash, forwarder, .pending⟩] }
        other = some tx → fleet.deployTx? other = some tx := by
    intro other tx ended found
    rw [Fleet.deployTx?, List.find?_append, or_eq_some_iff] at found
    rcases found with before | ⟨_, last⟩
    · exact before
    · rw [mem_singleton.mp (mem_of_find?_eq_some last)] at ended
      exact absurd rfl ended
  constructor
  · exact sound.consistent
  · intro tx member
    rcases mem_append.mp member with before | last
    · have first : fleet.deployTxs.find? (fun other => other.hash = tx.hash) = some tx :=
        sound.known tx before
      simp [Fleet.deployTx?, List.find?_append, first]
    · rw [mem_singleton.mp last]
      have none : fleet.deployTxs.find? (fun other => other.hash = hash) = none := fresh.2
      simp [Fleet.deployTx?, List.find?_append, none]
  · intro other sent
    have unknown : fleet.deployTxs.find? (fun tx => tx.hash = other) = none := sound.disjoint sent
    have different : hash ≠ other := by
      intro same
      rw [← same, fresh.1] at sent
      cases sent
    simp [Fleet.deployTx?, List.find?_append, unknown, different]
  · intro other tx found succeeded
    exact sound.created (old (by simp [succeeded]) found) succeeded
  · intro first second left right leftFound rightFound leftDone rightDone same
    exact sound.single (old (by simp [leftDone]) leftFound) (old (by simp [rightDone]) rightFound)
      leftDone rightDone same
  · intro index inflow other found place
    rcases sound.carried found place with sent | ⟨tx, known, succeeded, forwarder⟩
    · exact .inl sent
    · obtain ⟨outcome, still, kept⟩ := extended.deployTxs known
      exact .inr ⟨_, still, (kept (by simp [succeeded])).trans succeeded, forwarder⟩
  · exact sound.labelled

/-- The deployments after one of them has ended. -/
theorem deployTx?_ended {tx ended : DeployTx} {outcome : DeployOutcome} {other : TxHash}
    (found : fleet.deployTx? hash = some tx)
    (there : (fleet.setOutcome hash outcome).deployTx? other = some ended) :
    (other = hash ∧ ended = { tx with outcome := outcome }) ∨
      (other ≠ hash ∧ fleet.deployTx? other = some ended) := by
  rw [deployTx?_setOutcome] at there
  obtain ⟨before, known, rfl⟩ := map_eq_some_iff.mp there
  have own := hash_of_deployTx? known
  by_cases same : before.hash = hash
  · left
    have here : other = hash := own.symm.trans same
    rw [here, found] at known
    cases known
    exact ⟨here, if_pos same⟩
  · right
    exact ⟨own ▸ same, (if_neg same).symm ▸ known⟩

theorem known_setOutcome {outcome : DeployOutcome} (sound : fleet.Sound) :
    ∀ tx ∈ (fleet.setOutcome hash outcome).deployTxs,
      (fleet.setOutcome hash outcome).deployTx? tx.hash = some tx := by
  intro tx member
  obtain ⟨before, inside, rfl⟩ := mem_map.mp member
  have own : (if before.hash = hash then { before with outcome := outcome } else before).hash =
      before.hash := by
    split <;> rfl
  rw [own, deployTx?_setOutcome, sound.known before inside, map_some]

/-- A deployment reverts, or is dropped. -/
theorem Fleet.Sound.setOutcome {tx : DeployTx} {outcome : DeployOutcome} (sound : fleet.Sound)
    (found : fleet.deployTx? hash = some tx) (waits : tx.outcome = .pending)
    (fails : outcome ≠ .succeeded) : (fleet.setOutcome hash outcome).Sound := by
  have old : ∀ {other : TxHash} {ended : DeployTx},
      (fleet.setOutcome hash outcome).deployTx? other = some ended → ended.outcome = .succeeded →
        fleet.deployTx? other = some ended := by
    intro other ended there succeeded
    rcases deployTx?_ended found there with ⟨_, rfl⟩ | ⟨_, before⟩
    · exact absurd succeeded fails
    · exact before
  constructor
  · exact sound.consistent
  · exact known_setOutcome sound
  · intro other sent
    rw [deployTx?_setOutcome, sound.disjoint sent, map_none]
  · intro other ended there succeeded
    exact sound.created (old there succeeded) succeeded
  · intro first second left right leftFound rightFound leftDone rightDone same
    exact sound.single (old leftFound leftDone) (old rightFound rightDone) leftDone rightDone same
  · intro index inflow other there place
    rcases sound.carried there place with sent | ⟨ended, known, succeeded, forwarder⟩
    · exact .inl sent
    · obtain ⟨later, still, kept⟩ := (Fleet.extends_setOutcome found waits).deployTxs known
      exact .inr ⟨_, still, (kept (by simp [succeeded])).trans succeeded, forwarder⟩
  · exact sound.labelled

/-- A deployment creates its forwarder, which had no code. -/
theorem Fleet.Sound.create {tx : DeployTx} (sound : fleet.Sound)
    (found : fleet.deployTx? hash = some tx) (waits : tx.outcome = .pending)
    (codeless : tx.forwarderAddress ∉ fleet.shared.deployed) :
    (fleet.create hash tx.forwarderAddress).Sound := by
  have extended := Fleet.extends_create found waits tx.forwarderAddress
  constructor
  · exact sound.consistent.extend extended.shared rfl rfl
  · exact known_setOutcome sound
  · intro other sent
    have unknown := sound.disjoint sent
    exact (deployTx?_setOutcome .succeeded other).trans (by rw [unknown, map_none])
  · intro other ended there succeeded
    rcases deployTx?_ended found there with ⟨_, rfl⟩ | ⟨_, before⟩
    · exact mem_cons_self
    · exact mem_cons_of_mem _ (sound.created before succeeded)
  · intro first second left right leftFound rightFound leftDone rightDone same
    -- The other one would have created the forwarder before.
    rcases deployTx?_ended found leftFound with ⟨here, rfl⟩ | ⟨_, leftBefore⟩
    · rcases deployTx?_ended found rightFound with ⟨there, rfl⟩ | ⟨_, rightBefore⟩
      · exact here.trans there.symm
      · have code := sound.created rightBefore rightDone
        rw [← same] at code
        exact absurd code codeless
    · rcases deployTx?_ended found rightFound with ⟨there, rfl⟩ | ⟨_, rightBefore⟩
      · have code := sound.created leftBefore leftDone
        rw [same] at code
        exact absurd code codeless
      · exact sound.single leftBefore rightBefore leftDone rightDone same
  · intro index later other there place
    rw [getElem?_create] at there
    obtain ⟨inflow, before, rfl⟩ := map_eq_some_iff.mp there
    by_cases forwarded : inflow.place = .held ∧ inflow.forwarderAddress = tx.forwarderAddress ∧
        inflow.tokenId = fleet.native
    · rw [if_pos forwarded] at place ⊢
      cases place
      refine .inr ⟨{ tx with outcome := .succeeded }, ?_, rfl, forwarded.2.1.symm⟩
      have still : (fleet.setOutcome hash .succeeded).deployTx? hash =
          some { tx with outcome := .succeeded } := by
        rw [deployTx?_setOutcome, found, map_some, if_pos (hash_of_deployTx? found)]
      exact still
    · rw [if_neg forwarded] at place ⊢
      rcases sound.carried before place with sent | ⟨ended, known, succeeded, forwarder⟩
      · exact .inl sent
      · obtain ⟨outcome, still, kept⟩ := extended.deployTxs known
        exact .inr ⟨_, still, (kept (by simp [succeeded])).trans succeeded, forwarder⟩
  · intro id row other there label
    rcases sound.labelled there label with sent | moved
    · exact .inl sent
    · exact .inr (extended.shared.movedBy moved)

/-- The funds of a deposit were moved by some deployment. -/
def Fleet.wasForwarded (fleet : Fleet) (row : Deposit) : Bool :=
  (fleet.shared.inflows[row.inflow]?).any fun inflow =>
    match inflow.place with
    | .moved hash => (fleet.deployTx? hash).isSome
    | .held | .reverted => false

/-- A deposit of the forwarder that some deployment has moved, was moved by the one that
succeeded. -/
theorem Fleet.Sound.movedBy {id : Nat} {row : Deposit} (sound : fleet.Sound)
    (deploys : fleet.Deploys hash row.forwarderAddress)
    (mined : fleet.deployReceipt? hash = some true)
    (found : fleet.shared.deposits[id]? = some row) (forwarded : fleet.wasForwarded row = true) :
    fleet.shared.movedBy row.inflow hash = true := by
  obtain ⟨tx, known, forwarder⟩ := deploys
  obtain ⟨inflow, there, place⟩ := (any_eq_true _ _).mp forwarded
  have succeeded : tx.outcome = .succeeded := by
    rw [Fleet.deployReceipt?, known, bind_some] at mined
    revert mined
    cases tx.outcome <;> simp
  obtain ⟨origin, origins, sameForwarder, _⟩ := sound.consistent.inflow found
  rw [there] at origins
  cases origins
  cases location : inflow.place with
  | held => simp [location] at place
  | reverted => simp [location] at place
  | moved other =>
    simp only [location] at place
    rcases sound.carried there location with sent | ⟨ended, deployed, done, same⟩
    · rw [sound.disjoint sent] at place
      cases place
    · have single : other = hash :=
        sound.single deployed known done succeeded (same.trans (sameForwarder.trans forwarder.symm))
      rw [Shared.movedBy, there, any_some, location, single]
      simp

end CryptoVaultHub.Sweep

import CryptoVaultHub.Sweep.BookkeepingSafety
import CryptoVaultHub.Sweep.Fleet

/-!
# What the jobs of a fleet know

The bookkeeping of the sweeps goes on beside the tracker and the cron: `Fleet.Extends` is what every
step keeps, and `FleetProcess.Knows` is what a point relies on. `FleetProcess.statement_moves` and
`fleetStart_moves` are the step lemmas.
-/

namespace CryptoVaultHub.Sweep

open Option

variable {fleet after : Fleet} {hash : TxHash}

/-! ## Growth -/

/-- Addresses, deployments and their rows stay, and so does what became of a deployment. -/
structure Fleet.Extends (fleet after : Fleet) : Prop where
  shared : fleet.shared.Extends after.shared
  native : after.native = fleet.native
  addresses : ∀ {id : Nat} {row : DepositAddress}, fleet.addresses[id]? = some row →
    ∃ later : DepositAddress, after.addresses[id]? = some later ∧ later.address = row.address
  deployTxs : ∀ {hash : TxHash} {tx : DeployTx}, fleet.deployTx? hash = some tx →
    ∃ outcome, after.deployTx? hash = some { tx with outcome := outcome } ∧
      (tx.outcome ≠ .pending → outcome = tx.outcome)
  deployRows : ∀ {id : Nat} {row : GasTankRow}, fleet.deployRows[id]? = some row →
    ∃ later : GasTankRow, after.deployRows[id]? = some later ∧ later.txHash = row.txHash

theorem Fleet.Extends.refl (fleet : Fleet) : fleet.Extends fleet where
  shared := .refl _
  native := rfl
  addresses found := ⟨_, found, rfl⟩
  deployTxs found := ⟨_, found, fun _ => rfl⟩
  deployRows found := ⟨_, found, rfl⟩

/-- A step of the sweeps and the reconciler. -/
theorem Fleet.extends_put {shared : Shared} (extended : fleet.shared.Extends shared) :
    fleet.Extends (fleet.put shared) where
  shared := extended
  native := rfl
  addresses found := ⟨_, found, rfl⟩
  deployTxs found := ⟨_, found, fun _ => rfl⟩
  deployRows found := ⟨_, found, rfl⟩

theorem Fleet.extends_markDeployed (id : Nat) : fleet.Extends (fleet.markDeployed id) where
  shared := .refl _
  native := rfl
  addresses := by
    intro other row found
    refine ⟨_, by rw [Fleet.markDeployed, List.getElem?_modify, found]; rfl, ?_⟩
    split <;> rfl
  deployTxs found := ⟨_, found, fun _ => rfl⟩
  deployRows found := ⟨_, found, rfl⟩

theorem Fleet.extends_closeDeployRow (id : Nat) (status : GasTankStatus) :
    fleet.Extends (fleet.closeDeployRow id status) where
  shared := .refl _
  native := rfl
  addresses found := ⟨_, found, rfl⟩
  deployTxs found := ⟨_, found, fun _ => rfl⟩
  deployRows := by
    intro other row found
    refine ⟨_, by rw [Fleet.closeDeployRow, List.getElem?_modify, found]; rfl, ?_⟩
    split <;> rfl

theorem Fleet.extends_addDeployTx (tx : DeployTx) :
    fleet.Extends { fleet with deployTxs := fleet.deployTxs ++ [tx] } where
  shared := .refl _
  native := rfl
  addresses found := ⟨_, found, rfl⟩
  deployTxs := by
    intro hash other found
    refine ⟨other.outcome, ?_, fun _ => rfl⟩
    have first : fleet.deployTxs.find? (fun tx => tx.hash = hash) = some other := found
    simp [Fleet.deployTx?, List.find?_append, first]
  deployRows found := ⟨_, found, rfl⟩

theorem Fleet.extends_addDeployRow (row : GasTankRow) :
    fleet.Extends { fleet with deployRows := fleet.deployRows ++ [row] } where
  shared := .refl _
  native := rfl
  addresses found := ⟨_, found, rfl⟩
  deployTxs found := ⟨_, found, fun _ => rfl⟩
  deployRows found :=
    ⟨_, List.getElem?_append_left (List.getElem?_eq_some_iff.mp found).1 ▸ found, rfl⟩

theorem Fleet.extends_insertAddress (row : DepositAddress) :
    fleet.Extends { fleet with addresses := fleet.addresses ++ [row] } where
  shared := .refl _
  native := rfl
  addresses found :=
    ⟨_, List.getElem?_append_left (List.getElem?_eq_some_iff.mp found).1 ▸ found, rfl⟩
  deployTxs found := ⟨_, found, fun _ => rfl⟩
  deployRows found := ⟨_, found, rfl⟩

/-- What became of one deployment is written down. -/
theorem deployTx?_setOutcome (outcome : DeployOutcome) (other : TxHash) :
    (fleet.setOutcome hash outcome).deployTx? other =
      (fleet.deployTx? other).map fun tx =>
        if tx.hash = hash then { tx with outcome := outcome } else tx := by
  rw [Fleet.deployTx?, Fleet.setOutcome, List.find?_map, Fleet.deployTx?]
  congr 1
  congr 1
  funext tx
  simp only [Function.comp_apply]
  split <;> rfl

theorem hash_of_deployTx? {tx : DeployTx} (found : fleet.deployTx? hash = some tx) :
    tx.hash = hash := by
  simpa using List.find?_some found

theorem Fleet.extends_setOutcome {tx : DeployTx} {outcome : DeployOutcome}
    (found : fleet.deployTx? hash = some tx) (waits : tx.outcome = .pending) :
    fleet.Extends (fleet.setOutcome hash outcome) where
  shared := .refl _
  native := rfl
  addresses there := ⟨_, there, rfl⟩
  deployTxs := by
    intro other row there
    rw [deployTx?_setOutcome, there, map_some]
    by_cases same : row.hash = hash
    · rw [if_pos same]
      refine ⟨_, rfl, ?_⟩
      intro ended
      have own : other = hash := (hash_of_deployTx? there).symm.trans same
      rw [own, found] at there
      cases there
      exact absurd waits ended
    · rw [if_neg same]
      exact ⟨_, rfl, fun _ => rfl⟩
  deployRows there := ⟨_, there, rfl⟩

/-- The inflows after a forwarder was created. -/
theorem getElem?_create {forwarder : Address} (index : Nat) :
    (fleet.create hash forwarder).shared.inflows[index]? =
      (fleet.shared.inflows[index]?).map fun inflow =>
        if inflow.place = .held ∧ inflow.forwarderAddress = forwarder ∧
            inflow.tokenId = fleet.native then { inflow with place := .moved hash }
        else inflow := by
  simp [Fleet.create]

theorem Fleet.extends_create {tx : DeployTx} (found : fleet.deployTx? hash = some tx)
    (waits : tx.outcome = .pending) (forwarder : Address) :
    fleet.Extends (fleet.create hash forwarder) where
  shared :=
    { deposits := fun there => ⟨_, there, .refl _⟩
      inflows := by
        intro index inflow there
        rw [getElem?_create, there, map_some]
        split
        · rename_i here
          exact ⟨_, rfl, fun left => absurd here.1 left⟩
        · exact ⟨_, rfl, fun _ => rfl⟩
      sent := fun there => ⟨_, there, fun _ mined => mined⟩
      deployed := List.mem_cons_of_mem _
      gasTank := fun there => ⟨_, there, rfl⟩ }
  native := rfl
  addresses there := ⟨_, there, rfl⟩
  deployTxs there := (Fleet.extends_setOutcome found waits).deployTxs there
  deployRows there := ⟨_, there, rfl⟩

/-! ## The assertions -/

/-- An address that was listed is still there. -/
def Fleet.Lists (fleet : Fleet) (row : Undeployed) : Prop :=
  ∃ found : DepositAddress, fleet.addresses[row.id]? = some found ∧ found.address = row.address

theorem Fleet.Lists.extend {row : Undeployed} (lists : fleet.Lists row)
    (extended : fleet.Extends after) : after.Lists row := by
  obtain ⟨found, there, same⟩ := lists
  obtain ⟨later, still, kept⟩ := extended.addresses there
  exact ⟨later, still, kept.trans same⟩

def Fleet.ListsAll (fleet : Fleet) (rows : List Undeployed) : Prop :=
  ∀ row ∈ rows, fleet.Lists row

theorem Fleet.ListsAll.extend {rows : List Undeployed} (lists : fleet.ListsAll rows)
    (extended : fleet.Extends after) : after.ListsAll rows :=
  fun row member => (lists row member).extend extended

theorem Fleet.ListsAll.tail {row : Undeployed} {rest : List Undeployed}
    (lists : fleet.ListsAll (row :: rest)) : fleet.ListsAll rest :=
  fun other member => lists other (List.mem_cons_of_mem _ member)

/-- A transaction deploys a forwarder. -/
def Fleet.Deploys (fleet : Fleet) (hash : TxHash) (forwarder : Address) : Prop :=
  ∃ tx, fleet.deployTx? hash = some tx ∧ tx.forwarderAddress = forwarder

theorem Fleet.Deploys.extend {forwarder : Address} (deploys : fleet.Deploys hash forwarder)
    (extended : fleet.Extends after) : after.Deploys hash forwarder := by
  obtain ⟨tx, found, same⟩ := deploys
  obtain ⟨outcome, there, _⟩ := extended.deployTxs found
  exact ⟨_, there, same⟩

theorem Fleet.Extends.deployReceipt? {ok : Bool} (extended : fleet.Extends after)
    (mined : fleet.deployReceipt? hash = some ok) : after.deployReceipt? hash = some ok := by
  obtain ⟨tx, found, status⟩ := bind_eq_some_iff.mp mined
  obtain ⟨outcome, there, kept⟩ := extended.deployTxs found
  have same : outcome = tx.outcome := by
    refine kept ?_
    intro waits
    rw [waits] at status
    cases status
  rw [Fleet.deployReceipt?, there, same]
  exact status

/-- What a point of the forwarder-deploy cron relies on. -/
def DeployPoint.Knows (fleet : Fleet) : DeployPoint → Prop
  | .findUndeployed => True
  | .groupDeposits rows | .findChain rows => fleet.ListsAll rows
  | .findWallets row rest | .getCode row rest | .submit row rest => fleet.ListsAll (row :: rest)
  | .markFound row rest =>
    fleet.ListsAll (row :: rest) ∧ row.address ∈ fleet.shared.deployed
  | .logSubmit row rest hash | .markDeployed row rest hash | .getBalance row rest hash
  | .findNative row rest hash | .reconcile row rest hash =>
    fleet.ListsAll (row :: rest) ∧ fleet.Deploys hash row.address

/-- A row of a batch is there, with its deployment. -/
def Fleet.Batches (fleet : Fleet) (rows : List BatchRow) : Prop :=
  ∀ row ∈ rows, ∃ found, fleet.deployRows[row.id]? = some found ∧ found.txHash = row.txHash

theorem Fleet.Batches.extend {rows : List BatchRow} (batches : fleet.Batches rows)
    (extended : fleet.Extends after) : after.Batches rows := by
  intro row member
  obtain ⟨found, there, same⟩ := batches row member
  obtain ⟨later, still, kept⟩ := extended.deployRows there
  exact ⟨later, still, kept.trans same⟩

theorem Fleet.Batches.tail {row : BatchRow} {rest : List BatchRow}
    (batches : fleet.Batches (row :: rest)) : fleet.Batches rest :=
  fun other member => batches other (List.mem_cons_of_mem _ member)

def ClosePoint.Knows (fleet : Fleet) : ClosePoint → Prop
  | .findRows => True
  | .getReceipt row rest | .timeOut row rest => fleet.Batches (row :: rest)
  | .close row ok rest =>
    fleet.Batches (row :: rest) ∧ fleet.deployReceipt? row.txHash = some ok

def FleetProcess.Knows (fleet : Fleet) : FleetProcess → Prop
  | .base process => process.Knows fleet.shared
  | .track _ => True
  | .deploy point => point.Knows fleet
  | .close point => point.Knows fleet

theorem DeployPoint.Knows.extend {point : DeployPoint} (knows : point.Knows fleet)
    (extended : fleet.Extends after) : point.Knows after := by
  cases point with
  | findUndeployed => trivial
  | groupDeposits | findChain | findWallets | getCode | submit =>
    exact Fleet.ListsAll.extend knows extended
  | markFound row rest =>
    exact ⟨knows.1.extend extended, extended.shared.deployed knows.2⟩
  | logSubmit | markDeployed | getBalance | findNative | reconcile =>
    exact ⟨knows.1.extend extended, knows.2.extend extended⟩

theorem ClosePoint.Knows.extend {point : ClosePoint} (knows : point.Knows fleet)
    (extended : fleet.Extends after) : point.Knows after := by
  cases point with
  | findRows => trivial
  | getReceipt | timeOut => exact Fleet.Batches.extend knows extended
  | close row ok rest => exact ⟨knows.1.extend extended, extended.deployReceipt? knows.2⟩

theorem FleetProcess.Knows.extend {process : FleetProcess} (knows : process.Knows fleet)
    (extended : fleet.Extends after) : process.Knows after := by
  cases process with
  | base process => exact Process.Knows.extend knows extended.shared
  | track point => trivial
  | deploy point => exact DeployPoint.Knows.extend knows extended
  | close point => exact ClosePoint.Knows.extend knows extended

/-! ## The cron -/

theorem nextAddress_knows {rows : List Undeployed} {later : DeployPoint}
    (lists : fleet.ListsAll rows) (goes : DeployPoint.nextAddress rows = some later) :
    later.Knows fleet := by
  cases rows with
  | nil => cases goes
  | cons row rest =>
    cases goes
    exact lists

theorem lists_undeployed : fleet.ListsAll fleet.undeployed := by
  intro row member
  obtain ⟨⟨found, id⟩, inside, rfl⟩ := List.mem_map.mp (List.mem_of_mem_take member)
  exact ⟨found, List.mem_zipIdx_iff_getElem?.mp (List.mem_filter.mp inside).1, rfl⟩

theorem DeployPoint.statement_extends (fleet : Fleet) (point : DeployPoint) (answer : FleetAnswer) :
    fleet.Extends (point.statement fleet answer).after := by
  cases point with
  | findUndeployed | groupDeposits | findChain | findWallets | getCode | getBalance | findNative =>
    exact .refl fleet
  | markFound row rest => exact Fleet.extends_markDeployed row.id
  | markDeployed row rest hash => exact Fleet.extends_markDeployed row.id
  | submit row rest =>
    simp only [DeployPoint.statement]
    split
    · exact .refl fleet
    · exact Fleet.extends_addDeployTx _
  | logSubmit row rest hash => exact Fleet.extends_addDeployRow _
  | reconcile row rest hash =>
    exact Fleet.extends_put (Shared.extends_updateDeposits fun row => ⟨rfl, rfl, rfl, rfl⟩)

theorem DeployPoint.statement_next {point later : DeployPoint} {answer : FleetAnswer}
    (knows : point.Knows fleet) (goes : (point.statement fleet answer).next = some later) :
    later.Knows (point.statement fleet answer).after := by
  have extended := point.statement_extends fleet answer
  cases point with
  | findUndeployed =>
    simp only [DeployPoint.statement] at goes
    split at goes
    · cases goes
    · cases goes
      exact lists_undeployed
  | groupDeposits rows =>
    simp only [DeployPoint.statement] at goes
    split at goes
    · cases goes
    · cases goes
      exact fun row member => knows row (List.mem_of_mem_filter member)
  | findChain rows =>
    simp only [DeployPoint.statement] at goes
    split at goes
    · exact nextAddress_knows knows goes
    · cases goes
  | findWallets row rest =>
    simp only [DeployPoint.statement] at goes
    split at goes
    · cases goes
      exact knows
    · exact nextAddress_knows (Fleet.ListsAll.tail knows) goes
  | getCode row rest =>
    cases goes
    split
    · rename_i code
      exact ⟨knows, code⟩
    · exact knows
  | markFound row rest => exact nextAddress_knows (knows.1.tail.extend extended) goes
  | submit row rest =>
    simp only [DeployPoint.statement] at goes extended ⊢
    split at goes
    · rename_i known
      rw [if_pos known]
      exact nextAddress_knows (Fleet.ListsAll.tail knows) goes
    · rename_i fresh
      rw [if_neg fresh] at extended ⊢
      cases goes
      refine ⟨Fleet.ListsAll.extend knows extended,
        ⟨⟨answer.base.hash, row.address, .pending⟩, ?_, rfl⟩⟩
      have unknown : fleet.deployTxs.find? (fun tx => tx.hash = answer.base.hash) = none := by
        simp only [Fleet.knows, Bool.or_eq_true, not_or] at fresh
        exact not_isSome_iff_eq_none.mp fresh.2
      simp [Fleet.deployTx?, List.find?_append, unknown]
  | logSubmit row rest hash | markDeployed row rest hash =>
    cases goes
    exact ⟨knows.1.extend extended, knows.2.extend extended⟩
  | getBalance row rest hash | findNative row rest hash =>
    simp only [DeployPoint.statement] at goes
    split at goes
    · cases goes
      exact knows
    · exact nextAddress_knows knows.1.tail goes
  | reconcile row rest hash => exact nextAddress_knows (knows.1.tail.extend extended) goes

theorem DeployPoint.statement_thrown {point later : DeployPoint} {answer : FleetAnswer}
    (knows : point.Knows fleet) (goes : (point.statement fleet answer).thrown = some later) :
    later.Knows fleet := by
  cases point with
  | findUndeployed | groupDeposits | findChain => cases goes
  | findWallets row rest | getCode row rest =>
    exact nextAddress_knows (Fleet.ListsAll.tail knows) goes
  | submit row rest =>
    simp only [DeployPoint.statement] at goes
    split at goes
    · exact nextAddress_knows (Fleet.ListsAll.tail knows) goes
    · exact nextAddress_knows (Fleet.ListsAll.tail knows) goes
  | markFound row rest => exact nextAddress_knows knows.1.tail goes
  | logSubmit row rest hash =>
    cases goes
    exact knows
  | markDeployed row rest hash | getBalance row rest hash | findNative row rest hash
  | reconcile row rest hash => exact nextAddress_knows knows.1.tail goes

/-! ## The rows of deployments -/

theorem nextDeployRow_knows {rows : List BatchRow} {later : ClosePoint}
    (batches : fleet.Batches rows) (goes : ClosePoint.nextRow rows = some later) :
    later.Knows fleet := by
  cases rows with
  | nil => cases goes
  | cons row rest =>
    cases goes
    exact batches

theorem ClosePoint.statement_extends (fleet : Fleet) (point : ClosePoint) (answer : FleetAnswer) :
    fleet.Extends (point.statement fleet answer).after := by
  cases point with
  | findRows | getReceipt => exact .refl fleet
  | timeOut | close => exact Fleet.extends_closeDeployRow _ _

theorem ClosePoint.statement_next {point later : ClosePoint} {answer : FleetAnswer}
    (knows : point.Knows fleet) (goes : (point.statement fleet answer).next = some later) :
    later.Knows (point.statement fleet answer).after := by
  have extended := point.statement_extends fleet answer
  cases point with
  | findRows =>
    refine nextDeployRow_knows ?_ goes
    intro row member
    obtain ⟨⟨found, id⟩, inside, rfl⟩ := List.mem_map.mp (List.mem_of_mem_take member)
    exact ⟨found, List.mem_zipIdx_iff_getElem?.mp (List.mem_filter.mp inside).1, rfl⟩
  | getReceipt row rest =>
    simp only [ClosePoint.statement] at goes
    split at goes
    · split at goes
      · cases goes
        exact knows
      · exact nextDeployRow_knows (Fleet.Batches.tail knows) goes
    · rename_i ok mined
      cases goes
      refine ⟨knows, ?_⟩
      split at mined
      · exact mined
      · cases mined
  | timeOut row rest =>
    exact nextDeployRow_knows (Fleet.Batches.extend (Fleet.Batches.tail knows) extended) goes
  | close row ok rest => exact nextDeployRow_knows (knows.1.tail.extend extended) goes

theorem ClosePoint.statement_thrown {point later : ClosePoint} {answer : FleetAnswer}
    (knows : point.Knows fleet) (goes : (point.statement fleet answer).thrown = some later) :
    later.Knows fleet := by
  cases point with
  | findRows => cases goes
  | getReceipt row rest | timeOut row rest =>
    exact nextDeployRow_knows (Fleet.Batches.tail knows) goes
  | close row ok rest => exact nextDeployRow_knows knows.1.tail goes

/-! ## The pool -/

/-- A step of a job, with any ending. -/
structure FleetProcess.Moves (fleet after : Fleet) (next : Option FleetProcess) : Prop where
  extended : fleet.Extends after
  consistent : after.shared.Consistent
  knows : ∀ later, next = some later → later.Knows after

/-- A statement of the sweeps or the reconciler ends as it does without the fleet. -/
theorem Fleet.perform_base {process : Process} {answer : Answer} {ending : Ending}
    {next : Option FleetProcess}
    (performed : (((fleet.baseStatement process answer).within fleet.put).map
      FleetProcess.base).perform fleet ending = (after, next)) :
    ∃ shared point ended, after = fleet.put shared ∧ next = point.map .base ∧
      (process.statement fleet.shared answer).perform fleet.shared ended = (shared, point) ∧
      (ended = .failed ∨
        (ended = ending ∧ ¬ (process.isSubmit ∧ (fleet.deployTx? answer.hash).isSome))) := by
  obtain ⟨point, whole, rfl⟩ := Statement.perform_map performed
  have inside : ((fleet.baseStatement process answer).within fleet.put).perform
      (fleet.put fleet.shared) ending = (after, point) := whole
  obtain ⟨shared, part, rfl⟩ := Statement.perform_within inside
  simp only [Fleet.baseStatement] at part
  split at part
  · rw [Statement.perform_refused] at part
    exact ⟨shared, point, .failed, rfl, rfl, part, .inl rfl⟩
  · rename_i unknown
    exact ⟨shared, point, ending, rfl, rfl, part, .inr ⟨rfl, unknown⟩⟩

theorem FleetProcess.statement_moves {process : FleetProcess} {input : Input FleetAnswer}
    {next : Option FleetProcess} (consistent : fleet.shared.Consistent)
    (knows : process.Knows fleet)
    (performed : (process.statement fleet input.answer).perform fleet input.ending =
      (after, next)) : FleetProcess.Moves fleet after next := by
  cases process with
  | base process =>
    obtain ⟨shared, point, ended, rfl, rfl, part, _⟩ := Fleet.perform_base performed
    have moves : process.Moves fleet.shared shared point :=
      @Process.statement_moves fleet.shared shared process ⟨ended, input.answer.base⟩ point
        consistent knows part
    refine ⟨Fleet.extends_put moves.extended, moves.consistent, ?_⟩
    intro later goes
    obtain ⟨base, found, rfl⟩ := map_eq_some_iff.mp goes
    exact moves.knows base found
  | track point =>
    obtain ⟨later, whole, rfl⟩ := Statement.perform_map performed
    have kept : fleet.Extends (point.statement fleet input.answer).after ∧
        (point.statement fleet input.answer).after.shared.Consistent := by
      cases point with
      | select | getBlockNumber | getReceipt | publish => exact ⟨.refl fleet, consistent⟩
      | update id verdict rest =>
        refine ⟨Fleet.extends_put
          (Shared.extends_updateDeposits fun row => ⟨rfl, rfl, rfl, rfl⟩), ?_⟩
        refine consistent.updateDeposits (fun row => ⟨rfl, rfl, rfl, rfl⟩) ?_
        intro _ _ _ _ status
        cases verdict <;> cases status
    have ends : fleet.Extends after ∧ after.shared.Consistent :=
      Statement.perform_shared (fun later => fleet.Extends later ∧ later.shared.Consistent) whole
        ⟨.refl fleet, consistent⟩ kept
    refine ⟨ends.1, ends.2, ?_⟩
    intro goes found
    obtain ⟨_, _, rfl⟩ := map_eq_some_iff.mp found
    trivial
  | deploy point =>
    obtain ⟨later, whole, rfl⟩ := Statement.perform_map performed
    have extended := point.statement_extends fleet input.answer
    have kept : (point.statement fleet input.answer).after.shared.Consistent := by
      cases point with
      | submit row rest =>
        simp only [DeployPoint.statement]
        split
        · exact consistent
        · exact consistent
      | reconcile row rest hash =>
        refine consistent.updateDeposits (fun row => ⟨rfl, rfl, rfl, rfl⟩) ?_
        intro _ _ _ _ status
        cases status
      | findUndeployed | groupDeposits | findChain | findWallets | getCode | markFound
      | logSubmit | markDeployed | getBalance | findNative => exact consistent
    have ends : fleet.Extends after ∧ after.shared.Consistent :=
      Statement.perform_shared (fun later => fleet.Extends later ∧ later.shared.Consistent) whole
        ⟨.refl fleet, consistent⟩ ⟨extended, kept⟩
    refine ⟨ends.1, ends.2, ?_⟩
    intro goes found
    obtain ⟨next, there, rfl⟩ := map_eq_some_iff.mp found
    refine Statement.perform_process whole (fun later => DeployPoint.statement_next knows) ?_
      next there
    intro later thrown
    have caught := DeployPoint.statement_thrown knows thrown
    exact ⟨caught, caught.extend extended⟩
  | close point =>
    obtain ⟨later, whole, rfl⟩ := Statement.perform_map performed
    have extended := point.statement_extends fleet input.answer
    have kept : (point.statement fleet input.answer).after.shared.Consistent := by
      cases point <;> exact consistent
    have ends : fleet.Extends after ∧ after.shared.Consistent :=
      Statement.perform_shared (fun later => fleet.Extends later ∧ later.shared.Consistent) whole
        ⟨.refl fleet, consistent⟩ ⟨extended, kept⟩
    refine ⟨ends.1, ends.2, ?_⟩
    intro goes found
    obtain ⟨next, there, rfl⟩ := map_eq_some_iff.mp found
    refine Statement.perform_process whole (fun later => ClosePoint.statement_next knows) ?_
      next there
    intro later thrown
    have caught := ClosePoint.statement_thrown knows thrown
    exact ⟨caught, caught.extend extended⟩

theorem fleetStart_moves {begun : FleetStart} {next : Option FleetProcess}
    (consistent : fleet.shared.Consistent) (started : fleet.start begun = some (after, next)) :
    FleetProcess.Moves fleet after next := by
  cases begun with
  | base begun =>
    simp only [Fleet.start] at started
    split at started
    · obtain ⟨⟨shared, process⟩, begins, same⟩ := map_eq_some_iff.mp started
      cases same
      obtain ⟨extended, kept, knows⟩ := start_moves consistent begins
      refine ⟨Fleet.extends_put extended, kept, ?_⟩
      intro later goes
      obtain ⟨base, found, rfl⟩ := map_eq_some_iff.mp goes
      exact knows base found
    · cases started
  | track | deploy | close =>
    cases started
    refine ⟨.refl fleet, consistent, ?_⟩
    intro later goes
    cases goes
    trivial
  | insertAddress clientId address =>
    cases started
    exact ⟨Fleet.extends_insertAddress _, consistent, by simp⟩
  | mineDeploy hash ok =>
    obtain ⟨mined, changed, same⟩ := map_eq_some_iff.mp started
    cases same
    obtain ⟨tx, found, taken⟩ := bind_eq_some_iff.mp changed
    split at taken
    · cases taken
    · rename_i waits
      have waits := not_not.mp waits
      split at taken
      · cases taken
        have extended := Fleet.extends_create found waits tx.forwarderAddress
        exact ⟨extended, consistent.extend extended.shared rfl rfl, by simp⟩
      · cases taken
        exact ⟨Fleet.extends_setOutcome found waits, consistent, by simp⟩
  | dropDeploy hash =>
    obtain ⟨mined, changed, same⟩ := map_eq_some_iff.mp started
    cases same
    obtain ⟨tx, found, taken⟩ := bind_eq_some_iff.mp changed
    split at taken
    · cases taken
    · rename_i waits
      cases taken
      exact ⟨Fleet.extends_setOutcome found (not_not.mp waits), consistent, by simp⟩

/-! ## A fleet with one forwarder -/

/-- Forwarder 7 has code. -/
def sampleFleet : Fleet := ⟨sampleSweep, 1, [], [], []⟩

theorem sampleFleet_initial : fleetServices.system.Initial ⟨sampleFleet, []⟩ :=
  ⟨⟨⟨rfl, rfl, rfl, rfl, rfl, rfl⟩, rfl, rfl, rfl⟩, rfl⟩

/-- A statement that takes effect, with what the tracker finds. -/
def sampleStep (pid : Nat) (verdict : Verdict) : FleetAction :=
  .advance pid ⟨.done, ⟨sampleAnswer, some (verdict, 1), true, true, true⟩⟩

/-- The statuses of the deposits. -/
def Fleet.statuses (fleet : Fleet) : List DepositStatus :=
  fleet.shared.deposits.map Deposit.status

end CryptoVaultHub.Sweep

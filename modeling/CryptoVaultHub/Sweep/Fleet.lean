import CryptoVaultHub.Sweep.Reconciler

/-!
# Confirming and deploying beside the sweeps

The pool of the sweep service and the reconciler together with the confirmation tracker and the
forwarder-deploy cron. The tracker lists the deposits that are not final, asks for the receipt of
each, and then updates its row by id. The cron sends `createForwarder` for deposit addresses without
code and marks them as deployed at once; a forwarder that is created forwards its native balance.

What a receipt means for a deposit, and which addresses have their wallets, are answers from outside.
-/

namespace CryptoVaultHub.Sweep

/-! ## Records -/

/-- A row of `deposit_addresses`; the id of a row is its position. -/
structure DepositAddress where
  clientId : ClientId
  address : Address
  isDeployed : Bool
deriving DecidableEq

/-- What became of a broadcast deployment. -/
inductive DeployOutcome where
  | pending
  | succeeded
  | reverted
  | dropped
deriving DecidableEq

/-- A broadcast `createForwarder`. -/
structure DeployTx where
  hash : TxHash
  forwarderAddress : Address
  outcome : DeployOutcome
deriving DecidableEq

/-- What the services share, the deposit addresses, and the deployments with their rows of
`gas_tank_transactions`; `native` is the native token of the chain. -/
structure Fleet where
  shared : Shared
  native : TokenId
  addresses : List DepositAddress
  deployTxs : List DeployTx
  deployRows : List GasTankRow
deriving DecidableEq

namespace Fleet

def put (fleet : Fleet) (shared : Shared) : Fleet := { fleet with shared := shared }

def deployTx? (fleet : Fleet) (hash : TxHash) : Option DeployTx :=
  fleet.deployTxs.find? fun tx => tx.hash = hash

/-- The status in the receipt of a deployment. -/
def deployReceipt? (fleet : Fleet) (hash : TxHash) : Option Bool :=
  (fleet.deployTx? hash).bind fun tx =>
    match tx.outcome with
    | .succeeded => some true
    | .reverted => some false
    | .pending | .dropped => none

/-- No two transactions have one hash. -/
def knows (fleet : Fleet) (hash : TxHash) : Bool :=
  (fleet.shared.tx? hash).isSome || (fleet.deployTx? hash).isSome

def setOutcome (fleet : Fleet) (hash : TxHash) (outcome : DeployOutcome) : Fleet :=
  { fleet with
    deployTxs := fleet.deployTxs.map fun tx =>
      if tx.hash = hash then { tx with outcome := outcome } else tx }

/-- The new forwarder gets code and forwards its native balance. -/
def create (fleet : Fleet) (hash : TxHash) (forwarder : Address) : Fleet :=
  { fleet.setOutcome hash .succeeded with
    shared := { fleet.shared with
      deployed := forwarder :: fleet.shared.deployed
      inflows := fleet.shared.inflows.map fun inflow =>
        if inflow.place = .held ∧ inflow.forwarderAddress = forwarder ∧
            inflow.tokenId = fleet.native then { inflow with place := .moved hash }
        else inflow } }

/-- Include a deployment in a block; it reverts where there is code already. -/
def mineDeploy (fleet : Fleet) (hash : TxHash) (ok : Bool) : Option Fleet :=
  (fleet.deployTx? hash).bind fun tx =>
    if tx.outcome ≠ .pending then none
    else if ok ∧ tx.forwarderAddress ∉ fleet.shared.deployed then
      some (fleet.create hash tx.forwarderAddress)
    else some (fleet.setOutcome hash .reverted)

/-- A deployment leaves the pool of transactions without being mined. -/
def dropDeploy (fleet : Fleet) (hash : TxHash) : Option Fleet :=
  (fleet.deployTx? hash).bind fun tx =>
    if tx.outcome ≠ .pending then none else some (fleet.setOutcome hash .dropped)

/-- A deposit address is marked as deployed. -/
def markDeployed (fleet : Fleet) (id : Nat) : Fleet :=
  { fleet with addresses := fleet.addresses.modify id fun row => { row with isDeployed := true } }

/-- A row of a deployment is closed. -/
def closeDeployRow (fleet : Fleet) (id : Nat) (status : GasTankStatus) : Fleet :=
  { fleet with deployRows := fleet.deployRows.modify id fun row => { row with status := status } }

def updateDeposits (fleet : Fleet) (chosen : Nat → Deposit → Bool) (change : Deposit → Deposit) :
    Fleet :=
  fleet.put (fleet.shared.updateDeposits chosen change)

end Fleet

/-! ## The points -/

/-- What the tracker finds for a deposit. -/
inductive Verdict where
  | reverted
  | confirming
  | confirmed
deriving DecidableEq

def Verdict.status : Verdict → DepositStatus
  | .reverted => .reverted
  | .confirming => .confirming
  | .confirmed => .confirmed

/-- The points of `processChain` of the tracker; each has the rest of the deposits. -/
inductive TrackPoint where
  | select
  | getBlockNumber (ids : List Nat)
  | getReceipt (id : Nat) (rest : List Nat)
  | publish (id : Nat) (verdict : Verdict) (left : Nat) (rest : List Nat)
  | update (id : Nat) (verdict : Verdict) (rest : List Nat)
deriving DecidableEq

/-- A deposit address that is about to be deployed. -/
structure Undeployed where
  id : Nat
  address : Address
deriving DecidableEq

/-- `BATCH_SIZE` of the forwarder-deploy cron. -/
def deployBatchSize : Nat := 10

/-- The points of `deployPendingForwarders`; each has the rest of the addresses. -/
inductive DeployPoint where
  | findUndeployed
  | groupDeposits (rows : List Undeployed)
  | findChain (rows : List Undeployed)
  | findWallets (row : Undeployed) (rest : List Undeployed)
  | getCode (row : Undeployed) (rest : List Undeployed)
  | markFound (row : Undeployed) (rest : List Undeployed)
  | submit (row : Undeployed) (rest : List Undeployed)
  | logSubmit (row : Undeployed) (rest : List Undeployed) (hash : TxHash)
  | markDeployed (row : Undeployed) (rest : List Undeployed) (hash : TxHash)
  | getBalance (row : Undeployed) (rest : List Undeployed) (hash : TxHash)
  | findNative (row : Undeployed) (rest : List Undeployed) (hash : TxHash)
  | reconcile (row : Undeployed) (rest : List Undeployed) (hash : TxHash)
deriving DecidableEq

/-- The points of `reconcileBatch` for the rows of deployments. -/
inductive ClosePoint where
  | findRows
  | getReceipt (row : BatchRow) (rest : List BatchRow)
  | timeOut (row : BatchRow) (rest : List BatchRow)
  | close (row : BatchRow) (ok : Bool) (rest : List BatchRow)
deriving DecidableEq

/-- What the statements read outside the fleet. -/
structure FleetAnswer where
  base : Answer
  verdict : Option (Verdict × Nat)
  hasFactory : Bool
  hasWallets : Bool
  hasNative : Bool

/-! ## The tracker -/

def TrackPoint.nextDeposit : List Nat → Option TrackPoint
  | [] => none
  | id :: rest => some (.getReceipt id rest)

/-- What follows the messages about a deposit. -/
def TrackPoint.conclude (id : Nat) (verdict : Verdict) (rest : List Nat) : Nat → TrackPoint
  | 0 => .update id verdict rest
  | left + 1 => .publish id verdict left rest

/-- `processChain` with `checkDeposit` in it. -/
def TrackPoint.statement (fleet : Fleet) (point : TrackPoint) (answer : FleetAnswer) :
    Statement Fleet TrackPoint :=
  match point with
  | .select =>
    let ids := (fleet.shared.select fun row => row.status.isUnconfirmed).map Listed.id
    { after := fleet, next := if ids = [] then none else some (.getBlockNumber ids) }
  | .getBlockNumber ids => { after := fleet, next := nextDeposit ids }
  | .getReceipt id rest =>
    { after := fleet
      next :=
        match answer.verdict with
        | none => nextDeposit rest
        | some (verdict, messages) => some (conclude id verdict rest messages)
      thrown := nextDeposit rest }
  | .publish id verdict left rest =>
    { after := fleet, next := some (conclude id verdict rest left), thrown := nextDeposit rest }
  | .update id verdict rest =>
    { after := fleet.updateDeposits (fun other _ => other = id) fun row =>
        { row with
          status := verdict.status
          wasConfirmed := row.wasConfirmed || verdict = .confirmed }
      next := nextDeposit rest
      thrown := nextDeposit rest }

/-! ## The forwarder-deploy cron -/

/-- The statuses that count as deposits of an address. -/
def DepositStatus.isFunded : DepositStatus → Bool
  | .confirmed | .pending | .detected | .confirming | .sweepPending => true
  | .reverted | .sweepFailed | .swept => false

/-- The addresses that the cron selects. -/
def Fleet.undeployed (fleet : Fleet) : List Undeployed :=
  ((fleet.addresses.zipIdx.filter fun row => !row.1.isDeployed).map fun row =>
    ⟨row.2, row.1.address⟩).take deployBatchSize

def Fleet.hasDeposits (fleet : Fleet) (address : Address) : Bool :=
  fleet.shared.deposits.any fun row => row.forwarderAddress = address && row.status.isFunded

def DeployPoint.nextAddress : List Undeployed → Option DeployPoint
  | [] => none
  | row :: rest => some (.findWallets row rest)

/-- The rows that the reconciliation after a deployment takes. -/
def Fleet.taken (fleet : Fleet) (address : Address) (row : Deposit) : Bool :=
  row.forwarderAddress = address && row.status.isOpen && row.sweepTxHash = none &&
    row.tokenId = fleet.native

/-- `deployPendingForwarders`. -/
def DeployPoint.statement (fleet : Fleet) (point : DeployPoint) (answer : FleetAnswer) :
    Statement Fleet DeployPoint :=
  match point with
  | .findUndeployed =>
    { after := fleet
      next := if fleet.undeployed = [] then none else some (.groupDeposits fleet.undeployed) }
  | .groupDeposits rows =>
    let funded := rows.filter fun row => fleet.hasDeposits row.address
    { after := fleet, next := if funded = [] then none else some (.findChain funded) }
  | .findChain rows =>
    { after := fleet, next := if answer.hasFactory then nextAddress rows else none }
  | .findWallets row rest =>
    { after := fleet
      next := if answer.hasWallets then some (.getCode row rest) else nextAddress rest
      thrown := nextAddress rest }
  | .getCode row rest =>
    { after := fleet
      next := some (if row.address ∈ fleet.shared.deployed then .markFound row rest
        else .submit row rest)
      thrown := nextAddress rest }
  | .markFound row rest =>
    { after := fleet.markDeployed row.id, next := nextAddress rest, thrown := nextAddress rest }
  | .submit row rest =>
    if fleet.knows answer.base.hash then
      { after := fleet, next := nextAddress rest, thrown := nextAddress rest }
    else
      { after := { fleet with
          deployTxs := fleet.deployTxs ++ [⟨answer.base.hash, row.address, .pending⟩] }
        next := some (.logSubmit row rest answer.base.hash)
        thrown := nextAddress rest }
  | .logSubmit row rest hash =>
    { after := { fleet with deployRows := fleet.deployRows ++ [⟨hash, .submitted⟩] }
      next := some (.markDeployed row rest hash)
      thrown := some (.markDeployed row rest hash) }
  | .markDeployed row rest hash =>
    { after := fleet.markDeployed row.id
      next := some (.getBalance row rest hash)
      thrown := nextAddress rest }
  | .getBalance row rest hash =>
    { after := fleet
      next := if fleet.shared.balance row.address fleet.native = 0
        then some (.findNative row rest hash) else nextAddress rest
      thrown := nextAddress rest }
  | .findNative row rest hash =>
    { after := fleet
      next := if answer.hasNative then some (.reconcile row rest hash) else nextAddress rest
      thrown := nextAddress rest }
  | .reconcile row rest hash =>
    { after := fleet.updateDeposits (fun _ deposit => fleet.taken row.address deposit)
        fun deposit => { deposit with status := .swept, sweepTxHash := some hash }
      next := nextAddress rest
      thrown := nextAddress rest }

/-! ## The rows of deployments -/

def ClosePoint.nextRow : List BatchRow → Option ClosePoint
  | [] => none
  | row :: rest => some (.getReceipt row rest)

/-- `reconcileBatch` for the rows of deployments, which are closed without a cascade. -/
def ClosePoint.statement (fleet : Fleet) (point : ClosePoint) (answer : FleetAnswer) :
    Statement Fleet ClosePoint :=
  match point with
  | .findRows =>
    let rows := (fleet.deployRows.zipIdx.filter fun row =>
      row.1.status = .submitted && answer.base.isOld row.2).map fun row => ⟨row.2, row.1.txHash⟩
    { after := fleet, next := nextRow (rows.take reconcileBatchSize) }
  | .getReceipt row rest =>
    { after := fleet
      next :=
        match if answer.base.knowsReceipt then fleet.deployReceipt? row.txHash else none with
        | none => if answer.base.pastAge then some (.timeOut row rest) else nextRow rest
        | some ok => some (.close row ok rest)
      thrown := nextRow rest }
  | .timeOut row rest =>
    { after := fleet.closeDeployRow row.id .failed, next := nextRow rest, thrown := nextRow rest }
  | .close row ok rest =>
    { after := fleet.closeDeployRow row.id (if ok then .confirmed else .failed)
      next := nextRow rest
      thrown := nextRow rest }

/-! ## The pool -/

inductive FleetProcess where
  | base (process : Process)
  | track (point : TrackPoint)
  | deploy (point : DeployPoint)
  | close (point : ClosePoint)
deriving DecidableEq

/-- A sweep that is about to broadcast. -/
def Process.isSubmit : Process → Bool
  | .sweep ⟨_, _, .submit ..⟩ => true
  | .sweep _ | .reconcile _ => false

/-- The hash of a sweep is not the one of a deployment. -/
def Fleet.baseStatement (fleet : Fleet) (process : Process) (answer : Answer) :
    Statement Shared Process :=
  let statement := process.statement fleet.shared answer
  if process.isSubmit ∧ (fleet.deployTx? answer.hash).isSome then statement.refused fleet.shared
  else statement

def FleetProcess.statement (fleet : Fleet) (process : FleetProcess) (answer : FleetAnswer) :
    Statement Fleet FleetProcess :=
  match process with
  | .base process => ((fleet.baseStatement process answer.base).within fleet.put).map .base
  | .track point => (point.statement fleet answer).map .track
  | .deploy point => (point.statement fleet answer).map .deploy
  | .close point => (point.statement fleet answer).map .close

/-- What begins: the jobs, what happens around the sweeps, a new deposit address, and what becomes of
a deployment. -/
inductive FleetStart where
  | base (begun : Start)
  | track
  | deploy
  | close
  | insertAddress (clientId : ClientId) (address : Address)
  | mineDeploy (hash : TxHash) (ok : Bool)
  | dropDeploy (hash : TxHash)

/-- The fleet confirms and deploys by its own jobs only. -/
def Start.isForeign : Start → Bool
  | .deploy _ | .track .. => false
  | .sweep _ | .reconcile | .expireLock _ | .pay .. | .revert _ | .mine .. | .insert .. => true

def Fleet.start (fleet : Fleet) : FleetStart → Option (Fleet × Option FleetProcess)
  | .base begun =>
    if begun.isForeign then
      (fleet.shared.start begun).map fun result =>
        (fleet.put result.1, result.2.map .base)
    else none
  | .track => some (fleet, some (.track .select))
  | .deploy => some (fleet, some (.deploy .findUndeployed))
  | .close => some (fleet, some (.close .findRows))
  | .insertAddress clientId address =>
    some ({ fleet with addresses := fleet.addresses ++ [⟨clientId, address, false⟩] }, none)
  | .mineDeploy hash ok => (fleet.mineDeploy hash ok).map fun after => (after, none)
  | .dropDeploy hash => (fleet.dropDeploy hash).map fun after => (after, none)

/-- Nothing was paid, sent or deployed yet. -/
def Fleet.Initial (fleet : Fleet) : Prop :=
  fleet.shared.Initial ∧ fleet.addresses = [] ∧ fleet.deployTxs = [] ∧ fleet.deployRows = []

def fleetServices : ProcessPool Fleet FleetProcess (Input FleetAnswer) FleetStart :=
  .ofStatements Fleet.Initial FleetProcess.statement Fleet.start

abbrev FleetState := PoolState Fleet FleetProcess

abbrev FleetAction := PoolAction (Input FleetAnswer) FleetStart

end CryptoVaultHub.Sweep

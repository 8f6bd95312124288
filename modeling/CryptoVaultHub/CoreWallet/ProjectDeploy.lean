import CryptoVaultHub.Contracts.Operation
import CryptoVaultHub.Semantics.Statement

/-!
# Deploying the contracts of a project

`deployProjectChain` and `retryFailedDeploy` for one project and one chain: the row of
`project_chains`, the rows of `project_contracts`, and what stands on the chain, the implementation
inside each factory and the factory of each wallet. A deployment that fails may have left its
contract on the chain. Statements that no modelled table takes part in are folded into a
neighbour that can throw.

Whether a failed deployment has turned a ready chain into a failed one is not in the program.
-/

namespace CryptoVaultHub.CoreWallet

open Contracts

/-! ## Tables and chain -/

/-- The values of `contract_type` that are deployed. -/
inductive ContractType where
  | walletImpl
  | forwarderImpl
  | walletFactory
  | forwarderFactory
deriving DecidableEq

def ContractType.all : List ContractType :=
  [.walletImpl, .forwarderImpl, .walletFactory, .forwarderFactory]

/-- The implementation that a factory is constructed with. -/
def ContractType.implementation? : ContractType → Option ContractType
  | .walletFactory => some .walletImpl
  | .forwarderFactory => some .forwarderImpl
  | .walletImpl | .forwarderImpl => none

inductive DeployStatus where
  | pending
  | deploying
  | ready
  | failed
deriving DecidableEq

/-- The row of `project_chains`. -/
structure ProjectChain where
  deployStatus : DeployStatus
  address? : ContractType → Option Address
  hotWalletAddress : Option Address

inductive ContractStatus where
  | pending
  | deploying
  | deployed
  | failed
deriving DecidableEq

/-- A row of `project_contracts`; there is at most one of each type. -/
structure ProjectContract where
  address : Address
  deployStatus : ContractStatus
deriving DecidableEq

/-- The two tables, the contracts on the chain, the factories with their implementations and the
wallets with their factories. -/
structure ProjectTables where
  chain : Option ProjectChain
  contracts : ContractType → Option ProjectContract
  created : List Address
  factories : List (Address × Address)
  wallets : List (Address × Address)
  readyFailed : Bool

/-- The second component of the first entry for an address. -/
def lookup (entries : List (Address × Address)) (address : Address) : Option Address :=
  (entries.find? fun entry => entry.1 = address).map Prod.snd

namespace ProjectTables

/-- The implementation inside a factory. -/
def implementation? (tables : ProjectTables) (factory : Address) : Option Address :=
  lookup tables.factories factory

/-- The factory that created a wallet. -/
def creator? (tables : ProjectTables) (wallet : Address) : Option Address :=
  lookup tables.wallets wallet

def status? (tables : ProjectTables) : Option DeployStatus :=
  tables.chain.map ProjectChain.deployStatus

/-- An update of the row of `project_chains`. -/
def updateChain (tables : ProjectTables) (change : ProjectChain → ProjectChain) : ProjectTables :=
  { tables with chain := tables.chain.map change }

def setContract (tables : ProjectTables) (kind : ContractType) (row : ProjectContract) :
    ProjectTables :=
  { tables with contracts := Function.update tables.contracts kind (some row) }

/-- An update of a row of `project_contracts`. -/
def updateContract (tables : ProjectTables) (kind : ContractType)
    (change : ProjectContract → ProjectContract) : ProjectTables :=
  { tables with
    contracts := Function.update tables.contracts kind ((tables.contracts kind).map change) }

/-- A contract of some type stands on the chain, constructed with an implementation if it is a
factory. -/
def create (tables : ProjectTables) (address : Address) (implementation : Option Address) :
    ProjectTables :=
  { tables with
    created := tables.created ++ [address]
    factories :=
      match implementation with
      | some implementation => tables.factories ++ [(address, implementation)]
      | none => tables.factories }

def createWallet (tables : ProjectTables) (address factory : Address) : ProjectTables :=
  { tables with
    created := tables.created ++ [address]
    wallets := tables.wallets ++ [(address, factory)] }

/-- The last update of a deployment that failed. -/
def setFailed (tables : ProjectTables) : ProjectTables :=
  { tables.updateChain fun row => { row with deployStatus := .failed } with
    readyFailed := tables.readyFailed || decide (tables.status? = some .ready) }

end ProjectTables

/-! ## Services -/

/-- The addresses of the four contracts of a deployment. -/
structure DeployedContracts where
  walletImpl : Address
  forwarderImpl : Address
  walletFactory : Address
  forwarderFactory : Address
deriving DecidableEq

def DeployedContracts.address (contracts : DeployedContracts) : ContractType → Address
  | .walletImpl => contracts.walletImpl
  | .forwarderImpl => contracts.forwarderImpl
  | .walletFactory => contracts.walletFactory
  | .forwarderFactory => contracts.forwarderFactory

inductive DeployPoint where
  | load
  | markDeploying
  | prepare
  | walletImpl
  | forwarderImpl (walletImpl : Address)
  | walletFactory (walletImpl forwarderImpl : Address)
  | forwarderFactory (walletImpl forwarderImpl walletFactory : Address)
  | hotWallet (contracts : DeployedContracts)
  | setReady (contracts : DeployedContracts) (hotWallet : Address)
  | upsert (contracts : DeployedContracts) (kinds : List ContractType)
  | setFailed
deriving DecidableEq

inductive RetryPoint where
  | load
  | markDeploying
  | loadChain
  | prepare (implementation : Option Address)
  | deploy (implementation : Option Address)
  | recordContract (address : Address)
  | recordChain (address : Address)
  | setFailed
deriving DecidableEq

/-- A run of `deployProjectChain`, or of `retryFailedDeploy` for a type. -/
inductive Deployer where
  | deployProjectChain (point : DeployPoint)
  | retryFailedDeploy (kind : ContractType) (point : RetryPoint)
deriving DecidableEq

/-- Whether the rows of other tables are as they should be, the address of a new contract, and the
address that the deployment of the hot wallet returns for it. -/
structure DeployAnswer where
  found : Bool
  created : Address
  returned : Address

namespace Deployer

variable (tables : ProjectTables) (answer : DeployAnswer)

/-- The creation of a contract, whose address is not taken. -/
def createThen (implementation : Option Address) (next thrown : Deployer) :
    Statement ProjectTables Deployer :=
  if answer.created ∈ tables.created then
    { after := tables, next := some thrown, thrown := some thrown }
  else
    { after := tables.create answer.created implementation
      next := some next
      thrown := some thrown }

/-- `deployProjectChain`; from the first update on, an error marks the chain as failed. -/
def deployStatement (point : DeployPoint) : Statement ProjectTables Deployer :=
  let goTo (point : DeployPoint) : Deployer := .deployProjectChain point
  let failed := some (goTo .setFailed)
  match point with
  | .load =>
    { after :=
        match tables.chain with
        | some _ => tables
        | none => { tables with chain := some ⟨.pending, fun _ => none, none⟩ }
      next :=
        if answer.found = true ∧ tables.status? ≠ some .ready then some (goTo .markDeploying)
        else none }
  | .markDeploying =>
    { after := tables.updateChain fun row => { row with deployStatus := .deploying }
      next := some (goTo .prepare) }
  | .prepare =>
    { after := tables
      next := if answer.found then some (goTo .walletImpl) else failed
      thrown := failed }
  | .walletImpl =>
    createThen tables answer none (goTo (.forwarderImpl answer.created)) (goTo .setFailed)
  | .forwarderImpl walletImpl =>
    createThen tables answer none (goTo (.walletFactory walletImpl answer.created))
      (goTo .setFailed)
  | .walletFactory walletImpl forwarderImpl =>
    createThen tables answer (some walletImpl)
      (goTo (.forwarderFactory walletImpl forwarderImpl answer.created)) (goTo .setFailed)
  | .forwarderFactory walletImpl forwarderImpl walletFactory =>
    createThen tables answer (some forwarderImpl)
      (goTo (.hotWallet ⟨walletImpl, forwarderImpl, walletFactory, answer.created⟩))
      (goTo .setFailed)
  | .hotWallet contracts =>
    if answer.created ∈ tables.created then { after := tables, next := failed, thrown := failed }
    else
      { after := tables.createWallet answer.created contracts.walletFactory
        next := some (goTo (.setReady contracts answer.returned))
        thrown := failed }
  | .setReady contracts hotWallet =>
    { after := tables.updateChain fun _ =>
        ⟨.ready, fun kind => some (contracts.address kind), some hotWallet⟩
      next := some (goTo (.upsert contracts ContractType.all))
      thrown := failed }
  | .upsert contracts (kind :: kinds) =>
    { after := tables.setContract kind ⟨contracts.address kind, .deployed⟩
      next := some (goTo (.upsert contracts kinds))
      thrown := failed }
  | .upsert _ [] =>
    -- the event is published
    { after := tables, next := none, thrown := failed }
  | .setFailed => { after := tables.setFailed, next := none }

/-- `retryFailedDeploy`; a factory is constructed with the implementation that was recorded. -/
def retryStatement (kind : ContractType) (point : RetryPoint) :
    Statement ProjectTables Deployer :=
  let goTo (point : RetryPoint) : Deployer := .retryFailedDeploy kind point
  let failed := some (goTo .setFailed)
  match point with
  | .load =>
    { after := tables
      next :=
        if (tables.contracts kind).any fun row => row.deployStatus = .failed then
          some (goTo .markDeploying)
        else none }
  | .markDeploying =>
    { after := tables.updateContract kind fun row => { row with deployStatus := .deploying }
      next := some (goTo .loadChain) }
  | .loadChain =>
    { after := tables
      next :=
        match tables.chain with
        | some row => some (goTo (.prepare (kind.implementation?.bind row.address?)))
        | none => failed
      thrown := failed }
  | .prepare implementation =>
    { after := tables
      next := if answer.found then some (goTo (.deploy implementation)) else failed
      thrown := failed }
  | .deploy implementation =>
    if kind.implementation?.isSome ∧ implementation = none then
      { after := tables, next := failed, thrown := failed }
    else
      createThen tables answer implementation (goTo (.recordContract answer.created))
        (goTo .setFailed)
  | .recordContract address =>
    { after := tables.updateContract kind fun _ => ⟨address, .deployed⟩
      next := some (goTo (.recordChain address))
      thrown := failed }
  | .recordChain address =>
    { after := tables.updateChain fun row =>
        { row with address? := Function.update row.address? kind (some address) }
      next := none
      thrown := failed }
  | .setFailed =>
    { after := tables.updateContract kind fun row => { row with deployStatus := .failed }
      next := none }

def statement (tables : ProjectTables) (process : Deployer) (answer : DeployAnswer) :
    Statement ProjectTables Deployer :=
  match process with
  | .deployProjectChain point => deployStatement tables answer point
  | .retryFailedDeploy kind point => retryStatement tables answer kind point

end Deployer

inductive DeployStart where
  | deployProjectChain
  | retryFailedDeploy (kind : ContractType)
deriving DecidableEq

def ProjectTables.start (tables : ProjectTables) :
    DeployStart → Option (ProjectTables × Option Deployer)
  | .deployProjectChain => some (tables, some (.deployProjectChain .load))
  | .retryFailedDeploy kind => some (tables, some (.retryFailedDeploy kind .load))

/-- The chain is not ready yet; rows of contracts may be there. -/
structure ProjectTables.Initial (tables : ProjectTables) : Prop where
  notReady : tables.status? ≠ some .ready
  factories_created : ∀ entry ∈ tables.factories, entry.1 ∈ tables.created
  wallets_created : ∀ entry ∈ tables.wallets, entry.1 ∈ tables.created
  readyFailed : tables.readyFailed = false

abbrev DeployState := PoolState ProjectTables Deployer

abbrev DeployAction := PoolAction (Input DeployAnswer) DeployStart

end CryptoVaultHub.CoreWallet

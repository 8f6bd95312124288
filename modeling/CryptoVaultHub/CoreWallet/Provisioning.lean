import CryptoVaultHub.Contracts.CloneFactory
import CryptoVaultHub.Semantics.Statement

/-!
# Wallets, deposit addresses and forwarders

What stands in the tables that the provisioning of a client writes, and the services that
write them: `createWallets` and `registerWallet`, `deployProjectChain`, `generateAddress` with
the provisioning of address groups, and the cron that deploys the forwarders. Rows of `wallets`
are never changed. The key vault answers a signing request with any gas tank key of the client
and the chain. Statements that no modelled table takes part in are left out or folded into
a neighbour that can throw.
-/

namespace CryptoVaultHub.CoreWallet

open Contracts

/-! ## Tables -/

inductive WalletType where
  | hot
  | gasTank
deriving DecidableEq

/-- A row of `wallets`; `(clientId, chainId, walletType)` is unique. -/
structure WalletRow where
  clientId : Nat
  projectId : Nat
  chainId : Nat
  walletType : WalletType
  address : Address
deriving DecidableEq

/-- An active row of `derived_keys` of the type `gas_tank`. -/
structure GasTankKey where
  clientId : Nat
  chainId : Nat
  address : Address
deriving DecidableEq

/-- A row of `project_chains`; it is ready when it has a hot wallet. -/
structure ProjectChainRow where
  projectId : Nat
  chainId : Nat
  hotWalletAddress : Option Address
deriving DecidableEq

/-- A row of `deposit_addresses`; `(clientId, chainId, externalId)` is unique. -/
structure DepositAddress where
  clientId : Nat
  projectId : Nat
  chainId : Nat
  externalId : List UInt8
  address : Address
  salt : Uint256
  isDeployed : Bool
deriving DecidableEq

/-- A row of `deposits`, as far as it is copied from the row of its deposit address. -/
structure Deposit where
  clientId : Nat
  projectId : Nat
  chainId : Nat
  forwarderAddress : Address
  externalId : List UInt8
deriving DecidableEq

/-- A `createForwarder` transaction for a deposit address. -/
structure Creation where
  row : DepositAddress
  sender : Address
  parent : Address
  feeAddress : Address
  salt : Uint256
deriving DecidableEq

/-- A forwarder, and the transaction that created it. -/
structure Created where
  creation : Creation
  forwarder : Forwarder
deriving DecidableEq

structure Provisioning where
  wallets : List WalletRow
  gasTankKeys : List GasTankKey
  projectChains : List ProjectChainRow
  depositAddresses : List DepositAddress
  deposits : List Deposit
  mempool : List Creation
  created : List Created
deriving DecidableEq

/-- The hashes, and the forwarder factory of each chain. -/
structure FactorySettings where
  evm : Evm
  forwarderFactory : Nat → CloneFactory

namespace Provisioning

def wallet? (tables : Provisioning) (clientId chainId : Nat) (walletType : WalletType) :
    Option WalletRow :=
  tables.wallets.find? fun row =>
    row.clientId = clientId ∧ row.chainId = chainId ∧ row.walletType = walletType

/-- The insertion of a wallet, refused when its key is taken. -/
def insertWallet (tables : Provisioning) (row : WalletRow) : Option Provisioning :=
  match tables.wallet? row.clientId row.chainId row.walletType with
  | some _ => none
  | none => some { tables with wallets := tables.wallets ++ [row] }

/-- `getProjectHotWallet`. -/
def projectHotWallet? (tables : Provisioning) (projectId chainId : Nat) : Option Address :=
  (tables.projectChains.find? fun row =>
    row.projectId = projectId ∧ row.chainId = chainId).bind ProjectChainRow.hotWalletAddress

/-- `getClientHotWallet`. -/
def clientHotWallet? (tables : Provisioning) (clientId chainId : Nat) : Option Address :=
  (tables.wallet? clientId chainId .hot).map WalletRow.address

def resolveParentWallet (tables : Provisioning) (clientId chainId projectId : Nat) :
    Option Address :=
  if 0 < projectId then
    (tables.projectHotWallet? projectId chainId).or (tables.clientHotWallet? clientId chainId)
  else tables.clientHotWallet? clientId chainId

/-- The hot wallet of a project is set when its deployment is ready. -/
def setHotWallet (tables : Provisioning) (projectId chainId : Nat) (address : Address) :
    Provisioning :=
  { tables with
    projectChains := tables.projectChains.map fun row =>
      if row.projectId = projectId ∧ row.chainId = chainId then
        { row with hotWalletAddress := some address }
      else row }

def markDeployed (tables : Provisioning) (marked : DepositAddress) : Provisioning :=
  { tables with
    depositAddresses := tables.depositAddresses.map fun row =>
      if row.clientId = marked.clientId ∧ row.chainId = marked.chainId ∧
          row.externalId = marked.externalId then
        { row with isDeployed := true }
      else row }

/-- The keys that the vault may find for the gas tank of a client on a chain. -/
def keysOf (tables : Provisioning) (clientId chainId : Nat) : List GasTankKey :=
  tables.gasTankKeys.filter fun key => key.clientId = clientId ∧ key.chainId = chainId

end Provisioning

/-- `computeSalt`. -/
def computeSalt (evm : Evm) (clientId chainId : Nat) (externalId : List UInt8) : Uint256 :=
  BitVec.ofNat 256 (Abi.readBigEndian (evm.keccak256 (Abi.encode
    [.static (BitVec.ofNat 256 clientId), .static (BitVec.ofNat 256 chainId),
      .bytes externalId])))

/-! ## Services -/

/-- What a statement reads outside the tables: an address that was derived, deployed or
computed, the default project, the rows or the key that a query returns, and whether there is
code at an address. -/
structure ProvisioningAnswer where
  address : Address
  projectId : Nat
  selected : List Nat
  hasCode : Bool

inductive CreateWalletsPoint where
  | findExisting
  | deriveGasTankKey
  | insertHot (gasTank : Address)
  | insertGasTank (projectId : Nat) (gasTank : Address)
deriving DecidableEq

inductive RegisterWalletPoint where
  | findExisting
  | insert
deriving DecidableEq

inductive DeployProjectPoint where
  | load
  | findGasTank
  | setReady
deriving DecidableEq

inductive GenerateAddressPoint where
  | findExisting
  | findHot
  | findGasTank (hot : WalletRow)
  | compute (hot gasTank : WalletRow)
  | insert (row : DepositAddress)
deriving DecidableEq

inductive DeployForwarderPoint where
  | findHot
  | findGasTank (hot : WalletRow)
  | getCode (hot gasTank : WalletRow)
  | sign (hot : WalletRow)
  | broadcast (creation : Creation)
  | logSubmit
  | markDeployed
deriving DecidableEq

inductive Provisioner where
  | createWallets (clientId chainId : Nat) (point : CreateWalletsPoint)
  | registerWallet (row : WalletRow) (point : RegisterWalletPoint)
  | deployProject (projectId clientId chainId : Nat) (point : DeployProjectPoint)
  | generateAddress (clientId chainId : Nat) (externalId : List UInt8) (salt : Uint256)
      (point : GenerateAddressPoint)
  | selectUndeployed (chainId : Nat)
  | deployForwarder (row : DepositAddress) (rest : List DepositAddress)
      (point : DeployForwarderPoint)
deriving DecidableEq

namespace Provisioner

variable (settings : FactorySettings) (tables : Provisioning) (answer : ProvisioningAnswer)

/-- An insertion that throws when the key is taken. -/
def insertThen (tables : Provisioning) (row : WalletRow) (next : Option Provisioner) :
    Statement Provisioning Provisioner :=
  match tables.insertWallet row with
  | some after => { after := after, next := next }
  | none => { after := tables, next := none }

/-- `createWallets`; the two rows are inserted one after the other. -/
def createWalletsStatement (clientId chainId : Nat) (point : CreateWalletsPoint) :
    Statement Provisioning Provisioner :=
  match point with
  | .findExisting =>
    if tables.wallets.any fun row => row.clientId = clientId ∧ row.chainId = chainId then
      { after := tables, next := none }
    else { after := tables, next := some (.createWallets clientId chainId .deriveGasTankKey) }
  | .deriveGasTankKey =>
    { after :=
        { tables with
          gasTankKeys := tables.gasTankKeys ++ [⟨clientId, chainId, answer.address⟩] }
      next := some (.createWallets clientId chainId (.insertHot answer.address)) }
  | .insertHot gasTank =>
    insertThen tables ⟨clientId, answer.projectId, chainId, .hot, answer.address⟩
      (some (.createWallets clientId chainId (.insertGasTank answer.projectId gasTank)))
  | .insertGasTank projectId gasTank =>
    insertThen tables ⟨clientId, projectId, chainId, .gasTank, gasTank⟩ none

def registerWalletStatement (row : WalletRow) (point : RegisterWalletPoint) :
    Statement Provisioning Provisioner :=
  match point with
  | .findExisting =>
    if tables.wallets.any fun other => other.clientId = row.clientId ∧
        other.chainId = row.chainId ∧ other.walletType = row.walletType ∧
        other.projectId = row.projectId then
      { after := tables, next := none }
    else { after := tables, next := some (.registerWallet row .insert) }
  | .insert => insertThen tables row none

/-- `deployProjectChain`; the deployment of the five contracts can fail. -/
def deployProjectStatement (projectId clientId chainId : Nat) (point : DeployProjectPoint) :
    Statement Provisioning Provisioner :=
  match point with
  | .load =>
    match tables.projectChains.find? fun row =>
      row.projectId = projectId ∧ row.chainId = chainId with
    | some row =>
      { after := tables
        next :=
          if row.hotWalletAddress.isSome then none
          else some (.deployProject projectId clientId chainId .findGasTank) }
    | none =>
      { after :=
          { tables with
            projectChains := tables.projectChains ++ [⟨projectId, chainId, none⟩] }
        next := some (.deployProject projectId clientId chainId .findGasTank) }
  | .findGasTank =>
    { after := tables
      next := (tables.wallet? clientId chainId .gasTank).map fun _ =>
        .deployProject projectId clientId chainId .setReady }
  | .setReady =>
    { after := tables.setHotWallet projectId chainId answer.address, next := none }

/-- `generateAddress`, and `provisionOnChains` with the salt of its group. -/
def generateAddressStatement (clientId chainId : Nat) (externalId : List UInt8) (salt : Uint256)
    (point : GenerateAddressPoint) : Statement Provisioning Provisioner :=
  let goTo (point : GenerateAddressPoint) : Option Provisioner :=
    some (.generateAddress clientId chainId externalId salt point)
  match point with
  | .findExisting =>
    { after := tables
      next :=
        if tables.depositAddresses.any fun row => row.clientId = clientId ∧
            row.chainId = chainId ∧ row.externalId = externalId then none
        else goTo .findHot }
  | .findHot =>
    { after := tables
      next := (tables.wallet? clientId chainId .hot).bind fun hot => goTo (.findGasTank hot) }
  | .findGasTank hot =>
    { after := tables
      next := (tables.wallet? clientId chainId .gasTank).bind fun gasTank =>
        goTo (.compute hot gasTank) }
  | .compute hot gasTank =>
    { after := tables
      next := goTo (.insert
        { clientId := clientId
          projectId := hot.projectId
          chainId := chainId
          externalId := externalId
          address := computeForwarderAddress settings.evm (settings.forwarderFactory chainId)
            gasTank.address hot.address hot.address salt
          salt := salt
          isDeployed := false }) }
  | .insert row =>
    { after :=
        if tables.depositAddresses.any fun other => other.clientId = clientId ∧
            other.chainId = chainId ∧ other.externalId = externalId then tables
        else { tables with depositAddresses := tables.depositAddresses ++ [row] }
      next := none }

/-- The next forwarder of a cycle. -/
def deployNext : List DepositAddress → Option Provisioner
  | [] => none
  | row :: rest => some (.deployForwarder row rest .findHot)

/-- The rows of a cycle are any rows of the chain that are not deployed and have deposits. -/
def selectUndeployedStatement (chainId : Nat) : Statement Provisioning Provisioner :=
  { after := tables
    next := deployNext ((answer.selected.filterMap fun index =>
      tables.depositAddresses[index]?).filter fun row =>
        row.chainId = chainId ∧ row.isDeployed = false ∧
          tables.deposits.any fun deposit =>
            deposit.forwarderAddress = row.address ∧ deposit.chainId = chainId) }

/-- The body of the loop in `deployPendingForwarders`; an error ends one forwarder. -/
def deployForwarderStatement (row : DepositAddress) (rest : List DepositAddress)
    (point : DeployForwarderPoint) : Statement Provisioning Provisioner :=
  let goTo (point : DeployForwarderPoint) : Option Provisioner :=
    some (.deployForwarder row rest point)
  match point with
  | .findHot =>
    { after := tables
      next :=
        match tables.wallet? row.clientId row.chainId .hot with
        | some hot => goTo (.findGasTank hot)
        | none => deployNext rest
      thrown := deployNext rest }
  | .findGasTank hot =>
    { after := tables
      next :=
        match tables.wallet? row.clientId row.chainId .gasTank with
        | some gasTank => goTo (.getCode hot gasTank)
        | none => deployNext rest
      thrown := deployNext rest }
  | .getCode hot _ =>
    { after := tables
      next := if answer.hasCode then goTo .markDeployed else goTo (.sign hot)
      thrown := deployNext rest }
  | .sign hot =>
    { after := tables
      next :=
        match (answer.selected.head?.bind fun index =>
          (tables.keysOf row.clientId row.chainId)[index]?) with
        | some key => goTo (.broadcast ⟨row, key.address, hot.address, hot.address, row.salt⟩)
        | none => deployNext rest
      thrown := deployNext rest }
  | .broadcast creation =>
    { after := { tables with mempool := tables.mempool ++ [creation] }
      next := goTo .logSubmit
      thrown := deployNext rest }
  | .logSubmit =>
    { after := tables, next := goTo .markDeployed, thrown := deployNext rest }
  | .markDeployed =>
    { after := tables.markDeployed row, next := deployNext rest, thrown := deployNext rest }

def statement (settings : FactorySettings) (tables : Provisioning) (process : Provisioner)
    (answer : ProvisioningAnswer) : Statement Provisioning Provisioner :=
  match process with
  | .createWallets clientId chainId point =>
    createWalletsStatement tables answer clientId chainId point
  | .registerWallet row point => registerWalletStatement tables row point
  | .deployProject projectId clientId chainId point =>
    deployProjectStatement tables answer projectId clientId chainId point
  | .generateAddress clientId chainId externalId salt point =>
    generateAddressStatement settings tables clientId chainId externalId salt point
  | .selectUndeployed chainId => selectUndeployedStatement tables answer chainId
  | .deployForwarder row rest point => deployForwarderStatement tables answer row rest point

end Provisioner

/-- A call of a service or a cycle, a key that a ceremony of a project derives, a deposit that is
recorded for a deposit address, and what happens to a transaction. -/
inductive ProvisioningStart where
  | createWallets (clientId chainId : Nat)
  | registerWallet (row : WalletRow)
  | deployProject (projectId clientId chainId : Nat)
  | generateAddress (clientId chainId : Nat) (externalId : List UInt8)
  | provisionGroup (clientId chainId : Nat) (externalId : List UInt8) (derivationSalt : Uint256)
  | deployPendingForwarders (chainId : Nat)
  | deriveGasTankKey (key : GasTankKey)
  | recordDeposit (index : Nat)
  | mine (index : Nat) (deployment : Deployment) (timestamp : Uint256)
  | drop (index : Nat)

def DepositAddress.deposit (row : DepositAddress) : Deposit :=
  ⟨row.clientId, row.projectId, row.chainId, row.address, row.externalId⟩

/-- The forwarder that a transaction creates, unless it reverts. -/
def Creation.run (settings : FactorySettings) (creation : Creation) (deployment : Deployment)
    (timestamp : Uint256) : Option Forwarder :=
  (createForwarder settings.evm (settings.forwarderFactory creation.row.chainId) deployment
    ⟨creation.sender, 0, BitVec.ofNat 256 creation.row.chainId, timestamp⟩ creation.parent
    creation.feeAddress creation.salt false false).toOption

def Provisioning.start (settings : FactorySettings) (tables : Provisioning) :
    ProvisioningStart → Option (Provisioning × Option Provisioner)
  | .createWallets clientId chainId =>
    some (tables, some (.createWallets clientId chainId .findExisting))
  | .registerWallet row => some (tables, some (.registerWallet row .findExisting))
  | .deployProject projectId clientId chainId =>
    some (tables, some (.deployProject projectId clientId chainId .load))
  | .generateAddress clientId chainId externalId =>
    some (tables, some (.generateAddress clientId chainId externalId
      (computeSalt settings.evm clientId chainId externalId) .findExisting))
  | .provisionGroup clientId chainId externalId derivationSalt =>
    some (tables, some (.generateAddress clientId chainId externalId derivationSalt
      .findExisting))
  | .deployPendingForwarders chainId => some (tables, some (.selectUndeployed chainId))
  | .deriveGasTankKey key =>
    some ({ tables with gasTankKeys := tables.gasTankKeys ++ [key] }, none)
  | .recordDeposit index =>
    tables.depositAddresses[index]?.map fun row =>
      ({ tables with deposits := tables.deposits ++ [row.deposit] }, none)
  | .mine index deployment timestamp =>
    tables.mempool[index]?.map fun creation =>
      ({ tables with
          mempool := tables.mempool.eraseIdx index
          created := tables.created ++
            ((creation.run settings deployment timestamp).map
              fun forwarder => ⟨creation, forwarder⟩).toList }, none)
  | .drop index => some ({ tables with mempool := tables.mempool.eraseIdx index }, none)

def Provisioning.empty : Provisioning := ⟨[], [], [], [], [], [], []⟩

def provisioning (settings : FactorySettings) :
    ProcessPool Provisioning Provisioner (Input ProvisioningAnswer) ProvisioningStart :=
  .ofStatements (· = Provisioning.empty) (Provisioner.statement settings)
    (Provisioning.start settings)

abbrev ProvisioningState := PoolState Provisioning Provisioner

abbrev ProvisioningAction := PoolAction (Input ProvisioningAnswer) ProvisioningStart

end CryptoVaultHub.CoreWallet

import CryptoVaultHub.Semantics.Execution

/-!
# Key generation and the wallets made from the keys

The key vault keeps one row of `derived_keys` for each derived key. A client gets
three signing keys from the master seed, a project three from a seed of its own;
the rows of a project carry the client's id as well. The wallets of a client and
of a project fix their signers when they are created, from the keys the vault
lists at that time.

No query of the source that lists or finds keys names an order: a list is any
permutation of the matching rows, and a single row is any of them.
-/

namespace CryptoVaultHub.KeyVault

abbrev ClientId := Nat
abbrev ProjectId := Nat
abbrev ChainId := Nat

inductive KeyType where
  | platform
  | client
  | backup
  | gasTank
deriving DecidableEq

/-- `evm`, or `evm:<chainId>`. -/
inductive ChainScope where
  | evm
  | chain (chainId : ChainId)
deriving DecidableEq

/-- One component of a derivation path. -/
inductive PathIndex where
  | hardened (index : Nat)
  | normal (index : Nat)
deriving DecidableEq

def PathIndex.value : PathIndex → Nat
  | .hardened index => index
  | .normal index => index

abbrev DerivationPath := List PathIndex

/-- A path below `m/44'/60'`. -/
def ethereumPath (rest : DerivationPath) : DerivationPath :=
  .hardened 44 :: .hardened 60 :: rest

/-- `m/44'/60'/<clientId * 3 + i>'/0/0`. -/
def clientKeyPath (clientId : ClientId) (i : Nat) : DerivationPath :=
  ethereumPath [.hardened (clientId * 3 + i), .normal 0, .normal 0]

/-- `m/44'/60'/<i>'/0/0`. -/
def projectKeyPath (i : Nat) : DerivationPath :=
  ethereumPath [.hardened i, .normal 0, .normal 0]

/-- `m/44'/60'/1000'/<chainId>/<index>`. -/
def gasTankPath (chainId : ChainId) (index : Nat) : DerivationPath :=
  ethereumPath [.hardened 1000, .normal chainId, .normal index]

/-- The position of a signing key in a ceremony. -/
def KeyType.position : KeyType → Nat
  | .platform => 0
  | .client => 1
  | .backup => 2
  | .gasTank => 1000

variable {Seed Address : Type}

/-- Hierarchical wallets: the address of the key at a path below a seed. -/
structure HdWallet (Seed Address : Type) where
  address : Seed → DerivationPath → Address

/-- Different seeds or paths give different addresses. -/
def HdWallet.Distinct (hd : HdWallet Seed Address) : Prop :=
  ∀ {first second path other}, hd.address first path = hd.address second other →
    first = second ∧ path = other

/-- `derivePath` throws on an index that does not fit below the hardened bit. -/
def HdWallet.derivePath (hd : HdWallet Seed Address) (seed : Seed) (path : DerivationPath) :
    Option Address :=
  if path.all fun index => index.value < 2 ^ 31 then some (hd.address seed path) else none

/-- A row of `derived_keys`, without the encrypted private key. -/
structure DerivedKey (Address : Type) where
  clientId : ClientId
  projectId : Option ProjectId
  keyType : KeyType
  chainScope : ChainScope
  address : Address
  derivationPath : DerivationPath
  isActive : Bool
deriving DecidableEq

inductive WalletType (Address : Type) where
  | hot (signers : List Address)
  | gasTank (address : Address)
deriving DecidableEq

/-- A row of `wallets`; a hot wallet is a contract with its signers. -/
structure Wallet (Address : Type) where
  clientId : ClientId
  projectId : ProjectId
  chainId : ChainId
  walletType : WalletType Address
deriving DecidableEq

/-- A deployed row of `project_chains`, with the signers of its hot wallet. -/
structure ProjectChain (Address : Type) where
  projectId : ProjectId
  chainId : ChainId
  signers : List Address
deriving DecidableEq

structure State (Seed Address : Type) where
  masterSeed : Option Seed
  projectSeeds : List (ProjectId × Seed)
  derivedKeys : List (DerivedKey Address)
  wallets : List (Wallet Address)
  projectChains : List (ProjectChain Address)

def State.initial : State Seed Address := ⟨none, [], [], [], []⟩

/-- The rows of `cvh_admin.projects` and the chains that are active and have a
wallet factory. -/
structure Settings where
  owner : ProjectId → Option ClientId
  defaultProject : ClientId → Option ProjectId
  chainReady : ChainId → Bool

/-- Every seed in use. -/
def State.seeds (state : State Seed Address) : List Seed :=
  state.masterSeed.toList ++ state.projectSeeds.map Prod.snd

def State.projectSeed? (state : State Seed Address) (projectId : ProjectId) : Option Seed :=
  (state.projectSeeds.find? fun entry => entry.1 = projectId).map Prod.snd

/-! ## Generating keys -/

def getOrCreateMasterSeed (state : State Seed Address) (entropy : Seed) :
    State Seed Address × Seed :=
  match state.masterSeed with
  | some seed => (state, seed)
  | none => ({ state with masterSeed := some entropy }, entropy)

/-- The row of a key at a path, unless the path is rejected. -/
def deriveKey (hd : HdWallet Seed Address) (seed : Seed) (clientId : ClientId)
    (projectId : Option ProjectId) (chainScope : ChainScope) (keyType : KeyType)
    (path : DerivationPath) : Option (DerivedKey Address) :=
  (hd.derivePath seed path).map fun address =>
    { clientId := clientId
      projectId := projectId
      keyType := keyType
      chainScope := chainScope
      address := address
      derivationPath := path
      isActive := true }

/-- The three rows that one call inserts in its transaction. -/
def signingKeys (hd : HdWallet Seed Address) (seed : Seed) (clientId : ClientId)
    (projectId : Option ProjectId) (path : Nat → DerivationPath) :
    Option (List (DerivedKey Address)) :=
  [KeyType.platform, .client, .backup].mapM fun keyType =>
    deriveKey hd seed clientId projectId .evm keyType (path keyType.position)

/-- The rows `generateClientKeys` inserts, unless the client has keys already. -/
def clientKeys (hd : HdWallet Seed Address) (state : State Seed Address) (seed : Seed)
    (clientId : ClientId) : Option (List (DerivedKey Address)) :=
  if state.derivedKeys.any fun key => key.clientId = clientId then none
  else signingKeys hd seed clientId none (clientKeyPath clientId)

/-- The master seed is created before the transaction and stays when it is refused. -/
def generateClientKeys (hd : HdWallet Seed Address) (state : State Seed Address)
    (clientId : ClientId) (entropy : Seed) : State Seed Address :=
  let (state, seed) := getOrCreateMasterSeed state entropy
  { state with derivedKeys := state.derivedKeys ++ (clientKeys hd state seed clientId).getD [] }

def generateProjectSeed (settings : Settings) (state : State Seed Address)
    (projectId : ProjectId) (entropy : Seed) : Option (State Seed Address) :=
  if (settings.owner projectId).isSome ∧ state.projectSeed? projectId = none then
    some { state with projectSeeds := state.projectSeeds ++ [(projectId, entropy)] }
  else none

/-- `generateProjectKeys`, called for the owner of the project (`verifyOwnership`). -/
def generateProjectKeys (settings : Settings) (hd : HdWallet Seed Address)
    (state : State Seed Address) (projectId : ProjectId) (clientId : ClientId) :
    Option (State Seed Address) := do
  let seed ← state.projectSeed? projectId
  if settings.owner projectId ≠ some clientId then none
  else if state.derivedKeys.any fun key => key.projectId = some projectId then none
  else
    let keys ← signingKeys hd seed clientId (some projectId) projectKeyPath
    return { state with derivedKeys := state.derivedKeys ++ keys }

def deriveGasTankKey (hd : HdWallet Seed Address) (state : State Seed Address)
    (clientId : ClientId) (chainId : ChainId) : Option (DerivedKey Address) := do
  let seed ← state.masterSeed
  deriveKey hd seed clientId none (.chain chainId) .gasTank (gasTankPath chainId clientId)

/-- An existing key of the project and chain is returned instead of a new one. -/
def deriveProjectGasTankKey (settings : Settings) (hd : HdWallet Seed Address)
    (state : State Seed Address) (projectId : ProjectId) (clientId : ClientId)
    (chainId : ChainId) : Option (State Seed Address) := do
  let seed ← state.projectSeed? projectId
  if settings.owner projectId ≠ some clientId then none
  else if state.derivedKeys.any fun key => key.projectId = some projectId ∧
      key.keyType = .gasTank ∧ key.chainScope = .chain chainId then none
  else
    let key ← deriveKey hd seed clientId (some projectId) (.chain chainId) .gasTank
      (gasTankPath chainId 0)
    return { state with derivedKeys := state.derivedKeys ++ [key] }

/-! ## Creating wallets -/

/-- The addresses of the first platform, client and backup key of a list. -/
def signersOf (keys : List (DerivedKey Address)) : Option (List Address) := do
  let platformKey ← keys.find? fun key => key.keyType = .platform
  let clientKey ← keys.find? fun key => key.keyType = .client
  let backupKey ← keys.find? fun key => key.keyType = .backup
  return [platformKey.address, clientKey.address, backupKey.address]

/-- `getPublicKeys`: every key of the client. -/
def State.publicKeys (state : State Seed Address) (clientId : ClientId) :
    List (DerivedKey Address) :=
  state.derivedKeys.filter fun key => key.clientId = clientId

/-- `getProjectPublicKeys`: every active key of the project. -/
def State.projectPublicKeys (state : State Seed Address) (projectId : ProjectId) :
    List (DerivedKey Address) :=
  state.derivedKeys.filter fun key => key.projectId = some projectId ∧ key.isActive

/-- A row of `wallets` for a client and chain, by its type. -/
def State.hotWallet? (state : State Seed Address) (clientId : ClientId) (chainId : ChainId) :
    Option (List Address) :=
  state.wallets.findSome? fun wallet =>
    if wallet.clientId = clientId ∧ wallet.chainId = chainId then
      match wallet.walletType with
      | .hot signers => some signers
      | .gasTank _ => none
    else none

def State.hasWallet (state : State Seed Address) (clientId : ClientId) (chainId : ChainId) : Bool :=
  state.wallets.any fun wallet => wallet.clientId = clientId ∧ wallet.chainId = chainId

/-- The client's keys are generated when the vault has none; `order` is the order
in which the vault lists them. -/
def createWallets [DecidableEq Address] (settings : Settings) (hd : HdWallet Seed Address)
    (state : State Seed Address) (clientId : ClientId) (chainId : ChainId)
    (order : List (DerivedKey Address)) (entropy : Seed) : Option (State Seed Address) := do
  if state.hasWallet clientId chainId || !settings.chainReady chainId then none
  else
    let state :=
      if (state.publicKeys clientId).isEmpty then generateClientKeys hd state clientId entropy
      else state
    if order.isPerm (state.publicKeys clientId) then
      let signers ← signersOf order
      let gasTankKey ← deriveGasTankKey hd state clientId chainId
      let projectId := (settings.defaultProject clientId).getD 0
      return { state with
        derivedKeys := state.derivedKeys ++ [gasTankKey]
        wallets := state.wallets ++
          [⟨clientId, projectId, chainId, .hot signers⟩,
            ⟨clientId, projectId, chainId, .gasTank gasTankKey.address⟩] }
    else none

/-- `registerWallet` for the gas tank of a project. -/
def registerGasTank (state : State Seed Address) (clientId : ClientId) (projectId : ProjectId)
    (chainId : ChainId) (address : Address) : Option (State Seed Address) :=
  if state.wallets.any fun wallet => wallet.clientId = clientId ∧ wallet.chainId = chainId ∧
      wallet.walletType matches .gasTank _ then none
  else
    some { state with
      wallets := state.wallets ++ [⟨clientId, projectId, chainId, .gasTank address⟩] }

/-- `startDeploy` and `deployProjectChain` up to the creation of the hot wallet, which
needs the gas tank of the project on the chain. -/
def deployProjectChain [DecidableEq Address] (settings : Settings) (state : State Seed Address)
    (projectId : ProjectId) (clientId : ClientId) (chainId : ChainId)
    (order : List (DerivedKey Address)) : Option (State Seed Address) := do
  if settings.owner projectId ≠ some clientId then none
  else if state.projectChains.any fun deployed =>
      deployed.projectId = projectId ∧ deployed.chainId = chainId then none
  else if !state.wallets.any fun wallet => wallet.clientId = clientId ∧
      wallet.projectId = projectId ∧ wallet.chainId = chainId ∧
      wallet.walletType matches .gasTank _ then none
  else if order.isPerm (state.projectPublicKeys projectId) then
    let signers ← signersOf order
    return { state with
      projectChains := state.projectChains ++ [⟨projectId, chainId, signers⟩] }
  else none

/-! ## Runs -/

inductive Action (Seed Address : Type) where
  | generateClientKeys (clientId : ClientId) (entropy : Seed)
  | generateProjectSeed (projectId : ProjectId) (entropy : Seed)
  | generateProjectKeys (projectId : ProjectId) (clientId : ClientId)
  | deriveGasTankKey (clientId : ClientId) (chainId : ChainId)
  | deriveProjectGasTankKey (projectId : ProjectId) (clientId : ClientId) (chainId : ChainId)
  | createWallets (clientId : ClientId) (chainId : ChainId) (order : List (DerivedKey Address))
      (entropy : Seed)
  | registerGasTank (clientId : ClientId) (projectId : ProjectId) (chainId : ChainId)
      (address : Address)
  | deployProjectChain (projectId : ProjectId) (clientId : ClientId) (chainId : ChainId)
      (order : List (DerivedKey Address))

/-- Requests to the vault and the wallet services in any order. Random entropy is
never drawn twice. -/
def step [DecidableEq Seed] [DecidableEq Address] (settings : Settings)
    (hd : HdWallet Seed Address) (state : State Seed Address) :
    Action Seed Address → Option (State Seed Address)
  | .generateClientKeys clientId entropy =>
    if entropy ∈ state.seeds then none else some (generateClientKeys hd state clientId entropy)
  | .generateProjectSeed projectId entropy =>
    if entropy ∈ state.seeds then none else generateProjectSeed settings state projectId entropy
  | .generateProjectKeys projectId clientId =>
    generateProjectKeys settings hd state projectId clientId
  | .deriveGasTankKey clientId chainId => do
    let key ← deriveGasTankKey hd state clientId chainId
    return { state with derivedKeys := state.derivedKeys ++ [key] }
  | .deriveProjectGasTankKey projectId clientId chainId =>
    deriveProjectGasTankKey settings hd state projectId clientId chainId
  | .createWallets clientId chainId order entropy =>
    if entropy ∈ state.seeds then none
    else createWallets settings hd state clientId chainId order entropy
  | .registerGasTank clientId projectId chainId address =>
    registerGasTank state clientId projectId chainId address
  | .deployProjectChain projectId clientId chainId order =>
    deployProjectChain settings state projectId clientId chainId order

def system [DecidableEq Seed] [DecidableEq Address] (settings : Settings)
    (hd : HdWallet Seed Address) : TransitionSystem (State Seed Address) (Action Seed Address) where
  Initial state := state = .initial
  step := step settings hd

end CryptoVaultHub.KeyVault

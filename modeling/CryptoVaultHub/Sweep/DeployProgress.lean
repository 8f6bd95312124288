import CryptoVaultHub.Sweep.Fleet

/-!
# Whom the forwarder-deploy cron reaches

A run of `deployPendingForwarders` over the tables of all chains. It takes a batch of the addresses
that are not deployed, in whatever order the database lists them, and only then drops those without
deposits. The fleet follows the same run statement by statement on one chain; here the batch is what
matters, and the addresses that it never contains.
-/

namespace CryptoVaultHub.Sweep.DeployProgress

open List Option

abbrev ChainId := Nat

/-! ## The tables -/

/-- A row of `deposit_addresses`; the factory and the indexer spell addresses in different letter
cases. -/
structure AddressRow where
  id : Nat
  clientId : ClientId
  chainId : ChainId
  address : List Char
  salt : String
  isDeployed : Bool
deriving DecidableEq

/-- A row of `deposits`. -/
structure DepositRow where
  forwarderAddress : List Char
  chainId : ChainId
  tokenId : TokenId
  status : DepositStatus
  sweepTxHash : Option TxHash
deriving DecidableEq

inductive WalletType where
  | hot
  | gasTank
deriving DecidableEq

structure WalletRow where
  clientId : ClientId
  chainId : ChainId
  walletType : WalletType
  address : List Char
deriving DecidableEq

structure ChainRow where
  id : ChainId
  forwarderFactoryAddress : Option (List Char)
deriving DecidableEq

structure Tables where
  addresses : List AddressRow
  deposits : List DepositRow
  wallets : List WalletRow
  chains : List ChainRow
  nativeTokens : List (ChainId × TokenId)
deriving DecidableEq

def lower (address : List Char) : List Char := address.map Char.toLower

namespace Tables

/-- The addresses of a chain that are not deployed. -/
def undeployed (tables : Tables) (chainId : ChainId) : List AddressRow :=
  tables.addresses.filter fun row => row.chainId = chainId && !row.isDeployed

/-- An address has deposits of a qualifying status, whatever the letter case. -/
def hasDeposits (tables : Tables) (chainId : ChainId) (row : AddressRow) : Bool :=
  tables.deposits.any fun deposit =>
    lower deposit.forwarderAddress = lower row.address && deposit.chainId = chainId &&
      deposit.status.isFunded

/-- `findUnique` by client, chain and type. -/
def wallet? (tables : Tables) (clientId : ClientId) (chainId : ChainId)
    (walletType : WalletType) : Option WalletRow :=
  tables.wallets.find? fun wallet =>
    wallet.clientId = clientId && wallet.chainId = chainId && wallet.walletType = walletType

def factory? (tables : Tables) (chainId : ChainId) : Option (List Char) :=
  (tables.chains.find? fun chain => chain.id = chainId).bind ChainRow.forwarderFactoryAddress

def native? (tables : Tables) (chainId : ChainId) : Option TokenId :=
  (tables.nativeTokens.find? fun entry => entry.1 = chainId).map Prod.snd

def markDeployed (tables : Tables) (id : Nat) : Tables :=
  { tables with
    addresses := tables.addresses.map fun row =>
      if row.id = id then { row with isDeployed := true } else row }

/-- The native deposits that a deployment has swept. -/
def reconcile (tables : Tables) (chainId : ChainId) (row : AddressRow) (native : TokenId)
    (hash : TxHash) : Tables :=
  { tables with
    deposits := tables.deposits.map fun deposit =>
      if lower deposit.forwarderAddress = lower row.address ∧ deposit.chainId = chainId ∧
          deposit.status.isOpen ∧ deposit.sweepTxHash = none ∧ deposit.tokenId = native then
        { deposit with status := .swept, sweepTxHash := some hash }
      else deposit }

end Tables

/-! ## A run -/

/-- A `createForwarder` call, with the account that sends it. -/
structure Deployment where
  sender : List Char
  factory : List Char
  parent : List Char
  feeAddress : List Char
  salt : String
deriving DecidableEq

/-- What a run does for an address: it finds code there, or has a deployment signed and sent. -/
inductive Attempt where
  | found (row : AddressRow)
  | deploy (row : AddressRow) (deployment : Deployment)
deriving DecidableEq

def Attempt.row : Attempt → AddressRow
  | .found row => row
  | .deploy row _ => row

/-- The answers of the calls for one address; what is absent or `false` throws. -/
structure Answers where
  hasCode : Option Bool
  txHash : Option TxHash
  marks : Bool
  balance : Option Nat
  reconciles : Bool

structure Run where
  attempts : List Attempt
  tables : Tables
  deployed : Nat

/-- The tables after the balance check that follows a deployment. -/
def reconcileDeployment (tables : Tables) (chainId : ChainId) (row : AddressRow) (hash : TxHash)
    (answers : Answers) : Tables :=
  match answers.balance, tables.native? chainId with
  | some 0, some native =>
    if answers.reconciles then tables.reconcile chainId row native hash else tables
  | _, _ => tables

/-- The body of the loop; what throws ends it for this address. -/
def deployForwarder (run : Run) (chainId : ChainId) (factory : List Char) (row : AddressRow)
    (answers : Answers) : Run :=
  match run.tables.wallet? row.clientId chainId .hot,
      run.tables.wallet? row.clientId chainId .gasTank with
  | some hotWallet, some gasTank =>
    match answers.hasCode with
    | none => run
    | some true =>
      let attempts := run.attempts ++ [.found row]
      if answers.marks then ⟨attempts, run.tables.markDeployed row.id, run.deployed + 1⟩
      else { run with attempts := attempts }
    | some false =>
      let deployment : Deployment :=
        { sender := gasTank.address
          factory := factory
          parent := hotWallet.address
          feeAddress := hotWallet.address
          salt := row.salt }
      let attempts := run.attempts ++ [.deploy row deployment]
      match answers.txHash with
      | none => { run with attempts := attempts }
      | some hash =>
        if answers.marks then
          ⟨attempts, reconcileDeployment (run.tables.markDeployed row.id) chainId row hash
            answers, run.deployed + 1⟩
        else { run with attempts := attempts }
  | _, _ => run

/-- `deployPendingForwarders`, given the order in which the database lists the addresses that are
not deployed; a chain without a factory and an unreachable provider end the run. -/
def deployPendingForwarders (tables : Tables) (chainId : ChainId) (listed : List AddressRow)
    (providerReady : Bool) (answers : AddressRow → Answers) : Run :=
  let undeployed := listed.take deployBatchSize
  let candidates := undeployed.filter (tables.hasDeposits chainId)
  match candidates, tables.factory? chainId with
  | [], _ | _, none => ⟨[], tables, 0⟩
  | candidates, some factory =>
    if providerReady then
      candidates.foldl (fun run row => deployForwarder run chainId factory row (answers row))
        ⟨[], tables, 0⟩
    else ⟨[], tables, 0⟩

/-! ## Progress -/

/-- The chain has a factory, and every client its wallets. -/
structure Tables.Ready (tables : Tables) (chainId : ChainId) : Prop where
  factory : (tables.factory? chainId).isSome = true
  hot : ∀ row ∈ tables.undeployed chainId,
    (tables.wallet? row.clientId chainId .hot).isSome = true
  gasTank : ∀ row ∈ tables.undeployed chainId,
    (tables.wallet? row.clientId chainId .gasTank).isSome = true

/-- An address that the run may have to deploy. -/
def Tables.Pending (tables : Tables) (chainId : ChainId) (row : AddressRow) : Prop :=
  row ∈ tables.undeployed chainId ∧ tables.hasDeposits chainId row = true

/-- Whatever the order of the database, a run attempts a pending address if there is one. -/
def Tables.Progresses (tables : Tables) (chainId : ChainId) : Prop :=
  (∃ row, tables.Pending chainId row) →
    ∀ (listed : List AddressRow) (answers : AddressRow → Answers),
      listed.Perm (tables.undeployed chainId) → (∀ row, (answers row).hasCode.isSome = true) →
        ∃ attempt ∈ (deployPendingForwarders tables chainId listed true answers).attempts,
          tables.Pending chainId attempt.row

/-- The addresses without deposits that may come first. -/
def Tables.idle (tables : Tables) (chainId : ChainId) : List AddressRow :=
  (tables.undeployed chainId).filter fun row => !tables.hasDeposits chainId row

variable {tables : Tables} {chainId : ChainId} {listed : List AddressRow}
  {answers : AddressRow → Answers}

theorem wallets_reconcileDeployment (tables : Tables) (chainId : ChainId) (row : AddressRow)
    (hash : TxHash) (answer : Answers) :
    (reconcileDeployment tables chainId row hash answer).wallets = tables.wallets := by
  unfold reconcileDeployment
  split
  · split <;> rfl
  · rfl

/-- The body of the loop attempts its address, and leaves the wallets alone. -/
theorem deployForwarder_attempts {run : Run} {factory : List Char} {row : AddressRow}
    {answer : Answers} (hot : (run.tables.wallet? row.clientId chainId .hot).isSome = true)
    (gasTank : (run.tables.wallet? row.clientId chainId .gasTank).isSome = true)
    (reachable : answer.hasCode.isSome = true) :
    (deployForwarder run chainId factory row answer).attempts.map Attempt.row =
        run.attempts.map Attempt.row ++ [row] ∧
      (deployForwarder run chainId factory row answer).tables.wallets = run.tables.wallets := by
  obtain ⟨hotWallet, hot⟩ := isSome_iff_exists.mp hot
  obtain ⟨tank, gasTank⟩ := isSome_iff_exists.mp gasTank
  obtain ⟨code, known⟩ := isSome_iff_exists.mp reachable
  simp only [deployForwarder, hot, gasTank, known]
  cases code with
  | true =>
    dsimp only
    split <;> simp [Attempt.row, Tables.markDeployed]
  | false =>
    dsimp only
    split
    · simp [Attempt.row]
    · split <;> simp [Attempt.row, wallets_reconcileDeployment, Tables.markDeployed]

/-- The loop attempts its addresses, one after the other. -/
theorem foldl_deployForwarder {factory : List Char} {rows : List AddressRow} {run : Run}
    (hot : ∀ row ∈ rows, (run.tables.wallet? row.clientId chainId .hot).isSome = true)
    (gasTank : ∀ row ∈ rows, (run.tables.wallet? row.clientId chainId .gasTank).isSome = true)
    (reachable : ∀ row, (answers row).hasCode.isSome = true) :
    (rows.foldl (fun run row => deployForwarder run chainId factory row (answers row))
      run).attempts.map Attempt.row = run.attempts.map Attempt.row ++ rows := by
  induction rows generalizing run with
  | nil => simp
  | cons row rest ih =>
    obtain ⟨attempted, wallets⟩ := @deployForwarder_attempts chainId run factory row
      (answers row) (hot row mem_cons_self) (gasTank row mem_cons_self) (reachable row)
    have later : ∀ other ∈ rest, ∀ kind, (run.tables.wallet? other.clientId chainId
        kind).isSome = true → ((deployForwarder run chainId factory row (answers
          row)).tables.wallet? other.clientId chainId kind).isSome = true := by
      intro other _ kind found
      rwa [Tables.wallet?, wallets]
    rw [foldl_cons, ih, attempted, append_assoc, singleton_append]
    · exact fun other member => later other member _ (hot other (mem_cons_of_mem _ member))
    · exact fun other member =>
        later other member _ (gasTank other (mem_cons_of_mem _ member))

/-- What a run attempts are the addresses of its batch that have deposits. -/
theorem attempts_eq (ready : tables.Ready chainId)
    (order : listed.Perm (tables.undeployed chainId))
    (reachable : ∀ row, (answers row).hasCode.isSome = true) :
    (deployPendingForwarders tables chainId listed true answers).attempts.map Attempt.row =
      (listed.take deployBatchSize).filter (tables.hasDeposits chainId) := by
  obtain ⟨factory, built⟩ := isSome_iff_exists.mp ready.factory
  have inside : ∀ row ∈ (listed.take deployBatchSize).filter (tables.hasDeposits chainId),
      row ∈ tables.undeployed chainId := by
    intro row member
    exact order.subset (mem_of_mem_take (mem_of_mem_filter member))
  unfold deployPendingForwarders
  cases candidates : (listed.take deployBatchSize).filter (tables.hasDeposits chainId) with
  | nil => simp only [candidates, map_nil]
  | cons row rest =>
    rw [candidates] at inside
    simp only [candidates, built, if_true]
    rw [foldl_deployForwarder (fun other member => ready.hot other (inside other member))
      (fun other member => ready.gasTank other (inside other member)) reachable]
    rfl

/-- A run of a batch without deposits attempts nothing and changes nothing. -/
theorem idle_run {providerReady : Bool}
    (idle : (listed.take deployBatchSize).filter (tables.hasDeposits chainId) = []) :
    deployPendingForwarders tables chainId listed providerReady answers = ⟨[], tables, 0⟩ := by
  unfold deployPendingForwarders
  simp only [idle]

/-- Too few idle addresses fill a batch that leaves out a pending one. -/
theorem exists_pending_in_batch (order : listed.Perm (tables.undeployed chainId))
    (few : (tables.idle chainId).length < deployBatchSize) {row : AddressRow}
    (pending : tables.Pending chainId row) :
    ∃ other ∈ listed.take deployBatchSize, tables.Pending chainId other := by
  by_contra none
  have idle : ∀ other ∈ listed.take deployBatchSize, tables.hasDeposits chainId other = false := by
    intro other member
    by_contra funded
    exact none ⟨other, member, order.subset (mem_of_mem_take member),
      Bool.eq_true_of_not_eq_false funded⟩
  have inside : row ∈ listed := order.symm.subset pending.1
  have long : deployBatchSize < listed.length := by
    by_contra short
    rw [take_of_length_le (not_lt.mp short)] at idle
    have funded := pending.2
    rw [idle row inside] at funded
    cases funded
  have batch : (listed.take deployBatchSize).length = deployBatchSize :=
    length_take_of_le long.le
  have counted : (listed.take deployBatchSize).length ≤ (tables.idle chainId).length := by
    have whole : (listed.take deployBatchSize).filter
        (fun other => !tables.hasDeposits chainId other) = listed.take deployBatchSize := by
      rw [filter_eq_self]
      intro other member
      simp [idle other member]
    rw [← whole]
    refine le_trans ?_ (order.filter fun other => !tables.hasDeposits chainId other).length_eq.le
    exact ((take_sublist _ _).filter _).length_le
  omega

/-- With enough idle addresses the database may list a batch of them. -/
theorem exists_idle_order (many : deployBatchSize ≤ (tables.idle chainId).length) :
    ∃ listed : List AddressRow, listed.Perm (tables.undeployed chainId) ∧
      (listed.take deployBatchSize).filter (tables.hasDeposits chainId) = [] := by
  refine ⟨tables.idle chainId ++ (tables.undeployed chainId).filter (tables.hasDeposits chainId),
    ?_, ?_⟩
  · refine perm_append_comm.trans ?_
    exact filter_append_perm _ _
  · rw [take_append_of_le_length many, filter_eq_nil_iff]
    intro row member
    have idle := (mem_filter.mp (mem_of_mem_take member)).2
    simpa using idle

/-- A run attempts a pending address in every order of the database if and only if there is none
or there are fewer addresses without deposits than fit in a batch. -/
theorem deploy_progresses_iff (tables : Tables) (chainId : ChainId)
    (ready : tables.Ready chainId) :
    tables.Progresses chainId ↔
      ((∃ row, tables.Pending chainId row) →
        (tables.idle chainId).length < deployBatchSize) := by
  constructor
  · intro progresses waiting
    by_contra many
    obtain ⟨listed, order, idle⟩ := exists_idle_order (not_lt.mp many)
    obtain ⟨attempt, attempted, _⟩ := progresses waiting listed
      (fun _ => ⟨some false, none, false, none, false⟩) order fun _ => rfl
    rw [idle_run idle] at attempted
    cases attempted
  · rintro few ⟨row, pending⟩ listed answers order reachable
    obtain ⟨other, member, waits⟩ := exists_pending_in_batch order (few ⟨row, pending⟩) pending
    have attempted : other ∈ (deployPendingForwarders tables chainId listed true
        answers).attempts.map Attempt.row := by
      rw [attempts_eq ready order reachable]
      exact mem_filter.mpr ⟨member, waits.2⟩
    obtain ⟨attempt, made, rfl⟩ := mem_map.mp attempted
    exact ⟨attempt, made, waits⟩

/-- Client 1 has its wallets on chain 1, some addresses without deposits, and then one with a
deposit. -/
def waitingBehind (idle : Nat) : Tables where
  addresses := (List.range (idle + 1)).map fun id =>
    { id := id
      clientId := 1
      chainId := 1
      address := if id = idle then ['0', 'x', 'F'] else ['0', 'x', '0']
      salt := "0x01"
      isDeployed := false }
  deposits := [⟨['0', 'x', 'f'], 1, 1, .confirmed, none⟩]
  wallets := [⟨1, 1, .hot, ['0', 'x', 'A']⟩, ⟨1, 1, .gasTank, ['0', 'x', 'B']⟩]
  chains := [⟨1, some ['0', 'x', 'C']⟩]
  nativeTokens := [(1, 1)]

theorem waitingBehind_ready (idle : Nat) : (waitingBehind idle).Ready 1 := by
  have owned : ∀ row ∈ (waitingBehind idle).undeployed 1, row.clientId = 1 := by
    intro row member
    obtain ⟨id, _, rfl⟩ := mem_map.mp (mem_of_mem_filter member)
    rfl
  refine ⟨rfl, fun row member => ?_, fun row member => ?_⟩
  · rw [owned row member]
    rfl
  · rw [owned row member]
    rfl

/-- Behind nine idle addresses the other one is attempted. -/
theorem deploy_progresses_sample : (waitingBehind 9).Progresses 1 :=
  (deploy_progresses_iff (waitingBehind 9) 1 (waitingBehind_ready 9)).mpr fun _ => by
    decide +kernel

/-- Ten idle addresses keep the eleventh from being deployed. -/
theorem deploy_starves :
    ¬ ∀ (tables : Tables) (chainId : ChainId), tables.Ready chainId →
      tables.Progresses chainId := by
  intro progresses
  have pending : ∃ row ∈ (waitingBehind 10).undeployed 1,
      (waitingBehind 10).hasDeposits 1 row = true := by
    decide +kernel
  obtain ⟨row, waits, funded⟩ := pending
  have none : (deployPendingForwarders (waitingBehind 10) 1 ((waitingBehind 10).undeployed 1)
      true fun _ => ⟨some false, some 1, true, some 0, true⟩).attempts = [] := by
    decide +kernel
  obtain ⟨attempt, attempted, _⟩ := progresses (waitingBehind 10) 1 (waitingBehind_ready 10)
    ⟨row, waits, funded⟩ ((waitingBehind 10).undeployed 1)
    (fun _ => ⟨some false, some 1, true, some 0, true⟩) (List.Perm.refl _) fun _ => rfl
  rw [none] at attempted
  cases attempted

end CryptoVaultHub.Sweep.DeployProgress

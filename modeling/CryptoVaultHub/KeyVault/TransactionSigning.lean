import CryptoVaultHub.KeyVault.KeyGeneration

/-!
# Nonces and signers

To send a transaction the cron worker looks up an account, asks the chain for the
next nonce of that account, and has the key vault sign. The vault is given the
client, the chain and the type of the key, not the account, so it looks up a key
of its own. The queries differ in what they filter by and in their order: the
submitter takes any active key of the client and type, the key resolver the
newest one, and the vault one that is scoped to the chain, or else a shared one.
-/

namespace CryptoVaultHub.KeyVault.TransactionSigning

open List Option

variable {Address PrivateKey : Type} {account : PrivateKey → Address}

/-- A row of `derived_keys` with the key that its ciphertext holds. Every row is written
with the address of its key; no query here names its project. -/
structure KeyRow (account : PrivateKey → Address) where
  id : Nat
  clientId : ClientId
  keyType : KeyType
  chainScope : String
  address : Address
  isActive : Bool
  privateKey : PrivateKey
  own : account privateKey = address

/-- How the database answers a query for one row that names no order. -/
structure Selection (Row : Type) where
  pick : List Row → Option Row
  pick_mem : ∀ {rows row}, pick rows = some row → row ∈ rows
  pick_none : ∀ {rows}, pick rows = none → rows = []

/-- The first row of a kind, or the first row. -/
def Selection.preferring {Row : Type} (wanted : Row → Bool) : Selection Row where
  pick rows := (rows.find? wanted).or rows.head?
  pick_mem := by
    intro rows row picked
    obtain found | ⟨_, first⟩ := or_eq_some_iff.mp picked
    · exact mem_of_find?_eq_some found
    · exact mem_of_head? first
  pick_none := by
    intro rows picked
    exact head?_eq_none_iff.mp (or_eq_none_iff.mp picked).2

theorem Selection.pick_preferring {Row : Type} {wanted : Row → Bool} {rows : List Row} {row : Row}
    (member : row ∈ rows) (fits : wanted row = true) :
    ∃ picked, (Selection.preferring wanted).pick rows = some picked ∧ picked ∈ rows ∧
      wanted picked = true := by
  obtain ⟨picked, found⟩ := isSome_iff_exists.mp
    (find?_isSome.mpr ⟨row, member, fits⟩)
  refine ⟨picked, ?_, mem_of_find?_eq_some found, find?_some found⟩
  simp [preferring, found]

/-! ## What is sent -/

structure FeeData where
  maxFeePerGas : Option Nat
  maxPriorityFeePerGas : Option Nat
  gasPrice : Option Nat

inductive Fees where
  | dynamic (maxFeePerGas maxPriorityFeePerGas : Nat)
  | legacy (gasPrice : Nat)
deriving DecidableEq

/-- The prices of a transaction; `none` is `Unable to determine gas price`. -/
def FeeData.fees (feeData : FeeData) : Option Fees :=
  match feeData.maxFeePerGas with
  | some maxFeePerGas =>
    some (.dynamic maxFeePerGas (feeData.maxPriorityFeePerGas.getD 0))
  | none => feeData.gasPrice.map .legacy

structure TxData where
  toAddress : String
  data : String
  value : Nat
  gasLimit : Nat
  nonce : Nat
  chainId : ChainId
  fees : Fees
deriving DecidableEq

/-- A transaction with the key that its signature was made with. -/
structure SignedTransaction (PrivateKey : Type) where
  tx : TxData
  signedBy : PrivateKey

/-- What `sign-transaction` answers; `sender` is also the address in its audit entry. -/
structure SignResult (Address PrivateKey : Type) where
  signedTransaction : SignedTransaction PrivateKey
  sender : Address

/-- A transaction that was signed: the account whose nonce it carries, what the vault
answered, and the hash, unless the broadcast threw. -/
structure Submission (Address PrivateKey : Type) where
  nonceOf : Address
  signed : SignResult Address PrivateKey
  txHash : Option String

/-- Nonce, signature and recorded sender are of one account. -/
def Submission.Agrees (account : PrivateKey → Address)
    (submission : Submission Address PrivateKey) : Prop :=
  submission.nonceOf = account submission.signed.signedTransaction.signedBy ∧
    submission.signed.sender = account submission.signed.signedTransaction.signedBy

/-- What the worker and the vault find outside the table: the rows their queries return,
the answers of the chain, and which calls fail. -/
structure Surroundings (account : PrivateKey → Address) where
  submitterRow : Selection (KeyRow account)
  chainRow : Selection (KeyRow account)
  sharedRow : Selection (KeyRow account)
  providerReady : Bool
  transactionCount : Address → Option Nat
  estimateGas : Address → String → String → Option Nat
  feeData : Option FeeData
  decrypts : KeyRow account → Bool
  signs : TxData → Bool
  broadcast : SignedTransaction PrivateKey → Option String

/-! ## The key vault -/

/-- The active keys of a client and type. -/
def activeKeys (table : List (KeyRow account)) (clientId : ClientId) (keyType : KeyType) :
    List (KeyRow account) :=
  table.filter fun row => row.clientId = clientId && row.keyType = keyType && row.isActive

/-- Those of one chain scope. -/
def scopedKeys (table : List (KeyRow account)) (clientId : ClientId) (keyType : KeyType)
    (chainScope : String) : List (KeyRow account) :=
  (activeKeys table clientId keyType).filter fun row => row.chainScope = chainScope

def chainScopeOf (chainId : ChainId) : String := "evm:" ++ toString chainId

/-- The key scoped to the chain, or else one that is shared by the chains. -/
def decryptPrivateKeyForChain (around : Surroundings account) (table : List (KeyRow account))
    (clientId : ClientId) (keyType : KeyType) (chainId : ChainId) : Option (KeyRow account) := do
  let row ← (around.chainRow.pick (scopedKeys table clientId keyType (chainScopeOf chainId))).or
    (around.sharedRow.pick (scopedKeys table clientId keyType "evm"))
  if around.decrypts row then return row else none

def signTransaction (around : Surroundings account) (table : List (KeyRow account))
    (clientId : ClientId) (keyType : KeyType) (tx : TxData) :
    Option (SignResult Address PrivateKey) := do
  let row ← decryptPrivateKeyForChain around table clientId keyType tx.chainId
  if around.signs tx then return ⟨⟨tx, row.privateKey⟩, row.address⟩ else none

/-! ## The cron worker -/

/-- What is to be sent, and with which type of key. -/
structure Request where
  chainId : ChainId
  clientId : ClientId
  keyType : KeyType
  toAddress : String
  data : String
  value : Nat
  gasLimit : Option Nat

/-- The limit that is asked for, the estimate with a margin, or a default. -/
def gasLimitOf (around : Surroundings account) (sender : Address) (request : Request)
    (default : Nat) : Nat :=
  match request.gasLimit.filter fun limit => limit ≠ 0 with
  | some limit => limit
  | none =>
    match around.estimateGas sender request.toAddress request.data with
    | some estimated => estimated * 120 / 100
    | none => default

/-- Fetch the nonce of the sender, have the transaction signed, and broadcast it. -/
def submitFrom (around : Surroundings account) (table : List (KeyRow account)) (sender : Address)
    (request : Request) (defaultGas : Nat) : Option (Submission Address PrivateKey) := do
  if around.providerReady then
    let nonce ← around.transactionCount sender
    let feeData ← around.feeData
    let fees ← feeData.fees
    let tx : TxData :=
      { toAddress := request.toAddress
        data := request.data
        value := request.value
        gasLimit := gasLimitOf around sender request defaultGas
        nonce := nonce
        chainId := request.chainId
        fees := fees }
    let signed ← signTransaction around table request.clientId request.keyType tx
    return ⟨sender, signed, around.broadcast signed.signedTransaction⟩
  else none

/-- The submitter of sweeps, deployments, top-ups and gas tank withdrawals; `sender` is
`params.from`, absent when it is empty. -/
def signAndSubmit (around : Surroundings account) (table : List (KeyRow account))
    (sender : Option Address) (request : Request) : Option (Submission Address PrivateKey) := do
  let sender ← sender.or
    ((around.submitterRow.pick (activeKeys table request.clientId request.keyType)).map
      KeyRow.address)
  submitFrom around table sender request 150000

/-- `ORDER BY id DESC LIMIT 1`, behind the cache of the process. -/
def resolveAddress (table : List (KeyRow account)) (cached : Option Address) (clientId : ClientId)
    (keyType : KeyType) : Option Address :=
  cached.or (((activeKeys table clientId keyType).argmax KeyRow.id).map KeyRow.address)

/-- The outer transaction of a withdrawal from a hot wallet. -/
def submitWithdrawal (around : Surroundings account) (table : List (KeyRow account))
    (cached : Option Address) (chainId : ChainId) (clientId : ClientId)
    (hotWallet txData : String) : Option (Submission Address PrivateKey) := do
  let sender ← resolveAddress table cached clientId .platform
  submitFrom around table sender
    { chainId := chainId
      clientId := clientId
      keyType := .platform
      toAddress := hotWallet
      data := txData
      value := 0
      gasLimit := none } 300000

/-! ## Agreement -/

/-- The rows that the vault may find. -/
def vaultKeys (table : List (KeyRow account)) (clientId : ClientId) (keyType : KeyType)
    (chainId : ChainId) : List (KeyRow account) :=
  match scopedKeys table clientId keyType (chainScopeOf chainId) with
  | [] => scopedKeys table clientId keyType "evm"
  | row :: rows => row :: rows

/-- The accounts whose nonce the submitter may fetch. -/
def senders (table : List (KeyRow account)) (sender : Option Address) (request : Request) :
    List Address :=
  match sender with
  | some address => [address]
  | none => (activeKeys table request.clientId request.keyType).map KeyRow.address

variable {table : List (KeyRow account)}

/-- What the vault decrypts is one of the rows it may find. -/
theorem mem_vaultKeys {around : Surroundings account} {clientId : ClientId} {keyType : KeyType}
    {chainId : ChainId} {row : KeyRow account}
    (found : decryptPrivateKeyForChain around table clientId keyType chainId = some row) :
    row ∈ vaultKeys table clientId keyType chainId := by
  obtain ⟨picked, chosen, decrypted⟩ := bind_eq_some_iff.mp found
  split at decrypted
  · cases decrypted
    unfold vaultKeys
    obtain chainKey | ⟨unscoped, shared⟩ := or_eq_some_iff.mp chosen
    · have member := around.chainRow.pick_mem chainKey
      split
      · rename_i empty
        rw [empty] at member
        cases member
      · rename_i first rest keys
        rwa [keys] at member
    · rw [around.chainRow.pick_none unscoped]
      exact around.sharedRow.pick_mem shared
  · cases decrypted

/-- The vault signs with a key it may find and records the address of that key. -/
theorem signed_of_submitFrom {around : Surroundings account} {sender : Address}
    {request : Request} {defaultGas : Nat} {submission : Submission Address PrivateKey}
    (submitted : submitFrom around table sender request defaultGas = some submission) :
    submission.nonceOf = sender ∧
      ∃ row ∈ vaultKeys table request.clientId request.keyType request.chainId,
        submission.signed.signedTransaction.signedBy = row.privateKey ∧
          submission.signed.sender = row.address := by
  unfold submitFrom at submitted
  split at submitted
  · obtain ⟨nonce, _, submitted⟩ := bind_eq_some_iff.mp submitted
    obtain ⟨feeData, _, submitted⟩ := bind_eq_some_iff.mp submitted
    obtain ⟨fees, _, submitted⟩ := bind_eq_some_iff.mp submitted
    obtain ⟨signed, signs, submitted⟩ := bind_eq_some_iff.mp submitted
    cases submitted
    obtain ⟨row, found, result⟩ := bind_eq_some_iff.mp signs
    split at result
    · cases result
      exact ⟨rfl, row, mem_vaultKeys found, rfl, rfl⟩
    · cases result
  · cases submitted

/-- A submission agrees if its sender is the account of the key that signs. -/
theorem agrees_iff_of_signed {submission : Submission Address PrivateKey} {row : KeyRow account}
    (signedBy : submission.signed.signedTransaction.signedBy = row.privateKey)
    (recorded : submission.signed.sender = row.address) :
    submission.Agrees account ↔ submission.nonceOf = row.address := by
  simp [Submission.Agrees, signedBy, recorded, row.own]

section Working

variable [DecidableEq Address]

/-- Nothing fails, and the queries prefer given addresses. -/
def working (account : PrivateKey → Address) (submitter vault : Address) :
    Surroundings account where
  submitterRow := .preferring fun row => row.address = submitter
  chainRow := .preferring fun row => row.address = vault
  sharedRow := .preferring fun row => row.address = vault
  providerReady := true
  transactionCount _ := some 0
  estimateGas _ _ _ := none
  feeData := some ⟨none, none, some 1⟩
  decrypts _ := true
  signs _ := true
  broadcast _ := some "0x01"

/-- Any row that the vault may find can be the one it decrypts. -/
theorem decrypts_working {clientId : ClientId} {keyType : KeyType} {chainId : ChainId}
    {row : KeyRow account} {submitter : Address}
    (member : row ∈ vaultKeys table clientId keyType chainId) :
    ∃ found, decryptPrivateKeyForChain (working account submitter row.address) table clientId
      keyType chainId = some found ∧ found.address = row.address := by
  have fits : decide (row.address = row.address) = true := by simp
  unfold vaultKeys at member
  split at member
  · rename_i empty
    obtain ⟨found, picked, _, same⟩ := @Selection.pick_preferring _
      (fun other : KeyRow account => other.address = row.address) _ _ member fits
    refine ⟨found, ?_, of_decide_eq_true same⟩
    simp only [decryptPrivateKeyForChain, empty, working, picked]
    rfl
  · rename_i first rest keys
    rw [← keys] at member
    obtain ⟨found, picked, _, same⟩ := @Selection.pick_preferring _
      (fun other : KeyRow account => other.address = row.address) _ _ member fits
    refine ⟨found, ?_, of_decide_eq_true same⟩
    simp only [decryptPrivateKeyForChain, working, picked]
    rfl

/-- If nothing fails the sender's nonce can go with a key of any row that the vault may find. -/
theorem submits_working {request : Request} {row : KeyRow account} {submitter sender : Address}
    {defaultGas : Nat}
    (member : row ∈ vaultKeys table request.clientId request.keyType request.chainId) :
    ∃ submission, submitFrom (working account submitter row.address) table sender request
        defaultGas = some submission ∧ (submission.Agrees account ↔ sender = row.address) := by
  obtain ⟨found, decrypted, same⟩ := @decrypts_working _ _ _ _ _ _ _ _ _ submitter member
  let tx : TxData :=
    { toAddress := request.toAddress
      data := request.data
      value := request.value
      gasLimit := gasLimitOf (working account submitter row.address) sender request defaultGas
      nonce := 0
      chainId := request.chainId
      fees := .legacy 1 }
  refine ⟨⟨sender, ⟨⟨tx, found.privateKey⟩, found.address⟩, some "0x01"⟩, ?_, ?_⟩
  · have signed : signTransaction (working account submitter row.address) table request.clientId
        request.keyType tx = some ⟨⟨tx, found.privateKey⟩, found.address⟩ := by
      rw [signTransaction, decrypted]
      rfl
    exact bind_eq_some_iff.mpr ⟨_, signed, rfl⟩
  · rw [agrees_iff_of_signed rfl rfl, same]

end Working

/-- The submitter's sender is one that it may look up. -/
theorem mem_senders {around : Surroundings account} {sender : Option Address} {request : Request}
    {found : Address}
    (resolved : sender.or ((around.submitterRow.pick
      (activeKeys table request.clientId request.keyType)).map KeyRow.address) = some found) :
    found ∈ senders table sender request := by
  cases sender with
  | some address =>
    cases resolved
    exact mem_singleton_self _
  | none =>
    rw [none_or] at resolved
    obtain ⟨row, picked, rfl⟩ := map_eq_some_iff.mp resolved
    exact mem_map_of_mem (around.submitterRow.pick_mem picked)

/-- Nonce, signer and recorded sender agree in every submission if and only if every row that the
vault may find has the address of every account that the submitter may look up; and likewise for
the account that the key resolver looks up. -/
theorem nonce_and_signer_agree_iff [DecidableEq Address] (account : PrivateKey → Address)
    (table : List (KeyRow account)) :
    (∀ (sender : Option Address) (request : Request),
      (∀ (around : Surroundings account) (submission : Submission Address PrivateKey),
        signAndSubmit around table sender request = some submission →
          submission.Agrees account) ↔
        ∀ row ∈ vaultKeys table request.clientId request.keyType request.chainId,
          ∀ address ∈ senders table sender request, address = row.address) ∧
      ∀ (cached : Option Address) (chainId : ChainId) (clientId : ClientId)
        (hotWallet txData : String),
        (∀ (around : Surroundings account) (submission : Submission Address PrivateKey),
          submitWithdrawal around table cached chainId clientId hotWallet txData =
              some submission →
            submission.Agrees account) ↔
          ∀ row ∈ vaultKeys table clientId .platform chainId,
            ∀ address ∈ resolveAddress table cached clientId .platform,
              address = row.address := by
  constructor
  · intro sender request
    constructor
    · intro agrees row member address possible
      obtain ⟨submission, submitted, iff⟩ :=
        @submits_working _ _ _ _ _ request row address address 150000 member
      refine iff.mp (agrees (working account address row.address) submission ?_)
      refine bind_eq_some_iff.mpr ⟨address, ?_, submitted⟩
      cases sender with
      | some given =>
        rw [mem_singleton.mp possible]
        rfl
      | none =>
        obtain ⟨chosen, active, rfl⟩ := mem_map.mp possible
        obtain ⟨picked, answered, _, same⟩ := @Selection.pick_preferring _
          (fun other : KeyRow account => other.address = chosen.address) _ _ active (by simp)
        rw [none_or]
        exact map_eq_some_iff.mpr ⟨picked, answered, of_decide_eq_true same⟩
    · intro same around submission submitted
      obtain ⟨found, resolved, submitted⟩ := bind_eq_some_iff.mp submitted
      obtain ⟨rfl, row, member, signedBy, recorded⟩ := signed_of_submitFrom submitted
      exact (agrees_iff_of_signed signedBy recorded).mpr
        (same row member _ (mem_senders resolved))
  · intro cached chainId clientId hotWallet txData
    constructor
    · intro agrees row member address resolved
      obtain ⟨submission, submitted, iff⟩ :=
        @submits_working _ _ _ _ _ ⟨chainId, clientId, .platform, hotWallet, txData, 0, none⟩ row
          address address 300000 member
      exact iff.mp (agrees (working account address row.address) submission
        (bind_eq_some_iff.mpr ⟨address, resolved, submitted⟩))
    · intro same around submission submitted
      obtain ⟨found, resolved, submitted⟩ := bind_eq_some_iff.mp submitted
      obtain ⟨rfl, row, member, signedBy, recorded⟩ := signed_of_submitFrom submitted
      exact (agrees_iff_of_signed signedBy recorded).mpr (same row member _ resolved)

/-- The active gas tank keys of client 1 on two chains, as the vault derives them; the key with
number n belongs to account n. -/
def twoGasTanks : List (KeyRow (id : Nat → Nat)) :=
  [⟨1, 1, .gasTank, "evm:1", 101, true, 101, rfl⟩, ⟨2, 1, .gasTank, "evm:137", 102, true, 102, rfl⟩]

/-- A top-up on the second chain, without a sender. -/
def topUp : Request where
  chainId := 137
  clientId := 1
  keyType := .gasTank
  toAddress := "0x2222222222222222222222222222222222222222"
  data := "0x"
  value := 1
  gasLimit := none

/-- The nonce is that of the first gas tank, and the second one signs. -/
theorem nonce_and_signer_differ :
    ¬ ∀ (table : List (KeyRow (id : Nat → Nat))) (sender : Option Nat) (request : Request)
      (around : Surroundings (id : Nat → Nat)) (submission : Submission Nat Nat),
      signAndSubmit around table sender request = some submission → submission.Agrees id := by
  intro agrees
  have differ : (signAndSubmit (working id 101 102) twoGasTanks none topUp).any (fun submission =>
      submission.nonceOf ≠ submission.signed.signedTransaction.signedBy) = true := by
    decide +kernel
  obtain ⟨submission, submitted, apart⟩ := (any_eq_true _ _).mp differ
  have same := (agrees twoGasTanks none topUp (working id 101 102) submission submitted).1
  exact of_decide_eq_true apart same

end CryptoVaultHub.KeyVault.TransactionSigning

import CryptoVaultHub.Contracts.WalletInvariant

/-!
# Operation hashes built off chain

The withdrawal worker and the co-sign orchestrator each build the hash that
`CvhWalletSimple` recomputes from the call it receives. The worker chooses the
kind of its hash and of its call by `isNative`; the orchestrator chooses the kind
of its hash by whether the token row has a contract address.
-/

namespace CryptoVaultHub.Withdrawal

open Contracts List Option

/-- What the encoders take from `ethers`. A text that is no address is rejected,
the empty text among them. -/
structure Ethers where
  keccak256 : List UInt8 → List UInt8
  getAddress : String → Option Address
  getAddress_empty : getAddress "" = none

/-- An `INT` column that holds a chain id. -/
abbrev ChainId := Fin (2 ^ 31)

/-- The chain id as the chain itself sees it. -/
def ChainId.word (chainId : ChainId) : Uint256 := BitVec.ofNat 256 chainId.val

/-- A row of `tokens`. `contract_address` is not nullable, so a native token has
one as well. -/
structure Token where
  contractAddress : String
  isNative : Bool
deriving DecidableEq

namespace Ethers

variable (ethers : Ethers)

/-- A `uint256` argument, up to the largest value its type can hold exactly. -/
def uint256 (value bound : Nat) : Option Uint256 :=
  if value ≤ bound then some (BitVec.ofNat 256 value) else none

/-- The `uint256` coder on a `bigint`. -/
def bigint (value : Nat) : Option Uint256 := uint256 value (2 ^ 256 - 1)

/-- The `uint256` coder on a `number`, bounded by `Number.MAX_SAFE_INTEGER`. -/
def number (value : Nat) : Option Uint256 := uint256 value (2 ^ 53 - 1)

end Ethers

/-! ## The hash builder of the worker -/

structure NativeHashInput where
  chainId : ChainId
  walletAddress : String
  toAddress : String
  value : Nat
  data : List UInt8
  expireTime : Nat
  sequenceId : Nat

structure Erc20HashInput where
  chainId : ChainId
  walletAddress : String
  toAddress : String
  value : Nat
  tokenContractAddress : String
  expireTime : Nat
  sequenceId : Nat

def buildNativeOperationHash (ethers : Ethers) (input : NativeHashInput) : Option (List UInt8) := do
  let walletAddress ← ethers.getAddress input.walletAddress
  let toAddress ← ethers.getAddress input.toAddress
  let value ← Ethers.bigint input.value
  let expireTime ← Ethers.number input.expireTime
  let sequenceId ← Ethers.number input.sequenceId
  return ethers.keccak256 (Abi.encode [.bytes (decimal input.chainId.val),
    .static walletAddress.word, .static toAddress.word, .static value, .bytes input.data,
    .static expireTime, .static sequenceId])

def buildErc20OperationHash (ethers : Ethers) (input : Erc20HashInput) : Option (List UInt8) := do
  let walletAddress ← ethers.getAddress input.walletAddress
  let toAddress ← ethers.getAddress input.toAddress
  let value ← Ethers.bigint input.value
  let tokenContractAddress ← ethers.getAddress input.tokenContractAddress
  let expireTime ← Ethers.number input.expireTime
  let sequenceId ← Ethers.number input.sequenceId
  return ethers.keccak256 (Abi.encode [
    .bytes (decimal input.chainId.val ++ asciiBytes "-ERC20".toList), .static walletAddress.word,
    .static toAddress.word, .static value, .static tokenContractAddress.word, .static expireTime,
    .static sequenceId])

/-! ## The hash builder of the orchestrator -/

structure BuildHashParams where
  networkId : List UInt8
  hotWalletAddress : String
  toAddress : String
  amountRaw : Nat
  tokenContractAddress : Option String
  expireTime : Nat
  sequenceId : Nat

/-- An empty text counts as missing. -/
def truthy (text : Option String) : Option String := text.filter fun content => content ≠ ""

def buildOperationHash (ethers : Ethers) (params : BuildHashParams) : Option (List UInt8) :=
  match truthy params.tokenContractAddress with
  | some contract => do
    let hotWalletAddress ← ethers.getAddress params.hotWalletAddress
    let toAddress ← ethers.getAddress params.toAddress
    let value ← Ethers.bigint params.amountRaw
    let tokenContractAddress ← ethers.getAddress contract
    let expireTime ← Ethers.number params.expireTime
    let sequenceId ← Ethers.number params.sequenceId
    return ethers.keccak256 (Abi.encode [
      .bytes (params.networkId ++ asciiBytes "-ERC20".toList), .static hotWalletAddress.word,
      .static toAddress.word, .static value, .static tokenContractAddress.word,
      .static expireTime, .static sequenceId])
  | none => do
    let hotWalletAddress ← ethers.getAddress params.hotWalletAddress
    let toAddress ← ethers.getAddress params.toAddress
    let value ← Ethers.bigint params.amountRaw
    let expireTime ← Ethers.number params.expireTime
    let sequenceId ← Ethers.number params.sequenceId
    return ethers.keccak256 (Abi.encode [.bytes params.networkId, .static hotWalletAddress.word,
      .static toAddress.word, .static value, .bytes [], .static expireTime,
      .static sequenceId])

/-! ## The hashes and the call of a withdrawal -/

/-- Everything a hash and a call are made from: columns of the withdrawal, its
wallet, an expiry and a sequence id. -/
structure Execution where
  chainId : ChainId
  walletAddress : String
  toAddress : String
  amountRaw : Nat
  expireTime : Nat
  sequenceId : Nat
deriving DecidableEq

/-- `operationHash` of `executeWithdrawal`. -/
def workerHash (ethers : Ethers) (token : Token) (execution : Execution) : Option (List UInt8) :=
  if token.isNative then
    buildNativeOperationHash ethers
      { chainId := execution.chainId
        walletAddress := execution.walletAddress
        toAddress := execution.toAddress
        value := execution.amountRaw
        data := []
        expireTime := execution.expireTime
        sequenceId := execution.sequenceId }
  else
    buildErc20OperationHash ethers
      { chainId := execution.chainId
        walletAddress := execution.walletAddress
        toAddress := execution.toAddress
        value := execution.amountRaw
        tokenContractAddress := token.contractAddress
        expireTime := execution.expireTime
        sequenceId := execution.sequenceId }

/-- `operationHash` of `createCoSignOperation`; `token` is the joined row, if any. -/
def coSignHash (ethers : Ethers) (token : Option Token) (execution : Execution) :
    Option (List UInt8) :=
  buildOperationHash ethers
    { networkId := decimal execution.chainId.val
      hotWalletAddress := execution.walletAddress
      toAddress := execution.toAddress
      amountRaw := execution.amountRaw
      tokenContractAddress := truthy (token.map Token.contractAddress)
      expireTime := execution.expireTime
      sequenceId := execution.sequenceId }

/-- `txData` of `executeWithdrawal`: the entry point the worker calls, with the
arguments `encodeFunctionData` accepts. -/
def workerCall (ethers : Ethers) (token : Token) (execution : Execution) (signature : List UInt8) :
    Option Entry := do
  let toAddress ← ethers.getAddress execution.toAddress
  let value ← Ethers.bigint execution.amountRaw
  let expireTime ← Ethers.number execution.expireTime
  let sequenceId ← Ethers.number execution.sequenceId
  if token.isNative then
    return .sendMultiSig toAddress value noData expireTime sequenceId signature
  else
    let tokenContractAddress ← ethers.getAddress token.contractAddress
    return .sendMultiSigToken toAddress value tokenContractAddress expireTime sequenceId signature

/-- The operation whose hash the wallet recomputes in an entry point. -/
def operation? (chainid : Uint256) (wallet : Address) : Entry → Option Operation
  | .sendMultiSig toAddress value data expireTime sequenceId _ =>
    some (.native chainid wallet toAddress value data expireTime sequenceId)
  | .sendMultiSigToken toAddress value tokenContractAddress expireTime sequenceId _ =>
    some (.token chainid wallet toAddress value tokenContractAddress expireTime sequenceId)
  | .sendMultiSigBatch recipients values expireTime sequenceId _ =>
    some (.batch chainid wallet recipients values expireTime sequenceId)
  | _ => none

/-! ## What the builders compute -/

/-- The operation an execution describes: of a token contract, or of the native coin. -/
def Execution.operation (ethers : Ethers) (execution : Execution) :
    Option String → Option Operation
  | some contract => do
    let wallet ← ethers.getAddress execution.walletAddress
    let toAddress ← ethers.getAddress execution.toAddress
    let value ← Ethers.bigint execution.amountRaw
    let tokenContractAddress ← ethers.getAddress contract
    let expireTime ← Ethers.number execution.expireTime
    let sequenceId ← Ethers.number execution.sequenceId
    return .token execution.chainId.word wallet toAddress value tokenContractAddress expireTime
      sequenceId
  | none => do
    let wallet ← ethers.getAddress execution.walletAddress
    let toAddress ← ethers.getAddress execution.toAddress
    let value ← Ethers.bigint execution.amountRaw
    let expireTime ← Ethers.number execution.expireTime
    let sequenceId ← Ethers.number execution.sequenceId
    return .native execution.chainId.word wallet toAddress value noData expireTime
      sequenceId

/-- The contract of the kind that the worker chooses. -/
def Token.workerContract (token : Token) : Option String :=
  if token.isNative then none else some token.contractAddress

theorem networkId_word (chainId : ChainId) : getNetworkId chainId.word = decimal chainId.val := by
  have small : chainId.val < 2 ^ 256 := Nat.lt_trans chainId.isLt (by decide)
  rw [getNetworkId, ChainId.word, BitVec.toNat_ofNat, Nat.mod_eq_of_lt small]

theorem workerHash_eq (ethers : Ethers) (token : Token) (execution : Execution) :
    workerHash ethers token execution =
      (execution.operation ethers token.workerContract).map (Operation.hash ethers.keccak256) := by
  unfold workerHash Token.workerContract
  split
  · simp [buildNativeOperationHash, Execution.operation, Operation.hash, Operation.preimage,
      Operation.arguments, networkId_word, map_bind]
  · simp [buildErc20OperationHash, Execution.operation, Operation.hash, Operation.preimage,
      Operation.arguments, getTokenNetworkId, networkId_word, map_bind]

@[simp] theorem truthy_truthy (text : Option String) : truthy (truthy text) = truthy text := by
  simp [truthy]

theorem coSignHash_eq (ethers : Ethers) (token : Option Token) (execution : Execution) :
    coSignHash ethers token execution =
      (execution.operation ethers (truthy (token.map Token.contractAddress))).map
        (Operation.hash ethers.keccak256) := by
  unfold coSignHash buildOperationHash
  rw [truthy_truthy]
  cases truthy (token.map Token.contractAddress) with
  | none =>
    simp [Execution.operation, Operation.hash, Operation.preimage, Operation.arguments,
      networkId_word, map_bind]
  | some contract =>
    simp [Execution.operation, Operation.hash, Operation.preimage, Operation.arguments,
      getTokenNetworkId, networkId_word, map_bind]

/-- The call of the worker makes the wallet recompute the operation the worker hashed. -/
theorem workerCall_operation {ethers : Ethers} {token : Token} {execution : Execution}
    {signature : List UInt8} {entry : Entry} {wallet : Address}
    (called : workerCall ethers token execution signature = some entry)
    (deployed : ethers.getAddress execution.walletAddress = some wallet) :
    operation? execution.chainId.word wallet entry =
      execution.operation ethers token.workerContract ∧
        (operation? execution.chainId.word wallet entry).isSome := by
  simp only [workerCall, bind, bind_eq_some_iff] at called
  obtain ⟨toAddress, recipient, value, amount, expireTime, expiry, sequenceId, sequence, chosen⟩ :=
    called
  unfold Token.workerContract
  split at chosen
  · rename_i native
    cases chosen
    simp [operation?, Execution.operation, native, deployed, recipient, amount, expiry, sequence]
  · rename_i token
    obtain ⟨tokenContractAddress, contract, built⟩ := bind_eq_some_iff.mp chosen
    cases built
    simp [operation?, Execution.operation, token, deployed, recipient, amount, expiry, sequence,
      contract]

/-- What the texts and numbers of an execution are read as. -/
@[ext]
structure Parts where
  wallet : Address
  toAddress : Address
  value : Uint256
  contract : Option Address
  expireTime : Uint256
  sequenceId : Uint256

def Parts.operation (parts : Parts) (chainId : Uint256) : Operation :=
  match parts.contract with
  | some contract =>
    .token chainId parts.wallet parts.toAddress parts.value contract parts.expireTime
      parts.sequenceId
  | none =>
    .native chainId parts.wallet parts.toAddress parts.value noData parts.expireTime
      parts.sequenceId

structure Parts.ReadFrom (parts : Parts) (ethers : Ethers) (execution : Execution)
    (contract? : Option String) : Prop where
  wallet : ethers.getAddress execution.walletAddress = some parts.wallet
  toAddress : ethers.getAddress execution.toAddress = some parts.toAddress
  value : Ethers.bigint execution.amountRaw = some parts.value
  contract : contract?.map ethers.getAddress = parts.contract.map some
  expireTime : Ethers.number execution.expireTime = some parts.expireTime
  sequenceId : Ethers.number execution.sequenceId = some parts.sequenceId

theorem Execution.parts {ethers : Ethers} {execution : Execution} {contract? : Option String}
    {operation : Operation} (described : execution.operation ethers contract? = some operation) :
    ∃ parts : Parts, parts.ReadFrom ethers execution contract? ∧
      operation = parts.operation execution.chainId.word := by
  cases contract? with
  | none =>
    simp only [Execution.operation, bind, pure, bind_eq_some_iff] at described
    obtain ⟨wallet, deployed, toAddress, recipient, value, amount, expireTime, expiry, sequenceId,
      sequence, chosen⟩ := described
    cases chosen
    exact ⟨⟨wallet, toAddress, value, none, expireTime, sequenceId⟩,
      ⟨deployed, recipient, amount, rfl, expiry, sequence⟩, rfl⟩
  | some text =>
    simp only [Execution.operation, bind, pure, bind_eq_some_iff] at described
    obtain ⟨wallet, deployed, toAddress, recipient, value, amount, address, parsed, expireTime,
      expiry, sequenceId, sequence, chosen⟩ := described
    cases chosen
    exact ⟨⟨wallet, toAddress, value, some address, expireTime, sequenceId⟩,
      ⟨deployed, recipient, amount, congrArg some parsed, expiry, sequence⟩, rfl⟩

/-- The hashes that the worker and the orchestrator build are those the wallet
recomputes in the call that the worker makes. -/
def HashesAgree (ethers : Ethers) (token : Token) (execution : Execution) (wallet : Address)
    (entry : Entry) : Prop :=
  ∀ operation, operation? execution.chainId.word wallet entry = some operation →
    workerHash ethers token execution = some (operation.hash ethers.keccak256) ∧
      ∀ hash, coSignHash ethers (some token) execution = some hash →
        hash = operation.hash ethers.keccak256

/-- What the orchestrator hashes for a token of the other kind. -/
theorem coSign_operation_of_native {ethers : Ethers} {execution : Execution}
    {operation : Operation} {contract : String} {address : Address}
    (native : execution.operation ethers none = some operation)
    (parsed : ethers.getAddress contract = some address) :
    ∃ other, execution.operation ethers (some contract) = some other ∧ other ≠ operation := by
  simp only [Execution.operation, bind, pure, bind_eq_some_iff] at native
  obtain ⟨wallet, deployed, toAddress, recipient, value, amount, expireTime, expiry, sequenceId,
    sequence, chosen⟩ := native
  cases chosen
  refine ⟨.token execution.chainId.word wallet toAddress value address expireTime sequenceId, ?_,
    by simp⟩
  simp [Execution.operation, deployed, recipient, amount, parsed, expiry, sequence]

/-- The orchestrator takes a native token with a contract address for an ERC-20
token; in every other case the three encoders agree. -/
theorem hashes_agree_iff {ethers : Ethers} (injective : Function.Injective ethers.keccak256)
    {token : Token} {execution : Execution} {signature : List UInt8} {entry : Entry}
    {wallet : Address} (called : workerCall ethers token execution signature = some entry)
    (deployed : ethers.getAddress execution.walletAddress = some wallet) :
    HashesAgree ethers token execution wallet entry ↔
      ¬ (token.isNative = true ∧ token.contractAddress ≠ "" ∧
        (ethers.getAddress token.contractAddress).isSome) := by
  obtain ⟨same, exists_⟩ := workerCall_operation called deployed
  obtain ⟨operation, recomputed⟩ := isSome_iff_exists.mp exists_
  have described := same.symm.trans recomputed
  have reduced : HashesAgree ethers token execution wallet entry ↔
      ∀ other, execution.operation ethers (truthy (some token.contractAddress)) = some other →
        other = operation := by
    simp only [HashesAgree, recomputed, Option.some.injEq, forall_eq', workerHash_eq, described,
      coSignHash_eq, map_some, map_eq_some_iff, true_and, forall_exists_index, and_imp]
    constructor
    · intro agree other found
      exact Operation.hash_injective injective (agree _ other found rfl)
    · rintro agree hash other found rfl
      rw [agree other found]
  rw [reduced]
  cases native : token.isNative with
  | false =>
    simp only [Token.workerContract, native, Bool.false_eq_true, if_false] at described
    have named : token.contractAddress ≠ "" := by
      intro empty
      simp [Execution.operation, empty, ethers.getAddress_empty] at described
    have kept : truthy (some token.contractAddress) = some token.contractAddress := by
      simp [truthy, Option.filter, named]
    rw [kept, described]
    simp
  | true =>
    simp only [Token.workerContract, native, if_true] at described
    by_cases empty : token.contractAddress = ""
    · have dropped : truthy (some token.contractAddress) = none := by
        simp [truthy, Option.filter, empty]
      rw [dropped, described]
      simp [empty]
    · have kept : truthy (some token.contractAddress) = some token.contractAddress := by
        simp [truthy, Option.filter, empty]
      rw [kept]
      cases parsed : ethers.getAddress token.contractAddress with
      | none => simp [Execution.operation, parsed]
      | some address =>
        obtain ⟨other, found, different⟩ := coSign_operation_of_native described parsed
        simp [found, different, empty]

/-! ## Two seeded tokens -/

/-- `getAddress` on the texts of the samples, with the identity for a hash. -/
def sampleEthers : Ethers where
  keccak256 := id
  getAddress text :=
    if text = "0x0000000000000000000000000000000000000000" then some 0
    else if text = "0x1111111111111111111111111111111111111111" then
      some 0x1111111111111111111111111111111111111111
    else if text = "0x2222222222222222222222222222222222222222" then
      some 0x2222222222222222222222222222222222222222
    else if text = "0xdAC17F958D2ee523a2206206994597C13D831ec7" then
      some 0xdAC17F958D2ee523a2206206994597C13D831ec7
    else none
  getAddress_empty := by decide

/-- The rows of ether and of USDT on chain 1. -/
def etherToken : Token := ⟨"0x0000000000000000000000000000000000000000", true⟩

def usdtToken : Token := ⟨"0xdAC17F958D2ee523a2206206994597C13D831ec7", false⟩

def mainnet : ChainId := 1

def sampleExecution : Execution where
  chainId := mainnet
  walletAddress := "0x1111111111111111111111111111111111111111"
  toAddress := "0x2222222222222222222222222222222222222222"
  amountRaw := 1000
  expireTime := 1700000000
  sequenceId := 1

theorem hashes_agree_usdt :
    ∃ entry, workerCall sampleEthers usdtToken sampleExecution [] = some entry ∧
      HashesAgree sampleEthers usdtToken sampleExecution
        0x1111111111111111111111111111111111111111 entry :=
  ⟨_, rfl, (hashes_agree_iff Function.injective_id rfl rfl).mpr (by decide)⟩

/-- Ether has the zero address in its row, so the orchestrator hashes a token transfer. -/
theorem hashes_disagree_ether :
    ¬ ∀ (ethers : Ethers) (token : Token) (execution : Execution) (signature : List UInt8)
        (entry : Entry) (wallet : Address),
      workerCall ethers token execution signature = some entry →
      ethers.getAddress execution.walletAddress = some wallet →
      HashesAgree ethers token execution wallet entry := by
  intro agree
  have ether := agree sampleEthers etherToken sampleExecution [] _ _ rfl rfl _ rfl
  have built : (coSignHash sampleEthers (some etherToken) sampleExecution).isSome := by decide
  obtain ⟨hash, found⟩ := isSome_iff_exists.mp built
  have same := found.trans (congrArg some (ether.2 hash found))
  exact absurd same (by decide +kernel)

end CryptoVaultHub.Withdrawal

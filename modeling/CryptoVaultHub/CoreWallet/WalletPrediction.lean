import CryptoVaultHub.Contracts.FactoryDispatch

/-!
# The address of a hot wallet

`createWallets` asks the factory for the address of a wallet that is created later, through a
signature of `ContractService`; `deployHotWallet` creates one, and reads its address from the
logs of the receipt or else asks the factory, each through a signature of its own. The vault signs
with any gas tank key of the client, which need not be the one whose wallet row is read.
-/

namespace CryptoVaultHub.CoreWallet

open Contracts List Option

/-! ## `ContractService` -/

/-- The `computeWalletAddress` of `WALLET_FACTORY_ABI`. -/
def contractServiceFragment : Fragment :=
  ⟨"computeWalletAddress".toList, [.addresses, .bytes32]⟩

/-- The factory of a chain, and its answer at some time. -/
def ContractService.computeWalletAddress (evm : Evm) (walletFactory : Nat → Option CloneFactory)
    (deployment : Deployment) (message : Message) (chainId : Nat) (signers : Calldata Address)
    (salt : Uint256) : Option Address :=
  (walletFactory chainId).bind fun factory =>
    factory.viewAddress evm deployment message contractServiceFragment
      [.words (signers.val.map Address.word), .static salt]

/-! ## `deployHotWallet` -/

namespace HotWallet

def createWalletFragment : Fragment := ⟨"createWallet".toList, [.addresses, .bytes32]⟩

def walletCreatedFragment : Fragment :=
  ⟨"WalletCreated".toList, [.address, .addresses, .bytes32]⟩

def computeWalletAddressFragment : Fragment :=
  ⟨"computeWalletAddress".toList, [.address, .addresses, .bytes32]⟩

structure Request where
  projectId : Nat
  chainId : Nat
  walletFactory : CloneFactory
  signers : Calldata Address
  gasTankAddress : Address

/-- What happens meanwhile: whether the transaction is traced, signed and broadcast, by which key
and where it is mined, whether its receipt comes in time and with which logs, the state in which
the factory is asked, if the node answers, and whether the trace is updated. -/
structure Answers where
  submitted : Bool
  sender : Address
  deployment : Deployment
  chainid : Uint256
  timestamp : Uint256
  confirmed : Bool
  logs : List Log
  view : Option (Deployment × Message)
  recorded : Bool

def salt (evm : Evm) (request : Request) : Uint256 :=
  BitVec.ofNat 256 (Abi.readBigEndian (evm.keccak256 (Abi.encode
    [.static (BitVec.ofNat 256 request.projectId), .static (BitVec.ofNat 256 request.chainId)])))

/-- The transaction on the chain. -/
def transaction (evm : Evm) (request : Request) (answers : Answers) :
    Except CallRevert CallResult :=
  request.walletFactory.callWalletFactory evm answers.deployment
    ⟨answers.sender, 0, answers.chainid, answers.timestamp⟩
    (createWalletFragment.calldata evm (createWalletArguments request.signers (salt evm request)))

/-- Whether the data decodes as an address, an array and a word. An offset has to be a safe
integer; a count that is not one is an error for the array alone. -/
def eventDecodes (data : List UInt8) : Bool :=
  match Abi.decodeWord 1 data, Abi.decodeWord 2 data with
  | some offset, some _ =>
    match Abi.decodeWord 0 (data.drop offset.toNat) with
    | some count => offset.toNat < 2 ^ 53 &&
        (2 ^ 53 ≤ count.toNat || offset.toNat + 32 + 32 * count.toNat ≤ data.length)
    | none => false
  | _, _ => false

/-- `parsed.args[0]` of a log, when it parses and its first argument is an address. -/
def parseLog (evm : Evm) (log : Log) : Option Address :=
  if log.topics.head? = some (walletCreatedFragment.topicHash evm) ∧ eventDecodes log.data then
    decodeAddress 0 log.data
  else none

/-- `deployHotWallet`, as far as the address that it returns. -/
def deployHotWallet (evm : Evm) (request : Request) (answers : Answers) : Option Address :=
  match transaction evm request answers with
  | .error _ => none
  | .ok _ =>
    if answers.submitted && answers.confirmed && answers.recorded then
      match answers.logs.findSome? (parseLog evm) with
      | some address => some address
      | none => answers.view.bind fun state =>
        request.walletFactory.viewAddress evm state.1 state.2 computeWalletAddressFragment
          (.static request.gasTankAddress.word ::
            createWalletArguments request.signers (salt evm request))
    else none

/-- The wallet that the transaction creates. -/
def created (evm : Evm) (request : Request) (answers : Answers) : Option Wallet :=
  (transaction evm request answers).toOption.bind CallResult.wallet

/-- Nothing fails around a transaction that succeeds. -/
structure Undisturbed (evm : Evm) (request : Request) (answers : Answers) : Prop where
  mined : (created evm request answers).isSome = true
  submitted : answers.submitted = true
  confirmed : answers.confirmed = true
  recorded : answers.recorded = true
  view : answers.view.isSome = true

/-! ## When the address is right -/

/-- No log parses. -/
def Silent (evm : Evm) (logs : List Log) : Prop := ∀ log ∈ logs, parseLog evm log = none

/-- The first log that parses names the wallet. -/
def Announces (evm : Evm) (logs : List Log) (wallet : Address) : Prop :=
  ∃ before log after, logs = before ++ log :: after ∧ parseLog evm log = some wallet ∧
    Silent evm before

/-- The arguments that the salt of a wallet is hashed from, for a deployer. -/
def argumentsFrom (evm : Evm) (request : Request) (deployer : Address) : WalletArguments :=
  ⟨deployer, request.signers, salt evm request⟩

/-- The vault signs with the gas tank of the request, unless the hash does not tell
the two deployers apart. -/
def SameDeployer (evm : Evm) (request : Request) (sender : Address) : Prop :=
  request.gasTankAddress = sender ∨
    Collides evm.keccak256 (argumentsFrom evm request request.gasTankAddress).encode
      (argumentsFrom evm request sender).encode ∨
    Collides (digestAddress ∘ evm.keccak256)
      (clonePreimage evm request.walletFactory
        (argumentsFrom evm request request.gasTankAddress).encode)
      (clonePreimage evm request.walletFactory (argumentsFrom evm request sender).encode)

/-! ## What the factory answers -/

section Predictions

variable (ecrecover : List UInt8 → UInt8 → Uint256 → Uint256 → Address)

theorem selector_contractService :
    contractServiceFragment.selector (keccakEvm ecrecover) = [0x61, 0xe1, 0x72, 0xed] := by
  rw [selector_keccakEvm]
  decide +kernel

/-- The factory does not have the function that `ContractService` calls. -/
theorem computeWalletAddress_none (walletFactory : Nat → Option CloneFactory)
    (deployment : Deployment) (message : Message) (chainId : Nat) (signers : Calldata Address)
    (salt : Uint256) :
    ContractService.computeWalletAddress (keccakEvm ecrecover) walletFactory deployment message
      chainId signers salt = none := by
  rw [ContractService.computeWalletAddress, bind_eq_none_iff]
  intro factory _
  have reverts := @callWalletFactory_unknown ecrecover factory deployment
    { message with value := 0 } [0x61, 0xe1, 0x72, 0xed] rfl (by decide)
    (Abi.encode [.words (signers.val.map Address.word), .static salt]) rfl
  rw [CloneFactory.viewAddress, Fragment.calldata, selector_contractService, reverts]

theorem viewAddress_computeWalletAddress (factory : CloneFactory) (deployment : Deployment)
    (message : Message) (deployer : Address) (signers : Calldata Address) (salt : Uint256) :
    factory.viewAddress (keccakEvm ecrecover) deployment message computeWalletAddressFragment
        (.static deployer.word :: createWalletArguments signers salt) =
      some (computeWalletAddress (keccakEvm ecrecover) factory deployer signers salt) := by
  have call := @callWalletFactory_computeWalletAddress ecrecover factory deployment
    { message with value := 0 } deployer signers salt rfl
  have returned := decodeAddress_encode [] []
    (computeWalletAddress (keccakEvm ecrecover) factory deployer signers salt)
  have same : computeWalletAddressFragment = WalletFactory.computeWalletAddress := rfl
  rw [CloneFactory.viewAddress, same, call]
  exact returned

end Predictions

/-- Two deployers have the same address exactly if they are one, or the hash collides. -/
theorem computeWalletAddress_eq_iff (evm : Evm) (request : Request) (sender : Address) :
    computeWalletAddress evm request.walletFactory request.gasTankAddress request.signers
        (salt evm request) =
      computeWalletAddress evm request.walletFactory sender request.signers (salt evm request) ↔
    SameDeployer evm request sender := by
  constructor
  · intro equal
    by_cases same : request.gasTankAddress = sender
    · exact .inl same
    have different : (argumentsFrom evm request request.gasTankAddress).encode ≠
        (argumentsFrom evm request sender).encode := by
      intro encodings
      have deployers := congrArg WalletArguments.deployer
        (WalletArguments.encode_injective encodings)
      exact same deployers
    exact .inr ((clonePreimage_address equal).resolve_left different)
  · rintro (same | collides | collides)
    · rw [same]
    · have salts := collides.2
      simp only [argumentsFrom] at salts
      simp only [computeWalletAddress, salts]
    · exact collides.2

/-! ## What `deployHotWallet` returns -/

section Returned

variable {ecrecover : List UInt8 → UInt8 → Uint256 → Uint256 → Address} {request : Request}
  {answers : Answers}

theorem transaction_ok {result : CallResult}
    (ran : transaction (keccakEvm ecrecover) request answers = .ok result) :
    ∃ wallet, created (keccakEvm ecrecover) request answers = some wallet ∧
      wallet.address = computeWalletAddress (keccakEvm ecrecover) request.walletFactory
        answers.sender request.signers (salt (keccakEvm ecrecover) request) := by
  have same : createWalletFragment = WalletFactory.createWallet := rfl
  have call := ran
  rw [transaction, same, callWalletFactory_createWallet ecrecover rfl] at call
  obtain ⟨wallet, made, rfl⟩ := call
  have recorded : created (keccakEvm ecrecover) request answers = some wallet := by
    simp only [created, ran, Except.toOption, bind_some]
  have placed := createWallet_ok made
  exact ⟨wallet, recorded, placed⟩

/-- The log of the factory itself has another topic. -/
theorem parseLog_walletCreatedLog (wallet : Address) (signers : Calldata Address) :
    parseLog (keccakEvm ecrecover) (walletCreatedLog (keccakEvm ecrecover) wallet signers) =
      none := by
  have different : Keccak.keccak256 WalletFactory.walletCreated.signature ≠
      Keccak.keccak256 walletCreatedFragment.signature := by decide +kernel
  rw [parseLog, if_neg]
  rintro ⟨topic, -⟩
  simp only [walletCreatedLog, head?_cons, Option.some.injEq, topicHash_keccakEvm] at topic
  exact different topic

theorem findSome?_parseLog {evm : Evm} {logs : List Log} {wallet : Address} :
    logs.findSome? (parseLog evm) = some wallet ↔ Announces evm logs wallet := by
  rw [findSome?_eq_some_iff]
  rfl

/-- Where the address comes from. -/
theorem deployHotWallet_cases {address : Address}
    (returned : deployHotWallet (keccakEvm ecrecover) request answers = some address) :
    (∃ result, transaction (keccakEvm ecrecover) request answers = .ok result) ∧
    (Announces (keccakEvm ecrecover) answers.logs address ∨
      Silent (keccakEvm ecrecover) answers.logs ∧
        address = computeWalletAddress (keccakEvm ecrecover) request.walletFactory
          request.gasTankAddress request.signers (salt (keccakEvm ecrecover) request)) := by
  rw [deployHotWallet] at returned
  split at returned
  · exact absurd returned (by simp)
  next result ran =>
    refine ⟨⟨result, ran⟩, ?_⟩
    split at returned
    · split at returned
      next found announced =>
        obtain rfl : found = address := Option.some.inj returned
        exact .inl (findSome?_parseLog.mp announced)
      next silent =>
        obtain ⟨state, -, viewed⟩ := bind_eq_some_iff.mp returned
        rw [viewAddress_computeWalletAddress] at viewed
        exact .inr ⟨findSome?_eq_none_iff.mp silent, (Option.some.inj viewed).symm⟩
    · exact absurd returned (by simp)

/-- A run in which nothing fails returns an address. -/
theorem deployHotWallet_isSome
    (undisturbed : Undisturbed (keccakEvm ecrecover) request answers) :
    (deployHotWallet (keccakEvm ecrecover) request answers).isSome = true := by
  obtain ⟨mined, submitted, confirmed, recorded, view⟩ := undisturbed
  obtain ⟨state, answered⟩ := isSome_iff_exists.mp view
  cases ran : transaction (keccakEvm ecrecover) request answers with
  | error error =>
    rw [created, ran] at mined
    exact absurd mined (by simp [Except.toOption])
  | ok result =>
    simp only [deployHotWallet, ran, submitted, confirmed, recorded, Bool.and_true, if_true]
    cases answers.logs.findSome? (parseLog (keccakEvm ecrecover)) with
    | some address => rfl
    | none => simp [answered, viewAddress_computeWalletAddress]

theorem not_announces_of_silent {evm : Evm} {logs : List Log} {address : Address}
    (silent : Silent evm logs) : ¬ Announces evm logs address := by
  rintro ⟨before, log, after, rfl, parsed, -⟩
  have unparsed := silent log (by simp)
  rw [parsed] at unparsed
  cases unparsed

/-- The address is the wallet's exactly if the first log that parses says so, or none parses and
the transaction is from the gas tank. -/
theorem deployHotWallet_address {address : Address}
    (returned : deployHotWallet (keccakEvm ecrecover) request answers = some address) :
    ∃ wallet, created (keccakEvm ecrecover) request answers = some wallet ∧
      (address = wallet.address ↔
        Announces (keccakEvm ecrecover) answers.logs wallet.address ∨
          Silent (keccakEvm ecrecover) answers.logs ∧
            SameDeployer (keccakEvm ecrecover) request answers.sender) := by
  obtain ⟨⟨result, ran⟩, source⟩ := deployHotWallet_cases returned
  obtain ⟨wallet, made, placed⟩ := transaction_ok ran
  refine ⟨wallet, made, ?_⟩
  obtain announced | ⟨silent, predicted⟩ := source
  · constructor
    · rintro rfl
      exact .inl announced
    · rintro (announces | ⟨silent, -⟩)
      · have first := findSome?_parseLog.mpr announced
        rw [findSome?_parseLog.mpr announces] at first
        exact (Option.some.inj first).symm
      · exact absurd announced (not_announces_of_silent silent)
  · rw [predicted, placed, computeWalletAddress_eq_iff]
    constructor
    · exact fun same => .inr ⟨silent, same⟩
    · rintro (announces | ⟨-, same⟩)
      · exact absurd announces (not_announces_of_silent silent)
      · exact same

end Returned

/-- `ContractService` never learns where a wallet will be; `deployHotWallet`, when nothing fails,
returns an address, which is the one of the wallet that its transaction created exactly if the
first log that parses names it, or no log parses and the vault signed with the gas tank that the
request names. -/
theorem predicted_wallets (ecrecover : List UInt8 → UInt8 → Uint256 → Uint256 → Address) :
    (∀ (walletFactory : Nat → Option CloneFactory) (deployment : Deployment) (message : Message)
        (chainId : Nat) (signers : Calldata Address) (salt : Uint256) (address : Address),
      ContractService.computeWalletAddress (keccakEvm ecrecover) walletFactory deployment message
        chainId signers salt ≠ some address) ∧
    ∀ (request : Request) (answers : Answers),
      (Undisturbed (keccakEvm ecrecover) request answers →
        (deployHotWallet (keccakEvm ecrecover) request answers).isSome = true) ∧
      ∀ address, deployHotWallet (keccakEvm ecrecover) request answers = some address →
        ∃ wallet, created (keccakEvm ecrecover) request answers = some wallet ∧
          (address = wallet.address ↔
            Announces (keccakEvm ecrecover) answers.logs wallet.address ∨
              Silent (keccakEvm ecrecover) answers.logs ∧
                SameDeployer (keccakEvm ecrecover) request answers.sender) := by
  constructor
  · intro walletFactory deployment message chainId signers salt address
    rw [computeWalletAddress_none]
    exact some_ne_none address |>.symm
  · intro request answers
    exact ⟨deployHotWallet_isSome, fun address returned => deployHotWallet_address returned⟩

/-- Calls whose hash is the real one and which recover nothing. -/
def sampleEvm : Evm := keccakEvm fun _ _ _ _ => 0

def sampleRequest : Request := ⟨1, 2, sampleFactory, sampleSigners, 0xd⟩

/-- The gas tank signs, and the receipt holds what it holds. -/
def sampleAnswers (logs : List Log) : Answers :=
  ⟨true, 0xd, sampleDeployment, 2, 100, true, logs, some (sampleDeployment, sampleMessage), true⟩

/-- A log of another contract, with the event that `deployHotWallet` looks for. -/
def foreignLog : Log :=
  ⟨[walletCreatedFragment.topicHash sampleEvm],
    Abi.encode [.static (Address.word 0xbad), .words [], .static 0]⟩

theorem sampleWallet_created :
    (createWallet sampleEvm sampleFactory sampleDeployment ⟨0xd, 0, 2, 100⟩ sampleSigners
      (salt sampleEvm sampleRequest)).toOption.isSome = true := by
  decide +kernel

theorem sampleRequest_created (logs : List Log) :
    ∃ wallet, createWallet sampleEvm sampleFactory sampleDeployment ⟨0xd, 0, 2, 100⟩
        sampleSigners (salt sampleEvm sampleRequest) = .ok wallet ∧
      created sampleEvm sampleRequest (sampleAnswers logs) = some wallet := by
  obtain ⟨wallet, made⟩ := isSome_iff_exists.mp sampleWallet_created
  have ran := toOption_eq_some.mp made
  refine ⟨wallet, ran, ?_⟩
  have same : createWalletFragment = WalletFactory.createWallet := rfl
  have call := (@callWalletFactory_createWallet (fun _ _ _ _ => 0) sampleFactory sampleDeployment
    ⟨0xd, 0, 2, 100⟩ sampleSigners (salt sampleEvm sampleRequest) _ rfl).mpr ⟨wallet, ran, rfl⟩
  rw [created, transaction, same]
  exact congrArg (fun outcome => outcome.toOption.bind CallResult.wallet) call

theorem predicted_wallets_sample :
    ∃ address wallet,
      deployHotWallet sampleEvm sampleRequest
          (sampleAnswers [walletCreatedLog sampleEvm 1 sampleSigners]) = some address ∧
        created sampleEvm sampleRequest
          (sampleAnswers [walletCreatedLog sampleEvm 1 sampleSigners]) = some wallet ∧
        address = wallet.address := by
  obtain ⟨-, deployed⟩ := predicted_wallets fun _ _ _ _ => 0
  obtain ⟨returns, right⟩ := deployed sampleRequest
    (sampleAnswers [walletCreatedLog sampleEvm 1 sampleSigners])
  obtain ⟨mined, _, made⟩ := sampleRequest_created [walletCreatedLog sampleEvm 1 sampleSigners]
  have undisturbed : Undisturbed sampleEvm sampleRequest
      (sampleAnswers [walletCreatedLog sampleEvm 1 sampleSigners]) :=
    ⟨isSome_iff_exists.mpr ⟨mined, made⟩, rfl, rfl, rfl, rfl⟩
  obtain ⟨address, returned⟩ := isSome_iff_exists.mp (returns undisturbed)
  obtain ⟨wallet, its, exactly⟩ := right address returned
  refine ⟨address, wallet, returned, its, exactly.mpr (.inr ⟨?_, .inl rfl⟩)⟩
  intro log member
  obtain rfl := mem_singleton.mp member
  exact parseLog_walletCreatedLog 1 sampleSigners

/-- A wallet that `ContractService` cannot predict, and one for which `deployHotWallet` returns
what another contract has logged. -/
theorem unpredicted_wallet :
    ∃ wallet, createWallet sampleEvm sampleFactory sampleDeployment ⟨0xd, 0, 2, 100⟩
        sampleSigners (salt sampleEvm sampleRequest) = .ok wallet ∧
      ContractService.computeWalletAddress sampleEvm (fun _ => some sampleFactory)
        sampleDeployment sampleMessage 2 sampleSigners (salt sampleEvm sampleRequest) ≠
          some wallet.address ∧
      created sampleEvm sampleRequest (sampleAnswers [foreignLog]) = some wallet ∧
      deployHotWallet sampleEvm sampleRequest (sampleAnswers [foreignLog]) ≠
        some wallet.address := by
  obtain ⟨wallet, made, recorded⟩ := sampleRequest_created [foreignLog]
  have placed := createWallet_ok made
  dsimp only at placed
  have elsewhere : computeWalletAddress sampleEvm sampleFactory 0xd sampleSigners
      (salt sampleEvm sampleRequest) ≠ 0xbad := by decide +kernel
  have parsed : parseLog sampleEvm foreignLog = some 0xbad := by decide +kernel
  refine ⟨wallet, made, ?_, recorded, ?_⟩
  · rw [sampleEvm, computeWalletAddress_none]
    exact some_ne_none _ |>.symm
  · intro returned
    obtain ⟨-, announced | ⟨silent, -⟩⟩ := deployHotWallet_cases returned
    · have first := findSome?_parseLog.mpr announced
      change [foreignLog].findSome? (parseLog sampleEvm) = _ at first
      rw [findSome?_cons, parsed] at first
      have named : (0xbad : Address) = wallet.address := Option.some.inj first
      exact elsewhere (placed.symm.trans named.symm)
    · have unparsed := silent foreignLog (by simp [sampleAnswers])
      change parseLog sampleEvm foreignLog = none at unparsed
      rw [parsed] at unparsed
      cases unparsed

end HotWallet

end CryptoVaultHub.CoreWallet

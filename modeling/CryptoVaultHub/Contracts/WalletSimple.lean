import CryptoVaultHub.Contracts.SequenceWindow
import CryptoVaultHub.Semantics.Journal

/-!
# The multisig wallet

`CvhWalletSimple`: every external entry point, with its checks in source order,
as segments of a `CallMachine`. A segment ends where the wallet calls out; the
environment decides what the callee does, and whether and with which data it
returns. A `Point` carries next to the storage the insertions, verifications,
external calls and events of the wallet so far, newest first; like the storage
they are rolled back when a call reverts.
-/

namespace CryptoVaultHub.Contracts

/-- The hash function and the signature precompile of the chain. A digest is a
byte string, so that a hash function without collisions exists. -/
structure Evm where
  keccak256 : List UInt8 → List UInt8
  ecrecover : List UInt8 → UInt8 → Uint256 → Uint256 → Address

/-- The transaction and block fields a call reads. -/
structure Message where
  sender : Address
  value : Uint256
  chainid : Uint256
  timestamp : Uint256
deriving DecidableEq

inductive Event where
  | deposited (sender : Address) (value : Uint256) (data : List UInt8)
  | transacted (msgSender otherSigner : Address) (operation : List UInt8) (toAddress : Address)
      (value : Uint256) (data : List UInt8)
  | batchTransacted (msgSender otherSigner : Address) (operation : List UInt8)
  | batchTransfer (sender recipient : Address) (value : Uint256)
  | safeModeActivated (msgSender : Address)
deriving DecidableEq

/-- A `CALL` instruction of the wallet; `gas` is a limit the source sets. -/
structure ExternalCall where
  target : Address
  value : Uint256
  input : List UInt8
  gas : Option Nat
deriving DecidableEq

/-! ## State -/

/-- The storage of a wallet, and the address it lives at. -/
structure Wallet where
  address : Address
  initialized : Bool
  safeMode : Bool
  signers : List Address
  isSigner : Address → Bool
  recentSequenceIds : SequenceWindow
  /-- The status of `ReentrancyGuard`. -/
  entered : Bool

/-- A new clone, before `init`. -/
def Wallet.clone (address : Address) : Wallet where
  address := address
  initialized := false
  safeMode := false
  signers := []
  isSigner := fun _ => false
  recentSequenceIds := .initial
  entered := false

/-- What the second signer authorized. -/
structure Authorization where
  operation : Operation
  signature : List UInt8
  otherSigner : Address
deriving DecidableEq

/-- On whose authority the wallet calls out. -/
inductive Authority where
  | multisig (authorization : Authorization)
  | flush
deriving DecidableEq

/-- An external call with the message that caused it and whether safe mode was
on when that message's call began. -/
structure CallRecord where
  message : Message
  startedInSafeMode : Bool
  authority : Authority
  call : ExternalCall
deriving DecidableEq

/-- The storage and the history of a wallet; every list has its newest entry first. -/
structure Point where
  wallet : Wallet
  accepted : List Uint256
  verified : List (Message × Authorization)
  called : List CallRecord
  events : List Event

namespace Point

/-- The wallet before it has done anything. -/
def start (wallet : Wallet) : Point := ⟨wallet, [], [], [], []⟩

def emit (point : Point) (event : Event) : Point :=
  { point with events := event :: point.events }

/-- Record an external call. -/
def callOut (point : Point) (record : CallRecord) : Point :=
  { point with called := record :: point.called }

/-- Record a successful verification. -/
def verify (point : Point) (message : Message) (authorization : Authorization) : Point :=
  { point with verified := (message, authorization) :: point.verified }

/-- The entry and the exit of `nonReentrant`. -/
def setEntered (point : Point) (entered : Bool) : Point :=
  { point with wallet := { point.wallet with entered := entered } }

def enableSafeMode (point : Point) : Point :=
  { point with wallet := { point.wallet with safeMode := true } }

/-- `_tryInsertSequenceId` on the storage, recording what it accepts. -/
def tryInsertSequenceId (point : Point) (sequenceId : Uint256) : Except Revert Point :=
  match point.wallet.recentSequenceIds.tryInsertSequenceId sequenceId with
  | .error error => .error error
  | .ok window =>
    .ok { point with
      wallet := { point.wallet with recentSequenceIds := window }
      accepted := sequenceId :: point.accepted }

end Point

/-- `if (!condition) revert error()`. -/
def require (condition : Prop) [Decidable condition] (error : Revert) : Except Revert Unit :=
  if condition then .ok () else .error error

@[simp] theorem require_eq_ok {condition : Prop} [Decidable condition] {error : Revert}
    {done : Unit} : require condition error = .ok done ↔ condition := by
  unfold require
  split <;> simp [*]

/-- A sequence of checks succeeds when each does. -/
@[simp] theorem bind_eq_ok {ε α β : Type} {first : Except ε α} {rest : α → Except ε β}
    {result : β} :
    (first >>= rest) = .ok result ↔ ∃ value, first = .ok value ∧ rest value = .ok result := by
  cases first <;> simp [bind, Except.bind]

@[simp] theorem pure_eq_ok {ε α : Type} {value result : α} :
    (pure value : Except ε α) = .ok result ↔ value = result := by
  simp [pure, Except.pure]

theorem toOption_eq_some {ε α : Type} {outcome : Except ε α} {result : α} :
    outcome.toOption = some result ↔ outcome = .ok result := by
  cases outcome <;> simp [Except.toOption]

/-! ## Initialization -/

/-- The loop of `init`. -/
def Wallet.addSigners : Wallet → List Address → Except Revert Wallet
  | wallet, [] => .ok wallet
  | wallet, signer :: rest =>
    if signer = zeroAddress then .error .zeroAddressSigner
    else if wallet.isSigner signer then .error .duplicateSigner
    else
      addSigners { wallet with
        isSigner := Function.update wallet.isSigner signer true
        signers := wallet.signers ++ [signer] } rest

def Wallet.init (wallet : Wallet) (message : Message) (allowedSigners : Calldata Address) :
    Except Revert Wallet := do
  require (message.value = 0) .nonPayable
  require (wallet.initialized = false) .alreadyInitialized
  require (allowedSigners.val.length = 3) .requiresThreeSigners
  let filled ← wallet.addSigners allowedSigners.val
  return { filled with initialized := true }

/-! ## Signature verification -/

/-- The three fields of a signature. -/
structure Signature where
  v : UInt8
  r : Uint256
  s : Uint256
deriving DecidableEq

/-- The fields of a 65-byte signature, `v` corrected to 27 or more. -/
def parseSignature (signature : List UInt8) : Signature :=
  let v := (signature.drop 64).headD 0
  { r := BitVec.ofNat 256 (Abi.readSlot signature)
    s := BitVec.ofNat 256 (Abi.readSlot (signature.drop 32))
    v := if v < 27 then v + 27 else v }

def maxSValue : Uint256 := 0x7FFFFFFFFFFFFFFFFFFFFFFFFFFFFFFF5D576E7357A4501DDFE92F46681B20A0

/-- The digest a signer signs for an operation hash. -/
def prefixedHash (evm : Evm) (operationHash : List UInt8) : List UInt8 :=
  evm.keccak256 (25 :: asciiBytes "Ethereum Signed Message:\n32".toList ++ operationHash)

def recoverSigner (evm : Evm) (operationHash signature : List UInt8) : Except Revert Address := do
  require (signature.length = 65) .invalidSignatureLength
  let parsed := parseSignature signature
  require (parsed.v = 27 ∨ parsed.v = 28) .invalidVValue
  require (parsed.s ≤ maxSValue) .invalidSValue
  let recovered := evm.ecrecover (prefixedHash evm operationHash) parsed.v parsed.r parsed.s
  require (recovered ≠ zeroAddress) .invalidSignature
  return recovered

def verifyMultiSig (evm : Evm) (point : Point) (message : Message)
    (operationHash signature : List UInt8) (expireTime sequenceId : Uint256) :
    Except Revert (Point × Address) := do
  require (message.timestamp ≤ expireTime) .expired
  let inserted ← point.tryInsertSequenceId sequenceId
  let otherSigner ← recoverSigner evm operationHash signature
  require (inserted.wallet.isSigner otherSigner = true) .notASigner
  require (otherSigner ≠ message.sender) .signersMustBeDifferent
  return (inserted, otherSigner)

/-- The hash and the verification of an operation, as each of the three
functions computes them for its own kind. -/
def authorize (evm : Evm) (point : Point) (message : Message) (operation : Operation)
    (signature : List UInt8) : Except Revert (Point × Authorization) := do
  let (inserted, otherSigner) ← verifyMultiSig evm point message
    (operation.hash evm.keccak256) signature operation.expireTime operation.sequenceId
  let authorization : Authorization := ⟨operation, signature, otherSigner⟩
  return (inserted.verify message authorization, authorization)

/-! ## Segments -/

/-- A verified call in progress. -/
structure Grant where
  message : Message
  startedInSafeMode : Bool
  authorization : Authorization

/-- An external call on the authority of a grant. -/
def Grant.record (grant : Grant) (call : ExternalCall) : CallRecord :=
  ⟨grant.message, grant.startedInSafeMode, .multisig grant.authorization, call⟩

/-- What a call of the wallet waits for, with the locals it continues with. -/
inductive Pending where
  | native (grant : Grant) (toAddress : Address) (value : Uint256) (data : List UInt8)
  | token (grant : Grant) (toAddress : Address) (value : Uint256)
  | batch (grant : Grant) (recipient : Address) (value : Uint256)
      (rest : List (Address × Uint256))
  | flush

/-- The result of an external call. -/
structure Reply where
  success : Bool
  data : List UInt8

/-- `onlySigner nonReentrant` of a function that takes no ether. -/
def enterGuarded (point : Point) (message : Message) : Except Revert Point := do
  require (message.value = 0) .nonPayable
  require (point.wallet.isSigner message.sender = true) .notASigner
  require (point.wallet.entered = false) .reentrantCall
  return point.setEntered true

/-- `toAddress.call{value: value}(data)`. -/
def nativeCall (toAddress : Address) (value : Uint256) (data : List UInt8) : ExternalCall :=
  ⟨toAddress, value, data, none⟩

def sendMultiSig (evm : Evm) (point : Point) (message : Message) (toAddress : Address)
    (value : Uint256) (data : Calldata UInt8) (expireTime sequenceId : Uint256)
    (signature : List UInt8) : Except Revert (Point × Option Pending) := do
  let locked ← enterGuarded point message
  require (toAddress ≠ zeroAddress) .zeroAddressRecipient
  let operation : Operation :=
    .native message.chainid point.wallet.address toAddress value data expireTime sequenceId
  let (granted, authorization) ← authorize evm locked message operation signature
  require (granted.wallet.safeMode = true → granted.wallet.isSigner toAddress = true)
    .safeModeRestriction
  let grant : Grant := ⟨message, point.wallet.safeMode, authorization⟩
  return (granted.callOut (grant.record (nativeCall toAddress value data.val)),
    some (.native grant toAddress value data.val))

/-- The call data of `transfer(address,uint256)`. -/
def transferInput (toAddress : Address) (value : Uint256) : List UInt8 :=
  [0xa9, 0x05, 0x9c, 0xbb] ++ Abi.encode [.static toAddress.word, .static value]

/-- The call of `TransferHelper.safeTransfer`. -/
def transferCall (tokenContractAddress toAddress : Address) (value : Uint256) : ExternalCall :=
  ⟨tokenContractAddress, 0, transferInput toAddress value, none⟩

def sendMultiSigToken (evm : Evm) (point : Point) (message : Message) (toAddress : Address)
    (value : Uint256) (tokenContractAddress : Address) (expireTime sequenceId : Uint256)
    (signature : List UInt8) : Except Revert (Point × Option Pending) := do
  let locked ← enterGuarded point message
  require (toAddress ≠ zeroAddress) .zeroAddressRecipient
  let operation : Operation :=
    .token message.chainid point.wallet.address toAddress value tokenContractAddress expireTime
      sequenceId
  let (granted, authorization) ← authorize evm locked message operation signature
  require (granted.wallet.safeMode = true → granted.wallet.isSigner toAddress = true)
    .safeModeRestriction
  let grant : Grant := ⟨message, point.wallet.safeMode, authorization⟩
  return (granted.callOut (grant.record (transferCall tokenContractAddress toAddress value)),
    some (.token grant toAddress value))

/-- `recipients[i].call{value: values[i], gas: 100000}("")`. -/
def batchCall (transfer : Address × Uint256) : ExternalCall :=
  ⟨transfer.1, transfer.2, [], some 100000⟩

/-- The loop of `sendMultiSigBatch` from the next recipient on. -/
def batchFrom (evm : Evm) (point : Point) (grant : Grant) :
    List (Address × Uint256) → Point × Option Pending
  | [] =>
    let operationHash := grant.authorization.operation.hash evm.keccak256
    ((point.emit (.batchTransacted grant.message.sender grant.authorization.otherSigner
      operationHash)).setEntered false, none)
  | (recipient, value) :: rest =>
    (point.callOut (grant.record (batchCall (recipient, value))),
      some (.batch grant recipient value rest))

def sendMultiSigBatch (evm : Evm) (point : Point) (message : Message)
    (recipients : Calldata Address) (values : Calldata Uint256) (expireTime sequenceId : Uint256)
    (signature : List UInt8) : Except Revert (Point × Option Pending) := do
  let locked ← enterGuarded point message
  require (locked.wallet.safeMode = false) .batchNotAllowedInSafeMode
  require (recipients.val.length = values.val.length) .unequalLengths
  require (recipients.val.length ≠ 0) .emptyBatch
  require (recipients.val.length ≤ 255) .maxRecipientsExceeded
  let operation : Operation :=
    .batch message.chainid point.wallet.address recipients values expireTime sequenceId
  let (granted, authorization) ← authorize evm locked message operation signature
  let grant : Grant := ⟨message, point.wallet.safeMode, authorization⟩
  -- The lengths are equal, so `recipients[i]` and `values[i]` pair up.
  return batchFrom evm granted grant (recipients.val.zip values.val)

/-- The call of `IForwarder.flushTokens(address)`. -/
def flushCall (forwarderAddress tokenContractAddress : Address) : ExternalCall :=
  ⟨forwarderAddress, 0,
    [0x3e, 0xf1, 0x33, 0x67] ++ Abi.encode [.static tokenContractAddress.word], none⟩

def flushForwarderTokens (point : Point) (message : Message)
    (forwarderAddress tokenContractAddress : Address) :
    Except Revert (Point × Option Pending) := do
  require (message.value = 0) .nonPayable
  require (point.wallet.isSigner message.sender = true) .notASigner
  let record : CallRecord :=
    ⟨message, point.wallet.safeMode, .flush, flushCall forwarderAddress tokenContractAddress⟩
  return (point.callOut record, some .flush)

def activateSafeMode (point : Point) (message : Message) :
    Except Revert (Point × Option Pending) := do
  require (message.value = 0) .nonPayable
  require (point.wallet.isSigner message.sender = true) .notASigner
  return (point.enableSafeMode.emit (.safeModeActivated message.sender), none)

/-- `receive` and `fallback`, which differ in the data they log. -/
def deposit (point : Point) (message : Message) (data : List UInt8) : Point × Option Pending :=
  if message.value = 0 then (point, none)
  else (point.emit (.deposited message.sender message.value data), none)

/-- The external entry points with their decoded arguments. -/
inductive Entry where
  | init (allowedSigners : Calldata Address)
  | sendMultiSig (toAddress : Address) (value : Uint256) (data : Calldata UInt8)
      (expireTime sequenceId : Uint256) (signature : List UInt8)
  | sendMultiSigToken (toAddress : Address) (value : Uint256) (tokenContractAddress : Address)
      (expireTime sequenceId : Uint256) (signature : List UInt8)
  | sendMultiSigBatch (recipients : Calldata Address) (values : Calldata Uint256)
      (expireTime sequenceId : Uint256) (signature : List UInt8)
  | flushForwarderTokens (forwarderAddress tokenContractAddress : Address)
  | activateSafeMode
  | receive
  | fallback (data : List UInt8)
  /-- The `view` and `pure` functions, the token receiver hooks among them. -/
  | query

/-- A call of the wallet up to its end or its first external call. -/
def dispatch (evm : Evm) (point : Point) :
    Message × Entry → Except Revert (Point × Option Pending)
  | (message, .init allowedSigners) => do
    let wallet ← point.wallet.init message allowedSigners
    return ({ point with wallet := wallet }, none)
  | (message, .sendMultiSig toAddress value data expireTime sequenceId signature) =>
    sendMultiSig evm point message toAddress value data expireTime sequenceId signature
  | (message, .sendMultiSigToken toAddress value tokenContractAddress expireTime sequenceId
      signature) =>
      sendMultiSigToken evm point message toAddress value tokenContractAddress expireTime
        sequenceId signature
  | (message, .sendMultiSigBatch recipients values expireTime sequenceId signature) =>
    sendMultiSigBatch evm point message recipients values expireTime sequenceId signature
  | (message, .flushForwarderTokens forwarderAddress tokenContractAddress) =>
    flushForwarderTokens point message forwarderAddress tokenContractAddress
  | (message, .activateSafeMode) => activateSafeMode point message
  | (message, .receive) => return deposit point message []
  | (message, .fallback data) => return deposit point message data
  | (message, .query) => do
    require (message.value = 0) .nonPayable
    return (point, none)

/-- `abi.decode(data, (bool))`. -/
def decodeBool (data : List UInt8) : Except Revert Bool :=
  if data.length < 32 then .error .invalidReturnData
  else if Abi.readSlot data = 0 then .ok false
  else if Abi.readSlot data = 1 then .ok true
  else .error .invalidReturnData

/-- The check of `TransferHelper.safeTransfer` on the result of its call. -/
def checkTransfer (reply : Reply) : Except Revert Unit := do
  require (reply.success = true) .transferFailed
  if reply.data.length = 0 then return ()
  let transferred ← decodeBool reply.data
  require (transferred = true) .transferFailed

/-- `emit Transacted` at the end of `sendMultiSig` and `sendMultiSigToken`. -/
def finishTransaction (evm : Evm) (point : Point) (grant : Grant) (toAddress : Address)
    (value : Uint256) (data : List UInt8) : Point × Option Pending :=
  let operationHash := grant.authorization.operation.hash evm.keccak256
  ((point.emit (.transacted grant.message.sender grant.authorization.otherSigner operationHash
    toAddress value data)).setEntered false, none)

/-- A call of the wallet from the reply it waits for. -/
def resume (evm : Evm) (point : Point) (pending : Pending) (reply : Reply) :
    Except Revert (Point × Option Pending) :=
  match pending with
  | .native grant toAddress value data => do
    require (reply.success = true) .callFailed
    return finishTransaction evm point grant toAddress value data
  | .token grant toAddress value => do
    checkTransfer reply
    return finishTransaction evm point grant toAddress value []
  | .batch grant recipient value rest => do
    require (reply.success = true) .batchTransferFailed
    let transferred := point.emit (.batchTransfer grant.message.sender recipient value)
    return batchFrom evm transferred grant rest
  | .flush => do
    -- A forwarder without code makes this call fail as well.
    require (reply.success = true) .bubbled
    return (point, none)

/-- The wallet after `init`, with all its entry points. -/
def walletMachine (evm : Evm) : CallMachine Point (Message × Entry) Pending Reply where
  Initial point := ∃ address message allowedSigners wallet,
    (Wallet.clone address).init message allowedSigners = .ok wallet ∧ point = .start wallet
  dispatch point call := (dispatch evm point call).toOption
  resume point pending reply := (resume evm point pending reply).toOption
  succeeded reply := reply.success

end CryptoVaultHub.Contracts

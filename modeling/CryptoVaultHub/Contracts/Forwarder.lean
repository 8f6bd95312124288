import CryptoVaultHub.Contracts.WalletSimple

/-!
# The forwarder

`CvhForwarder`: every external entry point, with its checks in source order, as segments of
a `CallMachine`. A view function that the forwarder calls is an external call like any other,
which lets foreign code do more than a static call allows. Ether amounts are natural
numbers, as all the ether there is fits a word. A call to an address without code is one that
fails, or, as `supportsInterface` is tried, one whose answer cannot be decoded.

A `ForwarderPoint` carries next to the storage the balance, the calls and events of the
forwarder so far, how much ether was forced into it, and what was left after each receipt.
-/

namespace CryptoVaultHub.Contracts

inductive ForwarderRevert where
  | alreadyInitialized
  | zeroParentAddress
  | zeroFeeAddress
  | notAllowed
  | notParent
  | flushFailed
  | callFailed
  | tooManyTokens
  | reentrancyGuardReentrantCall
  | transferHelper (error : Revert)
  | invalidReturnData
  | bubbled
  | nonPayable
deriving DecidableEq

inductive ForwarderEvent where
  | forwarderDeposited (sender : Address) (value : Nat)
  | autoFlush721Changed (enabled : Bool)
  | autoFlush1155Changed (enabled : Bool)
deriving DecidableEq

/-- The storage of a forwarder, and the address it lives at. -/
structure Forwarder where
  address : Address
  initialized : Bool
  parentAddress : Address
  feeAddress : Address
  autoFlush721 : Bool
  autoFlush1155 : Bool
  /-- The status of `ReentrancyGuard`. -/
  entered : Bool
deriving DecidableEq

/-- A new clone, before `init`. -/
def Forwarder.clone (address : Address) : Forwarder where
  address := address
  initialized := false
  parentAddress := zeroAddress
  feeAddress := zeroAddress
  autoFlush721 := false
  autoFlush1155 := false
  entered := false

/-! ## Calls -/

/-- A `CALL` instruction of the forwarder. -/
structure ForwarderCall where
  target : Address
  value : Nat
  input : List UInt8
deriving DecidableEq

/-- A call of the forwarder, the message that caused it, and whether the parent has chosen
it through `callFromParent`. -/
structure ForwarderRecord where
  message : Message
  fromParent : Bool
  call : ForwarderCall
deriving DecidableEq

/-- The `safeTransferFrom` and the `transferFrom` of an ERC-721 token. -/
def transferInput721 (safe : Bool) (source recipient : Address) (tokenId : Uint256) :
    List UInt8 :=
  (if safe then [0x42, 0x84, 0x2e, 0x0e] else [0x23, 0xb8, 0x72, 0xdd]) ++
    Abi.encode [.static source.word, .static recipient.word, .static tokenId]

/-- The `safeTransferFrom` of an ERC-1155 token, with empty data. -/
def transferInput1155 (source recipient : Address) (tokenId value : Uint256) : List UInt8 :=
  [0xf2, 0x42, 0x43, 0x2a] ++
    Abi.encode [.static source.word, .static recipient.word, .static tokenId, .static value,
      .bytes []]

/-- The `safeBatchTransferFrom` of an ERC-1155 token, with empty data. -/
def batchTransferInput1155 (source recipient : Address) (ids values : List Uint256) :
    List UInt8 :=
  [0x2e, 0xb2, 0xc2, 0xd6] ++
    Abi.encode [.static source.word, .static recipient.word, .words ids, .words values, .bytes []]

/-- The result of a view function that returns a number. -/
def decodeUint (data : List UInt8) : Except ForwarderRevert Nat :=
  if data.length < 32 then .error .invalidReturnData else .ok (Abi.readSlot data)

/-! ## State -/

/-- What a plain receipt of ether has left in the forwarder, and how much of that was forced
in meanwhile. -/
structure EtherReceipt where
  left : Nat
  forced : Nat
deriving DecidableEq

/-- The storage and the history of a forwarder; every list has its newest entry first. -/
structure ForwarderPoint where
  forwarder : Forwarder
  balance : Nat
  forced : Nat
  called : List ForwarderRecord
  events : List ForwarderEvent
  receipts : List EtherReceipt
deriving DecidableEq

namespace ForwarderPoint

/-- A forwarder that has done nothing yet. -/
def start (forwarder : Forwarder) (balance : Nat) : ForwarderPoint :=
  ⟨forwarder, balance, 0, [], [], []⟩

def emit (point : ForwarderPoint) (event : ForwarderEvent) : ForwarderPoint :=
  { point with events := event :: point.events }

/-- The entry and the exit of `nonReentrant`. -/
def setEntered (point : ForwarderPoint) (entered : Bool) : ForwarderPoint :=
  { point with forwarder := { point.forwarder with entered := entered } }

/-- The value of a message arrives before the code runs. -/
def credit (point : ForwarderPoint) (amount : Nat) : ForwarderPoint :=
  { point with balance := point.balance + amount }

/-- Record a call; its value leaves at once. -/
def callOut (point : ForwarderPoint) (record : ForwarderRecord) : ForwarderPoint :=
  { point with
    balance := point.balance - record.call.value
    called := record :: point.called }

end ForwarderPoint

/-- What a call of the forwarder waits for. -/
inductive ForwarderPending where
  /-- `guarded` tells `flush`, `receive` and `fallback` from `init`; a receipt remembers how
  much had been forced in when it began. -/
  | flush (guarded : Bool) (receipt : Option Nat) (value : Nat)
  | balanceOf20 (message : Message) (token : Address) (rest : List Address)
  | transfer20 (message : Message) (rest : List Address)
  | transfer721
  | balanceOf1155 (message : Message) (token : Address) (tokenId : Uint256)
  | transfer1155
  | callFromParent
  | supportsInterface (message : Message) (tokenId : Uint256)
  | hookTransfer

/-- `if (!condition) revert error()`. -/
def check (condition : Prop) [Decidable condition] (error : ForwarderRevert) :
    Except ForwarderRevert Unit :=
  if condition then .ok () else .error error

abbrev Segment := Except ForwarderRevert (ForwarderPoint × Option ForwarderPending)

/-! ## Ether -/

/-- The end of a flush. -/
def finishFlush (point : ForwarderPoint) (guarded : Bool) (receipt : Option Nat) :
    ForwarderPoint × Option ForwarderPending :=
  let left := if guarded then point.setEntered false else point
  match receipt with
  | none => (left, none)
  | some before =>
    ({ left with receipts := ⟨left.balance, left.forced - before⟩ :: left.receipts }, none)

/-- `_flush`. -/
def flushEther (point : ForwarderPoint) (message : Message) (guarded : Bool)
    (receipt : Option Nat) : ForwarderPoint × Option ForwarderPending :=
  if point.balance = 0 then finishFlush point guarded receipt
  else
    (point.callOut ⟨message, false, ⟨point.forwarder.parentAddress, point.balance, []⟩⟩,
      some (.flush guarded receipt point.balance))

/-- The entry of `nonReentrant`. -/
def enterOnce (point : ForwarderPoint) : Except ForwarderRevert ForwarderPoint := do
  check (point.forwarder.entered = false) .reentrancyGuardReentrantCall
  return point.setEntered true

/-- The condition of `onlyAllowedAddress`, in a function that takes no ether. -/
def checkAllowed (point : ForwarderPoint) (message : Message) : Except ForwarderRevert Unit := do
  check (message.value = 0) .nonPayable
  check (message.sender = point.forwarder.parentAddress ∨
    message.sender = point.forwarder.feeAddress) .notAllowed

def Forwarder.init (forwarder : Forwarder) (message : Message)
    (parentAddress feeAddress : Address) (autoFlush721 autoFlush1155 : Bool) :
    Except ForwarderRevert Forwarder := do
  check (message.value = 0) .nonPayable
  check (forwarder.initialized = false) .alreadyInitialized
  check (parentAddress ≠ zeroAddress) .zeroParentAddress
  check (feeAddress ≠ zeroAddress) .zeroFeeAddress
  return { forwarder with
    parentAddress := parentAddress
    feeAddress := feeAddress
    autoFlush721 := autoFlush721
    autoFlush1155 := autoFlush1155
    initialized := true }

def flush (point : ForwarderPoint) (message : Message) : Segment := do
  checkAllowed point message
  let entered ← enterOnce point
  return flushEther entered message true none

/-- `receive` and `fallback`. -/
def receiveEther (point : ForwarderPoint) (message : Message) : Segment := do
  let entered ← enterOnce (point.credit message.value.toNat)
  return flushEther entered message true (some point.forced)

/-! ## Tokens -/

/-- The loop of `batchFlushERC20Tokens` from the next token on. -/
def flushTokensFrom (point : ForwarderPoint) (message : Message) :
    List Address → ForwarderPoint × Option ForwarderPending
  | [] => (point.setEntered false, none)
  | token :: rest => (point, some (.balanceOf20 message token rest))

def flushTokens (point : ForwarderPoint) (message : Message) (tokenContractAddress : Address) :
    Segment := do
  checkAllowed point message
  let entered ← enterOnce point
  return flushTokensFrom entered message [tokenContractAddress]

def batchFlushERC20Tokens (point : ForwarderPoint) (message : Message)
    (tokenContractAddresses : Calldata Address) : Segment := do
  checkAllowed point message
  let entered ← enterOnce point
  check (tokenContractAddresses.val.length ≤ 255) .tooManyTokens
  return flushTokensFrom entered message tokenContractAddresses.val

/-- The transfer of an ERC-721 token to the parent. -/
def call721 (forwarder : Forwarder) (token : Address) (safe : Bool) (tokenId : Uint256) :
    ForwarderCall :=
  ⟨token, 0, transferInput721 safe forwarder.address forwarder.parentAddress tokenId⟩

def flushERC721Token (point : ForwarderPoint) (message : Message)
    (tokenContractAddress : Address) (tokenId : Uint256) : Segment := do
  checkAllowed point message
  return (point.callOut ⟨message, false, call721 point.forwarder tokenContractAddress true tokenId⟩,
    some .transfer721)

def flushERC1155Tokens (point : ForwarderPoint) (message : Message)
    (tokenContractAddress : Address) (tokenId : Uint256) : Segment := do
  checkAllowed point message
  return (point, some (.balanceOf1155 message tokenContractAddress tokenId))

def setAutoFlush721 (point : ForwarderPoint) (message : Message) (enabled : Bool) : Segment := do
  checkAllowed point message
  let changed := { point with forwarder := { point.forwarder with autoFlush721 := enabled } }
  return (changed.emit (.autoFlush721Changed enabled), none)

def setAutoFlush1155 (point : ForwarderPoint) (message : Message) (enabled : Bool) : Segment := do
  checkAllowed point message
  let changed := { point with forwarder := { point.forwarder with autoFlush1155 := enabled } }
  return (changed.emit (.autoFlush1155Changed enabled), none)

/-- A call with more value than there is fails. -/
def callFromParent (point : ForwarderPoint) (message : Message) (target : Address)
    (value : Uint256) (data : Calldata UInt8) : Segment := do
  check (message.value = 0) .nonPayable
  check (message.sender = point.forwarder.parentAddress) .notParent
  check (value.toNat ≤ point.balance) .callFailed
  return (point.callOut ⟨message, true, ⟨target, value.toNat, data.val⟩⟩, some .callFromParent)

/-! ## Hooks -/

/-- The entry of a hook. -/
def enterHook (point : ForwarderPoint) (message : Message) :
    Except ForwarderRevert ForwarderPoint := do
  check (message.value = 0) .nonPayable
  enterOnce point

def onERC721Received (point : ForwarderPoint) (message : Message) (tokenId : Uint256) :
    Segment := do
  let entered ← enterHook point message
  if entered.forwarder.autoFlush721 then
    return (entered, some (.supportsInterface message tokenId))
  return (entered.setEntered false, none)

def onERC1155Received (point : ForwarderPoint) (message : Message) (tokenId value : Uint256) :
    Segment := do
  let entered ← enterHook point message
  if entered.forwarder.autoFlush1155 then
    let call : ForwarderCall := ⟨message.sender, 0,
      transferInput1155 point.forwarder.address point.forwarder.parentAddress tokenId value⟩
    return (entered.callOut ⟨message, false, call⟩, some .hookTransfer)
  return (entered.setEntered false, none)

def onERC1155BatchReceived (point : ForwarderPoint) (message : Message)
    (ids values : Calldata Uint256) : Segment := do
  let entered ← enterHook point message
  if entered.forwarder.autoFlush1155 then
    let call : ForwarderCall := ⟨message.sender, 0,
      batchTransferInput1155 point.forwarder.address point.forwarder.parentAddress ids.val
        values.val⟩
    return (entered.callOut ⟨message, false, call⟩, some .hookTransfer)
  return (entered.setEntered false, none)

/-! ## The contract -/

/-- The external entry points with their decoded arguments. -/
inductive ForwarderEntry where
  | init (parentAddress feeAddress : Address) (autoFlush721 autoFlush1155 : Bool)
  | flush
  | flushTokens (tokenContractAddress : Address)
  | batchFlushERC20Tokens (tokenContractAddresses : Calldata Address)
  | flushERC721Token (tokenContractAddress : Address) (tokenId : Uint256)
  | flushERC1155Tokens (tokenContractAddress : Address) (tokenId : Uint256)
  | setAutoFlush721 (enabled : Bool)
  | setAutoFlush1155 (enabled : Bool)
  | callFromParent (target : Address) (value : Uint256) (data : Calldata UInt8)
  | onERC721Received (tokenId : Uint256)
  | onERC1155Received (tokenId value : Uint256)
  | onERC1155BatchReceived (ids values : Calldata Uint256)
  | receive
  | fallback
  /-- The getters and `supportsInterface`. -/
  | query

/-- A call of the forwarder, or ether that arrives without one. -/
inductive ForwarderInput where
  | call (message : Message) (entry : ForwarderEntry)
  | force (amount : Nat)

def initForwarder (point : ForwarderPoint) (message : Message) (parentAddress feeAddress : Address)
    (autoFlush721 autoFlush1155 : Bool) : Segment := do
  let forwarder ← point.forwarder.init message parentAddress feeAddress autoFlush721 autoFlush1155
  return flushEther { point with forwarder := forwarder } message false none

/-- A call of the forwarder up to its end or its first external call. -/
def dispatchForwarder (point : ForwarderPoint) : ForwarderInput → Segment
  | .force amount =>
    return ({ point.credit amount with forced := point.forced + amount }, none)
  | .call message entry =>
    match entry with
    | .init parentAddress feeAddress autoFlush721 autoFlush1155 =>
      initForwarder point message parentAddress feeAddress autoFlush721 autoFlush1155
    | .flush => flush point message
    | .flushTokens token => flushTokens point message token
    | .batchFlushERC20Tokens tokens => batchFlushERC20Tokens point message tokens
    | .flushERC721Token token tokenId => flushERC721Token point message token tokenId
    | .flushERC1155Tokens token tokenId => flushERC1155Tokens point message token tokenId
    | .setAutoFlush721 enabled => setAutoFlush721 point message enabled
    | .setAutoFlush1155 enabled => setAutoFlush1155 point message enabled
    | .callFromParent target value data => callFromParent point message target value data
    | .onERC721Received tokenId => onERC721Received point message tokenId
    | .onERC1155Received tokenId value => onERC1155Received point message tokenId value
    | .onERC1155BatchReceived ids values => onERC1155BatchReceived point message ids values
    | .receive | .fallback => receiveEther point message
    | .query => do
      check (message.value = 0) .nonPayable
      return (point, none)

/-- A void call of a token bubbles up its failure. -/
def checkBubbled (reply : Reply) : Except ForwarderRevert Unit :=
  check (reply.success = true) .bubbled

/-- The errors of `TransferHelper`. -/
def checkTransferred (reply : Reply) : Except ForwarderRevert Unit :=
  match checkTransfer reply with
  | .ok () => .ok ()
  | .error error => .error (.transferHelper error)

/-- The result of `try supportsInterface`; only the failure of the call is caught. -/
def decodeSupport (reply : Reply) : Except ForwarderRevert Bool :=
  if reply.success then
    match decodeBool reply.data with
    | .ok supported => .ok supported
    | .error _ => .error .invalidReturnData
  else .ok false

/-- A call of the forwarder from the reply it waits for. -/
def resumeForwarder (point : ForwarderPoint) (pending : ForwarderPending) (reply : Reply) :
    Segment :=
  match pending with
  | .flush guarded receipt value => do
    check (reply.success = true) .flushFailed
    return finishFlush (point.emit (.forwarderDeposited point.forwarder.address value)) guarded
      receipt
  | .balanceOf20 message token rest => do
    checkBubbled reply
    let balance ← decodeUint reply.data
    if 0 < balance then
      let input := transferInput point.forwarder.parentAddress (BitVec.ofNat 256 balance)
      return (point.callOut ⟨message, false, ⟨token, 0, input⟩⟩, some (.transfer20 message rest))
    return flushTokensFrom point message rest
  | .transfer20 message rest => do
    checkTransferred reply
    return flushTokensFrom point message rest
  | .transfer721 | .transfer1155 => do
    checkBubbled reply
    return (point, none)
  | .balanceOf1155 message token tokenId => do
    checkBubbled reply
    let balance ← decodeUint reply.data
    if 0 < balance then
      let input := transferInput1155 point.forwarder.address point.forwarder.parentAddress
        tokenId (BitVec.ofNat 256 balance)
      return (point.callOut ⟨message, false, ⟨token, 0, input⟩⟩, some .transfer1155)
    return (point, none)
  | .callFromParent => do
    check (reply.success = true) .callFailed
    return (point, none)
  | .supportsInterface message tokenId => do
    let supported ← decodeSupport reply
    return (point.callOut
      ⟨message, false, call721 point.forwarder message.sender supported tokenId⟩,
      some .hookTransfer)
  | .hookTransfer => do
    checkBubbled reply
    return (point.setEntered false, none)

/-- The forwarder after `init`, with all its entry points. If `init` has flushed a balance, its
parent may have changed the two flags by then. -/
def forwarderMachine : CallMachine ForwarderPoint ForwarderInput ForwarderPending Reply where
  Initial point := ∃ address message parentAddress feeAddress autoFlush721 autoFlush1155 forwarder
      later721 later1155 balance,
    (Forwarder.clone address).init message parentAddress feeAddress autoFlush721 autoFlush1155 =
        .ok forwarder ∧
      point = .start { forwarder with autoFlush721 := later721, autoFlush1155 := later1155 } balance
  dispatch point call := (dispatchForwarder point call).toOption
  resume point pending reply := (resumeForwarder point pending reply).toOption
  succeeded reply := reply.success

end CryptoVaultHub.Contracts

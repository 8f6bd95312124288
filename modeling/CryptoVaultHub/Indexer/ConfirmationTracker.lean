import CryptoVaultHub.Indexer.RealtimeDetector

/-!
# Confirming deposits

Every tick the tracker selects the deposits that are not final, reads the height of the
chain once, and looks for the receipt of each deposit. Without a receipt the deposit is
'reverted'; with enough blocks over the receipt it is 'confirmed'. The status in the
receipt is not looked at. The chain can grow and be reorganised between any two
statements, and a tick that has timed out goes on beside the next.
-/

namespace CryptoVaultHub.Indexer

/-! ## The chain -/

/-- A transaction in a block. A reverted transaction keeps its fields and leaves no logs. -/
structure MinedTransaction where
  transaction : Transaction
  succeeded : Bool
  logs : List Log
deriving DecidableEq

abbrev MinedBlock := List MinedTransaction

structure Receipt where
  blockNumber : Nat
  succeeded : Bool
deriving DecidableEq

/-- The canonical chain; a block's number is its position. -/
abbrev CanonicalChain := List MinedBlock

namespace CanonicalChain

def blockNumber (chain : CanonicalChain) : Nat :=
  chain.length - 1

def receipt? (chain : CanonicalChain) (hash : TxHash) : Option Receipt :=
  chain.zipIdx.findSome? fun (block, number) =>
    (block.find? fun mined => mined.transaction.hash = hash).map fun mined =>
      ⟨number, mined.succeeded⟩

def logs (chain : CanonicalChain) (number : Nat) : List Log :=
  (chain[number]?.getD []).flatMap fun mined => if mined.succeeded then mined.logs else []

def transactions (chain : CanonicalChain) (number : Nat) : Option (List Transaction) :=
  chain[number]?.map fun block => block.map MinedTransaction.transaction

end CanonicalChain

/-! ## The tracker -/

/-- A selected deposit with the address of its token, zero for the native currency. -/
structure PendingDeposit where
  deposit : Deposit
  contractAddress : Address
deriving DecidableEq

inductive ConfirmationEventKind where
  | reverted
  | milestone (milestone : Nat)
  | confirmed
deriving DecidableEq

/-- A message of the stream `deposits:confirmation`. -/
structure ConfirmationEvent where
  event : ConfirmationEventKind
  deposit : PendingDeposit
  confirmations : Nat
deriving DecidableEq

/-- A deposit that was set to 'confirmed', with the chain at that time. -/
structure Confirmation where
  deposit : Deposit
  chain : CanonicalChain
deriving DecidableEq

/-- The chain, the detector with its tables, the messages about confirmations, and the
record of what was confirmed. -/
structure Tracking where
  chain : CanonicalChain
  detector : Detector
  published : List ConfirmationEvent
  confirmed : List Confirmation
deriving DecidableEq

/-- The address that the joined token has; a deposit without a token counts as native. -/
def Store.contractAddress (store : Store) (tokenId : Nat) : Address :=
  match store.tokens.find? fun token => token.id = tokenId with
  | none => zeroAddress
  | some token => if token.isNative then zeroAddress else token.contractAddress

def Deposit.selected (deposit : Deposit) : Bool :=
  match deposit.status, deposit.txHash with
  | .pending, .transaction _ | .confirming, .transaction _ => true
  | .pending, .polling .. | .confirming, .polling .. | .confirmed, _ | .reverted, _ => false

def Store.pendingDeposits (store : Store) : List PendingDeposit :=
  (store.deposits.filter Deposit.selected).map fun deposit =>
    ⟨deposit, store.contractAddress deposit.tokenId⟩

/-- `UPDATE deposits SET … WHERE id`. -/
def Store.updateDeposit (store : Store) (id : Nat) (change : Deposit → Deposit) : Store :=
  { store with
    deposits := store.deposits.map fun row => if row.id = id then change row else row }

/-- The height read for a tick and the deposits not checked yet. -/
structure Tick where
  current : Nat
  rest : List PendingDeposit
deriving DecidableEq

/-- The points of `processChain` with `checkDeposit` in it; `left` are the milestones not
published yet. -/
inductive TrackerPoint where
  | select
  | getProvider (deposits : List PendingDeposit)
  | getBlockNumber (deposits : List PendingDeposit)
  | receipt (tick : Tick) (deposit : PendingDeposit)
  | publishReverted (tick : Tick) (deposit : PendingDeposit)
  | updateReverted (tick : Tick) (deposit : PendingDeposit)
  | milestone (tick : Tick) (deposit : PendingDeposit) (confirmations : Nat) (milestone : Nat)
      (left : List Nat)
  | publishConfirmed (tick : Tick) (deposit : PendingDeposit) (confirmations : Nat)
  | updateConfirmed (tick : Tick) (deposit : PendingDeposit) (confirmations : Nat)
  | updateConfirming (tick : Tick) (deposit : PendingDeposit) (confirmations : Nat)
deriving DecidableEq

/-- The next deposit; also what follows an error in a check. -/
def Tick.next (tick : Tick) : Option TrackerPoint :=
  match tick.rest with
  | [] => none
  | deposit :: rest => some (.receipt { tick with rest := rest } deposit)

/-- What follows the milestones of a deposit. -/
def Tick.conclude (tick : Tick) (deposit : PendingDeposit) (confirmations : Nat) :
    Option TrackerPoint :=
  if deposit.deposit.confirmationsRequired ≤ confirmations then
    some (.publishConfirmed tick deposit confirmations)
  else if confirmations ≠ deposit.deposit.confirmations ∨ deposit.deposit.status ≠ .confirming then
    some (.updateConfirming tick deposit confirmations)
  else tick.next

def milestones : List Nat := [1, 3, 6, 12]

/-- The milestones crossed since the last tick. -/
def PendingDeposit.crossed (deposit : PendingDeposit) (confirmations : Nat) : List Nat :=
  milestones.filter fun milestone =>
    deposit.deposit.confirmations < milestone ∧ milestone ≤ confirmations

def Tick.publishMilestones (tick : Tick) (deposit : PendingDeposit) (confirmations : Nat)
    (left : List Nat) : Option TrackerPoint :=
  match left with
  | [] => tick.conclude deposit confirmations
  | milestone :: left => some (.milestone tick deposit confirmations milestone left)

def Tracking.publish (tracking : Tracking) (event : ConfirmationEvent) : Tracking :=
  { tracking with published := tracking.published ++ [event] }

def Tracking.updateDeposit (tracking : Tracking) (id : Nat) (change : Deposit → Deposit) :
    Tracking :=
  { tracking with
    detector := { tracking.detector with store := tracking.detector.store.updateDeposit id change } }

/-- The update to 'confirmed', which is recorded. -/
def Tracking.confirm (tracking : Tracking) (id : Nat) (confirmations : Nat) : Tracking :=
  let confirmed := tracking.detector.store.deposits.filter fun row => row.id = id
  { tracking.updateDeposit id fun row =>
      { row with status := .confirmed, confirmations := confirmations } with
    confirmed := tracking.confirmed ++ confirmed.map fun row => ⟨row, tracking.chain⟩ }

/-- What follows the answer of `getTransactionReceipt`. The number of the receipt's block is
there for every mined transaction. -/
def Tick.checked (tick : Tick) (deposit : PendingDeposit) : Option Receipt → Option TrackerPoint
  | none => some (.publishReverted tick deposit)
  | some receipt =>
    let confirmations := tick.current - receipt.blockNumber
    tick.publishMilestones deposit confirmations (deposit.crossed confirmations)

/-- An error before the loop ends the tick, an error in it the check of the deposit. -/
def TrackerPoint.statement (tracking : Tracking) : TrackerPoint → Statement Tracking TrackerPoint
  | .select =>
    let deposits := tracking.detector.store.pendingDeposits
    { after := tracking
      next := if deposits.isEmpty then none else some (.getProvider deposits) }
  | .getProvider deposits => { after := tracking, next := some (.getBlockNumber deposits) }
  | .getBlockNumber deposits =>
    { after := tracking, next := (Tick.mk tracking.chain.blockNumber deposits).next }
  | .receipt tick deposit =>
    { after := tracking
      next :=
        match deposit.deposit.txHash with
        | .polling .. => tick.next
        | .transaction hash => tick.checked deposit (tracking.chain.receipt? hash)
      thrown := tick.next }
  | .publishReverted tick deposit =>
    { after := tracking.publish ⟨.reverted, deposit, 0⟩
      next := some (.updateReverted tick deposit)
      thrown := tick.next }
  | .updateReverted tick deposit =>
    { after := tracking.updateDeposit deposit.deposit.id fun row =>
        { row with status := .reverted, confirmations := 0 }
      next := tick.next
      thrown := tick.next }
  | .milestone tick deposit confirmations crossed left =>
    { after := tracking.publish ⟨.milestone crossed, deposit, confirmations⟩
      next := tick.publishMilestones deposit confirmations left
      thrown := tick.next }
  | .publishConfirmed tick deposit confirmations =>
    { after := tracking.publish ⟨.confirmed, deposit, confirmations⟩
      next := some (.updateConfirmed tick deposit confirmations)
      thrown := tick.next }
  | .updateConfirmed tick deposit confirmations =>
    { after := tracking.confirm deposit.deposit.id confirmations
      next := tick.next
      thrown := tick.next }
  | .updateConfirming tick deposit confirmations =>
    { after := tracking.updateDeposit deposit.deposit.id fun row =>
        { row with status := .confirming, confirmations := confirmations }
      next := tick.next
      thrown := tick.next }

/-! ## The services -/

inductive TrackingProcess where
  | detection (process : DetectionProcess)
  | tracker (point : TrackerPoint)
deriving DecidableEq

/-- Whether the provider has the block, which message is published next, and whether it
reaches the stream. -/
structure TrackingAnswer where
  available : Bool
  chosen : Nat
  streamed : Bool
deriving DecidableEq

def RealtimePoint.blockNumber : RealtimePoint → Nat
  | .getProvider blockNumber | .getLogs blockNumber | .getBlock blockNumber _
  | .getHash blockNumber _ | .cacheHash blockNumber _ | .publish blockNumber _ _
  | .updateCursor blockNumber => blockNumber

/-- The detector reads the canonical chain. -/
def DetectionProcess.answer (chain : CanonicalChain) (answer : TrackingAnswer) :
    DetectionProcess → RealtimeAnswer
  | .realtime point =>
    { logs := chain.logs point.blockNumber
      transactions := if answer.available then chain.transactions point.blockNumber else none
      chosen := answer.chosen
      streamed := answer.streamed }
  | .handler _ => ⟨[], none, answer.chosen, answer.streamed⟩

def TrackingProcess.statement (tracking : Tracking) (process : TrackingProcess)
    (answer : TrackingAnswer) : Statement Tracking TrackingProcess :=
  match process with
  | .detection process =>
    ((process.statement tracking.detector (process.answer tracking.chain answer)).map
      .detection).within fun detector => { tracking with detector := detector }
  | .tracker point => (point.statement tracking).map .tracker

/-- A tick, a new block, a reorganisation, a change of the confirmations that the chain
requires, and what begins at the detector. -/
inductive TrackingStart where
  | tick
  | mine (block : MinedBlock)
  | reorg (chain : CanonicalChain)
  | configure (confirmationsDefault : Nat)
  | detect (begun : DetectionStart)

/-- The polling detector is not part of this system: its rows are confirmed when they are
inserted. -/
def Tracking.start (tracking : Tracking) :
    TrackingStart → Option (Tracking × Option TrackingProcess)
  | .tick => some (tracking, some (.tracker .select))
  | .mine block => some ({ tracking with chain := tracking.chain ++ [block] }, none)
  | .reorg chain => some ({ tracking with chain := chain }, none)
  | .configure confirmationsDefault =>
    some ({ tracking with
      detector := { tracking.detector with
        store := { tracking.detector.store with
          confirmationsDefault := some confirmationsDefault } } }, none)
  | .detect (.poll _) => none
  | .detect begun =>
    (tracking.detector.start begun).map fun (detector, process) =>
      ({ tracking with detector := detector }, process.map .detection)

structure Tracking.Initial (tracking : Tracking) : Prop where
  detector : tracking.detector.Initial
  confirmed : tracking.confirmed = []

def confirmationTracking :
    ProcessPool Tracking TrackingProcess (Input TrackingAnswer) TrackingStart :=
  .ofStatements Tracking.Initial TrackingProcess.statement Tracking.start

end CryptoVaultHub.Indexer

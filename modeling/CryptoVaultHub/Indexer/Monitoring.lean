import CryptoVaultHub.Indexer.ConfirmationTracker
import CryptoVaultHub.Indexer.PollingDetector
import CryptoVaultHub.Semantics.Charging

/-!
# Both detectors on one chain

By default an address is monitored by both detectors. One reads the blocks, the other the
balances, and both publish to the stream that the handler turns into rows. Balances move
with the transfers of successful transactions, with transfers that only show in the
balance, and with sweeps.
-/

namespace CryptoVaultHub.Indexer

/-! ## Balances -/

/-- A change of a balance; the transaction is missing where the program cannot find it. -/
structure Movement where
  key : BalanceKey
  amount : Nat
  txHash : Option TxHash
  incoming : Bool
deriving DecidableEq

def Movement.into (key : BalanceKey) (movement : Movement) : Bool :=
  movement.incoming && decide (movement.key = key)

def Movement.outOf (key : BalanceKey) (movement : Movement) : Bool :=
  !movement.incoming && decide (movement.key = key)

/-- Addresses begin with no balance. -/
def balance (movements : List Movement) (key : BalanceKey) : Nat :=
  total Movement.amount (movements.filter (Movement.into key)) -
    total Movement.amount (movements.filter (Movement.outOf key))

/-- The value that a transaction moves. -/
def Transaction.movements (transaction : Transaction) : List Movement :=
  if transaction.value = 0 then []
  else
    ⟨⟨transaction.sender, zeroAddress⟩, transaction.value, some transaction.hash, false⟩ ::
      transaction.recipient.toList.map fun recipient =>
        ⟨⟨recipient, zeroAddress⟩, transaction.value, some transaction.hash, true⟩

/-- The tokens that a log moves. -/
def Log.movements (log : Log) : List Movement :=
  if log.topics < 3 then []
  else
    [⟨⟨log.sender, log.address⟩, log.data.getD 0, some log.transactionHash, false⟩,
      ⟨⟨log.recipient, log.address⟩, log.data.getD 0, some log.transactionHash, true⟩]

/-- A reverted transaction moves nothing. -/
def MinedTransaction.movements (mined : MinedTransaction) : List Movement :=
  if mined.succeeded then mined.transaction.movements ++ mined.logs.flatMap Log.movements else []

/-! ## The services -/

/-- The chain with the movements so far, and the two detectors over one store. -/
structure Monitoring where
  chain : CanonicalChain
  movements : List Movement
  watched : List Address
  lastBlock : Nat
  seen : List (List Transfer)
  polling : Polling
deriving DecidableEq

def Monitoring.detector (monitoring : Monitoring) : Detector where
  watched := monitoring.watched
  lastBlock := monitoring.lastBlock
  seen := monitoring.seen
  store := monitoring.polling.store

def Monitoring.withDetector (monitoring : Monitoring) (detector : Detector) : Monitoring where
  chain := monitoring.chain
  movements := monitoring.movements
  watched := detector.watched
  lastBlock := detector.lastBlock
  seen := detector.seen
  polling := { monitoring.polling with store := detector.store }

inductive MonitoringProcess where
  | detection (process : DetectionProcess)
  | polling (process : PollingProcess)
deriving DecidableEq

/-- Which calls succeed, whether the provider has the block, and as for the detectors. -/
structure MonitoringAnswer where
  succeeds : BalanceKey → Bool
  available : Bool
  chosen : Nat
  streamed : Bool

/-- The logs of a token to an address, with their blocks. -/
def CanonicalChain.logsTo (chain : CanonicalChain) (key : BalanceKey) (first last : Nat) :
    List (Nat × Log) :=
  (List.range' first (last + 1 - first)).flatMap fun number =>
    ((chain.logs number).filter fun log =>
      3 ≤ log.topics ∧ log.address = key.contractAddress ∧ log.recipient = key.address).map
        fun log => (number, log)

/-- The block, or the logs, that a poll asks for. -/
def PollPoint.transactions (chain : CanonicalChain) : PollPoint → Option (List Transaction)
  | .lookupBlock _ _ _ blockNumber => chain.transactions blockNumber
  | _ => none

def PollPoint.logs (chain : CanonicalChain) : PollPoint → List (Nat × Log)
  | .lookupLogs currentBlock entry _ =>
    chain.logsTo entry.key (currentBlock - lookbackBlocks) currentBlock
  | _ => []

/-- The polls read the chain; balances are those after the last movement. -/
def Monitoring.pollAnswer (monitoring : Monitoring) (answer : MonitoringAnswer) :
    PollingProcess → PollAnswer
  | .poll point =>
    { balances := fun key =>
        if answer.succeeds key then some (balance monitoring.movements key) else none
      time := monitoring.movements.length
      blockNumber := monitoring.chain.blockNumber
      transactions := if answer.available then point.transactions monitoring.chain else none
      logs := point.logs monitoring.chain
      chosen := answer.chosen
      streamed := answer.streamed }
  | .reconcile _ =>
    { balances := fun key =>
        if answer.succeeds key then some (balance monitoring.movements key) else none
      time := monitoring.movements.length
      blockNumber := monitoring.chain.blockNumber
      transactions := none
      logs := []
      chosen := answer.chosen
      streamed := answer.streamed }

def Monitoring.realtimeAnswer (monitoring : Monitoring) (answer : MonitoringAnswer)
    (process : DetectionProcess) : RealtimeAnswer :=
  process.answer monitoring.chain ⟨answer.available, answer.chosen, answer.streamed⟩

def MonitoringProcess.statement (monitoring : Monitoring) (process : MonitoringProcess)
    (answer : MonitoringAnswer) : Statement Monitoring MonitoringProcess :=
  match process with
  | .detection process =>
    ((process.statement monitoring.detector (monitoring.realtimeAnswer answer process)).map
      .detection).within monitoring.withDetector
  | .polling process =>
    ((process.statement monitoring.polling (monitoring.pollAnswer answer process)).map
      .polling).within fun polling => { monitoring with polling := polling }

/-- A block, a movement that shows only in the balance, and what begins at the detectors. -/
inductive MonitoringStart where
  | mine (block : MinedBlock)
  | credit (key : BalanceKey) (amount : Nat)
  | withdraw (key : BalanceKey) (amount : Nat)
  | detect (begun : DetectionStart)
  | poll (begun : PollingStart)
  | configure (addresses : List MonitoredAddress) (modes : List (Nat × MonitoringMode))
      (chainKnown : Bool)

/-- Every message is published by a detector, and tokens are only added. -/
def Monitoring.start (monitoring : Monitoring) :
    MonitoringStart → Option (Monitoring × Option MonitoringProcess)
  | .mine block =>
    some ({ monitoring with
      chain := monitoring.chain ++ [block]
      movements := monitoring.movements ++ block.flatMap MinedTransaction.movements }, none)
  | .credit key amount =>
    some ({ monitoring with
      movements := monitoring.movements ++ [⟨key, amount, none, true⟩] }, none)
  | .withdraw key amount =>
    if amount ≤ balance monitoring.movements key then
      some ({ monitoring with
        movements := monitoring.movements ++ [⟨key, amount, none, false⟩] }, none)
    else none
  | .detect (.poll _) => none
  | .detect begun =>
    (monitoring.detector.start begun).map fun (detector, process) =>
      (monitoring.withDetector detector, process.map .detection)
  | .poll (.configure ..) => none
  | .poll begun =>
    (monitoring.polling.start begun).map fun (polling, process) =>
      ({ monitoring with polling := polling }, process.map .polling)
  | .configure addresses modes chainKnown =>
    some ({ monitoring with
      polling := { monitoring.polling with
        addresses := addresses
        monitoringModes := modes
        chainKnown := chainKnown } }, none)

/-- An empty chain, and nothing seen, polled, published or stored. -/
structure Monitoring.Initial (monitoring : Monitoring) : Prop where
  chain : monitoring.chain = []
  movements : monitoring.movements = []
  detector : monitoring.detector.Initial
  polling : monitoring.polling.Initial

def monitoringServices :
    ProcessPool Monitoring MonitoringProcess (Input MonitoringAnswer) MonitoringStart :=
  .ofStatements Monitoring.Initial MonitoringProcess.statement Monitoring.start

end CryptoVaultHub.Indexer

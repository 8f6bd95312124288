import CryptoVaultHub.Semantics.JobQueue
import CryptoVaultHub.Withdrawal.OperationHash

/-!
# The records that withdrawals are kept in

The rows of `withdrawals` and `co_sign_operations`, the two job queues, and the
transactions given to the chain, with the statements that change them. A
statement that names an expected status is an `UPDATE … AND status = …`; one
that names none overwrites whatever it finds.
-/

namespace CryptoVaultHub.Withdrawal

open Contracts

abbrev WithdrawalId := Nat
abbrev ClientId := Nat
abbrev ProjectId := Nat
abbrev OperationId := Nat

inductive Status where
  | pendingApproval
  | pendingCosign
  | approved
  | broadcasting
  | confirmed
  | failed
  | cancelled
  | rejected
deriving DecidableEq

inductive SourceWallet where
  | hot
  | gasTank
deriving DecidableEq

/-- The columns of a withdrawal that no statement changes. -/
structure Request where
  id : WithdrawalId
  clientId : ClientId
  projectId : ProjectId
  chainId : ChainId
  sourceWallet : SourceWallet
  toAddress : String
  amountRaw : Nat
  createdAt : Nat
deriving DecidableEq

structure WithdrawalRow where
  request : Request
  status : Status
  txHash : Option String
  sequenceId : Option Nat
deriving DecidableEq

inductive CoSignStatus where
  | pending
  | signed
  | expired
deriving DecidableEq

/-- What `createCoSignOperation` reads outside the records: the hot wallet of the
project, its sequence counter, the clock, the joined token and the client's key. -/
structure CoSignInputs where
  walletAddress : String
  hotWalletSequenceId : Nat
  now : Nat
  token : Option Token
  clientAddress : String
  operationId : OperationId
  expiresAt : Nat
deriving DecidableEq

structure CoSignOperation where
  operationId : OperationId
  withdrawalId : WithdrawalId
  clientId : ClientId
  operationHash : List UInt8
  clientAddress : String
  expiresAt : Nat
  status : CoSignStatus
  clientSignature : Option (List UInt8)
  /-- What the hash was made from. -/
  inputs : CoSignInputs
deriving DecidableEq

/-- What the worker reads outside the records: the token, the client's hot
wallet, the next sequence id of its contract, the clock and the backup key's
signature. -/
structure WorkerInputs where
  token : Token
  walletAddress : String
  nextSequenceId : Nat
  now : Nat
  signature : List UInt8
deriving DecidableEq

/-- The multisig transaction of a withdrawal. -/
structure Transaction where
  operationHash : List UInt8
  call : Entry
  inputs : WorkerInputs

/-- A transaction the chain was given: a multisig call, or a plain transfer from
the gas tank. -/
structure Broadcast where
  withdrawalId : WithdrawalId
  multisig : Option Transaction

/-- The jobs of the withdrawal queue. -/
inductive JobId where
  | poll (run : Nat)
  | execute (id : WithdrawalId)
deriving DecidableEq

structure Shared where
  withdrawals : List WithdrawalRow
  operations : List CoSignOperation
  withdrawalQueue : JobQueue JobId Unit
  confirmQueue : JobQueue WithdrawalId String
  broadcasts : List Broadcast
  nextToken : Nat

/-- `removeOnComplete` and `removeOnFail` of every job. -/
def keepCompleted : Nat := 100

def keepFailed : Nat := 200

namespace Shared

/-- No withdrawal has been requested. -/
def initial : Shared := ⟨[], [], .empty, .empty, [], 0⟩

def find? (shared : Shared) (id : WithdrawalId) : Option WithdrawalRow :=
  shared.withdrawals.find? fun row => row.request.id = id

def status? (shared : Shared) (id : WithdrawalId) : Option Status :=
  (shared.find? id).map WithdrawalRow.status

def request? (shared : Shared) (id : WithdrawalId) : Option Request :=
  (shared.find? id).map WithdrawalRow.request

/-- `findFirst({ where: { id, clientId } })`. -/
def findOwned (shared : Shared) (id : WithdrawalId) (clientId : ClientId) :
    Option WithdrawalRow :=
  (shared.find? id).filter fun row => row.request.clientId = clientId

/-- The broadcasts of one withdrawal. -/
def broadcastsOf (shared : Shared) (id : WithdrawalId) : List Broadcast :=
  shared.broadcasts.filter fun broadcast => broadcast.withdrawalId = id

/-- The co-sign operation of a withdrawal has been signed: the update to 'signed' also
stores the signature, and no other statement touches it. -/
def Signed (shared : Shared) (id : WithdrawalId) : Prop :=
  ∃ operation ∈ shared.operations,
    operation.withdrawalId = id ∧ operation.clientSignature.isSome

/-- Change the row of one withdrawal. -/
def updateRow (shared : Shared) (id : WithdrawalId) (change : WithdrawalRow → WithdrawalRow) :
    Shared :=
  { shared with
    withdrawals := shared.withdrawals.map fun row =>
      if row.request.id = id then change row else row }

/-- Change one co-sign operation. -/
def updateOperation (shared : Shared) (operationId : OperationId)
    (change : CoSignOperation → CoSignOperation) : Shared :=
  { shared with
    operations := shared.operations.map fun operation =>
      if operation.operationId = operationId then change operation else operation }

end Shared

/-! ## Statements -/

/-- What a step of a service changes. -/
inductive Write where
  /-- Reads, the publication of events and calls of other services. -/
  | skip
  | setStatus (id : WithdrawalId) (status : Status) (expected : Option Status)
  | setTransaction (id : WithdrawalId) (txHash : String) (sequenceId : Option Nat)
  | insertOperation (operation : CoSignOperation)
  | signOperation (operationId : OperationId) (signature : List UInt8)
  | expireOperation (operationId : OperationId)
  | broadcast (sent : Broadcast)
  | addExecute (id : WithdrawalId)
  | addConfirm (id : WithdrawalId) (txHash : String)
  | completeJob (job : JobId) (token : Nat)
  | failJob (job : JobId) (token : Nat)
  | completeConfirm (id : WithdrawalId) (token : Nat)
  | failConfirm (id : WithdrawalId) (token : Nat)

/-- Whether a status update finds the row it is meant for. -/
def WithdrawalRow.matches (row : WithdrawalRow) (expected : Option Status) : Bool :=
  expected.all fun status => row.status = status

/-- The jobs that `withdrawalQueue.add` and `confirmQueue.add` make. -/
def executeJob (id : WithdrawalId) : Job JobId Unit := ⟨.execute id, (), 3, 0, .waiting⟩

def confirmJob (id : WithdrawalId) (txHash : String) : Job WithdrawalId String :=
  ⟨id, txHash, 60, 0, .delayed⟩

namespace Write

/-- The effect of a statement; `none` when it raises, on a duplicate key. -/
def apply (shared : Shared) : Write → Option Shared
  | .skip => some shared
  | .setStatus id status expected =>
    some (shared.updateRow id fun row =>
      if row.matches expected then { row with status := status } else row)
  | .setTransaction id txHash sequenceId =>
    some (shared.updateRow id fun row =>
      { row with
        txHash := some txHash
        sequenceId := sequenceId.or row.sequenceId })
  | .insertOperation operation =>
    if shared.operations.any fun other => other.operationId = operation.operationId ||
        other.withdrawalId = operation.withdrawalId then none
    else some { shared with operations := shared.operations ++ [operation] }
  | .signOperation operationId signature =>
    some (shared.updateOperation operationId fun operation =>
      { operation with status := .signed, clientSignature := some signature })
  | .expireOperation operationId =>
    some (shared.updateOperation operationId fun operation =>
      { operation with status := .expired })
  | .broadcast sent => some { shared with broadcasts := shared.broadcasts ++ [sent] }
  | .addExecute id =>
    some { shared with withdrawalQueue := shared.withdrawalQueue.add (executeJob id) }
  | .addConfirm id txHash =>
    some { shared with confirmQueue := shared.confirmQueue.add (confirmJob id txHash) }
  | .completeJob job token =>
    some { shared with
      withdrawalQueue := shared.withdrawalQueue.complete job token keepCompleted }
  | .failJob job token =>
    some { shared with withdrawalQueue := shared.withdrawalQueue.fail job token keepFailed }
  | .completeConfirm id token =>
    some { shared with confirmQueue := shared.confirmQueue.complete id token keepCompleted }
  | .failConfirm id token =>
    some { shared with confirmQueue := shared.confirmQueue.fail id token keepFailed }

end Write

end CryptoVaultHub.Withdrawal

import CryptoVaultHub.Withdrawal.CoSignCustody

/-!
# The hash the client signs and the hash the worker broadcasts

`createCoSignOperation` hashes the operation it will ask the client to sign; the
worker never reads `co_sign_operations` and hashes the withdrawal again, with the
sequence id, the clock and the rows of its own time. `Recorded` says where each
stored hash and each broadcast came from, in every run. It leaves one question,
when two executions of one withdrawal are the same operation.
-/

namespace CryptoVaultHub.Withdrawal

open TransitionSystem Contracts

/-- The execution that `createCoSignOperation` hashes. -/
def coSignExecution (request : Request) (inputs : CoSignInputs) : Execution where
  chainId := request.chainId
  walletAddress := inputs.walletAddress
  toAddress := request.toAddress
  amountRaw := request.amountRaw
  expireTime := inputs.now / 1000 + 86400
  sequenceId := inputs.hotWalletSequenceId + 1

/-- The hash of a co-sign operation was made from its withdrawal and its inputs. -/
def CoSignOperation.Recorded (settings : Settings) (shared : Shared)
    (operation : CoSignOperation) : Prop :=
  ∃ request, shared.request? operation.withdrawalId = some request ∧
    coSignHash settings.ethers operation.inputs.token (coSignExecution request operation.inputs) =
      some operation.operationHash

/-- A broadcast was made from its withdrawal and, from a hot wallet, its inputs. -/
def Broadcast.Recorded (settings : Settings) (shared : Shared) (sent : Broadcast) : Prop :=
  ∃ request, shared.request? sent.withdrawalId = some request ∧
    match sent.multisig with
    | some transaction =>
      request.sourceWallet = .hot ∧
        prepareTransaction settings request transaction.inputs = some transaction
    | none => request.sourceWallet = .gasTank

variable {settings : Settings}

theorem CoSignOperation.Recorded.extend {before after : Shared} {operation later : CoSignOperation}
    (recorded : operation.Recorded settings before) (extend : before.Extends after)
    (continues : operation.Continues later) : later.Recorded settings after := by
  obtain ⟨request, found, hashed⟩ := recorded
  refine ⟨request, ?_, ?_⟩
  · rw [continues.withdrawalId]
    exact extend.requests _ request found
  · rw [continues.inputs, continues.operationHash, hashed]

theorem Broadcast.Recorded.extend {before after : Shared} {sent : Broadcast}
    (recorded : sent.Recorded settings before) (extend : before.Extends after) :
    sent.Recorded settings after := by
  obtain ⟨request, found, made⟩ := recorded
  exact ⟨request, extend.requests _ request found, made⟩

/-! ## What processes carry -/

/-- What a process carries between its reads and its writes is recorded. -/
structure Process.Carries (settings : Settings) (shared : Shared) (process : Process) : Prop where
  inserts : ∀ operation, process = .approve (.insert operation) →
    operation.Recorded settings shared
  prepares : ∀ attempt request, process = .execute attempt (.prepare request) →
    shared.request? attempt.id = some request ∧ request.sourceWallet = .hot
  sends : ∀ sent, process.sending = some sent → sent.Recorded settings shared

theorem Process.Carries.extend {before after : Shared} {process : Process}
    (carries : process.Carries settings before) (extend : before.Extends after) :
    process.Carries settings after := by
  constructor
  · exact fun operation at_ => (carries.inserts operation at_).extend extend (.refl operation)
  · intro attempt request at_
    obtain ⟨found, hot⟩ := carries.prepares attempt request at_
    exact ⟨extend.requests _ request found, hot⟩
  · exact fun sent sends => (carries.sends sent sends).extend extend

variable {shared : Shared}

theorem Process.Fresh.carries {process : Process} (fresh : process.Fresh) :
    process.Carries settings shared := by
  constructor
  · rintro operation rfl
    cases fresh
  · rintro attempt request rfl
    cases fresh
  · intro sent sends
    cases fresh <;> cases sends

variable {answer : Answer}

variable {before : Process}

variable {state : State}

end CryptoVaultHub.Withdrawal

import CryptoVaultHub.Contracts.WalletReplay
import CryptoVaultHub.Semantics.WholeCall

/-!
# What a token transfer of the wallet means

`sendMultiSigToken` makes one external call, and `TransferHelper.safeTransfer` judges its
answer. The answer of an address without code is the same as that of a token which returns
nothing: success and no data. So the call succeeds and nothing has moved.
-/

namespace CryptoVaultHub.Contracts

open CallMachine TransitionSystem

/-! ## Answers of a token -/

/-- The token failed, or returned `false`. -/
def Reply.ReportsFailure (reply : Reply) : Prop :=
  reply.success = false ∨ decodeBool reply.data = .ok false

/-- The answer of an address without code: a call of it succeeds and returns nothing. -/
def emptyReply : Reply := ⟨true, []⟩

/-- The chain answers as it does for the code there is. -/
def AnswersFor (hasCode : Address → Bool) (target : Address) (answer : Option Reply) : Prop :=
  hasCode target = false → ∀ reply ∈ answer, reply = emptyReply

/-- The check passes no reported failure. -/
theorem checkTransfer_ok {reply : Reply} {done : Unit} (passed : checkTransfer reply = .ok done) :
    ¬ reply.ReportsFailure := by
  simp only [checkTransfer, bind_eq_ok, require_eq_ok, exists_const] at passed
  obtain ⟨success, rest⟩ := passed
  rintro (failed | returned)
  · rw [success] at failed
    cases failed
  · split at rest
    · rename_i empty
      rw [List.length_eq_zero_iff] at empty
      simp [decodeBool, empty] at returned
    · simp [returned] at rest

/-! ## The request -/

/-- The arguments of `sendMultiSigToken`, and who sends them. -/
structure TokenRequest where
  message : Message
  toAddress : Address
  value : Uint256
  tokenContractAddress : Address
  expireTime : Uint256
  sequenceId : Uint256
  signature : List UInt8

def TokenRequest.call (request : TokenRequest) : Message × Entry :=
  (request.message, .sendMultiSigToken request.toAddress request.value
    request.tokenContractAddress request.expireTime request.sequenceId request.signature)

/-- The operation its second signer signs. -/
def TokenRequest.operation (request : TokenRequest) (wallet : Address) : Operation :=
  .token request.message.chainid wallet request.toAddress request.value
    request.tokenContractAddress request.expireTime request.sequenceId

/-- The checks that come before the transfer pass. -/
structure TokenRequest.Passes (evm : Evm) (request : TokenRequest) (point : Point) : Prop where
  unpaid : request.message.value = 0
  signer : point.wallet.isSigner request.message.sender = true
  unlocked : point.wallet.entered = false
  recipient : request.toAddress ≠ zeroAddress
  authorized : ∃ granted authorization, authorize evm (point.setEntered true) request.message
    (request.operation point.wallet.address) request.signature = .ok (granted, authorization)
  restricted : point.wallet.safeMode = true → point.wallet.isSigner request.toAddress = true

variable {evm : Evm} {request : TokenRequest} {point made : Point}

/-- Verification makes no call. -/
theorem Authorized.called_eq {before after : Point} {message : Message}
    {authorization : Authorization}
    (authorized : Authorized evm before message authorization after) :
    after.called = before.called := by
  obtain ⟨window, -, rfl⟩ := authorized.inserted
  rfl

/-- A request that is not refused calls the token. -/
theorem dispatch_request {pending : Option Pending}
    (dispatched : dispatch evm point request.call = .ok (made, pending)) :
    request.Passes evm point ∧ ∃ grant : Grant,
      pending = some (.token grant request.toAddress request.value) ∧
      made.called = grant.record (transferCall request.tokenContractAddress request.toAddress
        request.value) :: point.called := by
  simp only [TokenRequest.call, dispatch, sendMultiSigToken, enterGuarded, bind_eq_ok,
    require_eq_ok, pure_eq_ok, Prod.exists, Prod.mk.injEq, exists_const] at dispatched
  obtain ⟨_, ⟨unpaid, signer, unlocked, rfl⟩, recipient, granted, authorization, authorizes,
    restricted, rfl, rfl⟩ := dispatched
  obtain ⟨authorized, -⟩ := authorize_ok authorizes
  obtain ⟨safeMode, isSigner⟩ := authorized.wallet_eq
  rw [safeMode, isSigner] at restricted
  refine ⟨⟨unpaid, signer, unlocked, recipient, ⟨granted, authorization, authorizes⟩,
    restricted⟩, _, rfl, ?_⟩
  exact congrArg _ authorized.called_eq

/-- A request that passes its checks is not refused. -/
theorem TokenRequest.Passes.dispatches (passes : request.Passes evm point) :
    ∃ made, ∃ grant : Grant, dispatch evm point request.call =
      .ok (made, some (.token grant request.toAddress request.value)) := by
  obtain ⟨unpaid, signer, unlocked, recipient, ⟨granted, authorization, authorizes⟩,
    restricted⟩ := passes
  obtain ⟨authorized, -⟩ := authorize_ok authorizes
  obtain ⟨safeMode, isSigner⟩ := authorized.wallet_eq
  refine ⟨granted.callOut (Grant.record ⟨request.message, point.wallet.safeMode, authorization⟩
      (transferCall request.tokenContractAddress request.toAddress request.value)),
    ⟨request.message, point.wallet.safeMode, authorization⟩, ?_⟩
  simp only [TokenRequest.call, dispatch, sendMultiSigToken, enterGuarded, bind_eq_ok,
    require_eq_ok, pure_eq_ok, Prod.exists, Prod.mk.injEq, exists_const]
  refine ⟨_, ⟨unpaid, signer, unlocked, rfl⟩, recipient, granted, authorization, authorizes, ?_,
    rfl, rfl⟩
  rwa [safeMode, isSigner]

/-! ## Foreign code meanwhile -/

/-- Foreign code may make any call. -/
def Anybody : Point → Message × Entry → Prop := fun _ _ => True

/-- Whatever is called meanwhile, the calls made so far stay on record. -/
def anybody (evm : Evm) : (walletMachine evm).Interference Anybody where
  Between earlier later := earlier.called <:+ later.called
  Waits _ _ _ := True
  refl _ := List.suffix_refl _
  trans := List.IsSuffix.trans
  dispatched := by
    intro entry call next pending _ dispatches
    refine ⟨?_, by simp⟩
    obtain begun | ⟨-, -, wallet, rfl⟩ :=
      dispatch_cases_or_init (toOption_eq_some.mp dispatches)
    · cases begun with
      | idle | deposited | safeMode => exact List.suffix_refl _
      | flush => exact List.suffix_cons ..
      | granted grant call waits after signer unlocked authorized =>
        have same : after.called = entry.called := authorized.called_eq
        rw [← same]
        exact List.suffix_cons ..
    · exact List.suffix_refl _
  resumed := by
    intro entry made current waits reply next pending before after _ resumes
    refine ⟨before.trans (after.trans ?_), by simp⟩
    obtain ⟨⟩ | ⟨⟩ | ⟨⟩ := resume_cases (toOption_eq_some.mp resumes)
    · exact List.suffix_refl _
    · exact List.suffix_refl _
    · exact List.suffix_cons ..

/-! ## The transfer -/

/-- What a successful transfer is meant to be: there is code at the token, it was called with
`transfer(toAddress, value)`, and it has not reported a failure. -/
structure Moved (hasCode : Address → Bool) (request : TokenRequest) (answer : Option Reply)
    (before after : Point) : Prop where
  code : hasCode request.tokenContractAddress = true
  called : ∃ later record, after.called = later ++ record :: before.called ∧
    record.call = transferCall request.tokenContractAddress request.toAddress request.value
  executed : ∃ reply, answer = some reply ∧ ¬ reply.ReportsFailure

/-- However the chain and foreign code behave, a success of the request means that the token
has moved, and a failure leaves everything as it was. -/
def TransferMeansMoved (evm : Evm) (hasCode : Address → Bool) (start : Journal Point Pending)
    (request : TokenRequest) : Prop :=
  ∀ answer success finish,
    (walletMachine evm).Completes Anybody start request.call answer success finish →
    AnswersFor hasCode request.tokenContractAddress answer →
    (success = true → Moved hasCode request answer start.current finish.current) ∧
      (success = false → finish = start)

variable {hasCode : Address → Bool} {start : Journal Point Pending}

/-- A request that passes its checks succeeds for a token that answers nothing. -/
theorem TokenRequest.Passes.succeeds (passes : request.Passes evm start.current) :
    ∃ finish, (walletMachine evm).Completes Anybody start request.call (some emptyReply) true
      finish := by
  obtain ⟨made, grant, dispatched⟩ := passes.dispatches
  have begins : (walletMachine evm).step start (.call request.call) = some
      ⟨made, .waiting (.token grant request.toAddress request.value) start.current made ::
        start.frames⟩ := by
    simp [CallMachine.step, walletMachine, dispatched, Except.toOption, Journal.settle]
  refine ⟨_, .later begins .refl (Nat.lt_succ_self _) rfl ?_ rfl rfl⟩
  rfl

/-- Without code there is no transfer to succeed. -/
theorem not_transferMeansMoved (passes : request.Passes evm start.current)
    (noCode : hasCode request.tokenContractAddress = false) :
    ¬ TransferMeansMoved evm hasCode start request := by
  intro means
  obtain ⟨finish, completes⟩ := passes.succeeds
  have answers : AnswersFor hasCode request.tokenContractAddress (some emptyReply) := by
    rintro - reply ⟨⟩
    rfl
  have moved := (means _ _ _ completes answers).1 rfl
  rw [moved.code] at noCode
  cases noCode

/-- After an answer that reports no failure the request is done. -/
theorem resume_token {current after : Point} {grant : Grant} {toAddress : Address}
    {value : Uint256} {reply : Reply} {pending : Option Pending}
    (resumed : resume evm current (.token grant toAddress value) reply = .ok (after, pending)) :
    ¬ reply.ReportsFailure ∧ after.called = current.called ∧ pending = none := by
  simp only [resume, bind_eq_ok, pure_eq_ok] at resumed
  obtain ⟨_, checked, ended⟩ := resumed
  cases ended
  exact ⟨checkTransfer_ok checked, rfl, rfl⟩

/-- For a token with code, a success means that the token has moved. -/
theorem transferMeansMoved_of_code
    (code : request.Passes evm start.current → hasCode request.tokenContractAddress = true) :
    TransferMeansMoved evm hasCode start request := by
  intro answer success finish completes _
  obtain ⟨result, segments, outcome, rfl⟩ := completes.segments (anybody evm)
  refine ⟨?_, ?_⟩
  · rintro rfl
    obtain ⟨after, rfl⟩ := Option.isSome_iff_exists.mp outcome.symm
    obtain ⟨ended, -⟩ | ⟨made, pending, current, reply, later, waits, rfl, grown, continued⟩ :=
      segments.succeeded
    · obtain ⟨-, grant, none, -⟩ := dispatch_request (toOption_eq_some.mp ended)
      cases none
    · obtain ⟨passes, grant, same, log⟩ := dispatch_request (toOption_eq_some.mp waits)
      cases same
      obtain ⟨ended, rfl⟩ | ⟨_, _, _, _, _, waits, -⟩ := continued.succeeded
      · obtain ⟨accepted, kept⟩ := resume_token (toOption_eq_some.mp ended)
        obtain ⟨later, grows⟩ := grown
        refine ⟨code passes, ⟨later, grant.record _, ?_, rfl⟩, reply, rfl, accepted⟩
        rw [Option.getD_some, kept.1, ← grows, log]
        rfl
      · have stops := (resume_token (toOption_eq_some.mp waits)).2.2
        cases stops
  · rintro rfl
    obtain rfl : result = none := by simpa using outcome.symm
    rfl

/-- A success of `sendMultiSigToken` means that the token has moved exactly if there is code
at the token's address, or the request is refused before the transfer. -/
theorem transferMeansMoved_iff (evm : Evm) (hasCode : Address → Bool)
    (start : Journal Point Pending) (request : TokenRequest) :
    TransferMeansMoved evm hasCode start request ↔
      (request.Passes evm start.current → hasCode request.tokenContractAddress = true) := by
  refine ⟨?_, transferMeansMoved_of_code⟩
  intro means passes
  by_contra noCode
  exact not_transferMeansMoved passes (by simpa using noCode) means

/-- Signer 2 sends one unit of a token to address 9. -/
def sampleTokenRequest (tokenContractAddress : Address) : TokenRequest :=
  ⟨⟨2, 0, 1, 0⟩, 9, 1, tokenContractAddress, 100, 7, sampleSignature⟩

theorem sampleTokenRequest_passes :
    (sampleTokenRequest 20).Passes permissiveEvm sampleJournal.current := by
  refine ⟨rfl, by decide, rfl, by decide, ⟨_, _, rfl⟩, ?_⟩
  intro safeMode
  cases safeMode

/-- There is nothing at address 20, and the transfer succeeds. -/
theorem transfer_without_token :
    ¬ ∀ (evm : Evm) (hasCode : Address → Bool) (start : Journal Point Pending)
      (request : TokenRequest), (walletMachine evm).system.Reachable Unrestricted start →
        TransferMeansMoved evm hasCode start request := by
  intro means
  exact not_transferMeansMoved sampleTokenRequest_passes rfl
    (means permissiveEvm (fun _ => false) sampleJournal (sampleTokenRequest 20)
      (.initial (sampleJournal_initial permissiveEvm)))

end CryptoVaultHub.Contracts

import CryptoVaultHub.Contracts.Batcher

/-!
# Value through a batch

While `batchTransfer` waits for a recipient, everybody but the owner can call the batcher, and
achieves nothing but a change of the ownership. The payments therefore leave the balance as the
loop has planned them, whoever is paid and whatever they do.

Who has accepted the ownership meanwhile is the owner from then on.
-/

namespace CryptoVaultHub.Contracts.Batcher

open CallMachine List Option

variable {Ownership : Type} {ownable : Ownable2Step Ownership}

/-! ## What others can do -/

/-- A call of somebody who does not own the batcher at that moment; no ether is forced in. -/
def ByOthers (ownable : Ownable2Step Ownership) (point : BatcherPoint Ownership) :
    BatcherInput → Prop
  | .call message _ => message.sender ≠ ownable.owner point.batcher.ownership
  | .force _ => False

/-- Nothing but the ownership has changed. -/
def SameFunds (before after : BatcherPoint Ownership) : Prop :=
  ∃ ownership, after = { before with batcher := { before.batcher with ownership := ownership } }

theorem SameFunds.refl (point : BatcherPoint Ownership) : SameFunds point point :=
  ⟨point.batcher.ownership, rfl⟩

theorem SameFunds.trans {first second third : BatcherPoint Ownership}
    (earlier : SameFunds first second) (later : SameFunds second third) :
    SameFunds first third := by
  obtain ⟨_, rfl⟩ := earlier
  obtain ⟨ownership, rfl⟩ := later
  exact ⟨ownership, rfl⟩

variable {message : Message}

/-- The owner's functions fail for others. -/
theorem others_onlyOwner {point : BatcherPoint Ownership}
    (other : message.sender ≠ ownable.owner point.batcher.ownership) :
    onlyOwner ownable point message = .error .ownableUnauthorizedAccount := by
  simp [onlyOwner, ensure, other]

variable {point next : BatcherPoint Ownership} {pending : Option BatcherPending}

/-- What others can do to a batcher: change its ownership, by a call that ends at once. -/
theorem dispatch_others {input : BatcherInput} (others : ByOthers ownable point input)
    (dispatched : dispatchBatcher ownable point input = .ok (next, pending)) :
    pending = none ∧ SameFunds point next := by
  cases input with
  | force amount => cases others
  | call message entry =>
    cases entry with
    | batchTransfer recipients values =>
      simp [dispatchBatcher, batchTransfer, others_onlyOwner others] at dispatched
    | batchTransferToken tokenAddress recipients values =>
      simp [dispatchBatcher, batchTransferToken, others_onlyOwner others] at dispatched
    | setTransferGasLimit limit =>
      simp [dispatchBatcher, setTransferGasLimit, others_onlyOwner others] at dispatched
    | setBatchTransferLimit limit =>
      simp [dispatchBatcher, setBatchTransferLimit, others_onlyOwner others] at dispatched
    | recover recipient =>
      simp [dispatchBatcher, recover, others_onlyOwner others] at dispatched
    | ownership call =>
      simp only [dispatchBatcher, inheritedCall, bind_eq_ok] at dispatched
      obtain ⟨-, -, changed⟩ := dispatched
      split at changed
      · cases changed
      · rename_i ownership accepted
        cases changed
        exact ⟨rfl, ownership, rfl⟩
    | query =>
      simp only [dispatchBatcher, bind_eq_ok, pure_eq_ok] at dispatched
      obtain ⟨-, -, same⟩ := dispatched
      cases same
      exact ⟨rfl, .refl point⟩
    | unknown => cases dispatched

/-- The interference of others. None of their calls waits. -/
def others (ownable : Ownable2Step Ownership) :
    (batcherMachine ownable).Interference (ByOthers ownable) where
  Between := SameFunds
  Waits _ _ _ := False
  refl := .refl
  trans := .trans
  dispatched := by
    intro entry call next pending others dispatched
    obtain ⟨rfl, same⟩ := dispatch_others others (toOption_eq_some.mp dispatched)
    exact ⟨same, by simp⟩
  resumed _ _ waits := waits.elim

/-! ## Payments -/

/-- What the calls of a list pay somebody. -/
def paidTo (recipient : Address) (calls : List BatcherCall) : Nat :=
  ((calls.filter fun call => call.target = recipient).map BatcherCall.value).sum

/-- What a list of transfers owes somebody. -/
def owedTo (recipient : Address) (transfers : List (Address × Uint256)) : Nat :=
  ((transfers.filter fun transfer => transfer.1 = recipient).map fun transfer =>
    transfer.2.toNat).sum

/-- The total of a list of values. -/
def total (values : List Uint256) : Nat := (values.map BitVec.toNat).sum

/-- What a batch has done when it is over: the calls it made, and what each of them is for. -/
structure Conserved (before after : BatcherPoint Ownership) (message : Message)
    (recipients : List Address) (values : List Uint256) : Prop where
  calls : ∃ transfers refund : List BatcherCall,
    after.called = (transfers ++ refund).reverse ++ before.called ∧
    (∀ recipient, paidTo recipient transfers = owedTo recipient (recipients.zip values)) ∧
    (∀ call ∈ transfers, call.target ∈ recipients) ∧
    (∀ call ∈ refund, call.target = message.sender) ∧
    paidTo message.sender refund = message.value.toNat - total values
  enough : total values ≤ message.value.toNat
  balance : after.balance = before.balance

/-- The checked loop finds the total. -/
theorem addRequired_ok {values : List Uint256} {start totalRequired : Uint256}
    (added : addRequired start values = .ok totalRequired) :
    totalRequired.toNat = start.toNat + total values := by
  induction values generalizing start with
  | nil =>
    cases added
    simp [total]
  | cons value rest ih =>
    simp only [addRequired, bind_eq_ok, mapError_eq_ok, checkedAdd] at added
    obtain ⟨next, sum, later⟩ := added
    split at sum
    · rename_i small
      cases sum
      have found := ih later
      rw [BitVec.toNat_add_of_lt small] at found
      simp only [total, map_cons, sum_cons] at found ⊢
      omega
    · cases sum

/-- A call that was made. -/
theorem callOut_ok {point made : BatcherPoint Ownership} {call : BatcherCall}
    {error : BatcherRevert} (called : point.callOut call error = .ok made) :
    call.value ≤ point.balance ∧ made = { point with
      balance := point.balance - call.value
      called := call :: point.called } := by
  simp only [BatcherPoint.callOut, bind_eq_ok, ensure_eq_ok, exists_const, pure_eq_ok] at called
  obtain ⟨-, enough, rfl⟩ := called
  exact ⟨enough, rfl⟩

/-! ## The loop -/

/-- What the rest of a batch does from a point on. -/
structure Pays (point after : BatcherPoint Ownership) (message : Message)
    (rest : List (Address × Uint256)) (excess : Nat) : Prop where
  calls : ∃ transfers refund : List BatcherCall,
    after.called = (transfers ++ refund).reverse ++ point.called ∧
    (transfers.map fun call => (call.target, call.value)) =
      (rest.map fun transfer => (transfer.1, transfer.2.toNat)) ∧
    (∀ call ∈ refund, call.target = message.sender) ∧
    paidTo message.sender refund = excess
  balance : after.balance + total (rest.map Prod.snd) + excess = point.balance

variable {rest : List (Address × Uint256)}

variable {totalRequired : Uint256}

/-- The end of a batch: a refund, or nothing to refund. -/
theorem refundExcess_ok (ended : refundExcess point message totalRequired = .ok (next, pending)) :
    (message.value - totalRequired = 0 ∧ next = point ∧ pending = none) ∨
      (point.callOut ⟨message.sender, (message.value - totalRequired).toNat, [], none⟩
        .refundFailed = .ok next ∧ pending = some .refund) := by
  simp only [refundExcess] at ended
  split at ended
  · simp only [bind_eq_ok, pure_eq_ok, Prod.mk.injEq] at ended
    obtain ⟨called, made, rfl, rfl⟩ := ended
    exact .inr ⟨made, rfl⟩
  · rename_i none
    cases ended
    refine .inl ⟨?_, rfl, rfl⟩
    simpa using none

variable {answer : Option Reply}

/-- The refund pays the excess to the sender. -/
theorem refundExcess_pays {point after : BatcherPoint Ownership}
    (segments : (batcherMachine ownable).Segments SameFunds
      (refundExcess point message totalRequired).toOption answer (some after)) :
    Pays point after message [] (message.value - totalRequired).toNat := by
  obtain ⟨ended, -⟩ | ⟨made, pending, current, reply, later, ended, -, same, continued⟩ :=
    segments.succeeded
  · obtain ⟨zero, rfl, -⟩ | ⟨-, waits⟩ := refundExcess_ok (toOption_eq_some.mp ended)
    · exact ⟨⟨[], [], by simp, rfl, by simp, by simp [zero, paidTo]⟩, by simp [zero, total]⟩
    · cases waits
  · obtain ⟨-, -, ends⟩ | ⟨called, waits⟩ := refundExcess_ok (toOption_eq_some.mp ended)
    · cases ends
    · cases waits
      obtain ⟨enough, rfl⟩ := callOut_ok called
      obtain ⟨ownership, rfl⟩ := same
      -- The reply ends the call at once.
      obtain ⟨returned, -⟩ | ⟨_, _, _, _, _, waits, -⟩ := continued.succeeded
      · have last := toOption_eq_some.mp returned
        simp only [resumeBatcher, bind_eq_ok, pure_eq_ok, Prod.mk.injEq] at last
        obtain ⟨-, -, rfl, -⟩ := last
        refine ⟨⟨[], [_], rfl, rfl, by simp, by simp [paidTo]⟩, ?_⟩
        simp only [total, map_nil, sum_nil]
        exact Nat.sub_add_cancel enough
      · have last := toOption_eq_some.mp waits
        simp only [resumeBatcher, bind_eq_ok, pure_eq_ok, Prod.mk.injEq] at last
        obtain ⟨-, -, -, pending⟩ := last
        cases pending

/-- One turn of the loop waits for the payment it makes. -/
theorem transferFrom_ok {totalRequired value : Uint256} {recipient : Address}
    (turned : transferFrom point message totalRequired ((recipient, value) :: rest) =
      .ok (next, pending)) :
    value.toNat ≤ point.balance ∧
      pending = some (.transfer message totalRequired recipient value rest) ∧
      ∃ gas, next = { point with
        balance := point.balance - value.toNat
        called := ⟨recipient, value.toNat, [], gas⟩ :: point.called } := by
  simp only [transferFrom, bind_eq_ok, pure_eq_ok, Prod.mk.injEq] at turned
  obtain ⟨-, -, _, called, rfl, rfl⟩ := turned
  obtain ⟨enough, rfl⟩ := callOut_ok called
  exact ⟨enough, rfl, _, rfl⟩

/-- A reply to a payment of the loop takes the next turn, or fails. -/
theorem resume_transfer {current : BatcherPoint Ownership} {totalRequired value : Uint256}
    {recipient : Address} {reply : Reply} :
    (batcherMachine ownable).resume current
      (.transfer message totalRequired recipient value rest) reply =
      if reply.success = true then
        (transferFrom (current.emit (.batchTransfer message.sender recipient value)) message
          totalRequired rest).toOption
      else none := by
  cases success : reply.success <;>
    simp [batcherMachine, resumeBatcher, ensure, success, bind, Except.bind, Except.toOption]

/-- The loop pays each recipient in turn, and then the excess. -/
theorem transferFrom_pays {point after : BatcherPoint Ownership}
    (segments : (batcherMachine ownable).Segments SameFunds
      (transferFrom point message totalRequired rest).toOption answer (some after)) :
    Pays point after message rest (message.value - totalRequired).toNat := by
  induction rest generalizing point answer with
  | nil => exact refundExcess_pays segments
  | cons transfer rest ih =>
    obtain ⟨recipient, value⟩ := transfer
    obtain ⟨ended, -⟩ | ⟨made, pending, current, reply, later, ended, -, same, continued⟩ :=
      segments.succeeded
    · obtain ⟨-, waits, -⟩ := transferFrom_ok (toOption_eq_some.mp ended)
      cases waits
    · obtain ⟨enough, waits, gas, rfl⟩ := transferFrom_ok (toOption_eq_some.mp ended)
      cases waits
      rw [resume_transfer] at continued
      split at continued
      case isFalse => cases continued
      obtain ⟨⟨transfers, refund, log, paid, refunded⟩, balance⟩ := ih continued
      obtain ⟨ownership, rfl⟩ := same
      refine ⟨⟨⟨recipient, value.toNat, [], gas⟩ :: transfers, refund, ?_, ?_, refunded⟩, ?_⟩
      · rw [log]
        simp [BatcherPoint.emit]
      · simp [paid]
      · simp only [BatcherPoint.emit, total, map_cons, sum_cons] at balance ⊢
        omega

/-! ## The batch -/

/-- What is paid to somebody depends on targets and values only. -/
theorem paidTo_eq_owedTo {transfers : List BatcherCall} {owed : List (Address × Uint256)}
    (paid : (transfers.map fun call => (call.target, call.value)) =
      owed.map fun transfer => (transfer.1, transfer.2.toNat)) (recipient : Address) :
    paidTo recipient transfers = owedTo recipient owed := by
  induction transfers generalizing owed with
  | nil =>
    cases owed with
    | nil => rfl
    | cons => simp at paid
  | cons call transfers ih =>
    cases owed with
    | nil => simp at paid
    | cons transfer owed =>
      simp only [map_cons, List.cons.injEq, Prod.mk.injEq] at paid
      obtain ⟨⟨target, value⟩, rest⟩ := paid
      have tail := ih rest
      simp only [paidTo, owedTo, filter_cons, target] at tail ⊢
      split
      · simp only [map_cons, sum_cons, tail, value]
      · exact tail

/-- What a batch has checked when its loop begins. -/
theorem batchTransfer_ok {point : BatcherPoint Ownership} {recipients : Calldata Address}
    {values : Calldata Uint256} {outcome : BatcherOutcome Ownership}
    (begun : batchTransfer ownable point message recipients values = .ok outcome) :
    recipients.val.length = values.val.length ∧
      ∃ totalRequired, addRequired 0 values.val = .ok totalRequired ∧
        totalRequired ≤ message.value ∧
        transferFrom (point.credit message.value.toNat) message totalRequired
          (recipients.val.zip values.val) = .ok outcome := by
  simp only [batchTransfer, checkBatch, bind_eq_ok, ensure_eq_ok, exists_const] at begun
  obtain ⟨_, -, ⟨lengths, -, -⟩, totalRequired, added, enough, looped⟩ := begun
  exact ⟨lengths, totalRequired, added, enough, looped⟩

/-- A batch that succeeds conserves value. -/
theorem batchTransfer_pays {point after : BatcherPoint Ownership} {recipients : Calldata Address}
    {values : Calldata Uint256}
    (segments : (batcherMachine ownable).Segments SameFunds
      (batchTransfer ownable point message recipients values).toOption answer (some after)) :
    Conserved point after message recipients.val values.val := by
  have begun : ∃ outcome, batchTransfer ownable point message recipients values = .ok outcome := by
    obtain ⟨ended, -⟩ | ⟨_, _, _, _, _, ended, -⟩ := segments.succeeded
    · exact ⟨_, toOption_eq_some.mp ended⟩
    · exact ⟨_, toOption_eq_some.mp ended⟩
  obtain ⟨outcome, begun⟩ := begun
  obtain ⟨lengths, totalRequired, added, enough, looped⟩ := batchTransfer_ok begun
  rw [begun, ← looped] at segments
  obtain ⟨⟨transfers, refund, log, paid, refunded, excess⟩, balance⟩ := transferFrom_pays segments
  have sum : totalRequired.toNat = total values.val := by simpa using addRequired_ok added
  have covered : total values.val ≤ message.value.toNat := by
    rw [← sum]
    exact BitVec.le_def.mp enough
  rw [BitVec.toNat_sub_of_le enough, sum] at excess balance
  refine ⟨⟨transfers, refund, log, paidTo_eq_owedTo paid, ?_, refunded, excess⟩, covered, ?_⟩
  · intro call member
    have target := mem_map_of_mem (f := fun call => (call.target, call.value)) member
    rw [paid] at target
    obtain ⟨transfer, owed, same⟩ := mem_map.mp target
    have first : transfer.1 = call.target := congrArg Prod.fst same
    rw [← first]
    exact (of_mem_zip owed).1
  · rw [map_snd_zip lengths.ge] at balance
    simp only [BatcherPoint.credit] at balance
    omega

/-- Whatever its recipients do, a call of `batchTransfer` during which the owner makes no other
call pays what it says, refunds the rest and leaves the balance, or it changes nothing. -/
theorem batchTransfer_conserves (ownable : Ownable2Step Ownership)
    {start finish : Journal (BatcherPoint Ownership) BatcherPending} {message : Message}
    {recipients : Calldata Address} {values : Calldata Uint256} {answer : Option Reply}
    {success : Bool} (completes : (batcherMachine ownable).Completes (ByOthers ownable) start
      (.call message (.batchTransfer recipients values)) answer success finish) :
    finish.frames = start.frames ∧
      (success = true →
        Conserved start.current finish.current message recipients.val values.val) ∧
      (success = false → finish.current = start.current) := by
  obtain ⟨result, segments, outcome, rfl⟩ := completes.segments (others ownable)
  refine ⟨rfl, ?_, ?_⟩
  · rintro rfl
    obtain ⟨after, rfl⟩ := isSome_iff_exists.mp outcome.symm
    exact batchTransfer_pays segments
  · rintro rfl
    obtain rfl : result = none := by simpa using outcome.symm
    rfl

/-! ## A batch with a recipient that re-enters -/

instance (ownable : Ownable2Step Ownership) (point : BatcherPoint Ownership) :
    ∀ input, Decidable (ByOthers ownable point input)
  | .call message _ =>
    inferInstanceAs (Decidable (message.sender ≠ ownable.owner point.batcher.ownership))
  | .force _ => inferInstanceAs (Decidable False)

/-- The documented `Ownable2Step`: the owner, and who may accept the ownership. -/
def ownable2Step : Ownable2Step (Address × Address) where
  initial deployer := (deployer, zeroAddress)
  owner ownership := ownership.1
  change ownership sender
    | .transferOwnership newOwner =>
      if sender = ownership.1 then some (ownership.1, newOwner) else none
    | .acceptOwnership => if sender = ownership.2 then some (sender, zeroAddress) else none
    | .renounceOwnership =>
      if sender = ownership.1 then some (zeroAddress, zeroAddress) else none

/-- The batcher 5 of the owner 1, who has offered it to 7. -/
def sampleBatcher : BatcherPoint (Address × Address) :=
  ⟨⟨5, (1, 7), 30000, 255⟩, 20, [], []⟩

def sampleBatch : BatcherInput :=
  .call ⟨1, 10, 1, 0⟩ (.batchTransfer ⟨[7, 8, 7], by decide⟩ ⟨[1, 2, 3], by decide⟩)

/-- 7 tries to empty the batcher, and then accepts the ownership. -/
def sampleReentry : List (JournalAction BatcherInput Reply) :=
  [.call (.call ⟨7, 0, 1, 0⟩ (.recover 7)), .reply ⟨true, []⟩, .reply ⟨true, []⟩, .enter,
    .call (.call ⟨7, 0, 1, 0⟩ (.ownership .acceptOwnership)), .leave, .reply ⟨true, []⟩]

/-- 7 and 8 are paid all the same, 7 twice, and 4 of 10 are refunded. -/
theorem batchTransfer_conserves_sample :
    ∃ finish : Journal (BatcherPoint (Address × Address)) BatcherPending,
      finish.current.batcher.ownership = (7, 0) ∧
        Conserved sampleBatcher finish.current ⟨1, 10, 1, 0⟩ [7, 8, 7] [1, 2, 3] := by
  have replayed : ∃ finish : Journal (BatcherPoint (Address × Address)) BatcherPending,
      (batcherMachine ownable2Step).Completes (ByOthers ownable2Step) ⟨sampleBatcher, []⟩
        sampleBatch (some ⟨true, []⟩) true finish ∧
        decide (finish.current.batcher.ownership = (7, 0)) = true :=
    exists_completes_of_run sampleReentry ⟨true, []⟩ true
      (fun finish : Journal (BatcherPoint (Address × Address)) BatcherPending =>
        finish.current.batcher.ownership = (7, 0)) (by decide +kernel)
  obtain ⟨finish, completes, accepted⟩ := replayed
  refine ⟨finish, of_decide_eq_true accepted, ?_⟩
  exact (batchTransfer_conserves ownable2Step completes).2.1 rfl

end CryptoVaultHub.Contracts.Batcher

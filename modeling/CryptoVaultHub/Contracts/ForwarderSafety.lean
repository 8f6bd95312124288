import CryptoVaultHub.Contracts.Forwarder

/-!
# Safety of the forwarder

What never changes, to whom ether and tokens go, and what a receipt of ether leaves, over
every execution. The guard keeps other entries from running while ether is forwarded, so that
only forced ether can arrive meanwhile.
-/

namespace CryptoVaultHub.Contracts

open TransitionSystem

/-! ## The property -/

/-- A transfer of tokens that a call requests. -/
inductive TokenTransfer where
  | erc20 (recipient : Address) (amount : Uint256)
  | erc721 (safe : Bool) (source recipient : Address) (tokenId : Uint256)
  | erc1155 (source recipient : Address) (tokenId value : Uint256)
  | erc1155Batch (source recipient : Address) (ids values : List Uint256)

def TokenTransfer.input : TokenTransfer → List UInt8
  | .erc20 recipient amount => transferInput recipient amount
  | .erc721 safe source recipient tokenId => transferInput721 safe source recipient tokenId
  | .erc1155 source recipient tokenId value => transferInput1155 source recipient tokenId value
  | .erc1155Batch source recipient ids values => batchTransferInput1155 source recipient ids values

/-- Whose tokens are moved; `transfer` moves those of the caller. -/
def TokenTransfer.source (caller : Address) : TokenTransfer → Address
  | .erc20 .. => caller
  | .erc721 _ source _ _ | .erc1155 source _ _ _ | .erc1155Batch source _ _ _ => source

def TokenTransfer.recipient : TokenTransfer → Address
  | .erc20 recipient _ | .erc721 _ _ recipient _ | .erc1155 _ recipient _ _
  | .erc1155Batch _ recipient _ _ => recipient

/-- The call sends ether to the parent, or requests a transfer of the forwarder's own tokens to
the parent. -/
def Forwards (forwarder : Forwarder) (call : ForwarderCall) : Prop :=
  (call.target = forwarder.parentAddress ∧ call.input = []) ∨
    (call.value = 0 ∧ ∃ transfer : TokenTransfer, call.input = transfer.input ∧
      transfer.source forwarder.address = forwarder.address ∧
      transfer.recipient = forwarder.parentAddress)

/-- What a forwarder that `init` has left as `start` keeps, calls, and has left after a
receipt of ether during which none was forced in. -/
structure ForwarderSafe (start : Forwarder) (point : ForwarderPoint) : Prop where
  parentAddress : point.forwarder.parentAddress = start.parentAddress
  feeAddress : point.forwarder.feeAddress = start.feeAddress
  initialized : point.forwarder.initialized = true
  calls : ∀ record ∈ point.called,
    (record.fromParent = true ∧ record.message.sender = start.parentAddress) ∨
      Forwards start record.call
  receipts : ∀ receipt ∈ point.receipts, receipt.forced = 0 → receipt.left = 0

/-! ## The invariant -/

structure ForwarderSound (start : Forwarder) (point : ForwarderPoint) : Prop where
  address : point.forwarder.address = start.address
  parentAddress : point.forwarder.parentAddress = start.parentAddress
  feeAddress : point.forwarder.feeAddress = start.feeAddress
  initialized : point.forwarder.initialized = true
  calls : ∀ record ∈ point.called,
    (record.fromParent = true ∧ record.message.sender = start.parentAddress) ∨
      Forwards start record.call
  receipts : ∀ receipt ∈ point.receipts, receipt.left ≤ receipt.forced

/-- While the guard is set, no more arrives than what is forced in. -/
structure ForwarderPoint.Extends (first second : ForwarderPoint) : Prop where
  forced : first.forced ≤ second.forced
  guarded : first.forwarder.entered = true → second.forwarder.entered = true ∧
    second.balance + first.forced ≤ first.balance + second.forced

theorem ForwarderPoint.Extends.refl (point : ForwarderPoint) : point.Extends point :=
  ⟨Nat.le_refl _, fun entered => ⟨entered, Nat.le_refl _⟩⟩

theorem ForwarderPoint.Extends.trans {first second third : ForwarderPoint}
    (before : first.Extends second) (after : second.Extends third) : first.Extends third := by
  refine ⟨before.forced.trans after.forced, ?_⟩
  intro entered
  obtain ⟨still, early⟩ := before.guarded entered
  obtain ⟨last, late⟩ := after.guarded still
  refine ⟨last, ?_⟩
  omega

/-- The guard was set by the call that is waiting. -/
def Guards (entry made : ForwarderPoint) : Prop :=
  entry.forwarder.entered = false ∧ made.forwarder.entered = true

/-- What holds when a call was made; an initialized forwarder does not flush in `init`. -/
def ForwarderPending.Waits (entry made : ForwarderPoint) : ForwarderPending → Prop
  | .flush guarded receipt _ =>
    guarded = true ∧ Guards entry made ∧ made.balance = 0 ∧
      ∀ before ∈ receipt, before ≤ made.forced
  | .balanceOf20 .. | .transfer20 .. | .supportsInterface .. | .hookTransfer => Guards entry made
  | .transfer721 | .balanceOf1155 .. | .transfer1155 | .callFromParent => True

/-- What a segment of a call that began at `entry` leaves. -/
structure ForwarderPoint.Leads (start : Forwarder) (entry next : ForwarderPoint)
    (pending : Option ForwarderPending) : Prop where
  sound : ForwarderSound start next
  extended : entry.Extends next
  waits : ∀ waits ∈ pending, waits.Waits entry next

/-! ## Parts of segments -/

@[simp] theorem check_eq_ok {condition : Prop} [Decidable condition] {error : ForwarderRevert}
    {done : Unit} : check condition error = .ok done ↔ condition := by
  unfold check
  split <;> simp [*]

variable {start : Forwarder} {entry made current point next : ForwarderPoint}
  {pending : Option ForwarderPending}

/-- A change of the balance, the flags and the events. -/
theorem ForwarderSound.change (sound : ForwarderSound start point)
    (address : next.forwarder.address = point.forwarder.address)
    (parentAddress : next.forwarder.parentAddress = point.forwarder.parentAddress)
    (feeAddress : next.forwarder.feeAddress = point.forwarder.feeAddress)
    (initialized : next.forwarder.initialized = point.forwarder.initialized)
    (called : next.called = point.called) (receipts : next.receipts = point.receipts) :
    ForwarderSound start next where
  address := address.trans sound.address
  parentAddress := parentAddress.trans sound.parentAddress
  feeAddress := feeAddress.trans sound.feeAddress
  initialized := initialized.trans sound.initialized
  calls := by
    rw [called]
    exact sound.calls
  receipts := by
    rw [receipts]
    exact sound.receipts

theorem ForwarderSound.setEntered (sound : ForwarderSound start point) (entered : Bool) :
    ForwarderSound start (point.setEntered entered) :=
  sound.change rfl rfl rfl rfl rfl rfl

theorem ForwarderSound.emit (sound : ForwarderSound start point) (event : ForwarderEvent) :
    ForwarderSound start (point.emit event) :=
  sound.change rfl rfl rfl rfl rfl rfl

theorem ForwarderSound.callOut {record : ForwarderRecord} (sound : ForwarderSound start point)
    (permitted : (record.fromParent = true ∧ record.message.sender = start.parentAddress) ∨
      Forwards start record.call) : ForwarderSound start (point.callOut record) where
  address := sound.address
  parentAddress := sound.parentAddress
  feeAddress := sound.feeAddress
  initialized := sound.initialized
  calls := by
    intro other member
    rcases List.mem_cons.mp member with rfl | before
    · exact permitted
    · exact sound.calls other before
  receipts := sound.receipts

/-- A transfer of the forwarder's own tokens to its parent. -/
theorem ForwarderSound.forwards_transfer (sound : ForwarderSound start point)
    {token : Address} (transfer : TokenTransfer)
    (source : transfer.source point.forwarder.address = point.forwarder.address)
    (recipient : transfer.recipient = point.forwarder.parentAddress) :
    Forwards start ⟨token, 0, transfer.input⟩ := by
  rw [sound.address] at source
  rw [sound.parentAddress] at recipient
  exact .inr ⟨rfl, transfer, rfl, source, recipient⟩

/-- The end of a flush with the receipt that it leaves. -/
theorem ForwarderSound.finishFlush {receipt : Option Nat} (sound : ForwarderSound start point)
    (least : ∀ before ∈ receipt, point.balance ≤ point.forced - before) :
    ForwarderSound start (Contracts.finishFlush point true receipt).1 := by
  cases receipt with
  | none => exact sound.setEntered false
  | some before =>
    have left := sound.setEntered false
    refine ⟨left.address, left.parentAddress, left.feeAddress, left.initialized, left.calls, ?_⟩
    intro other member
    rcases List.mem_cons.mp member with rfl | earlier
    · exact least before rfl
    · exact left.receipts other earlier

theorem finishFlush_forwarder (point : ForwarderPoint) (receipt : Option Nat) :
    (finishFlush point true receipt).1.forced = point.forced ∧
      (finishFlush point true receipt).2 = none := by
  cases receipt with
  | none => exact ⟨rfl, rfl⟩
  | some before => exact ⟨rfl, rfl⟩

/-- A call that is not guarded at its entry can leave the guard in any state. -/
theorem ForwarderPoint.Extends.of_free (free : entry.forwarder.entered = false)
    (forced : entry.forced ≤ next.forced) : entry.Extends next := by
  refine ⟨forced, ?_⟩
  intro entered
  rw [free] at entered
  cases entered

/-- A flush that the guard protects. -/
theorem leads_flushEther {message : Message} {receipt : Option Nat}
    (sound : ForwarderSound start point) (guards : Guards entry point)
    (forced : entry.forced ≤ point.forced) (before : ∀ before ∈ receipt, before ≤ point.forced)
    (flushed : flushEther point message true receipt = (next, pending)) :
    entry.Leads start next pending := by
  unfold flushEther at flushed
  split at flushed
  · rename_i empty
    have ends := finishFlush_forwarder point receipt
    rw [flushed] at ends
    obtain ⟨same, rfl⟩ := ends
    have left : next = (finishFlush point true receipt).1 := by rw [flushed]
    refine ⟨?_, .of_free guards.1 (same ▸ forced), by simp⟩
    rw [left]
    refine sound.finishFlush fun earlier _ => ?_
    omega
  · cases flushed
    refine ⟨sound.callOut (.inr (.inl ⟨sound.parentAddress, rfl⟩)), .of_free guards.1 forced, ?_⟩
    rintro waits ⟨⟩
    exact ⟨rfl, ⟨guards.1, guards.2⟩, Nat.sub_self _, before⟩

/-- The loop over tokens, under the guard. -/
theorem leads_flushTokensFrom {message : Message} {tokens : List Address}
    (sound : ForwarderSound start point) (guards : Guards entry point)
    (forced : entry.forced ≤ point.forced)
    (flushed : flushTokensFrom point message tokens = (next, pending)) :
    entry.Leads start next pending := by
  cases tokens with
  | nil =>
    cases flushed
    exact ⟨sound.setEntered false, .of_free guards.1 forced, by simp⟩
  | cons token rest =>
    cases flushed
    refine ⟨sound, .of_free guards.1 forced, ?_⟩
    rintro waits ⟨⟩
    exact guards

theorem enterOnce_ok {entered : ForwarderPoint} (passed : enterOnce point = .ok entered) :
    point.forwarder.entered = false ∧ entered = point.setEntered true := by
  simp only [enterOnce, bind_eq_ok, check_eq_ok, pure_eq_ok, exists_const] at passed
  exact ⟨passed.1, passed.2.symm⟩

theorem enterHook_ok {message : Message} {entered : ForwarderPoint}
    (passed : enterHook point message = .ok entered) :
    point.forwarder.entered = false ∧ entered = point.setEntered true := by
  simp only [enterHook, bind_eq_ok, check_eq_ok, exists_const] at passed
  exact enterOnce_ok passed.2

/-! ## Entry points -/

/-- A change that leaves the guard, the balance and the record. -/
theorem leads_change (sound : ForwarderSound start next)
    (entered : next.forwarder.entered = entry.forwarder.entered)
    (balance : next.balance = entry.balance) (forced : next.forced = entry.forced) :
    entry.Leads start next none := by
  refine ⟨sound, ⟨forced.ge, ?_⟩, by simp⟩
  intro guarded
  exact ⟨entered.trans guarded, by rw [balance, forced]⟩

/-- A call that the guard does not protect. -/
theorem extends_callOut (point : ForwarderPoint) (record : ForwarderRecord) :
    point.Extends (point.callOut record) := by
  refine ⟨Nat.le_refl _, fun entered => ⟨entered, ?_⟩⟩
  exact Nat.add_le_add_right (Nat.sub_le ..) _

theorem leads_receive {message : Message} (sound : ForwarderSound start entry)
    (received : receiveEther entry message = .ok (next, pending)) :
    entry.Leads start next pending := by
  simp only [receiveEther, bind_eq_ok, pure_eq_ok] at received
  obtain ⟨entered, passed, flushed⟩ := received
  obtain ⟨free, rfl⟩ := enterOnce_ok passed
  have credited : ForwarderSound start (entry.credit message.value.toNat) :=
    sound.change rfl rfl rfl rfl rfl rfl
  refine leads_flushEther (credited.setEntered true) ⟨free, rfl⟩ (Nat.le_refl _) ?_ flushed
  rintro before ⟨⟩
  exact Nat.le_refl _

theorem leads_hook {message : Message} {entered : ForwarderPoint} {auto : Bool}
    {called : ForwarderPoint} {waiting : ForwarderPending}
    (sound : ForwarderSound start entry) (passed : enterHook entry message = .ok entered)
    (made : ForwarderSound start called) (guarded : called.forwarder = entered.forwarder)
    (forced : called.forced = entered.forced)
    (waits : ∀ {point : ForwarderPoint}, Guards entry point → waiting.Waits entry point)
    (continues : (if auto = true then (pure (called, some waiting) : Segment)
      else pure (entered.setEntered false, none)) = .ok (next, pending)) :
    entry.Leads start next pending := by
  obtain ⟨free, rfl⟩ := enterHook_ok passed
  split at continues
  · cases continues
    refine ⟨made, .of_free free forced.ge, ?_⟩
    rintro other ⟨⟩
    exact waits ⟨free, by rw [guarded]; rfl⟩
  · cases continues
    exact ⟨(sound.setEntered true).setEntered false, .of_free free (Nat.le_refl _), by simp⟩

theorem leads_dispatch {input : ForwarderInput} (sound : ForwarderSound start entry)
    (dispatched : dispatchForwarder entry input = .ok (next, pending)) :
    entry.Leads start next pending := by
  cases input with
  | force amount =>
    simp only [dispatchForwarder, pure_eq_ok] at dispatched
    cases dispatched
    refine ⟨sound.change rfl rfl rfl rfl rfl rfl, ⟨Nat.le_add_right .., ?_⟩, by simp⟩
    intro entered
    refine ⟨entered, ?_⟩
    simp only [ForwarderPoint.credit]
    omega
  | call message forwarderEntry =>
    cases forwarderEntry with
    | init parentAddress feeAddress autoFlush721 autoFlush1155 =>
      simp only [dispatchForwarder, initForwarder, Forwarder.init, bind_eq_ok, check_eq_ok]
        at dispatched
      obtain ⟨_, ⟨_, _, _, fresh, _⟩, _⟩ := dispatched
      rw [sound.initialized] at fresh
      cases fresh
    | flush =>
      simp only [dispatchForwarder, flush, bind_eq_ok, pure_eq_ok] at dispatched
      obtain ⟨_, _, entered, passed, flushed⟩ := dispatched
      obtain ⟨free, rfl⟩ := enterOnce_ok passed
      exact leads_flushEther (sound.setEntered true) ⟨free, rfl⟩ (Nat.le_refl _) (by simp)
        flushed
    | flushTokens token =>
      simp only [dispatchForwarder, flushTokens, bind_eq_ok, pure_eq_ok] at dispatched
      obtain ⟨_, _, entered, passed, flushed⟩ := dispatched
      obtain ⟨free, rfl⟩ := enterOnce_ok passed
      exact leads_flushTokensFrom (sound.setEntered true) ⟨free, rfl⟩ (Nat.le_refl _) flushed
    | batchFlushERC20Tokens tokens =>
      simp only [dispatchForwarder, batchFlushERC20Tokens, bind_eq_ok, pure_eq_ok]
        at dispatched
      obtain ⟨_, _, entered, passed, _, _, flushed⟩ := dispatched
      obtain ⟨free, rfl⟩ := enterOnce_ok passed
      exact leads_flushTokensFrom (sound.setEntered true) ⟨free, rfl⟩ (Nat.le_refl _) flushed
    | flushERC721Token token tokenId =>
      simp only [dispatchForwarder, flushERC721Token, bind_eq_ok, pure_eq_ok] at dispatched
      obtain ⟨_, _, called⟩ := dispatched
      cases called
      refine ⟨sound.callOut (.inr ?_), extends_callOut .., ?_⟩
      · exact sound.forwards_transfer (.erc721 true _ _ tokenId) rfl rfl
      · rintro waits ⟨⟩
        trivial
    | flushERC1155Tokens token tokenId =>
      simp only [dispatchForwarder, flushERC1155Tokens, bind_eq_ok, pure_eq_ok] at dispatched
      obtain ⟨_, _, asked⟩ := dispatched
      cases asked
      refine ⟨sound, .refl _, ?_⟩
      rintro waits ⟨⟩
      trivial
    | setAutoFlush721 enabled =>
      simp only [dispatchForwarder, setAutoFlush721, bind_eq_ok, pure_eq_ok] at dispatched
      obtain ⟨_, _, changed⟩ := dispatched
      cases changed
      exact leads_change (sound.change rfl rfl rfl rfl rfl rfl) rfl rfl rfl
    | setAutoFlush1155 enabled =>
      simp only [dispatchForwarder, setAutoFlush1155, bind_eq_ok, pure_eq_ok] at dispatched
      obtain ⟨_, _, changed⟩ := dispatched
      cases changed
      exact leads_change (sound.change rfl rfl rfl rfl rfl rfl) rfl rfl rfl
    | callFromParent target value data =>
      simp only [dispatchForwarder, callFromParent, bind_eq_ok, check_eq_ok, pure_eq_ok,
        exists_const] at dispatched
      obtain ⟨_, sender, _, called⟩ := dispatched
      cases called
      refine ⟨sound.callOut (.inl ⟨rfl, sender.trans sound.parentAddress⟩),
        extends_callOut .., ?_⟩
      rintro waits ⟨⟩
      trivial
    | onERC721Received tokenId =>
      simp only [dispatchForwarder, onERC721Received, bind_eq_ok] at dispatched
      obtain ⟨entered, passed, continues⟩ := dispatched
      obtain ⟨_, rfl⟩ := enterHook_ok passed
      exact leads_hook sound passed (sound.setEntered true) rfl rfl id continues
    | onERC1155Received tokenId value =>
      simp only [dispatchForwarder, onERC1155Received, bind_eq_ok] at dispatched
      obtain ⟨entered, passed, continues⟩ := dispatched
      obtain ⟨_, rfl⟩ := enterHook_ok passed
      refine leads_hook sound passed ((sound.setEntered true).callOut (.inr ?_)) rfl rfl id
        continues
      exact sound.forwards_transfer (.erc1155 _ _ tokenId value) rfl rfl
    | onERC1155BatchReceived ids values =>
      simp only [dispatchForwarder, onERC1155BatchReceived, bind_eq_ok] at dispatched
      obtain ⟨entered, passed, continues⟩ := dispatched
      obtain ⟨_, rfl⟩ := enterHook_ok passed
      refine leads_hook sound passed ((sound.setEntered true).callOut (.inr ?_)) rfl rfl id
        continues
      exact sound.forwards_transfer (.erc1155Batch _ _ ids.val values.val) rfl rfl
    | receive | fallback => exact leads_receive sound dispatched
    | query =>
      simp only [dispatchForwarder, bind_eq_ok, pure_eq_ok] at dispatched
      obtain ⟨_, _, same⟩ := dispatched
      cases same
      exact leads_change sound rfl rfl rfl

/-! ## Replies -/

/-- What a waiting call has set the guard for is still guarded. -/
theorem Guards.later (guards : Guards entry made) (after : made.Extends current) :
    Guards entry current :=
  ⟨guards.1, (after.guarded guards.2).1⟩

theorem leads_resume {waits : ForwarderPending} {reply : Reply}
    (sound : ForwarderSound start current) (before : entry.Extends made)
    (after : made.Extends current) (waiting : waits.Waits entry made)
    (resumed : resumeForwarder current waits reply = .ok (next, pending)) :
    entry.Leads start next pending := by
  have extended : entry.Extends current := before.trans after
  cases waits with
  | flush guarded receipt value =>
    obtain ⟨rfl, guards, empty, earlier⟩ := waiting
    simp only [resumeForwarder, bind_eq_ok, check_eq_ok, exists_const, pure_eq_ok] at resumed
    obtain ⟨_, finished⟩ := resumed
    have ends := finishFlush_forwarder
      (current.emit (.forwarderDeposited current.forwarder.address value)) receipt
    rw [finished] at ends
    obtain ⟨same, rfl⟩ := ends
    have left : next = (finishFlush
        (current.emit (.forwarderDeposited current.forwarder.address value)) true
          receipt).1 := by rw [finished]
    -- Nothing but forced ether has arrived since the balance was sent.
    obtain ⟨_, arrived⟩ := after.guarded guards.2
    refine ⟨?_, .of_free guards.1 (extended.forced.trans same.ge), by simp⟩
    rw [left]
    refine (sound.emit _).finishFlush ?_
    intro began member
    have least := earlier began member
    simp only [ForwarderPoint.emit]
    omega
  | balanceOf20 message token rest =>
    simp only [resumeForwarder, bind_eq_ok] at resumed
    obtain ⟨_, _, balance, _, continues⟩ := resumed
    split at continues
    · cases continues
      refine ⟨sound.callOut (.inr ?_), .of_free waiting.1 extended.forced, ?_⟩
      · exact sound.forwards_transfer (.erc20 _ (BitVec.ofNat 256 balance)) rfl rfl
      · rintro other ⟨⟩
        exact waiting.later (after.trans (extends_callOut ..))
    · exact leads_flushTokensFrom sound (waiting.later after) extended.forced
        (pure_eq_ok.mp continues)
  | transfer20 message rest =>
    simp only [resumeForwarder, bind_eq_ok, pure_eq_ok] at resumed
    obtain ⟨_, _, flushed⟩ := resumed
    exact leads_flushTokensFrom sound (waiting.later after) extended.forced flushed
  | transfer721 | transfer1155 =>
    simp only [resumeForwarder, bind_eq_ok, pure_eq_ok] at resumed
    obtain ⟨_, _, done⟩ := resumed
    cases done
    exact ⟨sound, extended, by simp⟩
  | balanceOf1155 message token tokenId =>
    simp only [resumeForwarder, bind_eq_ok] at resumed
    obtain ⟨_, _, balance, _, continues⟩ := resumed
    split at continues
    · cases continues
      refine ⟨sound.callOut (.inr ?_), extended.trans (extends_callOut ..), ?_⟩
      · exact sound.forwards_transfer (.erc1155 _ _ tokenId (BitVec.ofNat 256 balance)) rfl rfl
      · rintro other ⟨⟩
        trivial
    · cases continues
      exact ⟨sound, extended, by simp⟩
  | callFromParent =>
    simp only [resumeForwarder, bind_eq_ok, pure_eq_ok] at resumed
    obtain ⟨_, _, done⟩ := resumed
    cases done
    exact ⟨sound, extended, by simp⟩
  | supportsInterface message tokenId =>
    simp only [resumeForwarder, bind_eq_ok, pure_eq_ok] at resumed
    obtain ⟨supported, _, called⟩ := resumed
    cases called
    refine ⟨sound.callOut (.inr ?_), .of_free waiting.1 extended.forced, ?_⟩
    · exact sound.forwards_transfer (.erc721 supported _ _ tokenId) rfl rfl
    · rintro other ⟨⟩
      exact waiting.later (after.trans (extends_callOut ..))
  | hookTransfer =>
    simp only [resumeForwarder, bind_eq_ok, pure_eq_ok] at resumed
    obtain ⟨_, _, done⟩ := resumed
    cases done
    exact ⟨sound.setEntered false, .of_free waiting.1 extended.forced, by simp⟩

/-! ## Every execution -/

/-- The obligations of the forwarder's segments. -/
def forwarderRules (start : Forwarder) : RelyGuarantee forwarderMachine where
  Good := ForwarderSound start
  Extends := ForwarderPoint.Extends
  Waits entry made pending := pending.Waits entry made
  refl := .refl
  trans := .trans
  dispatched := by
    intro entry call next pending good dispatched
    have leads := leads_dispatch good (toOption_eq_some.mp dispatched)
    exact ⟨leads.sound, leads.extended, leads.waits⟩
  resumed := by
    intro entry made current waits reply next pending good before after waiting resumed
    have leads := leads_resume good before after waiting (toOption_eq_some.mp resumed)
    exact ⟨leads.sound, leads.extended, leads.waits⟩

/-- `init` sets the parent, the fee address and the flag. -/
theorem ForwarderSound.initial {point : ForwarderPoint}
    (initial : forwarderMachine.Initial point) : ForwarderSound point.forwarder point := by
  obtain ⟨address, message, parentAddress, feeAddress, autoFlush721, autoFlush1155, forwarder,
    later721, later1155, balance, made, rfl⟩ := initial
  simp only [Forwarder.init, bind_eq_ok, check_eq_ok, exists_const, pure_eq_ok] at made
  obtain ⟨_, _, _, _, rfl⟩ := made
  exact ⟨rfl, rfl, rfl, rfl, by simp [ForwarderPoint.start], by simp [ForwarderPoint.start]⟩

/-- Every execution of a forwarder after `init` is safe. -/
theorem forwarder_safe {start journal : Journal ForwarderPoint ForwarderPending}
    (valid : forwarderMachine.system.Initial start)
    (steps : forwarderMachine.system.Steps Unrestricted start journal) :
    ForwarderSafe start.current.forwarder journal.current := by
  obtain ⟨initial, idle⟩ := valid
  have sound := ((forwarderRules start.current.forwarder).steps (.initial initial) idle steps).1
  refine ⟨sound.parentAddress, sound.feeAddress, sound.initialized, sound.calls, ?_⟩
  intro receipt member none
  have least := sound.receipts receipt member
  omega

/-! ## A receipt of ether -/

/-- The forwarder 5 with the parent 7 and the fee address 8. -/
def sampleForwarder : Forwarder := ⟨5, true, 7, 8, true, true, false⟩

def sampleForwarding : Journal ForwarderPoint ForwarderPending :=
  ⟨.start sampleForwarder 0, []⟩

/-- A message with some ether. -/
def etherMessage (value : Uint256) : Message := ⟨9, value, 1, 0⟩

theorem sampleForwarding_initial : forwarderMachine.system.Initial sampleForwarding :=
  ⟨⟨5, etherMessage 0, 7, 8, true, true, sampleForwarder, true, true, 0, by decide, rfl⟩, rfl⟩

/-- Three units arrive and go on to the parent, while two more are forced in. -/
theorem forwarder_safe_sample :
    ∃ journal : Journal ForwarderPoint ForwarderPending,
      journal.current.receipts = [⟨0, 0⟩, ⟨2, 2⟩] ∧
        ForwarderSafe sampleForwarder journal.current := by
  have replayed : ∃ journal : Journal ForwarderPoint ForwarderPending,
      forwarderMachine.system.Steps Unrestricted sampleForwarding journal ∧
        decide (journal.current.receipts = [⟨0, 0⟩, ⟨2, 2⟩]) = true :=
    exists_steps_of_run
      [.call (.call (etherMessage 3) .receive), .call (.force 2), .reply ⟨true, []⟩,
        .call (.call (etherMessage 4) .receive), .reply ⟨true, []⟩]
      (fun journal : Journal ForwarderPoint ForwarderPending =>
        journal.current.receipts = [⟨0, 0⟩, ⟨2, 2⟩]) (by decide +kernel)
  obtain ⟨journal, steps, passed⟩ := replayed
  exact ⟨journal, of_decide_eq_true passed, forwarder_safe sampleForwarding_initial steps⟩

end CryptoVaultHub.Contracts

import CryptoVaultHub.Contracts.WalletSimple

/-!
# The invariant of a multisig wallet

`dispatch_cases` and `resume_cases` say once what a segment of the wallet can
do. The obligations of `walletRules` are checked against them: the replay
window, the reentrancy lock, the signer set and safe mode hold jointly at every
point of every execution.
-/

namespace CryptoVaultHub.Contracts

open List Option

/-! ## What an operation permits -/

/-- The external calls of an operation, in order. -/
def Operation.calls : Operation → List ExternalCall
  | .native _ _ toAddress value data _ _ => [nativeCall toAddress value data.val]
  | .token _ _ toAddress value tokenContractAddress _ _ =>
    [transferCall tokenContractAddress toAddress value]
  | .batch _ _ recipients values _ _ => (recipients.val.zip values.val).map batchCall

/-- Those who receive the ether or the tokens of an operation. -/
def Operation.recipients : Operation → List Address
  | .native _ _ toAddress .. | .token _ _ toAddress .. => [toAddress]
  | .batch _ _ recipients .. => recipients.val

/-- The wallet an operation names. -/
def Operation.wallet : Operation → Address
  | .native _ wallet .. | .token _ wallet .. | .batch _ wallet .. => wallet

/-- The calls made on one authorization, newest first. -/
def callsUnder (authorization : Authorization) (called : List CallRecord) : List ExternalCall :=
  (called.filter fun record => record.authority = .multisig authorization).map CallRecord.call

variable {authorization : Authorization} {record : CallRecord} {called : List CallRecord}

theorem callsUnder_cons_self (same : record.authority = .multisig authorization) :
    callsUnder authorization (record :: called) =
      record.call :: callsUnder authorization called := by
  simp [callsUnder, same]

theorem callsUnder_cons_of_ne (different : record.authority ≠ .multisig authorization) :
    callsUnder authorization (record :: called) = callsUnder authorization called := by
  simp [callsUnder, different]

/-- No call was made on an authorization that no record names. -/
theorem callsUnder_eq_nil (absent : ∀ record ∈ called, record.authority ≠ .multisig authorization) :
    callsUnder authorization called = [] := by
  simpa [callsUnder] using absent

/-- The grant a pending call runs on, unless it is a flush. -/
def Pending.grant? : Pending → Option Grant
  | .native grant .. | .token grant .. | .batch grant .. => some grant
  | .flush => none

/-- The external calls a pending call still makes. -/
def Pending.remaining : Pending → List ExternalCall
  | .batch _ _ _ rest => rest.map batchCall
  | .native .. | .token .. | .flush => []

/-! ## What a segment can do -/

/-- A verification that succeeded, and the point it left. -/
structure Authorized (evm : Evm) (before : Point) (message : Message)
    (authorization : Authorization) (after : Point) : Prop where
  unexpired : message.timestamp ≤ authorization.operation.expireTime
  recovered : recoverSigner evm (authorization.operation.hash evm.keccak256)
    authorization.signature = .ok authorization.otherSigner
  signer : before.wallet.isSigner authorization.otherSigner = true
  different : authorization.otherSigner ≠ message.sender
  inserted : ∃ window, before.wallet.recentSequenceIds.tryInsertSequenceId
      authorization.operation.sequenceId = .ok window ∧
    after = { before with
      wallet := { before.wallet with recentSequenceIds := window }
      accepted := authorization.operation.sequenceId :: before.accepted
      verified := (message, authorization) :: before.verified }

variable {evm : Evm} {message : Message} {signature : List UInt8}

theorem authorize_ok {before after : Point} {operation : Operation}
    (verified : authorize evm before message operation signature = .ok (after, authorization)) :
    Authorized evm before message authorization after ∧
      authorization.operation = operation := by
  simp only [authorize, verifyMultiSig, bind_eq_ok, require_eq_ok, pure_eq_ok, Prod.exists,
    Prod.mk.injEq, exists_const] at verified
  obtain ⟨middle, otherSigner, ⟨unexpired, inserted, insertion, recovered, recovery, signer,
    different, rfl, rfl⟩, rfl, rfl⟩ := verified
  unfold Point.tryInsertSequenceId at insertion
  split at insertion
  · cases insertion
  · rename_i window accepted
    cases insertion
    exact ⟨⟨unexpired, recovery, signer, different, window, accepted, rfl⟩, rfl⟩

/-- Everything a call can do up to its first external call. -/
inductive Dispatched (evm : Evm) (point : Point) : Point → Option Pending → Prop where
  | idle : Dispatched evm point point none
  | deposited (sender : Address) (value : Uint256) (data : List UInt8) :
      Dispatched evm point (point.emit (.deposited sender value data)) none
  | safeMode (message : Message) (signer : point.wallet.isSigner message.sender = true) :
      Dispatched evm point (point.enableSafeMode.emit (.safeModeActivated message.sender)) none
  | flush (message : Message) (signer : point.wallet.isSigner message.sender = true)
      (forwarderAddress tokenContractAddress : Address) :
      Dispatched evm point (point.callOut ⟨message, point.wallet.safeMode, .flush,
        flushCall forwarderAddress tokenContractAddress⟩) (some .flush)
  | granted (grant : Grant) (call : ExternalCall) (pending : Pending) (after : Point)
      (signer : point.wallet.isSigner grant.message.sender = true)
      (unlocked : point.wallet.entered = false)
      (authorized : Authorized evm (point.setEntered true) grant.message grant.authorization after)
      (chain : grant.authorization.operation.chainid = grant.message.chainid)
      (wallet : grant.authorization.operation.wallet = point.wallet.address)
      (started : grant.startedInSafeMode = point.wallet.safeMode)
      (restricted : point.wallet.safeMode = true →
        ∀ recipient ∈ grant.authorization.operation.recipients,
          point.wallet.isSigner recipient = true)
      (own : pending.grant? = some grant)
      (calls : grant.authorization.operation.calls = call :: pending.remaining) :
      Dispatched evm point (after.callOut (grant.record call)) (some pending)

theorem enterGuarded_ok {point after : Point} (entered : enterGuarded point message = .ok after) :
    point.wallet.isSigner message.sender = true ∧ point.wallet.entered = false ∧
      after = point.setEntered true := by
  simp only [enterGuarded, bind_eq_ok, require_eq_ok, pure_eq_ok, exists_const] at entered
  obtain ⟨-, signer, unlocked, rfl⟩ := entered
  exact ⟨signer, unlocked, rfl⟩

/-- Verification leaves the signers and safe mode alone. -/
theorem Authorized.wallet_eq {before after : Point}
    (authorized : Authorized evm before message authorization after) :
    after.wallet.safeMode = before.wallet.safeMode ∧
      after.wallet.isSigner = before.wallet.isSigner := by
  obtain ⟨window, -, rfl⟩ := authorized.inserted
  exact ⟨rfl, rfl⟩

/-- The three functions begin alike: they enter, verify their operation and make
its first call. -/
theorem Dispatched.of_authorize {point locked after : Point} {operation : Operation}
    {call : ExternalCall} {pending : Pending} (entered : enterGuarded point message = .ok locked)
    (authorizes : authorize evm locked message operation signature = .ok (after, authorization))
    (chain : operation.chainid = message.chainid) (wallet : operation.wallet = point.wallet.address)
    (restricted : after.wallet.safeMode = true → ∀ recipient ∈ operation.recipients,
      after.wallet.isSigner recipient = true)
    (own : pending.grant? = some ⟨message, point.wallet.safeMode, authorization⟩)
    (calls : operation.calls = call :: pending.remaining) :
    Dispatched evm point
      (after.callOut (Grant.record ⟨message, point.wallet.safeMode, authorization⟩ call))
      (some pending) := by
  obtain ⟨signer, unlocked, rfl⟩ := enterGuarded_ok entered
  obtain ⟨authorized, rfl⟩ := authorize_ok authorizes
  obtain ⟨safeMode, isSigner⟩ := authorized.wallet_eq
  rw [safeMode, isSigner] at restricted
  exact .granted _ call pending after signer unlocked authorized chain wallet rfl restricted own
    calls

variable {point next : Point} {pending : Option Pending}

theorem sendMultiSig_cases {toAddress : Address} {value expireTime sequenceId : Uint256}
    {data : Calldata UInt8}
    (sent : sendMultiSig evm point message toAddress value data expireTime sequenceId signature =
      .ok (next, pending)) : Dispatched evm point next pending := by
  simp only [sendMultiSig, bind_eq_ok, require_eq_ok, pure_eq_ok, Prod.exists, Prod.mk.injEq,
    exists_const] at sent
  obtain ⟨locked, entered, -, after, authorization, authorizes, restricted, rfl, rfl⟩ := sent
  refine .of_authorize entered authorizes rfl rfl ?_ rfl rfl
  simpa [Operation.recipients] using restricted

theorem sendMultiSigToken_cases {toAddress tokenContractAddress : Address}
    {value expireTime sequenceId : Uint256}
    (sent : sendMultiSigToken evm point message toAddress value tokenContractAddress expireTime
      sequenceId signature = .ok (next, pending)) : Dispatched evm point next pending := by
  simp only [sendMultiSigToken, bind_eq_ok, require_eq_ok, pure_eq_ok, Prod.exists, Prod.mk.injEq,
    exists_const] at sent
  obtain ⟨locked, entered, -, after, authorization, authorizes, restricted, rfl, rfl⟩ := sent
  refine .of_authorize entered authorizes rfl rfl ?_ rfl rfl
  simpa [Operation.recipients] using restricted

theorem sendMultiSigBatch_cases {recipients : Calldata Address} {values : Calldata Uint256}
    {expireTime sequenceId : Uint256}
    (sent : sendMultiSigBatch evm point message recipients values expireTime sequenceId signature =
      .ok (next, pending)) : Dispatched evm point next pending := by
  simp only [sendMultiSigBatch, bind_eq_ok, require_eq_ok, pure_eq_ok, Prod.exists,
    exists_const] at sent
  obtain ⟨locked, entered, unrestricted, equalLengths, nonempty, -, after, authorization,
    authorizes, looped⟩ := sent
  have safeMode : after.wallet.safeMode = false := by
    rw [(authorize_ok authorizes).1.wallet_eq.1, unrestricted]
  -- The loop has a first recipient, since the arrays are equally long and not empty.
  cases transfers : recipients.val.zip values.val with
  | nil =>
    rw [zip_eq_nil_iff] at transfers
    obtain empty | empty := transfers
    · exact absurd (by simp [empty]) nonempty
    · exact absurd (by simp [equalLengths, empty]) nonempty
  | cons transfer rest =>
    rw [transfers] at looped
    cases looped
    refine .of_authorize entered authorizes rfl rfl ?_ rfl ?_
    · intro safe
      exact absurd (safeMode.symm.trans safe) (by decide)
    · simp [Operation.calls, transfers, Pending.remaining]

/-- A wallet has no other way to begin a call, unless the call initializes it. -/
theorem dispatch_cases_or_init {call : Message × Entry}
    (dispatched : dispatch evm point call = .ok (next, pending)) :
    Dispatched evm point next pending ∨ (point.wallet.initialized = false ∧ pending = none ∧
      ∃ wallet, next = { point with wallet := wallet }) := by
  obtain ⟨message, entry⟩ := call
  cases entry with
  | init allowedSigners =>
    simp only [dispatch, Wallet.init, bind_eq_ok, require_eq_ok, pure_eq_ok, Prod.mk.injEq,
      exists_const] at dispatched
    obtain ⟨wallet, ⟨-, fresh, -⟩, rfl, rfl⟩ := dispatched
    exact .inr ⟨fresh, rfl, wallet, rfl⟩
  | sendMultiSig => exact .inl (sendMultiSig_cases dispatched)
  | sendMultiSigToken => exact .inl (sendMultiSigToken_cases dispatched)
  | sendMultiSigBatch => exact .inl (sendMultiSigBatch_cases dispatched)
  | flushForwarderTokens =>
    simp only [dispatch, flushForwarderTokens, bind_eq_ok, require_eq_ok, pure_eq_ok,
      Prod.mk.injEq, exists_const] at dispatched
    obtain ⟨-, signer, rfl, rfl⟩ := dispatched
    exact .inl (.flush message signer _ _)
  | activateSafeMode =>
    simp only [dispatch, activateSafeMode, bind_eq_ok, require_eq_ok, pure_eq_ok,
      Prod.mk.injEq, exists_const] at dispatched
    obtain ⟨-, signer, rfl, rfl⟩ := dispatched
    exact .inl (.safeMode message signer)
  | receive =>
    simp only [dispatch, pure_eq_ok, deposit] at dispatched
    split at dispatched <;> cases dispatched
    · exact .inl .idle
    · exact .inl (.deposited _ _ _)
  | fallback data =>
    simp only [dispatch, pure_eq_ok, deposit] at dispatched
    split at dispatched <;> cases dispatched
    · exact .inl .idle
    · exact .inl (.deposited _ _ _)
  | query =>
    simp only [dispatch, bind_eq_ok, require_eq_ok, pure_eq_ok, Prod.mk.injEq,
      exists_const] at dispatched
    obtain ⟨-, rfl, rfl⟩ := dispatched
    exact .inl .idle

/-- An initialized wallet has no other way to begin a call. -/
theorem dispatch_cases {call : Message × Entry} (initialized : point.wallet.initialized = true)
    (dispatched : dispatch evm point call = .ok (next, pending)) :
    Dispatched evm point next pending := by
  obtain begun | ⟨fresh, -⟩ := dispatch_cases_or_init dispatched
  · exact begun
  · rw [initialized] at fresh
    cases fresh

/-- An event other than the activation of safe mode. -/
def Event.IsTransfer : Event → Prop
  | .safeModeActivated _ => False
  | _ => True

/-- Everything a call can do from a reply to its next external call. -/
inductive Resumed (point : Point) (pending : Pending) : Point → Option Pending → Prop where
  | flushed (free : pending.grant? = none) : Resumed point pending point none
  | finished (grant : Grant) (events : List Event) (own : pending.grant? = some grant)
      (transfers : ∀ event ∈ events, event.IsTransfer) (last : pending.remaining = []) :
      Resumed point pending
        ({ point with events := events ++ point.events }.setEntered false) none
  | continued (grant : Grant) (event : Event) (call : ExternalCall) (next : Pending)
      (own : pending.grant? = some grant) (nextOwn : next.grant? = some grant)
      (transfer : event.IsTransfer) (calls : pending.remaining = call :: next.remaining) :
      Resumed point pending ((point.emit event).callOut (grant.record call)) (some next)

theorem resume_cases {pending : Pending} {reply : Reply} {outcome : Option Pending}
    (resumed : resume evm point pending reply = .ok (next, outcome)) :
    Resumed point pending next outcome := by
  cases pending with
  | native grant toAddress value data =>
    simp only [resume, bind_eq_ok, require_eq_ok, pure_eq_ok, exists_const] at resumed
    obtain ⟨-, ended⟩ := resumed
    cases ended
    exact .finished grant [_] rfl (by simp [Event.IsTransfer]) rfl
  | token grant toAddress value =>
    simp only [resume, bind_eq_ok, pure_eq_ok] at resumed
    obtain ⟨-, -, ended⟩ := resumed
    cases ended
    exact .finished grant [_] rfl (by simp [Event.IsTransfer]) rfl
  | batch grant recipient value rest =>
    simp only [resume, bind_eq_ok, require_eq_ok, pure_eq_ok, exists_const] at resumed
    obtain ⟨-, looped⟩ := resumed
    cases rest with
    | nil =>
      cases looped
      exact .finished grant [_, _] rfl (by simp [Event.IsTransfer]) rfl
    | cons transfer rest =>
      cases looped
      exact .continued grant _ _ _ rfl rfl trivial rfl
  | flush =>
    simp only [resume, bind_eq_ok, require_eq_ok, pure_eq_ok, Prod.mk.injEq,
      exists_const] at resumed
    obtain ⟨-, rfl, rfl⟩ := resumed
    exact .flushed rfl

/-! ## The invariant -/

/-- A verification the wallet accepts, in terms of the wallet at the start. -/
structure Verified (evm : Evm) (start : Wallet) (message : Message)
    (authorization : Authorization) : Prop where
  sender : start.isSigner message.sender = true
  otherSigner : start.isSigner authorization.otherSigner = true
  different : authorization.otherSigner ≠ message.sender
  unexpired : message.timestamp ≤ authorization.operation.expireTime
  chain : authorization.operation.chainid = message.chainid
  wallet : authorization.operation.wallet = start.address
  recovered : recoverSigner evm (authorization.operation.hash evm.keccak256)
    authorization.signature = .ok authorization.otherSigner

/-- An external call that a signer's flush or a verified operation permits. -/
def Permitted (start : Wallet) (verified : List (Message × Authorization))
    (record : CallRecord) : Prop :=
  match record.authority with
  | .flush =>
    start.isSigner record.message.sender = true ∧
      ∃ forwarderAddress tokenContractAddress,
        record.call = flushCall forwarderAddress tokenContractAddress
  | .multisig authorization =>
    (record.message, authorization) ∈ verified ∧
      (record.startedInSafeMode = true → ∀ recipient ∈ authorization.operation.recipients,
        start.isSigner recipient = true)

/-- The ids accepted so far, as the window sees them. -/
def Point.acceptedIds (point : Point) : List Nat := point.accepted.map BitVec.toNat

/-- What holds at every point of a wallet that `init` left as `start`. -/
structure Sound (evm : Evm) (start : Wallet) (point : Point) : Prop where
  initialized : point.wallet.initialized = true
  address : point.wallet.address = start.address
  signers : point.wallet.signers = start.signers
  isSigner : point.wallet.isSigner = start.isSigner
  guards : EvictionWindow.Guards point.wallet.recentSequenceIds.values point.acceptedIds
  spread : EvictionWindow.Spread SequenceWindow.increased point.wallet.recentSequenceIds.values
  accepted : point.accepted = point.verified.map fun entry => entry.2.operation.sequenceId
  verified : ∀ entry ∈ point.verified, Verified evm start entry.1 entry.2
  called : ∀ record ∈ point.called, Permitted start point.verified record
  inOrder : ∀ authorization, (callsUnder authorization point.called).reverse <+:
    authorization.operation.calls
  safeMode : point.wallet.safeMode = true ↔
    ∃ sender, Event.safeModeActivated sender ∈ point.events

/-- What any later point of the same or an enclosing call keeps: safe mode, the
verifications, and the lock with the calls it protects. -/
structure Extends (earlier later : Point) : Prop where
  safeMode : earlier.wallet.safeMode = true → later.wallet.safeMode = true
  verified : earlier.verified ⊆ later.verified
  locked : earlier.wallet.entered = true → later.wallet.entered = true ∧
    ∀ authorization, callsUnder authorization later.called =
      callsUnder authorization earlier.called

/-- What a pending call relies on: it holds the lock since its entry, its grant
is verified, and it has made all calls of its operation but the remaining ones. -/
structure Waits (start : Wallet) (entry made : Point) (pending : Pending) (grant : Grant) :
    Prop where
  unlocked : entry.wallet.entered = false
  locked : made.wallet.entered = true
  verified : (grant.message, grant.authorization) ∈ made.verified
  restricted : grant.startedInSafeMode = true →
    ∀ recipient ∈ grant.authorization.operation.recipients, start.isSigner recipient = true
  progress : (callsUnder grant.authorization made.called).reverse ++ pending.remaining =
    grant.authorization.operation.calls

theorem Extends.refl (point : Point) : Extends point point :=
  ⟨id, List.Subset.refl _, fun locked => ⟨locked, fun _ => rfl⟩⟩

theorem Extends.trans {first second third : Point} (before : Extends first second)
    (after : Extends second third) : Extends first third where
  safeMode := after.safeMode ∘ before.safeMode
  verified := List.Subset.trans before.verified after.verified
  locked := by
    intro locked
    obtain ⟨middle, sameBefore⟩ := before.locked locked
    obtain ⟨last, sameAfter⟩ := after.locked middle
    exact ⟨last, fun authorization => (sameAfter authorization).trans (sameBefore authorization)⟩

/-- A point whose lock is free has nothing to protect. -/
theorem Extends.of_unlocked {earlier later : Point}
    (unlocked : earlier.wallet.entered = false)
    (safeMode : earlier.wallet.safeMode = true → later.wallet.safeMode = true)
    (verified : earlier.verified ⊆ later.verified) : Extends earlier later :=
  ⟨safeMode, verified, fun locked => absurd (unlocked.symm.trans locked) (by decide)⟩

/-- Permission survives further verifications. -/
theorem Permitted.mono {start : Wallet} {earlier later : List (Message × Authorization)}
    (subset : earlier ⊆ later) (permitted : Permitted start earlier record) :
    Permitted start later record := by
  unfold Permitted at permitted ⊢
  split at permitted
  · exact permitted
  · exact ⟨subset permitted.1, permitted.2⟩

/-- Events that are not activations leave the activations as they are. -/
theorem activated_append {events transfers : List Event}
    (transfer : ∀ event ∈ transfers, event.IsTransfer) :
    (∃ sender, Event.safeModeActivated sender ∈ transfers ++ events) ↔
      ∃ sender, Event.safeModeActivated sender ∈ events := by
  constructor
  · rintro ⟨sender, member⟩
    obtain new | old := mem_append.mp member
    · exact absurd (transfer _ new) id
    · exact ⟨sender, old⟩
  · exact fun ⟨sender, member⟩ => ⟨sender, mem_append_right _ member⟩

namespace Sound

variable {evm : Evm} {start : Wallet} {point : Point}

/-- Events that are not activations. -/
theorem emitAll (sound : Sound evm start point) {transfers : List Event}
    (transfer : ∀ event ∈ transfers, event.IsTransfer) :
    Sound evm start { point with events := transfers ++ point.events } :=
  { sound with safeMode := sound.safeMode.trans (activated_append transfer).symm }

theorem emit (sound : Sound evm start point) {event : Event} (transfer : event.IsTransfer) :
    Sound evm start (point.emit event) := by
  have all : ∀ other ∈ [event], other.IsTransfer := by
    simpa using transfer
  exact sound.emitAll all

/-- The lock. -/
theorem setEntered (sound : Sound evm start point) (entered : Bool) :
    Sound evm start (point.setEntered entered) :=
  { sound with }

/-- The activation of safe mode with its event. -/
theorem activate (sound : Sound evm start point) (sender : Address) :
    Sound evm start (point.enableSafeMode.emit (.safeModeActivated sender)) :=
  { sound with
    safeMode := by
      constructor
      · exact fun _ => ⟨sender, mem_cons_self⟩
      · exact fun _ => rfl }

/-- A permitted external call that is next in its operation. -/
theorem callOut (sound : Sound evm start point) {record : CallRecord}
    (permitted : Permitted start point.verified record)
    (next : ∀ authorization, record.authority = .multisig authorization →
      (callsUnder authorization point.called).reverse ++ [record.call] <+:
        authorization.operation.calls) :
    Sound evm start (point.callOut record) :=
  { sound with
    called := by
      intro other member
      obtain rfl | old := mem_cons.mp member
      · exact permitted
      · exact sound.called other old
    inOrder := by
      intro authorization
      by_cases same : record.authority = .multisig authorization
      · rw [Point.callOut, callsUnder_cons_self same, reverse_cons]
        exact next authorization same
      · rw [Point.callOut, callsUnder_cons_of_ne same]
        exact sound.inOrder authorization }

/-- No call was made on an authorization whose id is still unused. -/
theorem no_calls (sound : Sound evm start point) {authorization : Authorization}
    (unused : authorization.operation.sequenceId ∉ point.accepted) :
    callsUnder authorization point.called = [] := by
  refine callsUnder_eq_nil fun record member same => unused ?_
  have permitted := sound.called record member
  rw [Permitted, same] at permitted
  rw [sound.accepted]
  exact mem_map.mpr ⟨_, permitted.1, rfl⟩

/-- A successful verification by a signer. -/
theorem authorized (sound : Sound evm start point) {message : Message}
    {authorization : Authorization} {after : Point}
    (authorized : Authorized evm point message authorization after)
    (signer : point.wallet.isSigner message.sender = true)
    (chain : authorization.operation.chainid = message.chainid)
    (wallet : authorization.operation.wallet = point.wallet.address) :
    Sound evm start after ∧ authorization.operation.sequenceId ∉ point.accepted := by
  obtain ⟨unexpired, recovered, otherSigner, different, window, inserted, rfl⟩ := authorized
  have accepts := SequenceWindow.tryInsertSequenceId_accepts inserted
  have guards := sound.guards.accept accepts
  have spread : EvictionWindow.Spread SequenceWindow.increased window.values := by
    obtain ⟨lowest, -, -, below, -, -, -, within, -⟩ :=
      SequenceWindow.tryInsertSequenceId_ok inserted
    refine sound.spread.accept SequenceWindow.increased_strictMono sound.guards accepts ?_
    intro slot member
    obtain ⟨id, inSlots, rfl⟩ := mem_map.mp member
    have least := BitVec.le_def.mp (below id inSlots)
    simp only [SequenceWindow.increased]
    omega
  constructor
  · refine { sound with guards, spread, accepted := ?_, verified := ?_, called := ?_ }
    · simp [sound.accepted]
    · intro entry member
      obtain rfl | old := mem_cons.mp member
      · exact ⟨sound.isSigner ▸ signer, sound.isSigner ▸ otherSigner, different, unexpired, chain,
          wallet.trans sound.address, recovered⟩
      · exact sound.verified entry old
    · exact fun record member =>
        (sound.called record member).mono (subset_cons_self _ _)
  · intro used
    have once := guards.once
    rw [nodup_cons] at once
    exact once.1 (mem_map.mpr ⟨_, used, rfl⟩)

end Sound

/-! ## The obligations of the segments -/

theorem dispatched_sound {start : Wallet} {entry next : Point} (sound : Sound evm start entry)
    (dispatched : Dispatched evm entry next pending) :
    Sound evm start next ∧ Extends entry next ∧
      ∀ waits ∈ pending, ∀ grant, waits.grant? = some grant →
        Waits start entry next waits grant := by
  cases dispatched with
  | idle => exact ⟨sound, .refl _, by simp⟩
  | deposited sender value data =>
    refine ⟨sound.emit trivial, ⟨id, List.Subset.refl _, ?_⟩, by simp⟩
    exact fun locked => ⟨locked, fun _ => rfl⟩
  | safeMode message signer =>
    refine ⟨sound.activate _, ⟨fun _ => rfl, List.Subset.refl _, ?_⟩, by simp⟩
    exact fun locked => ⟨locked, fun _ => rfl⟩
  | flush message signer forwarderAddress tokenContractAddress =>
    refine ⟨sound.callOut ?_ ?_, ⟨id, List.Subset.refl _, ?_⟩, ?_⟩
    · exact ⟨sound.isSigner ▸ signer, _, _, rfl⟩
    · simp
    · refine fun locked => ⟨locked, fun authorization => ?_⟩
      exact callsUnder_cons_of_ne (by simp)
    · simp [Pending.grant?]
  | granted grant call pending after signer unlocked authorized chain wallet started restricted own
      calls =>
      obtain ⟨verified, unused⟩ := (sound.setEntered true).authorized authorized signer chain wallet
      have none := sound.no_calls unused
      obtain ⟨window, -, rfl⟩ := authorized.inserted
      have restricted' : grant.startedInSafeMode = true →
          ∀ recipient ∈ grant.authorization.operation.recipients,
            start.isSigner recipient = true := by
        rw [started, ← sound.isSigner]
        exact restricted
      refine ⟨verified.callOut ⟨mem_cons_self, restricted'⟩ ?_, ?_, ?_⟩
      · intro authorization same
        cases same
        simp only [Point.setEntered, none, calls]
        exact prefix_append [call] _
      · exact .of_unlocked unlocked id (subset_cons_self _ _)
      · simp only [mem_def, Option.some.injEq]
        rintro waits rfl other own'
        cases own.symm.trans own'
        refine ⟨unlocked, rfl, mem_cons_self, restricted', ?_⟩
        rw [Point.callOut, callsUnder_cons_self rfl, calls]
        simp only [Point.setEntered, none]
        rfl

theorem resumed_sound {start : Wallet} {entry made current next : Point} {waits : Pending}
    {outcome : Option Pending} (sound : Sound evm start current) (called : Extends entry made)
    (since : Extends made current)
    (relies : ∀ grant, waits.grant? = some grant → Waits start entry made waits grant)
    (resumed : Resumed current waits next outcome) :
    Sound evm start next ∧ Extends entry next ∧
      ∀ pending ∈ outcome, ∀ grant, pending.grant? = some grant →
        Waits start entry next pending grant := by
  have through := called.trans since
  cases resumed with
  | flushed free => exact ⟨sound, through, by simp⟩
  | finished grant events own transfers last =>
    refine ⟨(sound.emitAll transfers).setEntered false, ?_, by simp⟩
    exact .of_unlocked (relies grant own).unlocked through.safeMode through.verified
  | continued grant event call pending own nextOwn transfer calls =>
    have reliance := relies grant own
    obtain ⟨locked, same⟩ := since.locked reliance.locked
    have verified := since.verified reliance.verified
    have progress := reliance.progress
    rw [calls, ← same] at progress
    refine ⟨(sound.emit transfer).callOut ⟨verified, reliance.restricted⟩ ?_, ?_, ?_⟩
    · intro authorization same
      cases same
      rw [← progress]
      exact ⟨pending.remaining, by simp [Point.emit, Grant.record]⟩
    · exact .of_unlocked reliance.unlocked through.safeMode through.verified
    · simp only [mem_def, Option.some.injEq]
      rintro waits rfl other own'
      cases nextOwn.symm.trans own'
      refine ⟨reliance.unlocked, locked, verified, reliance.restricted, ?_⟩
      rw [Point.callOut, callsUnder_cons_self rfl, ← progress]
      simp [Point.emit, Grant.record]

/-! ## The wallet after initialization -/

/-- The loop of `init` only adds signers that are new and not zero. -/
theorem addSigners_ok {wallet filled : Wallet} {allowed : List Address}
    (added : wallet.addSigners allowed = .ok filled) :
    filled = { wallet with
      isSigner := filled.isSigner
      signers := wallet.signers ++ allowed } ∧
      (∀ address, filled.isSigner address = true ↔
        wallet.isSigner address = true ∨ address ∈ allowed) ∧
      allowed.Nodup ∧ zeroAddress ∉ allowed ∧
      ∀ address ∈ allowed, wallet.isSigner address = false := by
  induction allowed generalizing wallet with
  | nil =>
    cases added
    simp
  | cons signer rest ih =>
    simp only [Wallet.addSigners] at added
    split at added
    · cases added
    · rename_i proper
      split at added
      · cases added
      · rename_i new
        obtain ⟨frame, members, distinct, nonzero, absent⟩ := ih added
        have unlike : signer ∉ rest := by
          intro repeated
          simpa using absent signer repeated
        refine ⟨?_, ?_, nodup_cons.mpr ⟨unlike, distinct⟩, ?_, ?_⟩
        · rw [frame]
          simp
        · intro address
          rw [members address]
          by_cases same : address = signer
          · simp [same]
          · simp [same]
        · simp [nonzero, Ne.symm proper]
        · intro address member
          obtain rfl | later := mem_cons.mp member
          · simpa using new
          · have other : address ≠ signer := fun same => unlike (same ▸ later)
            simpa [other] using absent address later

/-- What `init` leaves: three distinct signers, none of them zero, and nothing else. -/
theorem init_ok {address : Address} {allowedSigners : Calldata Address} {wallet : Wallet}
    (initialized : (Wallet.clone address).init message allowedSigners = .ok wallet) :
    wallet = { Wallet.clone address with
      initialized := true
      isSigner := wallet.isSigner
      signers := allowedSigners.val } ∧
      (∀ signer, wallet.isSigner signer = true ↔ signer ∈ wallet.signers) ∧
      wallet.signers.length = 3 ∧ wallet.signers.Nodup ∧ zeroAddress ∉ wallet.signers := by
  simp only [Wallet.init, bind_eq_ok, require_eq_ok, pure_eq_ok, exists_const] at initialized
  obtain ⟨-, -, three, filled, added, rfl⟩ := initialized
  obtain ⟨frame, members, distinct, nonzero, -⟩ := addSigners_ok added
  have signers : filled.signers = allowedSigners.val := by
    rw [frame]
    simp [Wallet.clone]
  refine ⟨?_, ?_, ?_, ?_, ?_⟩
  · rw [frame]
    simp [Wallet.clone]
  · intro signer
    simp [members signer, signers, Wallet.clone]
  · rw [signers, three]
  · rwa [signers]
  · rwa [signers]

/-- A wallet that has only been initialized satisfies the invariant. -/
theorem Sound.initial {point : Point} (valid : (walletMachine evm).Initial point) :
    Sound evm point.wallet point := by
  obtain ⟨address, message, allowedSigners, wallet, initialized, rfl⟩ := valid
  obtain ⟨frame, -⟩ := init_ok initialized
  have window : wallet.recentSequenceIds.values = List.replicate 10 0 := by
    rw [frame]
    rfl
  have restricted : wallet.safeMode = false := by
    rw [frame]
    rfl
  constructor
  case initialized =>
    rw [Point.start, frame]
  case guards =>
    rw [Point.start, window]
    exact EvictionWindow.Guards.blank 10
  case spread =>
    rw [Point.start, window]
    exact EvictionWindow.Spread.blank SequenceWindow.increased 10
  all_goals simp [Point.start, callsUnder, restricted]

/-- The invariant with its obligations. -/
def walletRules (evm : Evm) (start : Wallet) : RelyGuarantee (walletMachine evm) where
  Good := Sound evm start
  Extends := Extends
  Waits entry made pending := ∀ grant, pending.grant? = some grant →
    Waits start entry made pending grant
  refl := Extends.refl
  trans := Extends.trans
  dispatched := by
    intro entry call next pending sound dispatches
    exact dispatched_sound sound
      (dispatch_cases sound.initialized (toOption_eq_some.mp dispatches))
  resumed := by
    intro entry made current waits reply next pending sound called since relies resumes
    exact resumed_sound sound called since relies
      (resume_cases (toOption_eq_some.mp resumes))

end CryptoVaultHub.Contracts

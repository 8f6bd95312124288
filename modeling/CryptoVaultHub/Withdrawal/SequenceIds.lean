import CryptoVaultHub.Contracts.SequenceWindow
import CryptoVaultHub.Semantics.Statement

/-!
# The sequence ids of operations in flight

The withdrawal worker and the sweep read `getNextSequenceId` from the state of the wallet,
have the operation and the transaction signed, and broadcast it. A sweep submits one
operation after another and does not wait for any to be mined. The id that is read does not
count the operations that are not mined yet: `sequenceIds_distinct` says that two of them
differ as long as the highest id of the wallet has risen between their reads.

The highest ids that a wallet has had are not in the program; no statement depends on them.
-/

namespace CryptoVaultHub.Withdrawal

open Contracts TransitionSystem

/-! ## The chain -/

/-- A multisig operation, and how many times the highest id of its wallet had risen when its own
id was read. -/
structure Operation where
  wallet : Address
  sequenceId : Nat
  generation : Nat
deriving DecidableEq

/-- The windows of the wallets, the operations that are not mined, and the highest ids that each
wallet has had, the first one first. -/
structure WalletChain where
  windows : Address → SequenceWindow
  mempool : List Operation
  heights : Address → List Nat

namespace WalletChain

def highest (chain : WalletChain) (wallet : Address) : Nat :=
  (SequenceWindow.highestFrom 0 (chain.windows wallet).recentSequenceIds).toNat

/-- The wallet takes an id, or reverts. -/
def accept (chain : WalletChain) (wallet : Address) (sequenceId : Uint256) : WalletChain :=
  match (chain.windows wallet).tryInsertSequenceId sequenceId with
  | .error _ => chain
  | .ok window =>
    { chain with
      windows := Function.update chain.windows wallet window
      heights :=
        if chain.highest wallet < sequenceId.toNat then
          Function.update chain.heights wallet (chain.heights wallet ++ [sequenceId.toNat])
        else chain.heights }

/-- The index of the latest of the highest ids. -/
def generation (chain : WalletChain) (wallet : Address) : Nat :=
  (chain.heights wallet).length - 1

end WalletChain

/-! ## Submitters -/

inductive SubmissionPoint where
  | getNextSequenceId (wallet : Address)
  | signOperation (operation : Operation)
  | signTransaction (operation : Operation)
  | broadcast (operation : Operation)
deriving DecidableEq

/-- A submission, and the wallets of those that its process makes after it. -/
structure Submitter where
  point : SubmissionPoint
  rest : List Address
deriving DecidableEq

/-- `Number.MAX_SAFE_INTEGER`, above which the encoder throws. -/
def maxSafeInteger : Nat := 2 ^ 53 - 1

def Submitter.goTo (submitter : Submitter) (point : SubmissionPoint) : Option Submitter :=
  some { submitter with point := point }

/-- The next submission of a sweep; the worker makes only one. -/
def submitAll : List Address → Option Submitter
  | [] => none
  | wallet :: rest => some ⟨.getNextSequenceId wallet, rest⟩

/-- `executeWithdrawal` and `submitMultiSigForwarderCall` from the read of the id on. A sweep
catches an error of one submission and goes on with the next. -/
def Submitter.statement (chain : WalletChain) (submitter : Submitter) (_answer : Unit) :
    Statement WalletChain Submitter :=
  match submitter.point with
  | .getNextSequenceId wallet =>
    { after := chain
      next :=
        match (chain.windows wallet).getNextSequenceId with
        | .error _ => submitAll submitter.rest
        | .ok sequenceId =>
          if sequenceId.toNat ≤ maxSafeInteger then
            submitter.goTo
              (.signOperation ⟨wallet, sequenceId.toNat, chain.generation wallet⟩)
          else submitAll submitter.rest
      thrown := submitAll submitter.rest }
  | .signOperation operation =>
    { after := chain
      next := submitter.goTo (.signTransaction operation)
      thrown := submitAll submitter.rest }
  | .signTransaction operation =>
    { after := chain
      next := submitter.goTo (.broadcast operation)
      thrown := submitAll submitter.rest }
  | .broadcast operation =>
    { after := { chain with mempool := operation :: chain.mempool }
      next := submitAll submitter.rest
      thrown := submitAll submitter.rest }

/-- A withdrawal, a sweep over some forwarders, and what happens on the chain: an operation that
is not mined is mined, with success or not, or dropped, and a wallet takes an id from elsewhere. -/
inductive SubmissionStart where
  | executeWithdrawal (wallet : Address)
  | executeSweep (wallets : List Address)
  | mine (index : Nat) (reverts : Bool)
  | drop (index : Nat)
  | acceptOther (wallet : Address) (sequenceId : Uint256)

def WalletChain.start (chain : WalletChain) :
    SubmissionStart → Option (WalletChain × Option Submitter)
  | .executeWithdrawal wallet => some (chain, submitAll [wallet])
  | .executeSweep wallets => some (chain, submitAll wallets)
  | .mine index reverts =>
    chain.mempool[index]?.map fun operation =>
      let mined := { chain with mempool := chain.mempool.eraseIdx index }
      (if reverts then mined
        else mined.accept operation.wallet (BitVec.ofNat 256 operation.sequenceId), none)
  | .drop index => some ({ chain with mempool := chain.mempool.eraseIdx index }, none)
  | .acceptOther wallet sequenceId => some (chain.accept wallet sequenceId, none)

/-- Nothing has been submitted, and the record begins with the present highest ids. -/
structure WalletChain.Initial (chain : WalletChain) : Prop where
  mempool : chain.mempool = []
  heights : ∀ wallet, chain.heights wallet = [chain.highest wallet]

abbrev SubmissionState := PoolState WalletChain Submitter

abbrev SubmissionAction := PoolAction (Input Unit) SubmissionStart

/-! ## The property and the condition -/

/-- No two operations of one wallet that are not mined have the same id. -/
@[reducible] def WalletChain.Distinct (chain : WalletChain) : Prop :=
  chain.mempool.Pairwise fun first second =>
    first.wallet = second.wallet → first.sequenceId ≠ second.sequenceId

/-- An operation is broadcast only if the highest id of its wallet has risen between the read of
its id and that of every operation of the wallet that is not mined. -/
def SubmissionState.risen (state : SubmissionState) : SubmissionAction → Bool
  | .advance pid input =>
    (state.process? pid).all fun submitter =>
      match submitter.point with
      | .broadcast operation =>
        decide (input.ending = .failed) || state.shared.mempool.all fun other =>
          decide (other.wallet = operation.wallet → other.generation ≠ operation.generation)
      | .getNextSequenceId _ | .signOperation _ | .signTransaction _ => true
  | .launch _ | .crash _ => true

variable {chain : WalletChain} {operation : Operation}

/-- An insertion leaves the larger of the highest id and the new one. -/
theorem highest_of_insert {window next : SequenceWindow} {sequenceId : Uint256}
    (inserted : window.tryInsertSequenceId sequenceId = .ok next) :
    (SequenceWindow.highestFrom 0 next.recentSequenceIds).toNat =
      max (SequenceWindow.highestFrom 0 window.recentSequenceIds).toNat sequenceId.toNat := by
  obtain ⟨lowest, position, _, below, above, found, _, _, rfl⟩ :=
    SequenceWindow.tryInsertSequenceId_ok inserted
  obtain ⟨inRange, same⟩ := List.getElem?_eq_some_iff.mp found
  have oldBound := (SequenceWindow.highestFrom_spec 0 window.recentSequenceIds).2.2
  have newBound := (SequenceWindow.highestFrom_spec 0
    (window.write position sequenceId).recentSequenceIds).2.2
  have oldMember := SequenceWindow.highest_mem window
  have newMember := SequenceWindow.highest_mem (window.write position sequenceId)
  have fresh : sequenceId ∈ (window.write position sequenceId).recentSequenceIds :=
    List.mem_set inRange sequenceId
  refine Nat.le_antisymm ?_ (Nat.max_le.mpr ⟨?_, BitVec.le_def.mp (newBound _ fresh)⟩)
  · rcases List.mem_or_eq_of_mem_set newMember with old | new
    · exact (BitVec.le_def.mp (oldBound _ old)).trans (Nat.le_max_left ..)
    · rw [new]
      exact Nat.le_max_right ..
  · obtain ⟨index, inside, at_⟩ := List.mem_iff_getElem.mp oldMember
    by_cases replaced : index = position
    · -- Every slot was as low as the replaced one.
      subst replaced
      have low : SequenceWindow.highestFrom 0 window.recentSequenceIds = lowest := by
        rw [← at_, same]
      rw [low]
      have less := BitVec.lt_def.mp above
      have bound := BitVec.le_def.mp (newBound _ fresh)
      omega
    · have kept : SequenceWindow.highestFrom 0 window.recentSequenceIds ∈
          (window.write position sequenceId).recentSequenceIds := by
        rw [← at_]
        refine List.mem_iff_getElem.mpr ⟨index, by simpa [SequenceWindow.write] using inside, ?_⟩
        exact List.getElem_set_of_ne (Ne.symm replaced) ..
      exact BitVec.le_def.mp (newBound _ kept)

/-- The record of the highest ids ascends to the present one. -/
structure WalletChain.Recorded (chain : WalletChain) : Prop where
  last : ∀ wallet, (chain.heights wallet).getLast? = some (chain.highest wallet)
  ascending : ∀ wallet, (chain.heights wallet).Pairwise (· < ·)

/-- The id of an operation is one above the highest id at its read. -/
def Operation.Follows (chain : WalletChain) (operation : Operation) : Prop :=
  ∃ height, (chain.heights operation.wallet)[operation.generation]? = some height ∧
    operation.sequenceId = height + 1

theorem WalletChain.Recorded.accept (recorded : chain.Recorded) (wallet : Address)
    (sequenceId : Uint256) : (chain.accept wallet sequenceId).Recorded := by
  rw [WalletChain.accept]
  split
  · exact recorded
  · rename_i window inserted
    have risen : ∀ heights, WalletChain.highest
        ⟨Function.update chain.windows wallet window, chain.mempool, heights⟩ wallet =
          max (chain.highest wallet) sequenceId.toNat := by
      intro heights
      simp only [WalletChain.highest, Function.update_self]
      exact highest_of_insert inserted
    refine ⟨?_, ?_⟩
    · intro other
      by_cases same : other = wallet
      · subst same
        rw [risen]
        by_cases higher : chain.highest other < sequenceId.toNat
        · rw [if_pos higher]
          dsimp only
          rw [Function.update_self, List.getLast?_concat, Nat.max_eq_right higher.le]
        · rw [if_neg higher, recorded.last, Nat.max_eq_left (Nat.not_lt.mp higher)]
      · have kept := recorded.last other
        split <;> simpa [WalletChain.highest, Function.update_of_ne same] using kept
    · intro other
      dsimp only
      split
      · rename_i higher
        by_cases same : other = wallet
        · subst same
          rw [Function.update_self]
          refine List.pairwise_append.mpr
            ⟨recorded.ascending other, List.pairwise_singleton .., ?_⟩
          intro height member last isLast
          rw [List.mem_singleton.mp isLast]
          refine lt_of_le_of_lt ?_ higher
          obtain ⟨front, heights⟩ := List.getLast?_eq_some_iff.mp (recorded.last other)
          have ascending := recorded.ascending other
          rw [heights] at ascending member
          rcases List.mem_append.mp member with before | end_
          · exact Nat.le_of_lt ((List.pairwise_append.mp ascending).2.2 height before _
              (List.mem_singleton_self _))
          · exact (List.mem_singleton.mp end_).le
        · rw [Function.update_of_ne same]
          exact recorded.ascending other
      · exact recorded.ascending other

/-- The record only grows. -/
theorem Operation.Follows.accept (follows : operation.Follows chain) (wallet : Address)
    (sequenceId : Uint256) : operation.Follows (chain.accept wallet sequenceId) := by
  obtain ⟨height, found, id⟩ := follows
  refine ⟨height, ?_, id⟩
  rw [WalletChain.accept]
  split
  · exact found
  · dsimp only
    split
    · by_cases same : operation.wallet = wallet
      · rw [same] at found ⊢
        rw [Function.update_self]
        exact List.getElem?_append_left (List.getElem?_eq_some_iff.mp found).1 ▸ found
      · rw [Function.update_of_ne same]
        exact found
    · exact found

/-- Operations of different generations have different ids. -/
theorem Operation.Follows.ne {other : Operation} (recorded : chain.Recorded)
    (follows : operation.Follows chain) (otherFollows : other.Follows chain)
    (same : operation.wallet = other.wallet) (apart : operation.generation ≠ other.generation) :
    operation.sequenceId ≠ other.sequenceId := by
  obtain ⟨height, found, id⟩ := follows
  obtain ⟨otherHeight, otherFound, otherId⟩ := otherFollows
  rw [same] at found
  have distinct : (chain.heights other.wallet).Nodup :=
    (recorded.ascending other.wallet).imp Nat.ne_of_lt
  rintro equal
  obtain rfl : height = otherHeight := by omega
  have inRange := (List.getElem?_eq_some_iff.mp found).1
  exact apart ((List.getElem?_inj inRange distinct).mp (found.trans otherFound.symm))

/-! ## The run -/

/-- Every operation follows the record, and those that are not mined differ. -/
structure WalletChain.Consistent (chain : WalletChain) : Prop where
  recorded : chain.Recorded
  follows : ∀ operation ∈ chain.mempool, operation.Follows chain
  distinct : chain.Distinct

/-- The operation that a submitter has read an id for follows the record. -/
def Submitter.Follows (chain : WalletChain) (submitter : Submitter) : Prop :=
  match submitter.point with
  | .getNextSequenceId _ => True
  | .signOperation operation | .signTransaction operation | .broadcast operation =>
    operation.Follows chain

@[simp] theorem WalletChain.mempool_accept (wallet : Address) (sequenceId : Uint256) :
    (chain.accept wallet sequenceId).mempool = chain.mempool := by
  rw [WalletChain.accept]
  split <;> rfl

theorem WalletChain.Consistent.accept (consistent : chain.Consistent) (wallet : Address)
    (sequenceId : Uint256) : (chain.accept wallet sequenceId).Consistent where
  recorded := consistent.recorded.accept wallet sequenceId
  follows := by
    rw [WalletChain.mempool_accept]
    exact fun operation member => (consistent.follows operation member).accept wallet sequenceId
  distinct := by
    rw [WalletChain.Distinct, WalletChain.mempool_accept]
    exact consistent.distinct

/-- Operations leave the ones that are not mined. -/
theorem WalletChain.Consistent.eraseIdx (consistent : chain.Consistent) (index : Nat) :
    WalletChain.Consistent { chain with mempool := chain.mempool.eraseIdx index } where
  recorded := ⟨consistent.recorded.last, consistent.recorded.ascending⟩
  follows operation member := consistent.follows operation (List.mem_of_mem_eraseIdx member)
  distinct := consistent.distinct.sublist (List.eraseIdx_sublist chain.mempool index)

theorem Submitter.Follows.accept {submitter : Submitter} (follows : submitter.Follows chain)
    (wallet : Address) (sequenceId : Uint256) :
    submitter.Follows (chain.accept wallet sequenceId) := by
  obtain ⟨point, rest⟩ := submitter
  cases point with
  | getNextSequenceId => trivial
  | signOperation | signTransaction | broadcast =>
    exact Operation.Follows.accept follows wallet sequenceId

theorem submitAll_follows {wallets : List Address} {submitter : Submitter}
    (submits : submitAll wallets = some submitter) : submitter.Follows chain := by
  cases wallets with
  | nil => cases submits
  | cons wallet rest =>
    cases submits
    trivial

/-- The id that is read is one above the latest of the highest ids. -/
theorem WalletChain.Recorded.follows_next (recorded : chain.Recorded) {wallet : Address}
    {sequenceId : Uint256} (next : (chain.windows wallet).getNextSequenceId = .ok sequenceId) :
    Operation.Follows chain ⟨wallet, sequenceId.toNat, chain.generation wallet⟩ := by
  refine ⟨chain.highest wallet, ?_, SequenceWindow.getNextSequenceId_ok_iff.mp next⟩
  rw [← recorded.last wallet, List.getLast?_eq_getElem?]
  rfl

theorem Submitter.statement_thrown {submitter later : Submitter}
    (thrown : (submitter.statement chain ()).thrown = some later) : later.Follows chain := by
  obtain ⟨point, rest⟩ := submitter
  cases point <;> exact submitAll_follows thrown

/-- What a submitter knows after a statement. -/
theorem Submitter.statement_next {submitter later : Submitter} (recorded : chain.Recorded)
    (follows : submitter.Follows chain)
    (continues : (submitter.statement chain ()).next = some later) : later.Follows chain := by
  obtain ⟨point, rest⟩ := submitter
  cases point with
  | getNextSequenceId wallet =>
    simp only [Submitter.statement] at continues
    split at continues
    · exact submitAll_follows continues
    · rename_i sequenceId next
      split at continues
      · cases continues
        exact recorded.follows_next next
      · exact submitAll_follows continues
  | signOperation operation =>
    cases continues
    exact follows
  | signTransaction operation =>
    cases continues
    exact follows
  | broadcast operation => exact submitAll_follows continues

def sampleChain : WalletChain := ⟨fun _ => .initial, [], fun _ => [0]⟩

def submits (pid : Nat) : SubmissionAction := .advance pid ⟨.done, ()⟩

end CryptoVaultHub.Withdrawal

import CryptoVaultHub.Contracts.WalletInvariant

/-!
# Replay protection of the wallet

The window of `CvhWalletSimple` over whole executions: the replay guarantee
itself, and exactly when the id that `getNextSequenceId` returns is one that
`_tryInsertSequenceId` accepts.
-/

namespace CryptoVaultHub.Contracts

open TransitionSystem

/-- The invariant of the wallet at every point of every execution. -/
theorem exists_sound {evm : Evm} {Allowed : Journal Point Pending →
    JournalAction (Message × Entry) Reply → Prop} {journal : Journal Point Pending}
    (reached : (walletMachine evm).system.Reachable Allowed journal) :
    ∃ start, Sound evm start journal.current := by
  obtain ⟨start, ⟨valid, idle⟩, steps⟩ := reached
  exact ⟨_, ((walletRules evm start.current.wallet).steps (Sound.initial valid) idle steps).1⟩

/-! ## A wallet to replay executions on -/

/-- The wallet at address 1 with the signers 2, 3 and 4. -/
def sampleWallet : Wallet :=
  match (Wallet.clone 1).init ⟨0, 0, 0, 0⟩ ⟨[2, 3, 4], by decide⟩ with
  | .ok wallet => wallet
  | .error _ => .clone 1

/-- No call of the sample wallet is running. -/
def sampleJournal : Journal Point Pending := ⟨.start sampleWallet, []⟩

theorem sampleJournal_initial (evm : Evm) : (walletMachine evm).system.Initial sampleJournal :=
  ⟨⟨1, ⟨0, 0, 0, 0⟩, ⟨[2, 3, 4], by decide⟩, sampleWallet, rfl, rfl⟩, rfl⟩

/-- A chain on which signer 3 has signed everything. -/
def permissiveEvm : Evm := ⟨id, fun _ _ _ _ => 3⟩

/-- A signature of the right length, with `v = 27` and `r = s = 0`. -/
def sampleSignature : List UInt8 := List.replicate 64 0 ++ [27]

/-- Signer 2 sends one unit of ether to address 9 under a sequence id. -/
def sampleTransfer (sequenceId : Uint256) : JournalAction (Message × Entry) Reply :=
  .call (⟨2, 0, 1, 0⟩, .sendMultiSig 9 1 noData 100 sequenceId sampleSignature)

/-! ## Replay -/

/-- No id is accepted twice, the used slots are distinct, and every accepted id
is in the window or below all of it. -/
theorem sequenceId_never_reused {evm : Evm} {journal : Journal Point Pending}
    (reached : (walletMachine evm).system.Reachable Unrestricted journal) :
    journal.current.accepted.Nodup ∧
      (journal.current.wallet.recentSequenceIds.recentSequenceIds.filter (· ≠ 0)).Nodup ∧
      ∀ id ∈ journal.current.accepted,
        id ∈ journal.current.wallet.recentSequenceIds.recentSequenceIds ∨
        ∀ slot ∈ journal.current.wallet.recentSequenceIds.recentSequenceIds, id < slot := by
  obtain ⟨start, sound⟩ := exists_sound reached
  have guards := sound.guards
  refine ⟨guards.once.of_map _, ?_, ?_⟩
  · have distinct := guards.distinct
    rw [SequenceWindow.occupied_values] at distinct
    exact distinct.of_map _
  · intro id member
    obtain within | below := guards.covered id.toNat (List.mem_map.mpr ⟨id, member, rfl⟩)
    · exact Or.inl (SequenceWindow.mem_values.mp within)
    · right
      intro slot inSlots
      exact BitVec.lt_def.mpr (below slot.toNat (SequenceWindow.mem_values.mpr inSlots))

theorem sequenceId_never_reused_after_transfer :
    ∃ journal : Journal Point Pending, journal.current.accepted = [7] ∧
      journal.current.accepted.Nodup ∧
      (journal.current.wallet.recentSequenceIds.recentSequenceIds.filter (· ≠ 0)).Nodup ∧
      ∀ id ∈ journal.current.accepted,
        id ∈ journal.current.wallet.recentSequenceIds.recentSequenceIds ∨
        ∀ slot ∈ journal.current.wallet.recentSequenceIds.recentSequenceIds, id < slot := by
  obtain ⟨journal, reached, passed⟩ : ∃ journal,
      (walletMachine permissiveEvm).system.Reachable Unrestricted journal ∧
      journal.current.accepted = [7] :=
    exists_reachable (sampleJournal_initial permissiveEvm) [sampleTransfer 7] (by decide)
  exact ⟨journal, passed, sequenceId_never_reused reached⟩

/-! ## The next sequence id -/

/-- Whether an operation with the id that `getNextSequenceId` returns is accepted. -/
def SequenceWindow.NextAccepted (window : SequenceWindow) : Prop :=
  ∃ id next, window.getNextSequenceId = .ok id ∧ window.tryInsertSequenceId id = .ok next

/-- In every reachable state the returned id is accepted exactly unless id 10000
is among fewer than ten accepted ids, or the slots have reached the end of the words. -/
theorem nextSequenceId_accepted_reachable {evm : Evm} {journal : Journal Point Pending}
    (reached : (walletMachine evm).system.Reachable Unrestricted journal) :
    journal.current.wallet.recentSequenceIds.NextAccepted ↔
      ¬ (journal.current.accepted.length < 10 ∧ 10000 ∈ journal.current.accepted) ∧
        ∃ slot ∈ journal.current.wallet.recentSequenceIds.recentSequenceIds,
          slot.toNat + 10000 < 2 ^ 256 := by
  obtain ⟨start, sound⟩ := exists_sound reached
  have taken : 10000 ∈ journal.current.acceptedIds ↔ 10000 ∈ journal.current.accepted := by
    simp only [Point.acceptedIds, List.mem_map]
    constructor
    · rintro ⟨id, member, same⟩
      have equal : id = 10000 := BitVec.eq_of_toNat_eq same
      rwa [← equal]
    · exact fun member => ⟨10000, member, rfl⟩
  have decided := SequenceWindow.nextSequenceId_accepted_iff sound.guards sound.spread
  rwa [taken, Point.acceptedIds, List.length_map] at decided

theorem nextSequenceId_accepted_after_transfer :
    ∃ journal : Journal Point Pending, journal.current.accepted = [7] ∧
      journal.current.wallet.recentSequenceIds.NextAccepted := by
  obtain ⟨journal, reached, accepted, blank⟩ : ∃ journal,
      (walletMachine permissiveEvm).system.Reachable Unrestricted journal ∧
      journal.current.accepted = [7] ∧
        0 ∈ journal.current.wallet.recentSequenceIds.recentSequenceIds :=
    exists_reachable (sampleJournal_initial permissiveEvm) [sampleTransfer 7] (by decide)
  refine ⟨journal, accepted, (nextSequenceId_accepted_reachable reached).mpr ⟨?_, 0, blank, ?_⟩⟩
  · rw [accepted]
    decide
  · decide

/-- With 10000 as the first id, the next id is 10001 and the nine blank slots
permit at most 10000. -/
theorem nextSequenceId_not_always_accepted :
    ¬ ∀ (evm : Evm) (journal : Journal Point Pending),
      (walletMachine evm).system.Reachable Unrestricted journal →
        journal.current.wallet.recentSequenceIds.NextAccepted := by
  intro always
  have replayed : ∃ journal, (walletMachine permissiveEvm).system.Reachable Unrestricted journal ∧
      decide (journal.current.wallet.recentSequenceIds.recentSequenceIds =
        10000 :: List.replicate 9 0) = true :=
    exists_reachable_of_run (sampleJournal_initial permissiveEvm) [sampleTransfer 10000]
      (fun journal => journal.current.wallet.recentSequenceIds.recentSequenceIds =
        10000 :: List.replicate 9 0) (by decide)
  obtain ⟨⟨point, frames⟩, reached, passed⟩ := replayed
  obtain ⟨id, next, computed, inserted⟩ := always permissiveEvm ⟨point, frames⟩ reached
  have slots := of_decide_eq_true passed
  have value := SequenceWindow.getNextSequenceId_ok_iff.mp computed
  obtain ⟨lowest, -, -, below, -, -, -, within, -⟩ :=
    SequenceWindow.tryInsertSequenceId_ok inserted
  rw [slots] at value below
  have blank := BitVec.le_def.mp (below 0 (by decide))
  have highest : (SequenceWindow.highestFrom 0 (10000 :: List.replicate 9 0)).toNat = 10000 := by
    decide
  have zero : (0 : Uint256).toNat = 0 := rfl
  omega

end CryptoVaultHub.Contracts

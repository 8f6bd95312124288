import CryptoVaultHub.CoreWallet.ProjectDeploy

/-!
# Consistency of the contracts of a project

While a chain is ready, the addresses recorded for it are those of the deployed rows, each factory
was constructed with the implementation recorded beside it, and the hot wallet was created by the
wallet factory. Nothing excludes two deployments at once, the rows are written after the chain is
ready, a catch-all marks the chain as failed, and a retry replaces one contract of four.

`contracts_consistent` names the steps that must not take effect while the chain is ready. That
every contract has its row cannot hold all the time, since a chain that becomes ready waits for
four more writes; its second part says when they are there.
-/

namespace CryptoVaultHub.CoreWallet

open Contracts List Option

/-! ## The property -/

/-- The addresses of a row agree with the deployed rows and with the chain. -/
structure ProjectChain.Agrees (row : ProjectChain) (tables : ProjectTables) : Prop where
  deployed : ∀ kind, ∀ contract ∈ tables.contracts kind, contract.deployStatus = .deployed →
    row.address? kind = some contract.address
  factories : ∀ kind : ContractType, ∀ implementation ∈ kind.implementation?,
    ∃ factory ∈ row.address? kind, ∃ address ∈ row.address? implementation,
      tables.implementation? factory = some address
  hotWallet : ∃ wallet ∈ row.hotWalletAddress, ∃ factory ∈ row.address? .walletFactory,
    tables.creator? wallet = some factory

namespace ProjectTables

/-- A chain that is ready agrees with the rows of its contracts and with the chain. -/
def Consistent (tables : ProjectTables) : Prop :=
  ∀ row ∈ tables.chain, row.deployStatus = .ready → row.Agrees tables

/-- If the chain is ready, an address is recorded for a type. -/
@[reducible] def Records (tables : ProjectTables) (kind : ContractType) (address : Address) : Prop :=
  ∀ row ∈ tables.chain, row.deployStatus = .ready → row.address? kind = some address

/-- A contract of a type has its row, with the address that is recorded. -/
def Settled (tables : ProjectTables) (kind : ContractType) : Prop :=
  ∃ contract ∈ tables.contracts kind, contract.deployStatus = .deployed ∧
    tables.Records kind contract.address

end ProjectTables

/-! ## The conditions -/

namespace Deployer

/-- What may take effect: a chain becomes ready only if no other contract is deployed, and while
it is ready no other address is recorded and it is not marked as failed. The factory answers with
the wallet that it created. -/
def Keeps (tables : ProjectTables) (answer : DeployAnswer) : Deployer → Prop
  | .deployProjectChain (.hotWallet _) => answer.returned = answer.created
  | .deployProjectChain (.setReady contracts _) =>
    ∀ kind ∈ ContractType.all, ∀ contract ∈ tables.contracts kind,
      contract.deployStatus = .deployed → contract.address = contracts.address kind
  | .deployProjectChain (.upsert contracts (kind :: _)) =>
    tables.Records kind (contracts.address kind)
  | .deployProjectChain .setFailed => tables.status? ≠ some .ready
  | .retryFailedDeploy kind (.recordContract address)
  | .retryFailedDeploy kind (.recordChain address) => tables.Records kind address
  | _ => True

/-- What a ready chain waits for: its deployment goes on to the last row, and no row is taken
back. -/
def Completes (tables : ProjectTables) (ending : Ending) : Deployer → Prop
  | .deployProjectChain (.setReady _ _) => ending ≠ .lost
  | .deployProjectChain (.upsert _ (_ :: _)) => tables.status? = some .ready → ending = .done
  | .retryFailedDeploy _ .markDeploying
  | .retryFailedDeploy _ .setFailed => tables.status? = some .ready → ending = .failed
  | _ => True

/-- A deployment with a row still to write. -/
def Waits : Deployer → Prop
  | .deployProjectChain (.upsert _ (_ :: _)) => True
  | _ => False

end Deployer

/-- Every step that takes effect is one that may. -/
def DeployState.Kept (state : DeployState) : DeployAction → Prop
  | .advance pid input => input.ending ≠ .failed →
      ∀ process ∈ state.process? pid, process.Keeps state.shared input.answer
  | _ => True

/-- Besides, no deployment of a ready chain stops before its last row, and no row is taken
back. -/
def DeployState.Finished (state : DeployState) : DeployAction → Prop
  | .launch _ => True
  | .advance pid input => state.Kept (.advance pid input) ∧
      ∀ process ∈ state.process? pid, process.Completes state.shared input.ending
  | .crash pid => state.shared.status? = some .ready →
      ∀ process ∈ state.process? pid, ¬ process.Waits

/-! ## What stands on the chain -/

theorem lookup_append {entries : List (Address × Address)} {address found : Address}
    (known : lookup entries address = some found) (more : List (Address × Address)) :
    lookup (entries ++ more) address = some found := by
  obtain ⟨entry, first, rfl⟩ := map_eq_some_iff.mp known
  rw [lookup, List.find?_append, first]
  rfl

/-- What is known of a chain stays. -/
structure ProjectTables.Extends (before after : ProjectTables) : Prop where
  implementation : ∀ factory address, before.implementation? factory = some address →
    after.implementation? factory = some address
  creator : ∀ wallet factory, before.creator? wallet = some factory →
    after.creator? wallet = some factory

namespace ProjectTables

variable {tables : ProjectTables}

/-- Statements on the tables leave the chain as it is. -/
theorem Extends.of_eq {after : ProjectTables} (factories : after.factories = tables.factories)
    (wallets : after.wallets = tables.wallets) : tables.Extends after := by
  constructor
  · intro factory address known
    rwa [implementation?, factories]
  · intro wallet factory known
    rwa [creator?, wallets]

theorem extends_create (address : Address) (implementation : Option Address) :
    tables.Extends (tables.create address implementation) := by
  cases implementation with
  | none => exact .of_eq rfl rfl
  | some implementation =>
    constructor
    · exact fun factory known found => lookup_append found _
    · exact fun wallet factory found => found

theorem extends_createWallet (address factory : Address) :
    tables.Extends (tables.createWallet address factory) := by
  constructor
  · exact fun factory known found => found
  · exact fun wallet creator found => lookup_append found _

end ProjectTables

theorem ProjectChain.Agrees.extends {tables after : ProjectTables} {row : ProjectChain}
    (agrees : row.Agrees tables) (extended : tables.Extends after)
    (contracts : after.contracts = tables.contracts) : row.Agrees after where
  deployed := by
    rw [contracts]
    exact agrees.deployed
  factories := by
    intro kind implementation isOf
    obtain ⟨factory, recorded, address, isAddress, found⟩ :=
      agrees.factories kind implementation isOf
    exact ⟨factory, recorded, address, isAddress, extended.implementation _ _ found⟩
  hotWallet := by
    obtain ⟨wallet, isWallet, factory, isFactory, found⟩ := agrees.hotWallet
    exact ⟨wallet, isWallet, factory, isFactory, extended.creator _ _ found⟩

/-! ## What a statement keeps -/

/-- The invariant: what stands on the chain is known as created, a ready chain agrees with it, and
none was marked as failed. -/
structure ProjectTables.Sound (tables : ProjectTables) : Prop where
  factories_created : ∀ entry ∈ tables.factories, entry.1 ∈ tables.created
  wallets_created : ∀ entry ∈ tables.wallets, entry.1 ∈ tables.created
  consistent : tables.Consistent
  readyFailed : tables.readyFailed = false

namespace ProjectTables

variable {tables : ProjectTables}

theorem status?_eq_of_mem {row : ProjectChain} (isRow : row ∈ tables.chain) :
    tables.status? = some row.deployStatus := by
  rw [status?, mem_def.mp isRow, map_some]

theorem Initial.sound (initial : tables.Initial) : tables.Sound where
  factories_created := initial.factories_created
  wallets_created := initial.wallets_created
  consistent := by
    intro row isRow ready
    apply absurd _ initial.notReady
    rw [status?_eq_of_mem isRow, ready]
  readyFailed := initial.readyFailed

theorem Sound.create (sound : tables.Sound) (address : Address) (implementation : Option Address) :
    (tables.create address implementation).Sound where
  factories_created := by
    intro entry member
    cases implementation with
    | none => exact mem_append_left _ (sound.factories_created entry member)
    | some implementation =>
      obtain old | new := mem_append.mp member
      · exact mem_append_left _ (sound.factories_created entry old)
      · cases mem_singleton.mp new
        exact mem_append_right _ (mem_singleton_self _)
  wallets_created entry member := mem_append_left _ (sound.wallets_created entry member)
  consistent row isRow ready :=
    (sound.consistent row isRow ready).extends (extends_create address implementation) rfl
  readyFailed := sound.readyFailed

theorem Sound.createWallet (sound : tables.Sound) (address factory : Address) :
    (tables.createWallet address factory).Sound where
  factories_created entry member := mem_append_left _ (sound.factories_created entry member)
  wallets_created := by
    intro entry member
    obtain old | new := mem_append.mp member
    · exact mem_append_left _ (sound.wallets_created entry old)
    · cases mem_singleton.mp new
      exact mem_append_right _ (mem_singleton_self _)
  consistent row isRow ready :=
    (sound.consistent row isRow ready).extends (extends_createWallet address factory) rfl
  readyFailed := sound.readyFailed

/-- The row of a chain is replaced, by one that agrees if it is ready. -/
theorem Sound.setChain (sound : tables.Sound) {chain : Option ProjectChain}
    (agrees : ∀ row ∈ chain, row.deployStatus = .ready → row.Agrees tables) :
    ProjectTables.Sound { tables with chain := chain } where
  factories_created := sound.factories_created
  wallets_created := sound.wallets_created
  consistent row isRow ready :=
    (agrees row isRow ready).extends (.of_eq rfl rfl) rfl
  readyFailed := sound.readyFailed

theorem Sound.updateChain (sound : tables.Sound) {change : ProjectChain → ProjectChain}
    (agrees : ∀ row ∈ tables.chain, (change row).deployStatus = .ready →
      (change row).Agrees tables) : (tables.updateChain change).Sound := by
  apply sound.setChain
  intro row isRow ready
  obtain ⟨before, isBefore, rfl⟩ := map_eq_some_iff.mp isRow
  exact agrees before isBefore ready

/-- A row of a contract is replaced, by one with the recorded address if it is deployed. -/
theorem Sound.contract (sound : tables.Sound) (kind : ContractType)
    {entry : Option ProjectContract}
    (records : ∀ contract ∈ entry, contract.deployStatus = .deployed →
      tables.Records kind contract.address) :
    ProjectTables.Sound
      { tables with contracts := Function.update tables.contracts kind entry } where
  factories_created := sound.factories_created
  wallets_created := sound.wallets_created
  consistent row isRow ready := by
    obtain ⟨deployed, factories, hotWallet⟩ := sound.consistent row isRow ready
    refine ⟨?_, factories, hotWallet⟩
    intro other contract isContract isDeployed
    have isEntry : contract ∈ Function.update tables.contracts kind entry other := isContract
    by_cases same : other = kind
    · subst same
      rw [Function.update_self] at isEntry
      exact records contract isEntry isDeployed row isRow ready
    · rw [Function.update_of_ne same] at isEntry
      exact deployed other contract isEntry isDeployed
  readyFailed := sound.readyFailed

theorem Sound.updateContract (sound : tables.Sound) (kind : ContractType)
    {change : ProjectContract → ProjectContract}
    (records : ∀ contract, (change contract).deployStatus = .deployed →
      tables.Records kind (change contract).address) :
    (tables.updateContract kind change).Sound := by
  apply sound.contract kind
  intro contract isContract isDeployed
  obtain ⟨before, -, rfl⟩ := map_eq_some_iff.mp isContract
  exact records before isDeployed

theorem Sound.setFailed (sound : tables.Sound) (notReady : tables.status? ≠ some .ready) :
    tables.setFailed.Sound := by
  have updated : (tables.updateChain fun row => { row with deployStatus := .failed }).Sound := by
    apply sound.updateChain
    rintro row isRow ⟨⟩
  refine ⟨updated.factories_created, updated.wallets_created, ?_, ?_⟩
  · intro row isRow ready
    exact (updated.consistent row isRow ready).extends (.of_eq rfl rfl) rfl
  · simp only [ProjectTables.setFailed, sound.readyFailed, notReady, decide_false, Bool.or_false]

end ProjectTables

/-- Each factory of a deployment was constructed with its implementation. -/
def DeployedContracts.Linked (contracts : DeployedContracts) (tables : ProjectTables) : Prop :=
  tables.implementation? contracts.walletFactory = some contracts.walletImpl ∧
    tables.implementation? contracts.forwarderFactory = some contracts.forwarderImpl

namespace Deployer

/-- What a deployment knows of the contracts that it created. -/
def Knows (tables : ProjectTables) : Deployer → Prop
  | .deployProjectChain (.forwarderFactory walletImpl _ walletFactory) =>
    tables.implementation? walletFactory = some walletImpl
  | .deployProjectChain (.hotWallet contracts) => contracts.Linked tables
  | .deployProjectChain (.setReady contracts hotWallet) =>
    contracts.Linked tables ∧ tables.creator? hotWallet = some contracts.walletFactory
  | _ => True

variable {tables : ProjectTables} {process : Deployer} {answer : DeployAnswer}

theorem Knows.extends {after : ProjectTables} (knows : process.Knows tables)
    (extended : tables.Extends after) : process.Knows after := by
  unfold Knows at knows ⊢
  split
  · exact extended.implementation _ _ knows
  · exact ⟨extended.implementation _ _ knows.1, extended.implementation _ _ knows.2⟩
  · exact ⟨⟨extended.implementation _ _ knows.1.1, extended.implementation _ _ knows.1.2⟩,
      extended.creator _ _ knows.2⟩
  · trivial

/-- A deployment that is about to write the row of a type, with the recorded address. -/
def Pending (tables : ProjectTables) (kind : ContractType) : Deployer → Prop
  | .deployProjectChain (.upsert contracts kinds) =>
    kind ∈ kinds ∧ tables.Records kind (contracts.address kind)
  | _ => False

theorem Pending.waits {kind : ContractType} (pending : process.Pending tables kind) :
    process.Waits := by
  unfold Pending at pending
  split at pending
  · rename_i contracts kinds
    cases kinds with
    | nil => cases pending.1
    | cons first kinds => trivial
  · cases pending

/-- A deployment about to write a row writes it, or goes on to it. -/
theorem Pending.next {kind : ContractType} (pending : process.Pending tables kind)
    (answer : DeployAnswer) :
    (∃ contract ∈ (process.statement tables answer).after.contracts kind,
        contract.deployStatus = .deployed ∧ tables.Records kind contract.address) ∨
      ∃ later, (process.statement tables answer).next = some later ∧
        later.Pending tables kind := by
  unfold Pending at pending
  split at pending
  · rename_i contracts kinds
    obtain ⟨member, records⟩ := pending
    cases member with
    | head rest => exact .inl ⟨_, Function.update_self .., rfl, records⟩
    | tail first member => exact .inr ⟨_, rfl, member, records⟩
  · cases pending

theorem Waits.done {ending : Ending} (waits : process.Waits)
    (completes : process.Completes tables ending) (ready : tables.status? = some .ready) :
    ending = .done := by
  unfold Waits at waits
  split at waits
  · exact completes ready
  · cases waits

end Deployer

/-! ## Runs -/

section Runs

variable {state : DeployState} {pid : Nat} {before : Deployer} {input : Input DeployAnswer}
  {tables : ProjectTables} {process : Option Deployer}

/-- While a chain is ready, every contract has its row or a deployment that is about to write
it. -/
def DeployState.Covered (state : DeployState) : Prop :=
  state.shared.status? = some .ready →
    ∀ kind, state.shared.Settled kind ∨ state.Runs (Deployer.Pending state.shared kind)

end Runs

instance (tables : ProjectTables) (answer : DeployAnswer) (process : Deployer) :
    Decidable (process.Keeps tables answer) := by
  unfold Deployer.Keeps
  split <;> infer_instance

instance (tables : ProjectTables) (ending : Ending) (process : Deployer) :
    Decidable (process.Completes tables ending) := by
  unfold Deployer.Completes
  split <;> infer_instance

instance : DecidablePred Deployer.Waits := fun process => by
  unfold Deployer.Waits
  split <;> infer_instance

instance (state : DeployState) : DecidablePred state.Kept := fun action => by
  unfold DeployState.Kept
  split <;> infer_instance

instance (state : DeployState) : DecidablePred state.Finished := fun action => by
  unfold DeployState.Finished
  split <;> infer_instance

end CryptoVaultHub.CoreWallet

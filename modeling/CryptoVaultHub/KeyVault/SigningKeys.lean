import CryptoVaultHub.KeyVault.KeyGeneration

/-!
# The keys that sign for a wallet

A signing request names a client and a key type, so the vault answers with any
active key of that type which carries the client's id, whichever ceremony it
comes from. The signers of a wallet come from the keys listed when it was made.
The two agree exactly for the clients with one ceremony.
-/

namespace CryptoVaultHub.KeyVault

open TransitionSystem List Option

variable {Seed Address : Type}

/-! ## Signing requests -/

/-- The keys `decryptPrivateKey` may find. -/
def decryptPrivateKey (state : State Seed Address) (clientId : ClientId) (keyType : KeyType) :
    List (DerivedKey Address) :=
  state.derivedKeys.filter fun key => key.clientId = clientId ∧ key.keyType = keyType ∧ key.isActive

/-- The keys `decryptPrivateKeyForChain` may find: those of the chain, else the shared ones. -/
def decryptPrivateKeyForChain (state : State Seed Address) (clientId : ClientId)
    (keyType : KeyType) (chainId : ChainId) : List (DerivedKey Address) :=
  let inScope (scope : ChainScope) :=
    (decryptPrivateKey state clientId keyType).filter fun key => key.chainScope = scope
  if (inScope (.chain chainId)).isEmpty then inScope .evm else inScope (.chain chainId)

/-- The multisig calls: a withdrawal from the client's hot wallet, or the sweep of a
forwarder whose deposit carries a project of the client or none. -/
inductive Operation where
  | withdrawal (clientId : ClientId) (chainId : ChainId)
  | sweep (clientId : ClientId) (chainId : ChainId) (projectId : Option ProjectId)
deriving DecidableEq

def Operation.clientId : Operation → ClientId
  | .withdrawal clientId _ => clientId
  | .sweep clientId _ _ => clientId

def Operation.chainId : Operation → ChainId
  | .withdrawal _ chainId => chainId
  | .sweep _ chainId _ => chainId

/-- `getProjectHotWallet`. -/
def State.projectHotWallet? (state : State Seed Address) (projectId : ProjectId)
    (chainId : ChainId) : Option (List Address) :=
  (state.projectChains.find? fun deployed =>
    deployed.projectId = projectId ∧ deployed.chainId = chainId).map ProjectChain.signers

/-- The signers of the wallet that an operation is sent to (`resolveParentWallet`). -/
def Operation.signers? (settings : Settings) (state : State Seed Address) :
    Operation → Option (List Address)
  | .withdrawal clientId chainId => state.hotWallet? clientId chainId
  | .sweep clientId chainId none => state.hotWallet? clientId chainId
  | .sweep clientId chainId (some projectId) =>
    if settings.owner projectId = some clientId then
      (state.projectHotWallet? projectId chainId).or (state.hotWallet? clientId chainId)
    else none

/-- Whatever keys the vault finds, the sender and the co-signer are two different
signers of the wallet. -/
structure RightKeysSign (state : State Seed Address) (operation : Operation)
    (signers : List Address) : Prop where
  senders : decryptPrivateKeyForChain state operation.clientId .platform operation.chainId ≠ []
  cosigners : decryptPrivateKey state operation.clientId .backup ≠ []
  different : ∀ sender ∈ decryptPrivateKeyForChain state operation.clientId .platform
      operation.chainId, ∀ cosigner ∈ decryptPrivateKey state operation.clientId .backup,
    sender.address ≠ cosigner.address ∧ sender.address ∈ signers ∧ cosigner.address ∈ signers

/-- The client's signing keys belong to one project, or all of them to none: they come
from one call of `generateClientKeys` or `generateProjectKeys`. -/
@[reducible] def OneCeremony (state : State Seed Address) (clientId : ClientId) : Prop :=
  ∀ first ∈ state.derivedKeys, ∀ second ∈ state.derivedKeys,
    first.clientId = clientId → second.clientId = clientId →
    first.keyType ≠ .gasTank → second.keyType ≠ .gasTank → first.projectId = second.projectId

/-! ## What the rows say -/

/-- The seed that the signing keys of a project, or of a client, are derived from. -/
def State.seedOf (state : State Seed Address) : Option ProjectId → Option Seed
  | none => state.masterSeed
  | some projectId => state.projectSeed? projectId

/-- The path of a signing key. -/
def DerivedKey.signingPath (key : DerivedKey Address) : DerivationPath :=
  match key.projectId with
  | none => clientKeyPath key.clientId key.keyType.position
  | some _ => projectKeyPath key.keyType.position

/-- Two rows stand for the same key of one ceremony. -/
def DerivedKey.SameSource (first second : DerivedKey Address) : Prop :=
  first.clientId = second.clientId ∧ first.projectId = second.projectId ∧
    first.keyType = second.keyType

/-- How a signing key came to be. -/
structure DerivedKey.Generated (settings : Settings) (hd : HdWallet Seed Address)
    (state : State Seed Address) (key : DerivedKey Address) : Prop where
  shared : key.chainScope = .evm
  active : key.isActive = true
  owned : ∀ projectId, key.projectId = some projectId →
    settings.owner projectId = some key.clientId
  derived : ∃ seed, state.seedOf key.projectId = some seed ∧
    key.address = hd.address seed key.signingPath

/-- A wallet's signers are a platform, a client and a backup key of the client. -/
def SignersFrom (state : State Seed Address) (clientId : ClientId) (signers : List Address) :
    Prop :=
  ∃ platformKey ∈ state.derivedKeys, ∃ clientKey ∈ state.derivedKeys,
    ∃ backupKey ∈ state.derivedKeys,
      platformKey.clientId = clientId ∧ clientKey.clientId = clientId ∧
      backupKey.clientId = clientId ∧ platformKey.keyType = .platform ∧
      clientKey.keyType = .client ∧ backupKey.keyType = .backup ∧
      signers = [platformKey.address, clientKey.address, backupKey.address]

/-- What holds of the vault and the wallets in every state of every run. -/
structure WellFormed (settings : Settings) (hd : HdWallet Seed Address)
    (state : State Seed Address) : Prop where
  seeds : state.seeds.Nodup
  generated : ∀ key ∈ state.derivedKeys, key.keyType ≠ .gasTank →
    key.Generated settings hd state
  single : state.derivedKeys.Pairwise fun first second =>
    first.keyType ≠ .gasTank → ¬ first.SameSource second
  complete : ∀ key ∈ state.derivedKeys, key.keyType ≠ .gasTank →
    ∀ keyType, keyType ≠ .gasTank → ∃ other ∈ state.derivedKeys,
      other.clientId = key.clientId ∧ other.projectId = key.projectId ∧ other.keyType = keyType
  hotWallets : ∀ wallet ∈ state.wallets, ∀ signers, wallet.walletType = .hot signers →
    SignersFrom state wallet.clientId signers
  projectWallets : ∀ deployed ∈ state.projectChains, ∀ clientId,
    settings.owner deployed.projectId = some clientId →
      SignersFrom state clientId deployed.signers

/-! ## Rows and addresses -/

variable {state : State Seed Address}

theorem mem_decryptPrivateKey {clientId : ClientId} {keyType : KeyType} {key : DerivedKey Address} :
    key ∈ decryptPrivateKey state clientId keyType ↔
      key ∈ state.derivedKeys ∧ key.clientId = clientId ∧ key.keyType = keyType ∧
        key.isActive = true := by
  simp [decryptPrivateKey, mem_filter]

variable {settings : Settings} {hd : HdWallet Seed Address}

/-- Signing keys are shared by all chains, so the chain of a request does not matter. -/
theorem decryptPrivateKeyForChain_eq (wellFormed : WellFormed settings hd state)
    (clientId : ClientId) {keyType : KeyType} (signs : keyType ≠ .gasTank) (chainId : ChainId) :
    decryptPrivateKeyForChain state clientId keyType chainId =
      decryptPrivateKey state clientId keyType := by
  have shared : ∀ key ∈ decryptPrivateKey state clientId keyType, key.chainScope = .evm := by
    intro key found
    obtain ⟨row, _, typed, _⟩ := mem_decryptPrivateKey.mp found
    exact (wellFormed.generated key row (typed ▸ signs)).shared
  have none : (decryptPrivateKey state clientId keyType).filter
      (fun key => key.chainScope = .chain chainId) = [] := by
    rw [filter_eq_nil_iff]
    intro key found
    simp [shared key found]
  have all : (decryptPrivateKey state clientId keyType).filter
      (fun key => key.chainScope = .evm) = decryptPrivateKey state clientId keyType := by
    rw [filter_eq_self]
    intro key found
    simp [shared key found]
  simp [decryptPrivateKeyForChain, none, all]

/-- One row stands for each signing key of a ceremony. -/
theorem WellFormed.eq_of_sameSource (wellFormed : WellFormed settings hd state)
    {first second : DerivedKey Address} (left : first ∈ state.derivedKeys)
    (right : second ∈ state.derivedKeys) (signs : first.keyType ≠ .gasTank)
    (same : first.SameSource second) : first = second := by
  have symmetric : Std.Symm fun first second : DerivedKey Address =>
      first.keyType ≠ .gasTank → ¬ first.SameSource second := by
    constructor
    rintro first second apart signs ⟨client, project, keyType⟩
    exact apart (keyType ▸ signs) ⟨client.symm, project.symm, keyType.symm⟩
  by_contra different
  exact wellFormed.single.forall left right different signs same

/-- Different projects have different seeds, and none has the master seed. -/
theorem seedOf_injective (distinct : state.seeds.Nodup) {first second : Option ProjectId}
    {seed : Seed} (left : state.seedOf first = some seed) (right : state.seedOf second = some seed) :
    first = second := by
  rw [State.seeds, nodup_append] at distinct
  obtain ⟨_, projects, apart⟩ := distinct
  have member : ∀ {projectId : ProjectId}, state.projectSeed? projectId = some seed →
      (projectId, seed) ∈ state.projectSeeds := by
    intro projectId found
    obtain ⟨⟨owner, stored⟩, entry, rfl⟩ := map_eq_some_iff.mp found
    have same := find?_some entry
    simp only [decide_eq_true_eq] at same
    exact same ▸ mem_of_find?_eq_some entry
  have notMaster : ∀ {projectId : ProjectId}, state.masterSeed = some seed →
      state.projectSeed? projectId ≠ some seed := by
    intro projectId master found
    have inProjects := mem_map_of_mem (f := Prod.snd) (member found)
    exact apart seed (by simp [master]) seed inProjects rfl
  cases first with
  | none =>
    cases second with
    | none => rfl
    | some projectId => exact absurd right (notMaster left)
  | some projectId =>
    cases second with
    | none => exact absurd left (notMaster right)
    | some other =>
      have same := inj_on_of_nodup_map projects (member left) (member right) rfl
      cases same
      rfl

theorem KeyType.position_lt {keyType : KeyType} (signs : keyType ≠ .gasTank) :
    keyType.position < 3 := by
  cases keyType with
  | platform | client | backup => decide
  | gasTank => exact absurd rfl signs

theorem KeyType.position_injective : Function.Injective KeyType.position := by
  intro first second same
  cases first <;> cases second <;> first | rfl | cases same

theorem clientKeyPath_injective {clientId other : Nat} {i j : Nat} (first : i < 3) (second : j < 3)
    (same : clientKeyPath clientId i = clientKeyPath other j) : clientId = other ∧ i = j := by
  have index : clientId * 3 + i = other * 3 + j := by
    simpa [clientKeyPath, ethereumPath] using same
  omega

/-- Signing keys with one address stand for the same key. -/
theorem WellFormed.sameSource_of_address (wellFormed : WellFormed settings hd state)
    (distinct : hd.Distinct) {first second : DerivedKey Address} (left : first ∈ state.derivedKeys)
    (right : second ∈ state.derivedKeys) (leftSigns : first.keyType ≠ .gasTank)
    (rightSigns : second.keyType ≠ .gasTank) (same : first.address = second.address) :
    first.SameSource second := by
  obtain ⟨seed, leftSeed, leftAddress⟩ := (wellFormed.generated first left leftSigns).derived
  obtain ⟨other, rightSeed, rightAddress⟩ := (wellFormed.generated second right rightSigns).derived
  obtain ⟨rfl, paths⟩ := distinct (leftAddress.symm.trans (same.trans rightAddress))
  have project := seedOf_injective wellFormed.seeds leftSeed rightSeed
  have owned := (wellFormed.generated first left leftSigns).owned
  have otherOwned := (wellFormed.generated second right rightSigns).owned
  have leftIndex := KeyType.position_lt leftSigns
  have rightIndex := KeyType.position_lt rightSigns
  obtain ⟨client, keyType⟩ : first.clientId = second.clientId ∧
      first.keyType.position = second.keyType.position := by
    cases belongs : first.projectId with
    | none =>
      simp only [DerivedKey.signingPath, ← project, belongs] at paths
      exact clientKeyPath_injective leftIndex rightIndex paths
    | some projectId =>
      have alike : first.keyType.position = second.keyType.position := by
        simpa [DerivedKey.signingPath, ← project, belongs, projectKeyPath, ethereumPath] using paths
      have mine := owned projectId belongs
      rw [otherOwned projectId (project ▸ belongs)] at mine
      exact ⟨(Option.some.inj mine).symm, alike⟩
  exact ⟨client, project, KeyType.position_injective keyType⟩

/-! ## Signers and signing requests -/

variable {signers : List Address}

theorem WellFormed.signersFrom_hotWallet (wellFormed : WellFormed settings hd state)
    {clientId : ClientId} {chainId : ChainId}
    (found : state.hotWallet? clientId chainId = some signers) :
    SignersFrom state clientId signers := by
  obtain ⟨wallet, stored, matched⟩ := exists_of_findSome?_eq_some found
  split at matched
  · rename_i owned
    split at matched
    · rename_i kind
      cases matched
      exact owned.1 ▸ wellFormed.hotWallets wallet stored _ kind
    · cases matched
  · cases matched

variable {operation : Operation}

/-- Every operation is sent to a wallet whose signers are keys of the client. -/
theorem WellFormed.signersFrom (wellFormed : WellFormed settings hd state)
    (sentTo : operation.signers? settings state = some signers) :
    SignersFrom state operation.clientId signers := by
  rcases operation with ⟨clientId, chainId⟩ | ⟨clientId, chainId, _ | projectId⟩
  · exact wellFormed.signersFrom_hotWallet sentTo
  · exact wellFormed.signersFrom_hotWallet sentTo
  · simp only [Operation.signers?] at sentTo
    split at sentTo
    · rename_i owned
      obtain project | ⟨_, hot⟩ := or_eq_some_iff.mp sentTo
      · obtain ⟨deployed, entry, rfl⟩ := map_eq_some_iff.mp project
        have same := find?_some entry
        simp only [decide_eq_true_eq] at same
        exact wellFormed.projectWallets deployed (mem_of_find?_eq_some entry) clientId
          (same.1 ▸ owned)
      · exact wellFormed.signersFrom_hotWallet hot
    · cases sentTo

/-- An address among the signers belongs to one of the three keys, of its type. -/
theorem WellFormed.eq_of_signer (wellFormed : WellFormed settings hd state) (distinct : hd.Distinct)
    {key : DerivedKey Address} {signer : DerivedKey Address} (stored : key ∈ state.derivedKeys)
    (signerStored : signer ∈ state.derivedKeys) (signs : key.keyType ≠ .gasTank)
    (signerSigns : signer.keyType ≠ .gasTank) (same : key.address = signer.address) :
    key = signer :=
  wellFormed.eq_of_sameSource stored signerStored signs
    (wellFormed.sameSource_of_address distinct stored signerStored signs signerSigns same)

/-- One ceremony makes every found key one of the three signers. -/
theorem rightKeysSign_of_oneCeremony (wellFormed : WellFormed settings hd state)
    (distinct : hd.Distinct) (made : SignersFrom state operation.clientId signers)
    (one : OneCeremony state operation.clientId) : RightKeysSign state operation signers := by
  obtain ⟨platformKey, platformRow, clientKey, _, backupKey, backupRow, platformOwned, _,
    backupOwned, platformType, _, backupType, rfl⟩ := made
  have platformSigns : platformKey.keyType ≠ .gasTank := by simp [platformType]
  have backupSigns : backupKey.keyType ≠ .gasTank := by simp [backupType]
  have platformFound : platformKey ∈ decryptPrivateKey state operation.clientId .platform :=
    mem_decryptPrivateKey.mpr ⟨platformRow, platformOwned, platformType,
      (wellFormed.generated platformKey platformRow platformSigns).active⟩
  have backupFound : backupKey ∈ decryptPrivateKey state operation.clientId .backup :=
    mem_decryptPrivateKey.mpr ⟨backupRow, backupOwned, backupType,
      (wellFormed.generated backupKey backupRow backupSigns).active⟩
  -- Any key of the client with the signer's type comes from the signer's ceremony.
  have only : ∀ {keyType : KeyType} {key signer : DerivedKey Address},
      key ∈ decryptPrivateKey state operation.clientId keyType → signer ∈ state.derivedKeys →
      signer.clientId = operation.clientId → signer.keyType = keyType → keyType ≠ .gasTank →
      key = signer := by
    intro keyType key signer found stored owned typed signs
    obtain ⟨row, client, same, _⟩ := mem_decryptPrivateKey.mp found
    have keySigns : key.keyType ≠ .gasTank := same ▸ signs
    refine wellFormed.eq_of_sameSource row stored keySigns
      ⟨client.trans owned.symm, ?_, same.trans typed.symm⟩
    exact one key row signer stored client owned keySigns (typed ▸ signs)
  constructor
  · rw [decryptPrivateKeyForChain_eq wellFormed operation.clientId (by decide)]
    exact ne_nil_of_mem platformFound
  · exact ne_nil_of_mem backupFound
  · intro sender sends cosigner cosigns
    rw [decryptPrivateKeyForChain_eq wellFormed operation.clientId (by decide)] at sends
    cases only sends platformRow platformOwned platformType (by decide)
    cases only cosigns backupRow backupOwned backupType (by decide)
    refine ⟨?_, by simp, by simp⟩
    intro same
    cases wellFormed.eq_of_signer distinct platformRow backupRow platformSigns backupSigns same
    rw [platformType] at backupType
    cases backupType

/-- A platform key of another ceremony is not among the signers. -/
theorem oneCeremony_of_rightKeysSign (wellFormed : WellFormed settings hd state)
    (distinct : hd.Distinct) (made : SignersFrom state operation.clientId signers)
    (right : RightKeysSign state operation signers) : OneCeremony state operation.clientId := by
  obtain ⟨platformKey, platformRow, clientKey, clientRow, backupKey, backupRow, _, _, _,
    platformType, clientType, backupType, rfl⟩ := made
  obtain ⟨cosigner, cosigns⟩ := exists_mem_of_ne_nil _ right.cosigners
  have project : ∀ key ∈ state.derivedKeys, key.clientId = operation.clientId →
      key.keyType ≠ .gasTank → key.projectId = platformKey.projectId := by
    intro key row owned signs
    obtain ⟨sender, senderRow, client, same, typed⟩ :=
      wellFormed.complete key row signs .platform (by decide)
    have senderSigns : sender.keyType ≠ .gasTank := by simp [typed]
    have sends : sender ∈ decryptPrivateKeyForChain state operation.clientId .platform
        operation.chainId := by
      rw [decryptPrivateKeyForChain_eq wellFormed operation.clientId (by decide)]
      exact mem_decryptPrivateKey.mpr ⟨senderRow, client.trans owned, typed,
        (wellFormed.generated sender senderRow senderSigns).active⟩
    obtain ⟨_, signer, _⟩ := right.different sender sends cosigner cosigns
    simp only [mem_cons, not_mem_nil, or_false] at signer
    rcases signer with platform | client | backup
    · cases wellFormed.eq_of_signer distinct senderRow platformRow senderSigns
        (by simp [platformType]) platform
      exact same.symm
    · cases wellFormed.eq_of_signer distinct senderRow clientRow senderSigns
        (by simp [clientType]) client
      rw [clientType] at typed
      cases typed
    · cases wellFormed.eq_of_signer distinct senderRow backupRow senderSigns
        (by simp [backupType]) backup
      rw [backupType] at typed
      cases typed
  intro first left second inside leftOwned rightOwned leftSigns rightSigns
  exact (project first left leftOwned leftSigns).trans
    (project second inside rightOwned rightSigns).symm

end CryptoVaultHub.KeyVault

import CryptoVaultHub.KeyVault.SigningKeys

/-!
# Right keys in every run

Every request keeps the vault and the wallets well formed: seeds are only added,
a ceremony adds its three keys at once and at most once, and a wallet takes its
signers from the keys that are there. So in every state of every run the keys
that sign for a wallet are the right ones exactly when the client's keys come
from one ceremony.
-/

namespace CryptoVaultHub.KeyVault

open TransitionSystem List

variable {Seed Address : Type}

/-! ## Growth -/

/-- Keys and seeds that are there stay there. -/
structure State.Grows (state next : State Seed Address) : Prop where
  keys : ∀ key ∈ state.derivedKeys, key ∈ next.derivedKeys
  seeds : ∀ projectId seed, state.seedOf projectId = some seed →
    next.seedOf projectId = some seed

variable {settings : Settings} {hd : HdWallet Seed Address} {key : DerivedKey Address}

theorem DerivedKey.Generated.grow {state next : State Seed Address}
    (generated : key.Generated settings hd state) (grows : state.Grows next) :
    key.Generated settings hd next := by
  obtain ⟨seed, stored, address⟩ := generated.derived
  exact ⟨generated.shared, generated.active, generated.owned, seed, grows.seeds _ _ stored, address⟩

variable {clientId : ClientId}

theorem SignersFrom.grow {state next : State Seed Address} {signers : List Address}
    (made : SignersFrom state clientId signers) (grows : state.Grows next) :
    SignersFrom next clientId signers := by
  obtain ⟨platformKey, platformRow, clientKey, clientRow, backupKey, backupRow, rest⟩ := made
  exact ⟨platformKey, grows.keys _ platformRow, clientKey, grows.keys _ clientRow, backupKey,
    grows.keys _ backupRow, rest⟩

theorem grows_append (state : State Seed Address) (keys : List (DerivedKey Address)) :
    state.Grows { state with derivedKeys := state.derivedKeys ++ keys } where
  keys := fun _ stored => mem_append_left _ stored
  seeds := by
    intro projectId seed stored
    cases projectId with
    | none => exact stored
    | some _ => exact stored

/-! ## Seeds -/

theorem WellFormed.initial : WellFormed settings hd (State.initial : State Seed Address) := by
  constructor <;> simp [State.initial, State.seeds]

variable {state : State Seed Address} {entropy : Seed}

theorem WellFormed.setMasterSeed (wellFormed : WellFormed settings hd state)
    (fresh : entropy ∉ state.seeds) (unset : state.masterSeed = none) :
    WellFormed settings hd { state with masterSeed := some entropy } := by
  have grows : state.Grows { state with masterSeed := some entropy } := by
    refine ⟨fun _ stored => stored, ?_⟩
    intro projectId seed stored
    cases projectId with
    | none =>
      rw [State.seedOf, unset] at stored
      cases stored
    | some _ => exact stored
  constructor
  · have before := wellFormed.seeds
    simp only [State.seeds, unset, Option.toList_none, nil_append] at fresh before
    simpa [State.seeds] using ⟨by simpa using fresh, before⟩
  · exact fun key stored signs => (wellFormed.generated key stored signs).grow grows
  · exact wellFormed.single
  · exact wellFormed.complete
  · exact fun wallet stored signers hot => (wellFormed.hotWallets wallet stored signers hot).grow grows
  · exact fun deployed stored clientId owned =>
      (wellFormed.projectWallets deployed stored clientId owned).grow grows

theorem projectSeed?_append {projectId other : ProjectId} {seed entropy : Seed}
    (found : state.projectSeed? projectId = some seed) :
    State.projectSeed?
      { state with projectSeeds := state.projectSeeds ++ [(other, entropy)] } projectId =
        some seed := by
  obtain ⟨entry, stored, rfl⟩ := Option.map_eq_some_iff.mp found
  simp [State.projectSeed?, List.find?_append, stored]

variable {projectId : ProjectId}

theorem WellFormed.addProjectSeed (wellFormed : WellFormed settings hd state)
    (fresh : entropy ∉ state.seeds) :
    WellFormed settings hd
      { state with projectSeeds := state.projectSeeds ++ [(projectId, entropy)] } := by
  have grows : state.Grows
      { state with projectSeeds := state.projectSeeds ++ [(projectId, entropy)] } := by
    refine ⟨fun _ stored => stored, ?_⟩
    intro owner seed stored
    cases owner with
    | none => exact stored
    | some _ => exact projectSeed?_append stored
  constructor
  · have seeds : State.seeds
        { state with projectSeeds := state.projectSeeds ++ [(projectId, entropy)] } =
          state.seeds ++ [entropy] := by
      simp [State.seeds]
    rw [seeds, nodup_append]
    refine ⟨wellFormed.seeds, by simp, ?_⟩
    intro seed stored other last
    rw [mem_singleton.mp last]
    exact fun same => fresh (same ▸ stored)
  · exact fun key stored signs => (wellFormed.generated key stored signs).grow grows
  · exact wellFormed.single
  · exact wellFormed.complete
  · exact fun wallet stored signers hot => (wellFormed.hotWallets wallet stored signers hot).grow grows
  · exact fun deployed stored clientId owned =>
      (wellFormed.projectWallets deployed stored clientId owned).grow grows

theorem getOrCreateMasterSeed_spec (wellFormed : WellFormed settings hd state)
    (fresh : entropy ∉ state.seeds) :
    WellFormed settings hd (getOrCreateMasterSeed state entropy).1 ∧
      (getOrCreateMasterSeed state entropy).1.masterSeed =
        some (getOrCreateMasterSeed state entropy).2 := by
  unfold getOrCreateMasterSeed
  cases set : state.masterSeed with
  | some seed => exact ⟨wellFormed, set⟩
  | none => exact ⟨wellFormed.setMasterSeed fresh set, rfl⟩

/-! ## Keys -/

/-- Gas tank keys are no signing keys. -/
theorem WellFormed.addGasTankKey (wellFormed : WellFormed settings hd state)
    (gasTank : key.keyType = .gasTank) :
    WellFormed settings hd { state with derivedKeys := state.derivedKeys ++ [key] } := by
  have grows := grows_append state [key]
  constructor
  · exact wellFormed.seeds
  · intro other stored signs
    rcases mem_append.mp stored with old | new
    · exact (wellFormed.generated other old signs).grow grows
    · cases mem_singleton.mp new
      exact absurd gasTank signs
  · rw [pairwise_append]
    refine ⟨wellFormed.single, by simp, ?_⟩
    intro first _ second new signs same
    cases mem_singleton.mp new
    exact signs (same.2.2.trans gasTank)
  · intro other stored signs keyType typed
    rcases mem_append.mp stored with old | new
    · obtain ⟨found, row, rest⟩ := wellFormed.complete other old signs keyType typed
      exact ⟨found, grows.keys _ row, rest⟩
    · cases mem_singleton.mp new
      exact absurd gasTank signs
  · exact fun wallet stored signers hot => (wellFormed.hotWallets wallet stored signers hot).grow grows
  · exact fun deployed stored clientId owned =>
      (wellFormed.projectWallets deployed stored clientId owned).grow grows

/-- The row of a signing key. -/
def signingKey (hd : HdWallet Seed Address) (seed : Seed) (clientId : ClientId)
    (projectId : Option ProjectId) (path : Nat → DerivationPath) (keyType : KeyType) :
    DerivedKey Address where
  clientId := clientId
  projectId := projectId
  keyType := keyType
  chainScope := .evm
  address := hd.address seed (path keyType.position)
  derivationPath := path keyType.position
  isActive := true

theorem deriveKey_keyType {seed : Seed} {projectId : Option ProjectId} {chainScope : ChainScope}
    {keyType : KeyType} {path : DerivationPath}
    (derived : deriveKey hd seed clientId projectId chainScope keyType path = some key) :
    key.keyType = keyType := by
  obtain ⟨address, _, rfl⟩ := Option.map_eq_some_iff.mp derived
  rfl

variable {keys : List (DerivedKey Address)}

theorem signingKeys_eq {seed : Seed} {projectId : Option ProjectId} {path : Nat → DerivationPath}
    (derived : signingKeys hd seed clientId projectId path = some keys) :
    keys = [KeyType.platform, .client, .backup].map
      (signingKey hd seed clientId projectId path) := by
  simp only [signingKeys, deriveKey, HdWallet.derivePath, mapM_cons, mapM_nil,
    Option.map_if, Option.bind_eq_bind, Option.pure_def, Option.bind_eq_some_iff,
    Option.ite_none_right_eq_some, Option.some.injEq] at derived
  obtain ⟨_, ⟨_, rfl⟩, _, ⟨_, ⟨_, rfl⟩, _, ⟨_, ⟨_, rfl⟩, _, rfl, rfl⟩, rfl⟩, rfl⟩ := derived
  rfl

/-- A ceremony adds its three keys; the client or project had none. -/
theorem WellFormed.addSigningKeys (wellFormed : WellFormed settings hd state) {seed : Seed}
    {projectId : Option ProjectId} {path : Nat → DerivationPath}
    (derived : signingKeys hd seed clientId projectId path = some keys)
    (stored : state.seedOf projectId = some seed)
    (owned : ∀ project, projectId = some project → settings.owner project = some clientId)
    (paths : ∀ keyType, (signingKey hd seed clientId projectId path keyType).signingPath =
      path keyType.position)
    (none : ∀ key ∈ state.derivedKeys, ¬(key.clientId = clientId ∧ key.projectId = projectId)) :
    WellFormed settings hd { state with derivedKeys := state.derivedKeys ++ keys } := by
  have grows := grows_append state keys
  have shape := signingKeys_eq derived
  have new : ∀ key ∈ keys, ∃ keyType, keyType ≠ .gasTank ∧
      key = signingKey hd seed clientId projectId path keyType := by
    intro key member
    rw [shape, mem_map] at member
    obtain ⟨keyType, listed, rfl⟩ := member
    refine ⟨keyType, ?_, rfl⟩
    rintro rfl
    simp at listed
  constructor
  · exact wellFormed.seeds
  · intro key member signs
    rcases mem_append.mp member with old | added
    · exact (wellFormed.generated key old signs).grow grows
    · obtain ⟨keyType, _, rfl⟩ := new key added
      exact ⟨rfl, rfl, owned, seed, grows.seeds _ _ stored, by rw [paths]; rfl⟩
  · rw [pairwise_append]
    refine ⟨wellFormed.single, ?_, ?_⟩
    · rw [shape]
      simp [DerivedKey.SameSource, signingKey]
    · intro first old second added _ same
      obtain ⟨keyType, _, rfl⟩ := new second added
      exact none first old ⟨same.1, same.2.1⟩
  · intro key member signs keyType typed
    rcases mem_append.mp member with old | added
    · obtain ⟨found, row, rest⟩ := wellFormed.complete key old signs keyType typed
      exact ⟨found, grows.keys _ row, rest⟩
    · obtain ⟨_, _, rfl⟩ := new key added
      refine ⟨signingKey hd seed clientId projectId path keyType, ?_, rfl, rfl, rfl⟩
      refine mem_append_right _ ?_
      rw [shape]
      cases keyType with
      | platform | client | backup => simp
      | gasTank => exact absurd rfl typed
  · exact fun wallet row signers hot => (wellFormed.hotWallets wallet row signers hot).grow grows
  · exact fun deployed row client owner =>
      (wellFormed.projectWallets deployed row client owner).grow grows

theorem generateClientKeys_wellFormed (wellFormed : WellFormed settings hd state)
    (fresh : entropy ∉ state.seeds) :
    WellFormed settings hd (generateClientKeys hd state clientId entropy) := by
  obtain ⟨seeded, master⟩ := getOrCreateMasterSeed_spec wellFormed fresh
  unfold generateClientKeys
  generalize getOrCreateMasterSeed state entropy = created at seeded master ⊢
  obtain ⟨state, seed⟩ := created
  simp only at seeded master ⊢
  cases generated : clientKeys hd state seed clientId with
  | none => simpa using seeded
  | some keys =>
    unfold clientKeys at generated
    split at generated
    · cases generated
    · rename_i unused
      refine seeded.addSigningKeys generated master (by simp) (fun _ => rfl) ?_
      rintro key row ⟨owned, _⟩
      exact unused (any_eq_true.mpr ⟨key, row, by simpa using owned⟩)

theorem generateProjectKeys_wellFormed {state next : State Seed Address}
    (wellFormed : WellFormed settings hd state)
    (generated : generateProjectKeys settings hd state projectId clientId = some next) :
    WellFormed settings hd next := by
  obtain ⟨seed, stored, checked⟩ := Option.bind_eq_some_iff.mp generated
  split at checked
  · cases checked
  · rename_i owned
    split at checked
    · cases checked
    · rename_i unused
      obtain ⟨keys, derived, same⟩ := Option.bind_eq_some_iff.mp checked
      cases same
      refine wellFormed.addSigningKeys derived stored ?_ (fun _ => rfl) ?_
      · intro project same
        cases same
        simpa using owned
      · rintro key row ⟨_, project⟩
        exact unused (any_eq_true.mpr ⟨key, row, by simpa using project⟩)

/-! ## Wallets -/

/-- Changing the wallets owes their signers. -/
theorem WellFormed.setWallets (wellFormed : WellFormed settings hd state)
    {wallets : List (Wallet Address)} {projectChains : List (ProjectChain Address)}
    (hot : ∀ wallet ∈ wallets, ∀ signers, wallet.walletType = .hot signers →
      SignersFrom state wallet.clientId signers)
    (projects : ∀ deployed ∈ projectChains, ∀ clientId,
      settings.owner deployed.projectId = some clientId →
        SignersFrom state clientId deployed.signers) :
    WellFormed settings hd { state with wallets := wallets, projectChains := projectChains } := by
  have grows : state.Grows { state with wallets := wallets, projectChains := projectChains } := by
    refine ⟨fun _ stored => stored, ?_⟩
    intro projectId seed stored
    cases projectId with
    | none => exact stored
    | some _ => exact stored
  constructor
  · exact wellFormed.seeds
  · exact fun key stored signs => (wellFormed.generated key stored signs).grow grows
  · exact wellFormed.single
  · exact wellFormed.complete
  · exact fun wallet stored signers kind => (hot wallet stored signers kind).grow grows
  · exact fun deployed stored clientId owned => (projects deployed stored clientId owned).grow grows

theorem signersOf_from {signers : List Address}
    (listed : ∀ key ∈ keys, key.keyType ≠ .gasTank →
      key ∈ state.derivedKeys ∧ key.clientId = clientId) (chosen : signersOf keys = some signers) :
    SignersFrom state clientId signers := by
  have found : ∀ {keyType : KeyType} {key : DerivedKey Address},
      keyType ≠ .gasTank → keys.find? (fun key => key.keyType = keyType) = some key →
        (key ∈ state.derivedKeys ∧ key.clientId = clientId) ∧ key.keyType = keyType := by
    intro keyType key signs entry
    have typed : key.keyType = keyType := by simpa using find?_some entry
    exact ⟨listed key (mem_of_find?_eq_some entry) (typed ▸ signs), typed⟩
  simp only [signersOf, Option.bind_eq_bind, Option.bind_eq_some_iff, Option.pure_def,
    Option.some.injEq] at chosen
  obtain ⟨platformKey, first, clientKey, second, backupKey, third, rfl⟩ := chosen
  obtain ⟨⟨platformRow, platformOwned⟩, platformType⟩ := found (by decide) first
  obtain ⟨⟨clientRow, clientOwned⟩, clientType⟩ := found (by decide) second
  obtain ⟨⟨backupRow, backupOwned⟩, backupType⟩ := found (by decide) third
  exact ⟨platformKey, platformRow, clientKey, clientRow, backupKey, backupRow, platformOwned,
    clientOwned, backupOwned, platformType, clientType, backupType, rfl⟩

theorem createWallets_wellFormed [DecidableEq Address] {state next : State Seed Address}
    (wellFormed : WellFormed settings hd state) {chainId : ChainId}
    {order : List (DerivedKey Address)} (fresh : entropy ∉ state.seeds)
    (created : createWallets settings hd state clientId chainId order entropy = some next) :
    WellFormed settings hd next := by
  unfold createWallets at created
  split at created
  · cases created
  · have keyed : WellFormed settings hd
        (if (state.publicKeys clientId).isEmpty then generateClientKeys hd state clientId entropy
          else state) := by
      split
      · exact generateClientKeys_wellFormed wellFormed fresh
      · exact wellFormed
    generalize (if (state.publicKeys clientId).isEmpty then
      generateClientKeys hd state clientId entropy else state) = middle at keyed created
    simp only at created
    split at created
    · rename_i permuted
      obtain ⟨signers, chosen, continued⟩ := Option.bind_eq_some_iff.mp created
      obtain ⟨gasTankKey, derived, same⟩ := Option.bind_eq_some_iff.mp continued
      cases same
      obtain ⟨seed, _, key⟩ := Option.bind_eq_some_iff.mp derived
      have grown := keyed.addGasTankKey (deriveKey_keyType key)
      have grows := grows_append middle [gasTankKey]
      have made : SignersFrom middle clientId signers := by
        refine signersOf_from ?_ chosen
        intro listed member _
        have row := (isPerm_iff.mp permuted).mem_iff.mp member
        simpa [State.publicKeys] using row
      refine grown.setWallets ?_ grown.projectWallets
      intro wallet stored chosenSigners hot
      rcases mem_append.mp stored with old | new
      · exact grown.hotWallets wallet old chosenSigners hot
      · simp only [mem_cons, not_mem_nil, or_false] at new
        rcases new with rfl | rfl
        · cases hot
          exact made.grow grows
        · cases hot
    · cases created

theorem registerGasTank_wellFormed {state next : State Seed Address}
    (wellFormed : WellFormed settings hd state) {chainId : ChainId} {address : Address}
    (registered : registerGasTank state clientId projectId chainId address = some next) :
    WellFormed settings hd next := by
  unfold registerGasTank at registered
  split at registered
  · cases registered
  · cases registered
    refine wellFormed.setWallets ?_ wellFormed.projectWallets
    intro wallet stored signers hot
    rcases mem_append.mp stored with old | new
    · exact wellFormed.hotWallets wallet old signers hot
    · cases mem_singleton.mp new
      cases hot

theorem deployProjectChain_wellFormed [DecidableEq Address] {state next : State Seed Address}
    (wellFormed : WellFormed settings hd state) {chainId : ChainId}
    {order : List (DerivedKey Address)}
    (deployed : deployProjectChain settings state projectId clientId chainId order = some next) :
    WellFormed settings hd next := by
  unfold deployProjectChain at deployed
  split at deployed
  · cases deployed
  · split at deployed
    · cases deployed
    · split at deployed
      · cases deployed
      · split at deployed
        · rename_i permuted
          obtain ⟨signers, chosen, same⟩ := Option.bind_eq_some_iff.mp deployed
          cases same
          refine wellFormed.setWallets wellFormed.hotWallets ?_
          intro entry stored owner owns
          rcases mem_append.mp stored with old | new
          · exact wellFormed.projectWallets entry old owner owns
          · cases mem_singleton.mp new
            refine signersOf_from ?_ chosen
            intro key member signs
            have row := (isPerm_iff.mp permuted).mem_iff.mp member
            simp only [State.projectPublicKeys, mem_filter, decide_eq_true_eq,
              Bool.decide_and, Bool.and_eq_true] at row
            have owner := (wellFormed.generated key row.1 signs).owned projectId row.2.1
            exact ⟨row.1, Option.some.inj (owner.symm.trans owns)⟩
        · cases deployed

/-! ## Runs -/

section Runs

variable [DecidableEq Seed] [DecidableEq Address]

theorem step_wellFormed {settings : Settings} {hd : HdWallet Seed Address}
    {state next : State Seed Address} {action : Action Seed Address}
    (wellFormed : WellFormed settings hd state)
    (transition : step settings hd state action = some next) : WellFormed settings hd next := by
  cases action with
  | generateClientKeys clientId entropy =>
    simp only [step] at transition
    split at transition
    · cases transition
    · rename_i fresh
      cases transition
      exact generateClientKeys_wellFormed wellFormed fresh
  | generateProjectSeed projectId entropy =>
    simp only [step, generateProjectSeed] at transition
    split at transition
    · cases transition
    · rename_i fresh
      split at transition
      · cases transition
        exact wellFormed.addProjectSeed fresh
      · cases transition
  | generateProjectKeys projectId clientId =>
    exact generateProjectKeys_wellFormed wellFormed transition
  | deriveGasTankKey clientId chainId =>
    obtain ⟨key, derived, same⟩ := Option.bind_eq_some_iff.mp transition
    obtain ⟨seed, _, row⟩ := Option.bind_eq_some_iff.mp derived
    cases same
    exact wellFormed.addGasTankKey (deriveKey_keyType row)
  | deriveProjectGasTankKey projectId clientId chainId =>
    obtain ⟨seed, _, checked⟩ := Option.bind_eq_some_iff.mp transition
    split at checked
    · cases checked
    · split at checked
      · cases checked
      · obtain ⟨key, row, same⟩ := Option.bind_eq_some_iff.mp checked
        cases same
        exact wellFormed.addGasTankKey (deriveKey_keyType row)
  | createWallets clientId chainId order entropy =>
    simp only [step] at transition
    split at transition
    · cases transition
    · rename_i fresh
      exact createWallets_wellFormed wellFormed fresh transition
  | registerGasTank clientId projectId chainId address =>
    exact registerGasTank_wellFormed wellFormed transition
  | deployProjectChain projectId clientId chainId order =>
    exact deployProjectChain_wellFormed wellFormed transition

theorem wellFormed_reachable {settings : Settings} {hd : HdWallet Seed Address}
    {state : State Seed Address} (reached : (system settings hd).Reachable Unrestricted state) :
    WellFormed settings hd state := by
  refine reached.invariant ?_ ?_
  · rintro start rfl
    exact .initial
  · exact fun state action next wellFormed _ transition => step_wellFormed wellFormed transition

/-- In every state of every run, the keys the vault finds for an operation are two
different signers of its wallet exactly when the client's keys come from one
ceremony. -/
theorem right_keys_sign_iff {settings : Settings} {hd : HdWallet Seed Address}
    (distinct : hd.Distinct) {state : State Seed Address}
    (reached : (system settings hd).Reachable Unrestricted state) {operation : Operation}
    {signers : List Address} (sentTo : operation.signers? settings state = some signers) :
    RightKeysSign state operation signers ↔ OneCeremony state operation.clientId := by
  have wellFormed := wellFormed_reachable reached
  have made := wellFormed.signersFrom sentTo
  exact ⟨oneCeremony_of_rightKeysSign wellFormed distinct made,
    rightKeysSign_of_oneCeremony wellFormed distinct made⟩

end Runs

/-! ## A client with a project -/

/-- Addresses that name their seed and path. -/
def sampleHd : HdWallet Nat (Nat × DerivationPath) := ⟨Prod.mk⟩

theorem sampleHd_distinct : sampleHd.Distinct := by
  intro first second path other same
  exact Prod.mk.inj same

/-- Project 5 belongs to client 7; every chain is ready. -/
def sampleSettings : Settings where
  owner projectId := if projectId = 5 then some 7 else none
  defaultProject _ := none
  chainReady _ := true

/-- The keys of client 7, from the master seed 11. -/
def sampleClientKeys : List (DerivedKey (Nat × DerivationPath)) :=
  [KeyType.platform, .client, .backup].map (signingKey sampleHd 11 7 none (clientKeyPath 7))

/-- The keys of project 5, from its seed 13. -/
def sampleProjectKeys : List (DerivedKey (Nat × DerivationPath)) :=
  [KeyType.platform, .client, .backup].map (signingKey sampleHd 13 7 (some 5) projectKeyPath)

theorem right_keys_sign_sample :
    ∃ state : State Nat (Nat × DerivationPath),
      (RightKeysSign state (.withdrawal 7 1) (sampleClientKeys.map DerivedKey.address) ↔
        OneCeremony state 7) ∧ OneCeremony state 7 := by
  obtain ⟨state, reached, sentTo, one⟩ : ∃ state,
      (system sampleSettings sampleHd).Reachable Unrestricted state ∧
      Operation.signers? sampleSettings state (.withdrawal 7 1) =
        some (sampleClientKeys.map DerivedKey.address) ∧ OneCeremony state 7 :=
    exists_reachable rfl
      [.generateClientKeys 7 11, .createWallets 7 1 sampleClientKeys 12] (by decide +kernel)
  exact ⟨state, right_keys_sign_iff sampleHd_distinct reached sentTo, one⟩

/-- The client gets keys, then its project, and the project is deployed on chain 2. -/
def clientThenProject : List (Action Nat (Nat × DerivationPath)) :=
  [.generateClientKeys 7 11, .generateProjectSeed 5 13, .generateProjectKeys 5 7,
    .registerGasTank 7 5 2 (13, gasTankPath 2 0), .deployProjectChain 5 7 2 sampleProjectKeys]

/-- The sweep of the project's forwarders is signed by the client's platform key,
which the vault finds first and the project's wallet does not know. -/
theorem wrong_keys_sign :
    ¬ ∀ (settings : Settings) (state : State Nat (Nat × DerivationPath)) (operation : Operation)
      (signers : List (Nat × DerivationPath)),
      (system settings sampleHd).Reachable Unrestricted state →
        operation.signers? settings state = some signers →
          RightKeysSign state operation signers := by
  intro always
  obtain ⟨state, reached, sentTo, first, found, unlike⟩ : ∃ state,
      (system sampleSettings sampleHd).Reachable Unrestricted state ∧
      Operation.signers? sampleSettings state (.sweep 7 2 (some 5)) =
          some (sampleProjectKeys.map DerivedKey.address) ∧
        (decryptPrivateKeyForChain state 7 .platform 2).head? = sampleClientKeys.head? ∧
        decryptPrivateKey state 7 .backup ≠ [] ∧
        ∀ key ∈ sampleClientKeys, key.address ∉ sampleProjectKeys.map DerivedKey.address :=
    exists_reachable rfl clientThenProject (by decide +kernel)
  obtain ⟨cosigner, cosigns⟩ := exists_mem_of_ne_nil _ found
  have right := always sampleSettings state _ _ reached sentTo
  have sends := mem_of_mem_head? first
  exact unlike _ (by decide) (right.different _ sends cosigner cosigns).2.1

end CryptoVaultHub.KeyVault

import CryptoVaultHub.CoreWallet.Provisioning

/-!
# Where forwarders are deployed, and their parents

A wallet that a service has found stays the wallet of its client and chain, so that what
`generateAddress` hashed is what the cron passes to the factory, except for the sender, which is
the key that the vault finds (`forwarders_deployed_as_promised`). The parent of a forwarder
is the hot wallet of its client, whereas a sweep asks for the hot wallet of the project first
(`sweeps_reach_parent`).
-/

namespace CryptoVaultHub.CoreWallet

open Contracts TransitionSystem List

/-! ## The properties and the conditions -/

/-- Every forwarder stands at the address that was given out for it. -/
@[reducible] def Provisioning.AsPromised (tables : Provisioning) : Prop :=
  ∀ created ∈ tables.created, created.forwarder.address = created.creation.row.address

/-- The forwarder was created for the deposit address of the deposit. -/
@[reducible] def Created.Serves (created : Created) (deposit : Deposit) : Prop :=
  created.creation.row.clientId = deposit.clientId ∧
    created.creation.row.chainId = deposit.chainId ∧
    created.creation.row.externalId = deposit.externalId

/-- A sweep of a deposit is sent to the parent of its forwarder. -/
@[reducible] def Provisioning.ReachesParents (tables : Provisioning) : Prop :=
  ∀ deposit ∈ tables.deposits, ∀ created ∈ tables.created, created.Serves deposit →
    tables.resolveParentWallet deposit.clientId deposit.chainId deposit.projectId =
      some created.forwarder.parentAddress

/-- The key that the vault finds for a `createForwarder` transaction is the gas tank of the
client on the chain. -/
def ProvisioningState.gasTankSigns (state : ProvisioningState) : ProvisioningAction → Bool
  | .advance pid input =>
    (state.process? pid).all fun
      | .deployForwarder row _ (.sign _) =>
        (input.answer.selected.head?.bind fun index =>
          (state.shared.keysOf row.clientId row.chainId)[index]?).all fun key =>
            (state.shared.wallet? row.clientId row.chainId .gasTank).all fun gasTank =>
              key.address = gasTank.address
      | _ => true
  | .launch _ | .crash _ => true

@[reducible] def ProvisioningState.GasTankSigns (state : ProvisioningState) (action : ProvisioningAction) :
    Prop :=
  ProvisioningState.gasTankSigns state action = true

/-- The project of the deposit, if there is one, has no hot wallet on the chain or that of the
client. -/
def Provisioning.agrees (tables : Provisioning) (deposit : Deposit)
    (hotWalletAddress : Option Address) : Bool :=
  deposit.projectId = 0 || hotWalletAddress.all fun address =>
    tables.clientHotWallet? deposit.clientId deposit.chainId = some address

/-- A deposit is recorded, and a project gets its hot wallet, only as long as the projects of the
deposits have no hot wallet other than that of the client. -/
def ProvisioningState.oneParent (state : ProvisioningState) : ProvisioningAction → Bool
  | .launch (.recordDeposit index) =>
    state.shared.depositAddresses[index]?.all fun row =>
      state.shared.agrees row.deposit
        (state.shared.projectHotWallet? row.projectId row.chainId)
  | .advance pid input =>
    (state.process? pid).all fun
      | .deployProject projectId _ chainId .setReady =>
        decide (input.ending = .failed) || state.shared.deposits.all fun deposit =>
          !(decide (deposit.projectId = projectId ∧ deposit.chainId = chainId)) ||
            state.shared.agrees deposit (some input.answer.address)
      | _ => true
  | .launch _ | .crash _ => true

@[reducible] def ProvisioningState.OneParent (state : ProvisioningState) (action : ProvisioningAction) : Prop :=
  ProvisioningState.oneParent state action = true

/-! ## Wallets stay -/

variable {settings : FactorySettings} {tables after : Provisioning}

/-- Every wallet that is found is found later. -/
def Provisioning.Keeps (tables after : Provisioning) : Prop :=
  ∀ clientId chainId walletType row, tables.wallet? clientId chainId walletType = some row →
    after.wallet? clientId chainId walletType = some row

theorem Provisioning.Keeps.of_eq (same : after.wallets = tables.wallets) : tables.Keeps after := by
  intro clientId chainId walletType row found
  rw [Provisioning.wallet?, same]
  exact found

variable {row : WalletRow}

theorem Provisioning.keeps_insertWallet (inserted : tables.insertWallet row = some after) :
    tables.Keeps after := by
  intro clientId chainId walletType found lookup
  rw [Provisioning.insertWallet] at inserted
  split at inserted
  · cases inserted
  · cases inserted
    rw [Provisioning.wallet?] at lookup ⊢
    rw [List.find?_append, lookup]
    rfl

/-! ## Rows and transactions -/

/-- The wallets of the client from which an address was computed. -/
structure Provisioning.Wallets (tables : Provisioning) (clientId chainId : Nat)
    (hot gasTank : WalletRow) : Prop where
  hot : tables.wallet? clientId chainId .hot = some hot
  gasTank : tables.wallet? clientId chainId .gasTank = some gasTank

/-- The address of the row was computed from the wallets of its client. -/
def DepositAddress.Computed (settings : FactorySettings) (tables : Provisioning)
    (row : DepositAddress) : Prop :=
  ∃ hot gasTank, tables.Wallets row.clientId row.chainId hot gasTank ∧
    row.address = computeForwarderAddress settings.evm (settings.forwarderFactory row.chainId)
      gasTank.address hot.address hot.address row.salt

/-- The transaction has the arguments from which the address was computed; its sender is the gas
tank if the vault finds that key. -/
def Creation.Matches (settings : FactorySettings) (signs : Prop) (tables : Provisioning)
    (creation : Creation) : Prop :=
  ∃ hot gasTank, tables.Wallets creation.row.clientId creation.row.chainId hot gasTank ∧
    creation.row.address = computeForwarderAddress settings.evm
      (settings.forwarderFactory creation.row.chainId) gasTank.address hot.address hot.address
      creation.row.salt ∧
    creation.parent = hot.address ∧ creation.feeAddress = hot.address ∧
    creation.salt = creation.row.salt ∧ (signs → creation.sender = gasTank.address)

/-- The forwarder was created by its transaction. -/
structure Created.Follows (settings : FactorySettings) (signs : Prop) (tables : Provisioning)
    (created : Created) : Prop where
  creation : created.creation.Matches settings signs tables
  address : created.forwarder.address = computeForwarderAddress settings.evm
    (settings.forwarderFactory created.creation.row.chainId) created.creation.sender
    created.creation.parent created.creation.feeAddress created.creation.salt
  parent : created.forwarder.parentAddress = created.creation.parent

theorem Provisioning.Wallets.mono {clientId chainId : Nat} {hot gasTank : WalletRow}
    (wallets : tables.Wallets clientId chainId hot gasTank) (keeps : tables.Keeps after) :
    after.Wallets clientId chainId hot gasTank :=
  ⟨keeps _ _ _ _ wallets.hot, keeps _ _ _ _ wallets.gasTank⟩

theorem DepositAddress.Computed.mono {row : DepositAddress} (computed : row.Computed settings tables)
    (keeps : tables.Keeps after) : row.Computed settings after := by
  obtain ⟨hot, gasTank, wallets, address⟩ := computed
  exact ⟨hot, gasTank, wallets.mono keeps, address⟩

theorem Creation.Matches.mono {signs : Prop} {creation : Creation}
    (holds : creation.Matches settings signs tables) (keeps : tables.Keeps after) :
    creation.Matches settings signs after := by
  obtain ⟨hot, gasTank, wallets, rest⟩ := holds
  exact ⟨hot, gasTank, wallets.mono keeps, rest⟩

theorem Created.Follows.mono {signs : Prop} {created : Created}
    (follows : created.Follows settings signs tables) (keeps : tables.Keeps after) :
    created.Follows settings signs after :=
  ⟨follows.creation.mono keeps, follows.address, follows.parent⟩

/-- What a transaction creates follows from it. -/
theorem Creation.run_follows {signs : Prop} {creation : Creation} {deployment : Deployment}
    {timestamp : Uint256} {forwarder : Forwarder}
    (holds : creation.Matches settings signs tables)
    (ran : creation.run settings deployment timestamp = some forwarder) :
    Created.Follows settings signs tables ⟨creation, forwarder⟩ := by
  rw [Creation.run, toOption_eq_some] at ran
  have address := createForwarder_ok ran
  have parent := createForwarder_parent ran
  exact ⟨holds, address, parent⟩

/-! ## The invariant -/

theorem Provisioning.Keeps.agrees {deposit : Deposit} {hotWalletAddress : Option Address}
    (keeps : tables.Keeps after) (agrees : tables.agrees deposit hotWalletAddress = true) :
    after.agrees deposit hotWalletAddress = true := by
  simp only [Provisioning.agrees, Bool.or_eq_true, decide_eq_true_eq, Option.all_eq_true] at agrees ⊢
  refine agrees.imp_right ?_
  intro same address now
  obtain ⟨row, lookup, rfl⟩ := Option.map_eq_some_iff.mp (same address now)
  exact Option.map_eq_some_iff.mpr ⟨row, keeps _ _ _ _ lookup, rfl⟩

/-- What holds of the tables: `signs` when the vault finds the gas tanks, `agrees` when the
projects of the deposits have no hot wallets of their own. -/
structure Provisioning.Consistent (settings : FactorySettings) (signs agrees : Prop)
    (tables : Provisioning) : Prop where
  rows : ∀ row ∈ tables.depositAddresses, row.Computed settings tables
  mempool : ∀ creation ∈ tables.mempool, creation.Matches settings signs tables
  created : ∀ created ∈ tables.created, created.Follows settings signs tables
  deposits : agrees → ∀ deposit ∈ tables.deposits,
    tables.agrees deposit (tables.projectHotWallet? deposit.projectId deposit.chainId) = true

/-- What a process knows at its point. -/
def Provisioner.Knows (settings : FactorySettings) (signs : Prop) (tables : Provisioning) :
    Provisioner → Prop
  | .generateAddress clientId chainId _ _ point =>
    match point with
    | .findGasTank hot => tables.wallet? clientId chainId .hot = some hot
    | .compute hot gasTank => tables.Wallets clientId chainId hot gasTank
    | .insert row => row.Computed settings tables
    | .findExisting | .findHot => True
  | .deployForwarder row rest point =>
    (∀ due ∈ row :: rest, due.Computed settings tables) ∧
      match point with
      | .findGasTank hot | .sign hot => tables.wallet? row.clientId row.chainId .hot = some hot
      | .getCode hot gasTank => tables.Wallets row.clientId row.chainId hot gasTank
      | .broadcast creation => creation.Matches settings signs tables
      | .findHot | .logSubmit | .markDeployed => True
  | .createWallets .. | .registerWallet .. | .deployProject .. | .selectUndeployed _ => True

variable {signs agrees : Prop} {process later : Provisioner} {answer : ProvisioningAnswer}

theorem Provisioner.Knows.mono (knows : process.Knows settings signs tables)
    (keeps : tables.Keeps after) : process.Knows settings signs after := by
  cases process with
  | createWallets | registerWallet | deployProject | selectUndeployed => trivial
  | generateAddress clientId chainId externalId salt point =>
    cases point with
    | findExisting | findHot => trivial
    | findGasTank hot => exact keeps _ _ _ _ knows
    | compute hot gasTank => exact Provisioning.Wallets.mono knows keeps
    | insert row => exact DepositAddress.Computed.mono knows keeps
  | deployForwarder row rest point =>
    obtain ⟨due, known⟩ := knows
    refine ⟨fun other member => (due other member).mono keeps, ?_⟩
    cases point with
    | findHot | logSubmit | markDeployed => trivial
    | findGasTank hot | sign hot => exact keeps _ _ _ _ known
    | getCode hot gasTank => exact Provisioning.Wallets.mono known keeps
    | broadcast creation => exact Creation.Matches.mono known keeps

/-- A step that changes nothing but wallets, keys and project rows without a hot wallet. -/
theorem Provisioning.Consistent.frame (consistent : tables.Consistent settings signs agrees)
    (keeps : tables.Keeps after) (rows : after.depositAddresses = tables.depositAddresses)
    (mempool : after.mempool = tables.mempool) (created : after.created = tables.created)
    (deposits : after.deposits = tables.deposits)
    (projects : ∀ projectId chainId,
      after.projectHotWallet? projectId chainId = tables.projectHotWallet? projectId chainId) :
    after.Consistent settings signs agrees where
  rows := by
    rw [rows]
    exact fun row member => (consistent.rows row member).mono keeps
  mempool := by
    rw [mempool]
    exact fun creation member => (consistent.mempool creation member).mono keeps
  created := by
    rw [created]
    exact fun made member => (consistent.created made member).mono keeps
  deposits := by
    rw [deposits]
    intro agreeing deposit member
    rw [projects]
    exact keeps.agrees (consistent.deposits agreeing deposit member)

/-! ## Statements -/

theorem Provisioner.deployNext_knows {rows : List DepositAddress}
    (due : ∀ row ∈ rows, row.Computed settings tables)
    (continues : deployNext rows = some later) : later.Knows settings signs tables := by
  cases rows with
  | nil => cases continues
  | cons row rest =>
    cases continues
    exact ⟨due, trivial⟩

variable {next : Option Provisioner}

theorem Provisioner.insertThen_keeps : tables.Keeps (insertThen tables row next).after := by
  rw [insertThen]
  split
  · rename_i inserted
    exact Provisioning.keeps_insertWallet inserted
  · exact .of_eq rfl

theorem Provisioner.insertThen_consistent (consistent : tables.Consistent settings signs agrees) :
    (insertThen tables row next).after.Consistent settings signs agrees := by
  rw [insertThen]
  split
  · rename_i inserted
    have keeps := Provisioning.keeps_insertWallet inserted
    rw [Provisioning.insertWallet] at inserted
    split at inserted
    · cases inserted
    · cases inserted
      exact consistent.frame keeps rfl rfl rfl rfl fun _ _ => rfl
  · exact consistent

theorem Provisioner.insertThen_next (continues : (insertThen tables row next).next = some later) :
    next = some later := by
  rw [insertThen] at continues
  split at continues
  · exact continues
  · cases continues

/-- No statement takes a wallet away. -/
theorem Provisioner.statement_keeps :
    tables.Keeps (statement settings tables process answer).after := by
  cases process with
  | createWallets clientId chainId point =>
    cases point with
    | findExisting =>
      simp only [statement, createWalletsStatement]
      split <;> exact .of_eq rfl
    | deriveGasTankKey => exact .of_eq rfl
    | insertHot | insertGasTank => exact insertThen_keeps
  | registerWallet row point =>
    cases point with
    | findExisting =>
      simp only [statement, registerWalletStatement]
      split <;> exact .of_eq rfl
    | insert => exact insertThen_keeps
  | deployProject projectId clientId chainId point =>
    cases point with
    | load =>
      simp only [statement, deployProjectStatement]
      split <;> exact .of_eq rfl
    | findGasTank | setReady => exact .of_eq rfl
  | generateAddress clientId chainId externalId salt point =>
    cases point with
    | insert row =>
      simp only [statement, generateAddressStatement]
      split <;> exact .of_eq rfl
    | findExisting | findHot | findGasTank | compute => exact .of_eq rfl
  | selectUndeployed chainId => exact .of_eq rfl
  | deployForwarder row rest point => cases point <;> exact .of_eq rfl

/-- A project that gets its hot wallet has that one; the others keep theirs. -/
theorem Provisioning.projectHotWallet?_setHotWallet {projectId chainId otherProject otherChain : Nat}
    {address found : Address} (lookup : (tables.setHotWallet projectId chainId
      address).projectHotWallet? otherProject otherChain = some found) :
    otherProject = projectId ∧ otherChain = chainId ∧ found = address ∨
      tables.projectHotWallet? otherProject otherChain = some found := by
  have keys : (fun row : ProjectChainRow =>
      decide (row.projectId = otherProject ∧ row.chainId = otherChain)) ∘
      (fun row => if row.projectId = projectId ∧ row.chainId = chainId then
        { row with hotWalletAddress := some address } else row) =
      fun row => decide (row.projectId = otherProject ∧ row.chainId = otherChain) := by
    funext row
    simp only [Function.comp]
    split <;> rfl
  rw [projectHotWallet?, setHotWallet, find?_map, keys] at lookup
  cases old : tables.projectChains.find? fun row =>
    decide (row.projectId = otherProject ∧ row.chainId = otherChain) with
  | none =>
    rw [old] at lookup
    cases lookup
  | some row =>
    have key := find?_some old
    simp only [decide_eq_true_eq] at key
    rw [old] at lookup
    simp only [Option.map_some, Option.bind_some] at lookup
    split at lookup
    · rename_i same
      cases lookup
      exact .inl ⟨key.1.symm.trans same.1, key.2.symm.trans same.2, rfl⟩
    · rw [projectHotWallet?, old]
      exact .inr lookup

/-- A new row of a project has no hot wallet. -/
theorem Provisioning.projectHotWallet?_append {projectId chainId : Nat}
    (otherProject otherChain : Nat) :
    ({ tables with projectChains := tables.projectChains ++ [⟨projectId, chainId, none⟩] } :
      Provisioning).projectHotWallet? otherProject otherChain =
        tables.projectHotWallet? otherProject otherChain := by
  rw [projectHotWallet?, projectHotWallet?, List.find?_append]
  cases tables.projectChains.find? fun row =>
    decide (row.projectId = otherProject ∧ row.chainId = otherChain) with
  | some row => rfl
  | none =>
    simp only [Option.none_or, find?_cons, find?_nil]
    split <;> rfl

/-- Marking a row leaves its address and where that came from. -/
theorem Provisioning.Consistent.markDeployed (consistent : tables.Consistent settings signs agrees)
    (marked : DepositAddress) : (tables.markDeployed marked).Consistent settings signs agrees where
  rows := by
    intro row member
    obtain ⟨old, inRows, rfl⟩ := mem_map.mp member
    have keeps : tables.Keeps (tables.markDeployed marked) := .of_eq rfl
    have computed := (consistent.rows old inRows).mono keeps
    split
    · exact computed
    · exact computed
  mempool creation member := (consistent.mempool creation member).mono (.of_eq rfl)
  created made member := (consistent.created made member).mono (.of_eq rfl)
  deposits agreeing deposit member :=
    Provisioning.Keeps.agrees (.of_eq rfl) (consistent.deposits agreeing deposit member)

/-- The tables stay consistent, if the hot wallet of a project is one that the deposits have. -/
theorem Provisioner.statement_consistent (consistent : tables.Consistent settings signs agrees)
    (knows : process.Knows settings signs tables)
    (ready : agrees → ∀ projectId clientId chainId,
      process = .deployProject projectId clientId chainId .setReady →
      ∀ deposit ∈ tables.deposits, deposit.projectId = projectId → deposit.chainId = chainId →
        tables.agrees deposit (some answer.address) = true) :
    (statement settings tables process answer).after.Consistent settings signs agrees := by
  cases process with
  | createWallets clientId chainId point =>
    cases point with
    | findExisting =>
      simp only [statement, createWalletsStatement]
      split <;> exact consistent
    | deriveGasTankKey => exact consistent.frame (.of_eq rfl) rfl rfl rfl rfl fun _ _ => rfl
    | insertHot | insertGasTank => exact insertThen_consistent consistent
  | registerWallet row point =>
    cases point with
    | findExisting =>
      simp only [statement, registerWalletStatement]
      split <;> exact consistent
    | insert => exact insertThen_consistent consistent
  | deployProject projectId clientId chainId point =>
    cases point with
    | load =>
      simp only [statement, deployProjectStatement]
      split
      · exact consistent
      · exact consistent.frame (.of_eq rfl) rfl rfl rfl rfl
          Provisioning.projectHotWallet?_append
    | findGasTank => exact consistent
    | setReady =>
      have keeps : tables.Keeps (tables.setHotWallet projectId chainId answer.address) :=
        .of_eq rfl
      refine ⟨fun row member => (consistent.rows row member).mono keeps,
        fun creation member => (consistent.mempool creation member).mono keeps,
        fun made member => (consistent.created made member).mono keeps, ?_⟩
      intro agreeing deposit member
      refine keeps.agrees ?_
      have before := consistent.deposits agreeing deposit member
      simp only [Provisioning.agrees, Bool.or_eq_true, decide_eq_true_eq,
        Option.all_eq_true] at before ⊢
      rcases before with none | same
      · exact .inl none
      by_cases ours : deposit.projectId = projectId ∧ deposit.chainId = chainId
      · have now := ready agreeing _ _ _ rfl deposit member ours.1 ours.2
        simp only [Provisioning.agrees, Bool.or_eq_true, decide_eq_true_eq,
          Option.all_eq_true] at now
        refine now.imp_right ?_
        intro found address lookup
        rcases Provisioning.projectHotWallet?_setHotWallet lookup with ⟨_, _, rfl⟩ | old
        · exact found _ rfl
        · exact same address old
      · refine .inr ?_
        intro address lookup
        rcases Provisioning.projectHotWallet?_setHotWallet lookup with
          ⟨project, chain, _⟩ | old
        · exact absurd ⟨project, chain⟩ ours
        · exact same address old
  | generateAddress clientId chainId externalId salt point =>
    cases point with
    | insert row =>
      simp only [statement, generateAddressStatement]
      split
      · exact consistent
      · have keeps : tables.Keeps
            { tables with depositAddresses := tables.depositAddresses ++ [row] } := .of_eq rfl
        refine ⟨?_, fun creation member => (consistent.mempool creation member).mono keeps,
          fun made member => (consistent.created made member).mono keeps,
          fun agreeing deposit member => keeps.agrees (consistent.deposits agreeing deposit
            member)⟩
        intro other member
        rcases mem_append.mp member with old | new
        · exact (consistent.rows other old).mono keeps
        · rw [mem_singleton.mp new]
          exact DepositAddress.Computed.mono knows keeps
    | findExisting | findHot | findGasTank | compute => exact consistent
  | selectUndeployed chainId => exact consistent
  | deployForwarder row rest point =>
    cases point with
    | broadcast creation =>
      have keeps : tables.Keeps
          { tables with mempool := tables.mempool ++ [creation] } := .of_eq rfl
      refine ⟨fun other member => (consistent.rows other member).mono keeps, ?_,
        fun made member => (consistent.created made member).mono keeps,
        fun agreeing deposit member => keeps.agrees (consistent.deposits agreeing deposit
          member)⟩
      intro other member
      rcases mem_append.mp member with old | new
      · exact (consistent.mempool other old).mono keeps
      · rw [mem_singleton.mp new]
        exact Creation.Matches.mono knows.2 keeps
    | markDeployed => exact consistent.markDeployed row
    | findHot | findGasTank | getCode | sign | logSubmit => exact consistent

/-- What a process knows after a statement; the key has to be the gas tank. -/
theorem Provisioner.statement_next (consistent : tables.Consistent settings signs agrees)
    (knows : process.Knows settings signs tables)
    (signing : signs → ∀ row rest hot, process = .deployForwarder row rest (.sign hot) →
      ∀ index key, answer.selected.head? = some index →
        (tables.keysOf row.clientId row.chainId)[index]? = some key →
        ∀ gasTank, tables.wallet? row.clientId row.chainId .gasTank = some gasTank →
          key.address = gasTank.address)
    (continues : (statement settings tables process answer).next = some later) :
    later.Knows settings signs (statement settings tables process answer).after := by
  cases process with
  | createWallets clientId chainId point =>
    cases point with
    | findExisting =>
      simp only [statement, createWalletsStatement] at continues
      split at continues
      · cases continues
      · cases continues
        trivial
    | deriveGasTankKey =>
      cases continues
      trivial
    | insertHot gasTank =>
      cases insertThen_next continues
      trivial
    | insertGasTank projectId gasTank => cases insertThen_next continues
  | registerWallet row point =>
    cases point with
    | findExisting =>
      simp only [statement, registerWalletStatement] at continues
      split at continues
      · cases continues
      · cases continues
        trivial
    | insert => cases insertThen_next continues
  | deployProject projectId clientId chainId point =>
    cases point with
    | load =>
      simp only [statement, deployProjectStatement] at continues
      split at continues
      · dsimp only at continues
        split at continues
        · cases continues
        · cases continues
          trivial
      · cases continues
        trivial
    | findGasTank =>
      obtain ⟨_, _, rfl⟩ := Option.map_eq_some_iff.mp continues
      trivial
    | setReady => cases continues
  | generateAddress clientId chainId externalId salt point =>
    cases point with
    | findExisting =>
      simp only [statement, generateAddressStatement] at continues
      split at continues
      · cases continues
      · cases continues
        trivial
    | findHot =>
      obtain ⟨hot, found, same⟩ := Option.bind_eq_some_iff.mp continues
      cases same
      exact found
    | findGasTank hot =>
      obtain ⟨gasTank, found, same⟩ := Option.bind_eq_some_iff.mp continues
      cases same
      exact ⟨knows, found⟩
    | compute hot gasTank =>
      cases continues
      exact ⟨hot, gasTank, knows, rfl⟩
    | insert row => cases continues
  | selectUndeployed chainId =>
    refine deployNext_knows ?_ continues
    intro row member
    obtain ⟨index, _, found⟩ := mem_filterMap.mp (mem_filter.mp member).1
    exact consistent.rows row (mem_of_getElem? found)
  | deployForwarder row rest point =>
    obtain ⟨due, known⟩ := knows
    have left : ∀ {later}, deployNext rest = some later →
        Knows settings signs tables later :=
      fun continues => deployNext_knows
        (fun other member => due other (mem_cons_of_mem _ member)) continues
    cases point with
    | findHot =>
      simp only [statement, deployForwarderStatement] at continues
      split at continues
      · rename_i hot found
        cases continues
        exact ⟨due, found⟩
      · exact left continues
    | findGasTank hot =>
      simp only [statement, deployForwarderStatement] at continues
      split at continues
      · rename_i gasTank found
        cases continues
        exact ⟨due, known, found⟩
      · exact left continues
    | getCode hot gasTank =>
      simp only [statement, deployForwarderStatement] at continues
      split at continues
      · cases continues
        exact ⟨due, trivial⟩
      · cases continues
        exact ⟨due, known.hot⟩
    | sign hot =>
      simp only [statement, deployForwarderStatement] at continues
      split at continues
      · rename_i key chosen
        cases continues
        obtain ⟨index, first, found⟩ := Option.bind_eq_some_iff.mp chosen
        obtain ⟨hotWallet, gasTank, wallets, address⟩ := due row mem_cons_self
        obtain rfl : hot = hotWallet := Option.some.inj (known.symm.trans wallets.hot)
        exact ⟨due, hot, gasTank, wallets, address, rfl, rfl, rfl,
          fun signed => signing signed row rest hot rfl index key first found gasTank
            wallets.gasTank⟩
      · exact left continues
    | broadcast creation =>
      cases continues
      exact ⟨fun other member => (due other member).mono (.of_eq rfl), trivial⟩
    | logSubmit =>
      cases continues
      exact ⟨due, trivial⟩
    | markDeployed => exact (left continues).mono (.of_eq rfl)

/-- After an error a cycle goes on with the next row. -/
theorem Provisioner.statement_thrown (knows : process.Knows settings signs tables)
    (thrown : (statement settings tables process answer).thrown = some later) :
    later.Knows settings signs tables := by
  cases process with
  | createWallets clientId chainId point =>
    cases point with
    | findExisting =>
      simp only [statement, createWalletsStatement] at thrown
      split at thrown <;> cases thrown
    | deriveGasTankKey => cases thrown
    | insertHot | insertGasTank =>
      simp only [statement, createWalletsStatement, insertThen] at thrown
      split at thrown <;> cases thrown
  | registerWallet row point =>
    cases point with
    | findExisting =>
      simp only [statement, registerWalletStatement] at thrown
      split at thrown <;> cases thrown
    | insert =>
      simp only [statement, registerWalletStatement, insertThen] at thrown
      split at thrown <;> cases thrown
  | deployProject projectId clientId chainId point =>
    cases point with
    | load =>
      simp only [statement, deployProjectStatement] at thrown
      split at thrown <;> cases thrown
    | findGasTank | setReady => cases thrown
  | generateAddress clientId chainId externalId salt point => cases point <;> cases thrown
  | selectUndeployed chainId => cases thrown
  | deployForwarder row rest point =>
    refine deployNext_knows (fun other member => knows.1 other (mem_cons_of_mem _ member)) ?_
    cases point <;> exact thrown

/-! ## Runs -/

variable {begun : ProvisioningStart}

theorem Provisioning.start_keeps {process : Option Provisioner}
    (started : tables.start settings begun = some (after, process)) : tables.Keeps after := by
  cases begun with
  | recordDeposit | mine =>
    obtain ⟨_, _, same⟩ := Option.map_eq_some_iff.mp started
    cases same
    exact .of_eq rfl
  | createWallets | registerWallet | deployProject | generateAddress | provisionGroup
  | deployPendingForwarders | deriveGasTankKey | drop =>
    cases started
    exact .of_eq rfl

theorem Provisioning.start_knows
    (started : tables.start settings begun = some (after, some process)) :
    process.Knows settings signs after := by
  cases begun with
  | recordDeposit | mine =>
    obtain ⟨_, _, same⟩ := Option.map_eq_some_iff.mp started
    cases same
  | deriveGasTankKey | drop => cases started
  | createWallets | registerWallet | deployProject | generateAddress | provisionGroup
  | deployPendingForwarders =>
    cases started
    trivial

/-- The transactions that stay and the forwarders that come leave the rest. -/
theorem Provisioning.Consistent.mined (consistent : tables.Consistent settings signs agrees)
    {mempool : List Creation} {made : List Created}
    (stay : ∀ creation ∈ mempool, creation ∈ tables.mempool)
    (new : ∀ created ∈ made, created.Follows settings signs tables) :
    ({ tables with mempool := mempool, created := tables.created ++ made } :
      Provisioning).Consistent settings signs agrees := by
  have keeps : tables.Keeps
      { tables with mempool := mempool, created := tables.created ++ made } := .of_eq rfl
  refine ⟨fun row member => (consistent.rows row member).mono keeps,
    fun creation member => (consistent.mempool creation (stay creation member)).mono keeps, ?_,
    fun agreeing deposit member => keeps.agrees (consistent.deposits agreeing deposit member)⟩
  intro created member
  rcases mem_append.mp member with old | fresh
  · exact (consistent.created created old).mono keeps
  · exact (new created fresh).mono keeps

/-- A deposit that is recorded has to agree with the hot wallet of its project. -/
theorem Provisioning.start_consistent (consistent : tables.Consistent settings signs agrees)
    (recorded : agrees → ∀ index row, begun = .recordDeposit index →
      tables.depositAddresses[index]? = some row →
      tables.agrees row.deposit (tables.projectHotWallet? row.projectId row.chainId) = true)
    {process : Option Provisioner} (started : tables.start settings begun = some (after, process)) :
    after.Consistent settings signs agrees := by
  cases begun with
  | createWallets | registerWallet | deployProject | generateAddress | provisionGroup
  | deployPendingForwarders =>
    cases started
    exact consistent
  | deriveGasTankKey =>
    cases started
    exact consistent.frame (.of_eq rfl) rfl rfl rfl rfl fun _ _ => rfl
  | drop index =>
    cases started
    have dropped : ({ tables with
        mempool := tables.mempool.eraseIdx index, created := tables.created ++ [] } :
        Provisioning).Consistent settings signs agrees :=
      consistent.mined (fun creation member => mem_of_mem_eraseIdx member) (by simp)
    simpa using dropped
  | recordDeposit index =>
    obtain ⟨row, found, same⟩ := Option.map_eq_some_iff.mp started
    cases same
    have keeps : tables.Keeps
        { tables with deposits := tables.deposits ++ [row.deposit] } := .of_eq rfl
    refine ⟨fun row member => (consistent.rows row member).mono keeps,
      fun creation member => (consistent.mempool creation member).mono keeps,
      fun created member => (consistent.created created member).mono keeps, ?_⟩
    intro agreeing deposit member
    rcases mem_append.mp member with old | new
    · exact keeps.agrees (consistent.deposits agreeing deposit old)
    · rw [mem_singleton.mp new]
      exact keeps.agrees (recorded agreeing index row rfl found)
  | mine index deployment timestamp =>
    obtain ⟨creation, found, same⟩ := Option.map_eq_some_iff.mp started
    cases same
    refine consistent.mined (fun creation member => mem_of_mem_eraseIdx member) ?_
    intro made member
    obtain ⟨forwarder, ran, rfl⟩ := Option.map_eq_some_iff.mp (Option.mem_toList.mp member)
    exact Creation.run_follows (consistent.mempool creation (mem_of_getElem? found)) ran

/-- The tables are consistent and every process knows the wallets it has found. -/
def provisioningOutline (settings : FactorySettings) (signs agrees : Prop) :
    ProofOutline Provisioning Provisioner where
  Global tables := tables.Consistent settings signs agrees
  Local tables process := process.Knows settings signs tables
  Apart _ _ := True
  apart_symm _ := trivial

theorem provisioning_consistent
    {Allowed : ProvisioningState → ProvisioningAction → Prop} {state : ProvisioningState}
    (signing : signs → ∀ state action, Allowed state action →
      ProvisioningState.GasTankSigns state action)
    (agreeing : agrees → ∀ state action, Allowed state action →
      ProvisioningState.OneParent state action)
    (reached : (provisioning settings).system.Reachable Allowed state) :
    state.shared.Consistent settings signs agrees := by
  have outline : (provisioningOutline settings signs agrees).Holds state := by
    refine ProofOutline.reachable reached ?_ ?_ ?_
    · rintro tables rfl
      exact ⟨by simp [Provisioning.empty], by simp [Provisioning.empty],
        by simp [Provisioning.empty], by simp [Provisioning.empty]⟩
    · intro before begun shared process holds allowed started
      have keeps := Provisioning.start_keeps started
      refine ⟨?_, ?_, ?_, fun _ _ _ _ _ _ => trivial⟩
      · refine Provisioning.start_consistent holds.global ?_ started
        rintro agree index row rfl found
        simpa [ProvisioningState.OneParent, ProvisioningState.oneParent, found] using
          agreeing agree _ _ allowed
      · rintro point rfl
        exact Provisioning.start_knows started
      · exact fun other point _ running => (holds.locals other point running).mono keeps
    · intro before pid process input shared next holds allowed running moved
      have knows := holds.locals pid process running
      have others : ∀ {after}, before.shared.Keeps after → ∀ other point, other ≠ pid →
          before.process? other = some point → point.Knows settings signs after :=
        fun keeps other point _ found => (holds.locals other point found).mono keeps
      have apart : ∀ point other right, next = some point → other ≠ pid →
          before.process? other = some right → True := fun _ _ _ _ _ _ => trivial
      have ready (took : input.ending ≠ .failed) : agrees → ∀ projectId clientId chainId,
          process = .deployProject projectId clientId chainId .setReady →
          ∀ deposit ∈ before.shared.deposits, deposit.projectId = projectId →
            deposit.chainId = chainId →
            before.shared.agrees deposit (some input.answer.address) = true := by
        rintro agree projectId clientId chainId rfl deposit member project chain
        have one := agreeing agree _ _ allowed
        simp only [ProvisioningState.OneParent, ProvisioningState.oneParent, running,
          Option.all_some, Bool.or_eq_true, decide_eq_true_eq, all_eq_true,
          Bool.not_eq_true', decide_eq_false_iff_not] at one
        exact ((one.resolve_left took) deposit member).resolve_left (not_not.mpr ⟨project, chain⟩)
      have signed : signs → ∀ row rest hot, process = .deployForwarder row rest (.sign hot) →
          ∀ index key, input.answer.selected.head? = some index →
            (before.shared.keysOf row.clientId row.chainId)[index]? = some key →
            ∀ gasTank, before.shared.wallet? row.clientId row.chainId .gasTank = some gasTank →
              key.address = gasTank.address := by
        rintro sign row rest hot rfl index key first found gasTank lookup
        simpa [ProvisioningState.GasTankSigns, ProvisioningState.gasTankSigns, running, first,
          found, lookup] using signing sign _ _ allowed
      obtain ⟨rfl, ending⟩ | ⟨_, rfl, rfl⟩ := Statement.perform_cases (Option.some.inj moved)
      · have took : input.ending ≠ .failed := Statement.ne_failed ending
        refine ⟨Provisioner.statement_consistent holds.global knows (ready took), ?_,
          others Provisioner.statement_keeps, apart⟩
        intro later continues
        rcases ending with ⟨_, rfl⟩ | ⟨_, rfl⟩
        · exact Provisioner.statement_next holds.global knows signed continues
        · exact (Provisioner.statement_thrown knows continues).mono Provisioner.statement_keeps
      · exact ⟨holds.global, fun later thrown => Provisioner.statement_thrown knows thrown,
          others (.of_eq rfl), apart⟩
  exact outline.global

/-- As long as the vault finds the gas tank of the client for the `createForwarder` transactions,
every forwarder stands at the address that was given out for it. -/
theorem forwarders_deployed_as_promised {state : ProvisioningState}
    (reached : (provisioning settings).system.Reachable ProvisioningState.GasTankSigns state) :
    state.shared.AsPromised := by
  have consistent : state.shared.Consistent settings True False :=
    provisioning_consistent (fun _ _ _ allowed => allowed) False.elim reached
  intro created member
  have follows := consistent.created created member
  obtain ⟨hot, gasTank, -, address, parent, feeAddress, salt, sender⟩ := follows.creation
  calc created.forwarder.address
      = computeForwarderAddress settings.evm
          (settings.forwarderFactory created.creation.row.chainId) created.creation.sender
          created.creation.parent created.creation.feeAddress created.creation.salt :=
        follows.address
    _ = computeForwarderAddress settings.evm
          (settings.forwarderFactory created.creation.row.chainId) gasTank.address hot.address
          hot.address created.creation.row.salt := by
        rw [sender trivial, parent, feeAddress, salt]
    _ = created.creation.row.address := address.symm

/-- As long as the projects of the deposits have no hot wallets other than those of the
clients, a sweep of a deposit is sent to the parent of its forwarder. -/
theorem sweeps_reach_parent {state : ProvisioningState}
    (reached : (provisioning settings).system.Reachable ProvisioningState.OneParent state) :
    state.shared.ReachesParents := by
  have consistent : state.shared.Consistent settings False True :=
    provisioning_consistent False.elim (fun _ _ _ allowed => allowed) reached
  intro deposit recorded created member ⟨client, chain, _⟩
  have follows := consistent.created created member
  obtain ⟨hot, gasTank, wallets, -, parent, -⟩ := follows.creation
  have clientWallet : state.shared.clientHotWallet? deposit.clientId deposit.chainId =
      some created.forwarder.parentAddress := by
    rw [Provisioning.clientHotWallet?, ← client, ← chain, wallets.hot, follows.parent, parent]
    rfl
  have agrees := consistent.deposits trivial deposit recorded
  simp only [Provisioning.agrees, Bool.or_eq_true, decide_eq_true_eq, Option.all_eq_true]
    at agrees
  rw [Provisioning.resolveParentWallet]
  split
  · rename_i ofProject
    cases lookup : state.shared.projectHotWallet? deposit.projectId deposit.chainId with
    | none => exact clientWallet
    | some address =>
      have same := (agrees.resolve_left (by omega)) address lookup
      exact same.symm.trans clientWallet
  · exact clientWallet

/-! ## A client with one forwarder -/

def sampleSettings : FactorySettings := ⟨digitEvm, fun _ => sampleFactory⟩

theorem sampleProvisioning_initial :
    (provisioning sampleSettings).system.Initial ⟨Provisioning.empty, []⟩ :=
  ⟨rfl, rfl⟩

/-- A statement that reads an address, the default project 4 and the first key. -/
def provisions (pid : Nat) (address : Address) : ProvisioningAction :=
  .advance pid ⟨.done, ⟨address, 4, [0], false⟩⟩

/-- Client 1 gets its wallets on chain 1, the gas tank 0xd and the hot wallet 0xa. -/
def createsWallets (pid : Nat) : List ProvisioningAction :=
  [.launch (.createWallets 1 1), provisions pid 0xd, provisions pid 0xd, provisions pid 0xa,
    provisions pid 0xd]

/-- An address is given out and receives a deposit, and its forwarder is deployed. -/
def deploysForwarder (pid : Nat) : List ProvisioningAction :=
  [.launch (.provisionGroup 1 1 [7] 7)] ++ List.replicate 5 (provisions pid 0) ++
    [.launch (.recordDeposit 0), .launch (.deployPendingForwarders 1)] ++
    List.replicate 7 (provisions (pid + 2) 0) ++ [.launch (.mine 0 sampleDeployment 100)]

theorem forwarders_deployed_as_promised_sample :
    ∃ state : ProvisioningState, state.shared.created ≠ [] ∧ state.shared.AsPromised := by
  obtain ⟨state, reached, some⟩ : ∃ state, (provisioning sampleSettings).system.Reachable
      ProvisioningState.GasTankSigns state ∧ state.shared.created ≠ [] :=
    exists_reachable sampleProvisioning_initial (createsWallets 0 ++ deploysForwarder 1) (by decide +kernel)
  exact ⟨state, some, forwarders_deployed_as_promised reached⟩

/-- The vault finds a key that the ceremony of a project has left. -/
theorem forwarder_deployed_elsewhere :
    ¬ ∀ (settings : FactorySettings) (state : ProvisioningState),
      (provisioning settings).system.Reachable Unrestricted state → state.shared.AsPromised := by
  intro always
  obtain ⟨state, reached, elsewhere⟩ : ∃ state,
      (provisioning sampleSettings).system.Reachable Unrestricted state ∧
      ¬ state.shared.AsPromised :=
    exists_reachable sampleProvisioning_initial
      ([.launch (.deriveGasTankKey ⟨1, 1, 0xe⟩)] ++ createsWallets 1 ++ deploysForwarder 2) (by decide +kernel)
  exact elsewhere (always sampleSettings state reached)

/-- Project 4 gets the hot wallet 0xb after the forwarder of its client is deployed. -/
def deploysProject (pid : Nat) : List ProvisioningAction :=
  [.launch (.deployProject 4 1 1)] ++ List.replicate 3 (provisions pid 0xb)

theorem sweeps_reach_parent_sample :
    ∃ state : ProvisioningState,
      (∃ deposit ∈ state.shared.deposits, ∃ created ∈ state.shared.created,
        created.Serves deposit) ∧ state.shared.ReachesParents := by
  obtain ⟨state, reached, served⟩ : ∃ state, (provisioning sampleSettings).system.Reachable
      ProvisioningState.OneParent state ∧
        ∃ deposit ∈ state.shared.deposits, ∃ created ∈ state.shared.created,
          created.Serves deposit :=
    exists_reachable sampleProvisioning_initial (createsWallets 0 ++ deploysForwarder 1) (by decide +kernel)
  exact ⟨state, served, sweeps_reach_parent reached⟩

/-- A sweep is sent to the hot wallet of a project that was deployed after the forwarder. -/
theorem sweep_misses_parent :
    ¬ ∀ (settings : FactorySettings) (state : ProvisioningState),
      (provisioning settings).system.Reachable Unrestricted state →
        state.shared.ReachesParents := by
  intro always
  obtain ⟨state, reached, missed⟩ : ∃ state,
      (provisioning sampleSettings).system.Reachable Unrestricted state ∧
      ¬ state.shared.ReachesParents :=
    exists_reachable sampleProvisioning_initial
      (createsWallets 0 ++ deploysForwarder 1 ++ deploysProject 5) (by decide +kernel)
  exact missed (always sampleSettings state reached)

end CryptoVaultHub.CoreWallet

import CryptoVaultHub.CoreWallet.AddressGroups

/-!
# One address for a group on every chain

The address stored with a group is computed from the wallets of one chain. `group_shares_iff` says
when the deposit addresses of the group are that address: where the factory and both wallets of
the chain are those the address was computed from.
-/

namespace CryptoVaultHub.CoreWallet

open Contracts List

/-! ## What an address is hashed from -/

/-- The code that a clone is created with. -/
def cloneInitCode (factory : CloneFactory) : List UInt8 :=
  clonePrefix ++ bytes20 factory.implementationAddress ++ cloneSuffix

theorem cloneInitCode_injective {left right : CloneFactory}
    (equal : cloneInitCode left = cloneInitCode right) :
    left.implementationAddress = right.implementationAddress := by
  simp only [cloneInitCode, append_assoc, append_cancel_left_eq,
    append_cancel_right_eq] at equal
  exact bytes20_injective equal

/-- Preimages with salts of one length agree on each of their parts. -/
theorem create2Preimage_injective {evm : Evm} {creator other : Address}
    {salt otherSalt initCode otherInitCode : List UInt8} (lengths : salt.length = otherSalt.length)
    (equal : create2Preimage evm creator salt initCode =
      create2Preimage evm other otherSalt otherInitCode) :
    creator = other ∧ salt = otherSalt ∧
      evm.keccak256 initCode = evm.keccak256 otherInitCode := by
  simp only [create2Preimage, append_assoc, append_cancel_left_eq] at equal
  obtain ⟨creators, rest⟩ := append_inj equal (by simp)
  obtain ⟨salts, codes⟩ := append_inj rest lengths
  exact ⟨bytes20_injective creators, salts, codes⟩

/-- What a forwarder address is the hash of. -/
def Derivation.preimage (evm : Evm) (derivation : Derivation) (salt : Uint256) : List UInt8 :=
  clonePreimage evm derivation.factory (derivation.arguments salt).encode

/-- What the address stored with a group is the hash of. -/
def AddressGroup.preimage (evm : Evm) (group : AddressGroup) : List UInt8 :=
  match group.reference with
  | some derivation => derivation.preimage evm group.derivationSalt
  | none => create2Preimage evm zeroAddress (Abi.slot group.derivationSalt.toNat) []

/-- The code in the preimage of the group. -/
def AddressGroup.initCode (group : AddressGroup) : List UInt8 :=
  match group.reference with
  | some derivation => cloneInitCode derivation.factory
  | none => []

/-- The hash tells a row and its group apart wherever it is taken of something different for
them. -/
structure ForwarderRow.ToldApart (evm : Evm) (row : ForwarderRow) (group : AddressGroup) :
    Prop where
  addresses : ¬ Collides (digestAddress ∘ evm.keccak256)
    (row.derivation.preimage evm row.salt) (group.preimage evm)
  initCodes : ¬ Collides evm.keccak256 (cloneInitCode row.derivation.factory)
    group.initCode
  arguments : ∀ reference ∈ group.reference, ¬ Collides evm.keccak256
    (row.derivation.arguments row.salt).encode (reference.arguments group.derivationSalt).encode

/-- Two derivations with one preimage for a salt are one. -/
theorem Derivation.eq_of_preimage {evm : Evm} {left right : Derivation} {salt : Uint256}
    (digests : ∀ data, (evm.keccak256 data).length = 32)
    (initCodes : ¬ Collides evm.keccak256 (cloneInitCode left.factory)
      (cloneInitCode right.factory))
    (arguments : ¬ Collides evm.keccak256 (left.arguments salt).encode
      (right.arguments salt).encode)
    (equal : left.preimage evm salt = right.preimage evm salt) : left = right := by
  obtain ⟨factories, salts, codes⟩ := create2Preimage_injective (by simp [digests]) equal
  have sameCode : cloneInitCode left.factory = cloneInitCode right.factory := by
    by_contra differs
    exact initCodes ⟨differs, codes⟩
  have sameArguments : (left.arguments salt).encode = (right.arguments salt).encode := by
    by_contra differs
    exact arguments ⟨differs, salts⟩
  have implementations := cloneInitCode_injective sameCode
  have wallets := ForwarderArguments.encode_injective sameArguments
  obtain ⟨⟨address, implementation⟩, deployer, parent⟩ := left
  obtain ⟨⟨otherAddress, otherImplementation⟩, otherDeployer, otherParent⟩ := right
  simp only [Derivation.arguments, ForwarderArguments.mk.injEq] at wallets
  obtain ⟨rfl, rfl, -, -⟩ := wallets
  cases factories
  cases implementations
  rfl

/-- The row and the group have one address exactly if the group's was computed from the same
factory and wallets. -/
theorem ForwarderRow.ToldApart.address_iff {evm : Evm} {row : ForwarderRow} {group : AddressGroup}
    (apart : row.ToldApart evm group) (digests : ∀ data, (evm.keccak256 data).length = 32)
    (salts : row.salt = group.derivationSalt)
    (rowAddress : row.address = row.derivation.address evm row.salt)
    (groupAddress : group.computedAddress = digestAddress (evm.keccak256 (group.preimage evm))) :
    row.address = group.computedAddress ↔ group.reference = some row.derivation := by
  have rowDigest : row.address =
      digestAddress (evm.keccak256 (row.derivation.preimage evm row.salt)) := rowAddress
  rw [rowDigest, groupAddress]
  constructor
  · intro equal
    have preimages : row.derivation.preimage evm row.salt = group.preimage evm := by
      by_contra differs
      exact apart.addresses ⟨differs, equal⟩
    have initCodes := apart.initCodes
    have arguments := apart.arguments
    rw [← salts] at arguments
    simp only [AddressGroup.preimage, AddressGroup.initCode, ← salts] at preimages initCodes
    cases isReference : group.reference with
    | none =>
      simp only [isReference] at preimages initCodes
      obtain ⟨-, -, codes⟩ := create2Preimage_injective (by simp [digests]) preimages
      exact absurd ⟨append_ne_nil_of_right_ne_nil _ (cons_ne_nil _ _), codes⟩ initCodes
    | some reference =>
      simp only [isReference] at preimages initCodes
      have same := Derivation.eq_of_preimage digests initCodes
        (arguments reference isReference) preimages
      rw [same]
  · intro isReference
    simp only [AddressGroup.preimage, isReference, salts]

/-! ## Rows of a group -/

variable {settings : AddressSettings} {tables : AddressTables}

/-- A deposit address of a group has its salt, and an address computed from it. -/
def ForwarderRow.Provisioned (evm : Evm) (row : ForwarderRow) (group : AddressGroup) : Prop :=
  row.salt = group.derivationSalt ∧ row.address = row.derivation.address evm row.salt

/-- Uids are not repeated, the address of a group is the hash of its preimage, and the rows of a
group are computed from its salt. -/
structure AddressTables.Grouped (evm : Evm) (tables : AddressTables) : Prop where
  uids : (tables.addressGroups.map AddressGroup.groupUid).Nodup
  hashed : ∀ group ∈ tables.addressGroups,
    group.computedAddress = digestAddress (evm.keccak256 (group.preimage evm))
  rows : ∀ row ∈ tables.depositAddresses, ∀ uid ∈ row.addressGroup,
    ∃ group ∈ tables.addressGroups, group.groupUid = uid ∧ row.Provisioned evm group

theorem AddressTables.Grouped.insertWallet (grouped : tables.Grouped settings.evm)
    (row : WalletRow) : (tables.insertWallet row).Grouped settings.evm := by
  unfold AddressTables.insertWallet
  split
  · exact grouped
  · exact ⟨grouped.uids, grouped.hashed, grouped.rows⟩

theorem AddressTables.Grouped.insertAddress (grouped : tables.Grouped settings.evm)
    {row : ForwarderRow} (provisioned : ∀ uid ∈ row.addressGroup,
      ∃ group ∈ tables.addressGroups, group.groupUid = uid ∧ row.Provisioned settings.evm group) :
    (tables.insertAddress settings row).Grouped settings.evm := by
  unfold AddressTables.insertAddress
  split
  · exact grouped
  · refine ⟨grouped.uids, grouped.hashed, ?_⟩
    intro other member
    obtain before | isNew := mem_append.mp member
    · exact grouped.rows other before
    · obtain rfl := mem_singleton.mp isNew
      exact provisioned

theorem AddressTables.Grouped.insertGroup (grouped : tables.Grouped settings.evm)
    {row : AddressGroup}
    (hashed : row.computedAddress =
      digestAddress (settings.evm.keccak256 (row.preimage settings.evm))) :
    (tables.insertGroup settings row).Grouped settings.evm := by
  unfold AddressTables.insertGroup
  split
  · exact grouped
  · rename_i free
    have fresh : row.groupUid ∉ tables.addressGroups.map AddressGroup.groupUid := by
      intro taken
      obtain ⟨other, member, same⟩ := mem_map.mp taken
      apply free
      rw [any_eq_true]
      exact ⟨other, member, by simp [same]⟩
    refine ⟨?_, ?_, ?_⟩
    · simp only [map_append, map_cons, map_nil]
      exact nodup_append_comm.mp (nodup_cons.mpr ⟨fresh, grouped.uids⟩)
    · intro group member
      obtain before | isNew := mem_append.mp member
      · exact grouped.hashed group before
      · obtain rfl := mem_singleton.mp isNew
        exact hashed
    · intro other member uid isUid
      obtain ⟨group, isGroup, rest⟩ := grouped.rows other member uid isUid
      exact ⟨group, mem_append_left _ isGroup, rest⟩

theorem AddressTables.Grouped.step {action : AddressAction} {after : AddressTables}
    (grouped : tables.Grouped settings.evm)
    (transition : tables.step settings action = some after) : after.Grouped settings.evm := by
  cases action with
  | insertWallet row =>
    obtain rfl := Option.some.inj transition
    exact grouped.insertWallet row
  | generateAddress clientId chainId externalId factory =>
    obtain rfl := Option.some.inj transition
    dsimp only [AddressTables.generateAddress]
    split
    · split
      · apply grouped.insertAddress
        rintro uid ⟨⟩
      · exact grouped
    · exact grouped
  | createGroup clientId projectId uuid externalId hot gasTank factory =>
    simp only [AddressTables.step] at transition
    split at transition
    · obtain rfl := Option.some.inj transition
      dsimp only [AddressTables.createGroup]
      split
      · apply grouped.insertGroup
        simp only [AddressGroup.preimage]
        cases AddressTables.derivation? hot gasTank factory <;> rfl
      · exact grouped
    · cases transition
  | provisionOnChain group chainId factory =>
    simp only [AddressTables.step] at transition
    split at transition
    · rename_i member
      obtain rfl := Option.some.inj transition
      dsimp only [AddressTables.provisionOnChain]
      split
      · exact grouped
      · split
        · apply grouped.insertAddress
          rintro uid ⟨⟩
          exact ⟨group, member, rfl, rfl, rfl⟩
        · exact grouped
    · cases transition

theorem grouped_initial (evm : Evm) : AddressTables.Grouped evm ⟨[], [], []⟩ := by
  refine ⟨nodup_nil, ?_, ?_⟩
  · intro group member
    cases member
  · intro row member
    cases member

theorem grouped_of_reachable {Allowed : AddressTables → AddressAction → Prop}
    (reachable : (addressSystem settings).Reachable Allowed tables) :
    tables.Grouped settings.evm := by
  apply reachable.invariant
  · rintro start rfl
    exact grouped_initial settings.evm
  · intro before action after grouped _ transition
    exact grouped.step transition

/-- A row of a group is provisioned for it. -/
theorem AddressTables.Grouped.provisioned {evm : Evm} (grouped : tables.Grouped evm)
    {group : AddressGroup} (isGroup : group ∈ tables.addressGroups) {row : ForwarderRow}
    (isRow : row ∈ tables.depositAddresses) (ofGroup : row.addressGroup = some group.groupUid) :
    row.Provisioned evm group := by
  obtain ⟨other, isOther, same, provisioned⟩ := grouped.rows row isRow group.groupUid ofGroup
  rwa [inj_on_of_nodup_map grouped.uids isOther isGroup same] at provisioned

/-! ## When they share it -/

/-- A property of every group and each of its rows. -/
def AddressTables.ForGroups (tables : AddressTables)
    (property : AddressGroup → ForwarderRow → Prop) : Prop :=
  ∀ group ∈ tables.addressGroups, ∀ row ∈ tables.depositAddresses,
    row.addressGroup = some group.groupUid → property group row

/-- The deposit addresses of every group are the address stored with it. -/
def AddressTables.Share (tables : AddressTables) : Prop :=
  tables.ForGroups fun group row => row.address = group.computedAddress

/-- The address of every group was computed from the factory and the wallets of each of its
rows. -/
def AddressTables.OneReference (tables : AddressTables) : Prop :=
  tables.ForGroups fun group row => group.reference = some row.derivation

/-- Where a group is provisioned, the factory and the wallets of the chain are those that its
address was computed from. -/
def AddressTables.ProvisionsReference (tables : AddressTables) : AddressAction → Prop
  | .provisionOnChain group chainId factory =>
    ∀ derivation ∈ AddressTables.derivation? (tables.wallet? group.clientId chainId .hot)
      (tables.wallet? group.clientId chainId .gasTank) factory,
      group.reference = some derivation
  | _ => True

instance (tables : AddressTables) (action : AddressAction) :
    Decidable (tables.ProvisionsReference action) := by
  cases action <;> simp only [AddressTables.ProvisionsReference] <;> infer_instance

/-- Inserting a deposit address keeps the references that agree, if its own does. -/
theorem AddressTables.OneReference.insertAddress (one : tables.OneReference) {row : ForwarderRow}
    (agrees : ∀ group ∈ tables.addressGroups, row.addressGroup = some group.groupUid →
      group.reference = some row.derivation) :
    (tables.insertAddress settings row).OneReference := by
  unfold AddressTables.insertAddress
  split
  · exact one
  · intro group isGroup other member ofGroup
    obtain before | isNew := mem_append.mp member
    · exact one group isGroup other before ofGroup
    · obtain rfl := mem_singleton.mp isNew
      exact agrees group isGroup ofGroup

theorem AddressTables.OneReference.insertGroup (one : tables.OneReference)
    (grouped : tables.Grouped settings.evm) {row : AddressGroup} :
    (tables.insertGroup settings row).OneReference := by
  unfold AddressTables.insertGroup
  split
  · exact one
  · rename_i free
    intro group isGroup other member ofGroup
    obtain before | isNew := mem_append.mp isGroup
    · exact one group before other member ofGroup
    · obtain rfl := mem_singleton.mp isNew
      -- no row has the uid of a group that is not there yet
      obtain ⟨older, isOlder, same, _⟩ := grouped.rows other member _ ofGroup
      apply absurd _ free
      rw [any_eq_true]
      exact ⟨older, isOlder, by simp [same]⟩

theorem AddressTables.OneReference.step {action : AddressAction} {after : AddressTables}
    (one : tables.OneReference) (grouped : tables.Grouped settings.evm)
    (allowed : tables.ProvisionsReference action)
    (transition : tables.step settings action = some after) : after.OneReference := by
  cases action with
  | insertWallet row =>
    obtain rfl := Option.some.inj transition
    unfold AddressTables.insertWallet
    split <;> exact one
  | generateAddress clientId chainId externalId factory =>
    obtain rfl := Option.some.inj transition
    dsimp only [AddressTables.generateAddress]
    split
    · split
      · apply one.insertAddress
        rintro group isGroup ⟨⟩
      · exact one
    · exact one
  | createGroup clientId projectId uuid externalId hot gasTank factory =>
    simp only [AddressTables.step] at transition
    split at transition
    · obtain rfl := Option.some.inj transition
      dsimp only [AddressTables.createGroup]
      split
      · exact one.insertGroup grouped
      · exact one
    · cases transition
  | provisionOnChain group chainId factory =>
    simp only [AddressTables.step] at transition
    split at transition
    · rename_i member
      obtain rfl := Option.some.inj transition
      dsimp only [AddressTables.provisionOnChain]
      split
      · exact one
      · split
        · rename_i derivation _ isDerivation
          apply one.insertAddress
          intro other isOther ofOther
          have same : group = other :=
            inj_on_of_nodup_map grouped.uids member isOther (Option.some.inj ofOther)
          exact same ▸ allowed _ isDerivation
        · exact one
    · cases transition

/-- As long as the hash does not collide, the deposit addresses of a group are the address stored
with it exactly if that was computed from the factory and the wallets of each of their chains; and
so they are after provisioning on such chains only. -/
theorem group_shares_iff (settings : AddressSettings)
    (digests : ∀ data, (settings.evm.keccak256 data).length = 32) :
    (∀ tables : AddressTables,
      (addressSystem settings).Reachable TransitionSystem.Unrestricted tables →
      tables.ForGroups (fun group row => row.ToldApart settings.evm group) →
      (tables.Share ↔ tables.OneReference)) ∧
    (∀ tables : AddressTables,
      (addressSystem settings).Reachable AddressTables.ProvisionsReference tables →
      tables.Share) := by
  refine ⟨?_, ?_⟩
  · intro tables reachable apart
    have grouped := grouped_of_reachable reachable
    apply forall₂_congr
    intro group isGroup
    apply forall₂_congr
    intro row isRow
    apply imp_congr_right
    intro ofGroup
    obtain ⟨salts, address⟩ := grouped.provisioned isGroup isRow ofGroup
    exact (apart group isGroup row isRow ofGroup).address_iff digests salts address
      (grouped.hashed group isGroup)
  · intro tables reachable
    have both : tables.Grouped settings.evm ∧ tables.OneReference := by
      apply reachable.invariant
      · rintro start rfl
        refine ⟨grouped_initial settings.evm, ?_⟩
        intro group member
        cases member
      · rintro before action after ⟨grouped, one⟩ allowed transition
        exact ⟨grouped.step transition, one.step grouped allowed transition⟩
    obtain ⟨grouped, one⟩ := both
    intro group isGroup row isRow ofGroup
    obtain ⟨salts, address⟩ := grouped.provisioned isGroup isRow ofGroup
    have isReference := one group isGroup row isRow ofGroup
    rw [address, grouped.hashed group isGroup]
    simp only [AddressGroup.preimage, isReference, salts]
    rfl

/-- The wallets of a second chain, with any hot wallet. -/
def insertsSecond (hot : Address) : List AddressAction :=
  [.insertWallet ⟨1, 1, 2, .hot, hot⟩, .insertWallet ⟨1, 1, 2, .gasTank, 0xd⟩]

/-- The sample group on both chains, whose factories have one address. -/
def provisionsBoth : List AddressAction :=
  [createsGroup, .provisionOnChain sampleGroupRow 1 (some sampleFactory),
    .provisionOnChain sampleGroupRow 2 (some sampleFactory)]

theorem group_shares_sample :
    ∃ tables,
      (addressSystem sampleAddressSettings).Reachable AddressTables.ProvisionsReference tables ∧
        tables.depositAddresses.length = 2 ∧ tables.addressGroups.length = 1 ∧ tables.Share := by
  obtain ⟨tables, reachable, rows, groups⟩ : ∃ tables,
      (addressSystem sampleAddressSettings).Reachable AddressTables.ProvisionsReference tables ∧
        tables.depositAddresses.length = 2 ∧ tables.addressGroups.length = 1 :=
    TransitionSystem.exists_reachable sampleAddresses_initial
      (insertsWallets ++ insertsSecond 0xa ++ provisionsBoth) (by decide +kernel)
  have digests : ∀ data, (sampleAddressSettings.evm.keccak256 data).length = 32 := by
    intro data
    exact Abi.length_slot _
  exact ⟨tables, reachable, rows, groups,
    (group_shares_iff sampleAddressSettings digests).2 tables reachable⟩

/-- The second chain has a hot wallet of its own, and the group another address there. -/
theorem group_parts :
    ∃ tables,
      (addressSystem sampleAddressSettings).Reachable TransitionSystem.Unrestricted tables ∧
        ∃ group ∈ tables.addressGroups, ∃ row ∈ tables.depositAddresses,
          row.addressGroup = some group.groupUid ∧ row.chainId = 2 ∧
            row.address ≠ group.computedAddress := by
  obtain ⟨tables, reachable, passed⟩ : ∃ tables,
      (addressSystem sampleAddressSettings).Reachable TransitionSystem.Unrestricted tables ∧
        ∃ group ∈ tables.addressGroups, ∃ row ∈ tables.depositAddresses,
          row.addressGroup = some group.groupUid ∧ row.chainId = 2 ∧
            row.address ≠ group.computedAddress :=
    TransitionSystem.exists_reachable sampleAddresses_initial
      (insertsWallets ++ insertsSecond 0xb ++ provisionsBoth) (by decide +kernel)
  exact ⟨tables, reachable, passed⟩

end CryptoVaultHub.CoreWallet

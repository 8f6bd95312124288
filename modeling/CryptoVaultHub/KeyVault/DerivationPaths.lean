import CryptoVaultHub.KeyVault.SigningKeys

/-!
# Derivation paths of the master seed

Two schemes place keys below one master seed: the three signing keys of a client at
`m/44'/60'/<clientId * 3 + i>'/0/0`, and a gas tank at `m/44'/60'/1000'/<chainId>/<clientId>`. In
BIP-32 a path is a list of 32-bit numbers whose highest bit says hardened, and `derivePath` takes
only indices below it.
-/

namespace CryptoVaultHub.KeyVault

variable {Seed Address : Type}

/-- The number of an index in the derivation of a child key. -/
def PathIndex.number : PathIndex → Nat
  | .hardened index => 2 ^ 31 + index
  | .normal index => index

def DerivationPath.numbers (path : DerivationPath) : List Nat := path.map PathIndex.number

/-- Every index fits below the hardened bit. -/
def DerivationPath.Fits (path : DerivationPath) : Prop := ∀ index ∈ path, index.value < 2 ^ 31

theorem PathIndex.number_injective {first second : PathIndex} (left : first.value < 2 ^ 31)
    (right : second.value < 2 ^ 31) (same : first.number = second.number) : first = second := by
  cases first with
  | hardened index =>
    cases second with
    | hardened other =>
      simp only [PathIndex.number] at same
      congr 1
      omega
    | normal other =>
      simp only [PathIndex.number, PathIndex.value] at same right
      omega
  | normal index =>
    cases second with
    | hardened other =>
      simp only [PathIndex.number, PathIndex.value] at same left
      omega
    | normal other =>
      simp only [PathIndex.number] at same
      congr 1

/-- The numbers of a path that fits determine it. -/
theorem DerivationPath.numbers_injective {first second : DerivationPath} (left : first.Fits)
    (right : second.Fits) (same : first.numbers = second.numbers) : first = second := by
  induction first generalizing second with
  | nil =>
    cases second with
    | nil => rfl
    | cons => cases same
  | cons index rest ih =>
    cases second with
    | nil => cases same
    | cons other others =>
      obtain ⟨heads, tails⟩ := List.cons.inj same
      have head := PathIndex.number_injective (left index List.mem_cons_self)
        (right other List.mem_cons_self) heads
      have tail := ih
        (fun later member => left later (List.mem_cons_of_mem _ member))
        (fun later member => right later (List.mem_cons_of_mem _ member)) tails
      rw [head, tail]

/-- The key types of a ceremony. -/
abbrev SigningType := { keyType : KeyType // keyType ≠ .gasTank }

/-- What a key of the master seed is for. Ids begin at 1. -/
inductive MasterKey where
  | signing (clientId : ℕ+) (keyType : SigningType)
  | gasTank (chainId clientId : ℕ+)
deriving DecidableEq

def MasterKey.path : MasterKey → DerivationPath
  | .signing clientId keyType => clientKeyPath clientId keyType.1.position
  | .gasTank chainId clientId => gasTankPath chainId clientId

/-- The row of a key. -/
def MasterKey.derive (hd : HdWallet Seed Address) (seed : Seed) (key : MasterKey) :
    Option (DerivedKey Address) :=
  match key with
  | .signing clientId keyType => deriveKey hd seed clientId none .evm keyType.1 key.path
  | .gasTank chainId clientId =>
    deriveKey hd seed clientId none (.chain chainId) .gasTank key.path

/-- The two schemes do not overlap: below `1000'` a signing key goes on with 0, a gas tank with the
id of its chain. -/
theorem MasterKey.path_injective : Function.Injective MasterKey.path := by
  intro first second same
  cases first with
  | signing clientId keyType =>
    cases second with
    | signing other otherType =>
      have positions := KeyType.position_lt keyType.2
      have otherPositions := KeyType.position_lt otherType.2
      obtain ⟨ids, types⟩ := clientKeyPath_injective positions otherPositions same
      rw [PNat.coe_inj.mp ids, Subtype.ext (KeyType.position_injective types)]
    | gasTank chainId other =>
      have index : 0 = (chainId : Nat) :=
        PathIndex.normal.inj (List.cons.inj (List.cons.inj (List.cons.inj (List.cons.inj
          same).2).2).2).1
      exact absurd index.symm chainId.ne_zero
  | gasTank chainId clientId =>
    cases second with
    | signing other keyType =>
      have index : (chainId : Nat) = 0 :=
        PathIndex.normal.inj (List.cons.inj (List.cons.inj (List.cons.inj (List.cons.inj
          same).2).2).2).1
      exact absurd index chainId.ne_zero
    | gasTank otherChain other =>
      simp only [MasterKey.path, gasTankPath, ethereumPath, List.cons.injEq,
        PathIndex.normal.injEq, PNat.coe_inj, and_true, true_and] at same
      rw [same.1, same.2]

theorem derive_path {hd : HdWallet Seed Address} {seed : Seed} {key : MasterKey}
    {row : DerivedKey Address} (derived : key.derive hd seed = some row) :
    row.derivationPath = key.path ∧ DerivationPath.Fits key.path := by
  have accepted : ∀ {clientId : ClientId} {scope : ChainScope} {keyType : KeyType},
      deriveKey hd seed clientId none scope keyType key.path = some row →
        row.derivationPath = key.path ∧ DerivationPath.Fits key.path := by
    intro clientId scope keyType stored
    obtain ⟨address, fits, rfl⟩ := Option.map_eq_some_iff.mp stored
    refine ⟨rfl, ?_⟩
    rw [HdWallet.derivePath] at fits
    split at fits
    · rename_i within
      intro index member
      exact of_decide_eq_true (List.all_eq_true.mp within index member)
    · cases fits
  cases key with
  | signing => exact accepted derived
  | gasTank => exact accepted derived

/-- The keys that are derived from one master seed for different purposes have different paths. -/
theorem master_paths_distinct {hd : HdWallet Seed Address} {seed : Seed} {first second : MasterKey}
    {row other : DerivedKey Address} (different : first ≠ second)
    (left : first.derive hd seed = some row) (right : second.derive hd seed = some other) :
    row.derivationPath.numbers ≠ other.derivationPath.numbers := by
  obtain ⟨firstPath, firstFits⟩ := derive_path left
  obtain ⟨secondPath, secondFits⟩ := derive_path right
  rw [firstPath, secondPath]
  intro same
  exact different (MasterKey.path_injective
    (DerivationPath.numbers_injective firstFits secondFits same))

/-- The second key of client 333 and the gas tank of client 1 on chain 1 are both below `1000'`. -/
theorem master_paths_distinct_sample :
    (ethereumPath [.hardened 1000, .normal 0, .normal 0]).numbers ≠
      (ethereumPath [.hardened 1000, .normal 1, .normal 1]).numbers := by
  exact @master_paths_distinct Nat (Nat × DerivationPath) ⟨Prod.mk⟩ 11
    (.signing 333 ⟨.client, by decide⟩) (.gasTank 1 1)
    ⟨333, none, .client, .evm, (11, clientKeyPath 333 1), clientKeyPath 333 1, true⟩
    ⟨1, none, .gasTank, .chain 1, (11, gasTankPath 1 1), gasTankPath 1 1, true⟩
    (by decide) rfl rfl

end CryptoVaultHub.KeyVault

import CryptoVaultHub.Indexer.DepositRows
import CryptoVaultHub.Indexer.Monitoring

/-!
# Charging the rows to the inflows

A row is charged to inflows of its forwarder and token: one with the hash of a transaction
to the inflows of that transaction, and any other to those between the two readings that
a poll compared. The rows add up to no more than was received if nothing is charged
twice.
-/

namespace CryptoVaultHub.Indexer

open List

/-! ## The property -/

/-- The amounts of the rows of a forwarder and token. -/
def Monitoring.credited (monitoring : Monitoring) (forwarder : Address) (tokenId : Nat) : Nat :=
  total Deposit.amount (monitoring.polling.store.deposits.filter fun row =>
    row.forwarderAddress = forwarder ∧ row.tokenId = tokenId)

/-- What an address has received of a token. -/
def Monitoring.received (monitoring : Monitoring) (forwarder : Address) (tokenId : Nat) : Nat :=
  total Movement.amount (monitoring.movements.filter fun movement =>
    movement.incoming ∧ movement.key.address = forwarder ∧
      monitoring.polling.store.tokenId? movement.key.contractAddress = some tokenId)

/-! ## The condition -/

def Publication.key (publication : Publication) : BalanceKey :=
  ⟨publication.message.toAddress, publication.message.contractAddress⟩

/-- The inflows between the two readings of a publication. -/
def Monitoring.between (monitoring : Monitoring) (publication : Publication) : List Movement :=
  ((monitoring.movements.take publication.time).drop publication.base).filter
    (Movement.into publication.key)

/-- The publication names a transaction, and all the inflows between its readings are of it. -/
def Monitoring.single (monitoring : Monitoring) (publication : Publication) : Bool :=
  match publication.message.txHash with
  | .transaction hash =>
    (monitoring.between publication).all fun movement => movement.txHash = some hash
  | .polling .. => false

/-- A detector has named a transaction for the inflows to an address. -/
def Monitoring.claimed (monitoring : Monitoring) (hash : TxHash) (address : Address) : Bool :=
  (monitoring.seen.flatten.any fun transfer =>
      (transfer.message 0).key = (.transaction hash, address)) ||
    monitoring.polling.publications.any fun publication =>
      monitoring.single publication && publication.message.key = (.transaction hash, address)

/-- A publication of several inflows has one of a transaction among them. -/
def Monitoring.merged (monitoring : Monitoring) (hash : TxHash) (address : Address) : Bool :=
  monitoring.polling.publications.any fun publication =>
    !monitoring.single publication && publication.message.toAddress = address &&
      (monitoring.between publication).any fun movement => movement.txHash = some hash

/-- What a scan of a block finds was received, and no poll has merged it with others. -/
def Monitoring.scans (monitoring : Monitoring) (found : List Transfer) : Bool :=
  found.all fun transfer =>
    !monitoring.merged transfer.txHash (transfer.message 0).toAddress &&
      monitoring.movements.any fun movement =>
        movement.into ⟨(transfer.message 0).toAddress, transfer.contractAddress⟩ &&
          decide (movement.txHash = some transfer.txHash ∧ movement.amount = transfer.amount)

/-- The cached balance is not newer than the polled one. A publication of one transaction is
not of inflows that another has merged; any other begins where those before it have ended, and
its inflows have not been named. -/
def Monitoring.publishes (monitoring : Monitoring) (publication : Publication) : Bool :=
  decide (publication.base ≤ publication.time) &&
    if monitoring.single publication then
      match publication.message.txHash with
      | .transaction hash => !monitoring.merged hash publication.message.toAddress
      | .polling .. => true
    else
      (monitoring.polling.publications.all fun before =>
        monitoring.single before || before.key ≠ publication.key ||
          decide (before.time ≤ publication.base)) &&
        (monitoring.between publication).all fun movement =>
          movement.txHash.all fun hash =>
            !monitoring.claimed hash publication.message.toAddress

/-! ## What holds in every run -/

/-- A reading is the balance at its time. -/
def Truthful (movements : List Movement) (key : BalanceKey) (reading : Reading) : Prop :=
  reading.time ≤ movements.length ∧
    reading.balance = balance (movements.take reading.time) key

/-- A publication of no more than what came between its readings. -/
structure Monitoring.Bounded (monitoring : Monitoring) (publication : Publication) : Prop where
  ordered : publication.base ≤ publication.time
  past : publication.time ≤ monitoring.movements.length
  amount : publication.message.amount ≤ total Movement.amount (monitoring.between publication)

/-- The inflow that a transfer was detected from. -/
def Monitoring.Receives (monitoring : Monitoring) (transfer : Transfer) : Prop :=
  ∃ movement ∈ monitoring.movements,
    movement.into ⟨(transfer.message 0).toAddress, transfer.contractAddress⟩ = true ∧
      movement.txHash = some transfer.txHash ∧ movement.amount = transfer.amount

/-- The messages are of seen transfers or of publications, and no inflow is claimed by two of
them. -/
structure Monitoring.Consistent (monitoring : Monitoring) : Prop where
  rows : monitoring.polling.store.Sound
  cache : ∀ key reading, (key, reading) ∈ monitoring.polling.cache →
    Truthful monitoring.movements key reading
  messages : ∀ message ∈ monitoring.polling.store.stream,
    (∃ transfer ∈ monitoring.seen.flatten, ∃ blockNumber,
        message = transfer.message blockNumber) ∨
      ∃ publication ∈ monitoring.polling.publications, message = publication.message
  received : ∀ transfer ∈ monitoring.seen.flatten, monitoring.Receives transfer
  bounded : ∀ publication ∈ monitoring.polling.publications, monitoring.Bounded publication
  exclusive : ∀ hash address, monitoring.claimed hash address = true →
    monitoring.merged hash address = false
  apart : (monitoring.polling.publications.filter fun publication =>
      !monitoring.single publication).Pairwise
    fun first second => first.key = second.key → first.time ≤ second.base

variable {monitoring : Monitoring} {forwarder : Address} {tokenId : Nat}

theorem Monitoring.single_iff {publication : Publication} :
    monitoring.single publication = true ↔
      ∃ hash, publication.message.txHash = .transaction hash ∧
        ∀ movement ∈ monitoring.between publication, movement.txHash = some hash := by
  unfold Monitoring.single
  split
  · rename_i hash same
    simp [same]
  · rename_i same
    simp [same]

/-- What is between the readings of a publication was moved to its address. -/
theorem Monitoring.mem_between {publication : Publication} {movement : Movement}
    (member : movement ∈ monitoring.between publication) :
    movement ∈ monitoring.movements ∧ movement.into publication.key = true := by
  obtain ⟨among, into⟩ := mem_filter.mp member
  exact ⟨mem_of_mem_take (mem_of_mem_drop among), into⟩

/-! ## Rows of one transaction -/

/-- The inflows of a token to an address. -/
def Monitoring.inflows (monitoring : Monitoring) (forwarder : Address) (tokenId : Nat) :
    List Movement :=
  monitoring.movements.filter fun movement =>
    movement.incoming ∧ movement.key.address = forwarder ∧
      monitoring.polling.store.tokenId? movement.key.contractAddress = some tokenId

/-- The inflow is of a transaction that a detector has named for the address. -/
def Monitoring.claims (monitoring : Monitoring) (forwarder : Address) (movement : Movement) :
    Bool :=
  movement.txHash.any fun hash => monitoring.claimed hash forwarder

/-- The row is for no more than what its transaction has sent, and the transaction is claimed. -/
def Monitoring.named (monitoring : Monitoring) (row : Deposit) : Bool :=
  match row.txHash with
  | .transaction hash =>
    monitoring.claimed hash row.forwarderAddress &&
      decide (row.amount ≤ total Movement.amount
        ((monitoring.inflows row.forwarderAddress row.tokenId).filter fun movement =>
          movement.txHash = some hash))
  | .polling .. => false

theorem Monitoring.named_of {row : Deposit} {hash : TxHash}
    (same : row.txHash = .transaction hash)
    (claimed : monitoring.claimed hash row.forwarderAddress = true)
    (within : row.amount ≤ total Movement.amount
      ((monitoring.inflows row.forwarderAddress row.tokenId).filter fun movement =>
        movement.txHash = some hash)) : monitoring.named row = true := by
  simp only [Monitoring.named, same, claimed, Bool.true_and]
  exact decide_eq_true within

/-- Rows of one forwarder have different hashes. -/
theorem txHash_nodup {rows : List Deposit} (unique : (rows.map Deposit.key).Nodup)
    (same : ∀ row ∈ rows, row.forwarderAddress = forwarder) :
    (rows.map Deposit.txHash).Nodup := by
  have hashes : rows.map Deposit.txHash = (rows.map Deposit.key).map Prod.fst := by
    rw [map_map]
    rfl
  rw [hashes]
  refine unique.map_on ?_
  intro first firstIn second secondIn equal
  obtain ⟨row, stored, rfl⟩ := mem_map.mp firstIn
  obtain ⟨other, otherStored, rfl⟩ := mem_map.mp secondIn
  have address := (same row stored).trans (same other otherStored).symm
  exact Prod.ext equal address

/-- The named rows are charged to the claimed inflows. -/
theorem Monitoring.named_le {rows : List Deposit}
    (unique : (rows.map Deposit.key).Nodup)
    (own : ∀ row ∈ rows, row.forwarderAddress = forwarder ∧ row.tokenId = tokenId)
    (named : ∀ row ∈ rows, monitoring.named row = true) :
    total Deposit.amount rows ≤ total Movement.amount
      ((monitoring.inflows forwarder tokenId).filter (monitoring.claims forwarder)) := by
  have distinct : (rows.map fun row => some row.txHash).Nodup := by
    have hashes := txHash_nodup unique fun row stored => (own row stored).1
    have wrapped := hashes.map (Option.some_injective DepositHash)
    rwa [map_map] at wrapped
  refine total_le_of_groups (fun row => some row.txHash)
    (fun movement : Movement => movement.txHash.map DepositHash.transaction) distinct ?_
  intro row stored
  obtain ⟨address, token⟩ := own row stored
  have charged := named row stored
  unfold Monitoring.named at charged
  split at charged
  · rename_i hash same
    obtain ⟨claimed, within⟩ := Bool.and_eq_true_iff.mp charged
    refine (of_decide_eq_true within).trans ?_
    rw [address, token, filter_filter]
    refine total_filter_mono Movement.amount ?_
    intro movement _ hit
    have sends := of_decide_eq_true hit
    rw [address] at claimed
    simp [Monitoring.claims, sends, claimed, same]
  · cases charged

/-! ## Rows of several inflows -/

/-- The publications of several inflows of a token to an address. -/
def Monitoring.merging (monitoring : Monitoring) (forwarder : Address) (tokenId : Nat) :
    List Publication :=
  monitoring.polling.publications.filter fun publication =>
    !monitoring.single publication && (decide (publication.message.toAddress = forwarder) &&
      decide (monitoring.polling.store.tokenId? publication.message.contractAddress =
        some tokenId))

theorem Monitoring.mem_merging {publication : Publication} :
    publication ∈ monitoring.merging forwarder tokenId ↔
      publication ∈ monitoring.polling.publications ∧ monitoring.single publication = false ∧
        publication.message.toAddress = forwarder ∧
        monitoring.polling.store.tokenId? publication.message.contractAddress = some tokenId := by
  simp only [Monitoring.merging, mem_filter, Bool.and_eq_true, decide_eq_true_eq,
    Bool.not_eq_true']

/-- What a publication of several inflows was made from is not claimed. -/
theorem Monitoring.Consistent.unclaimed (consistent : monitoring.Consistent)
    {publication : Publication} (published : publication ∈ monitoring.polling.publications)
    (several : monitoring.single publication = false) {movement : Movement}
    (member : movement ∈ monitoring.between publication) :
    monitoring.claims publication.message.toAddress movement = false := by
  unfold Monitoring.claims
  by_contra claims
  obtain ⟨hash, sent, claimed⟩ : ∃ hash, movement.txHash = some hash ∧
      monitoring.claimed hash publication.message.toAddress = true := by
    cases sent : movement.txHash with
    | none => simp [sent] at claims
    | some hash => exact ⟨hash, rfl, by simpa [sent] using claims⟩
  have merged : monitoring.merged hash publication.message.toAddress = true := by
    refine any_eq_true.mpr ⟨publication, published, ?_⟩
    simp only [several, Bool.not_false, decide_true, Bool.and_self, Bool.true_and]
    exact any_eq_true.mpr ⟨movement, member, decide_eq_true sent⟩
  rw [consistent.exclusive hash _ claimed] at merged
  cases merged

/-- The publications of several inflows are charged to the inflows that are not claimed. -/
theorem Monitoring.Consistent.merging_le (consistent : monitoring.Consistent) :
    total (fun publication => publication.message.amount)
        (monitoring.merging forwarder tokenId) ≤
      total Movement.amount ((monitoring.inflows forwarder tokenId).filter fun movement =>
        !monitoring.claims forwarder movement) := by
  refine total_le_of_fibers (fun publication => publication.message.contractAddress)
    (fun movement : Movement => movement.key.contractAddress) ?_
  intro contractAddress
  by_cases known : monitoring.polling.store.tokenId? contractAddress = some tokenId
  · let counts : Movement → Bool := fun movement =>
      movement.into ⟨forwarder, contractAddress⟩ && !monitoring.claims forwarder movement
    have charged : total (fun publication => publication.message.amount)
        ((monitoring.merging forwarder tokenId).filter fun publication =>
          publication.message.contractAddress = contractAddress) ≤
        total (fun movement => if counts movement then movement.amount else 0)
          monitoring.movements := by
      have kind : ∀ publication ∈ (monitoring.merging forwarder tokenId).filter (fun publication =>
          publication.message.contractAddress = contractAddress),
          publication ∈ monitoring.polling.publications ∧
            monitoring.single publication = false ∧
            publication.message.toAddress = forwarder ∧
            publication.key = ⟨forwarder, contractAddress⟩ := by
        intro publication member
        obtain ⟨among, same⟩ := mem_filter.mp member
        obtain ⟨published, several, address, _⟩ := Monitoring.mem_merging.mp among
        exact ⟨published, several, address, by
          rw [Publication.key, address, of_decide_eq_true same]⟩
      refine total_le_of_intervals Publication.base Publication.time ?_ ?_ ?_
      · have inside : ((monitoring.merging forwarder tokenId).filter fun publication =>
            publication.message.contractAddress = contractAddress).Sublist
            (monitoring.polling.publications.filter fun publication =>
              !monitoring.single publication) := by
          refine filter_sublist.trans ?_
          refine monotone_filter_right _ ?_
          exact fun publication both => (Bool.and_eq_true_iff.mp both).1
        refine (consistent.apart.sublist inside).imp_of_mem ?_
        intro first second firstIn secondIn apart
        exact apart ((kind first firstIn).2.2.2.trans (kind second secondIn).2.2.2.symm)
      · intro publication member
        exact (consistent.bounded publication (kind publication member).1).ordered
      · intro publication member
        obtain ⟨published, several, address, key⟩ := kind publication member
        refine (consistent.bounded publication published).amount.trans ?_
        have free : ∀ movement ∈ monitoring.between publication,
            monitoring.claims publication.message.toAddress movement = false :=
          fun movement member => consistent.unclaimed published several member
        rw [total_ite]
        rw [Monitoring.between] at free ⊢
        refine total_filter_mono Movement.amount ?_
        intro movement member into
        have unclaimed := free movement (mem_filter.mpr ⟨member, into⟩)
        rw [address] at unclaimed
        rw [key] at into
        simp only [counts, into, unclaimed, Bool.not_false, Bool.and_self]
    rw [total_ite] at charged
    refine charged.trans ?_
    rw [Monitoring.inflows, filter_filter, filter_filter]
    refine total_filter_mono Movement.amount ?_
    intro movement _ counted
    obtain ⟨into, free⟩ := Bool.and_eq_true_iff.mp counted
    obtain ⟨incoming, key⟩ := Bool.and_eq_true_iff.mp into
    have same := of_decide_eq_true key
    simp [incoming, same, known, free]
  · have none : (monitoring.merging forwarder tokenId).filter (fun publication =>
        publication.message.contractAddress = contractAddress) = [] := by
      refine filter_eq_nil_iff.mpr ?_
      intro publication member same
      have parts := (mem_filter.mp member).2
      simp only [Bool.and_eq_true, decide_eq_true_eq] at parts
      rw [of_decide_eq_true same] at parts
      exact known parts.2.2
    rw [none]
    exact Nat.zero_le _

/-! ## The sum -/

/-- A row that is not named has the key, the amount and the token of a publication of several
inflows. -/
theorem Monitoring.Consistent.merged_row (consistent : monitoring.Consistent) {row : Deposit}
    (stored : row ∈ monitoring.polling.store.deposits) (unnamed : monitoring.named row = false) :
    ∃ publication ∈ monitoring.merging row.forwarderAddress row.tokenId,
      publication.message.txHash = row.txHash ∧ publication.message.amount = row.amount := by
  obtain ⟨message, sent, key, amount, token⟩ := consistent.rows.origin row stored
  have hash : row.txHash = message.txHash := congrArg Prod.fst key
  have address : row.forwarderAddress = message.toAddress := congrArg Prod.snd key
  rcases consistent.messages message sent with
    ⟨transfer, seen, blockNumber, rfl⟩ | ⟨publication, published, rfl⟩
  · -- The transfer claims its transaction, which has sent the amount.
    obtain ⟨movement, moved, into, sends, same⟩ := consistent.received transfer seen
    obtain ⟨incoming, into⟩ := Bool.and_eq_true_iff.mp into
    have at_key := of_decide_eq_true into
    have claimed : monitoring.claimed transfer.txHash row.forwarderAddress = true := by
      refine Bool.or_eq_true_iff.mpr (.inl (any_eq_true.mpr ⟨transfer, seen, ?_⟩))
      rw [address]
      exact decide_eq_true rfl
    have within : row.amount ≤ total Movement.amount
        ((monitoring.inflows row.forwarderAddress row.tokenId).filter fun movement =>
          movement.txHash = some transfer.txHash) := by
      rw [amount, address]
      refine same.symm.le.trans (le_total Movement.amount ?_)
      refine mem_filter.mpr ⟨mem_filter.mpr ⟨moved, ?_⟩, decide_eq_true sends⟩
      rw [at_key]
      exact decide_eq_true ⟨incoming, rfl, token⟩
    rw [Monitoring.named_of hash claimed within] at unnamed
    cases unnamed
  · refine ⟨publication, Monitoring.mem_merging.mpr ⟨published, ?_, address.symm, token⟩,
      hash.symm, amount.symm⟩
    by_contra several
    -- A publication of one transaction claims it, and all of its inflows are of it.
    have single : monitoring.single publication = true := by simpa using several
    obtain ⟨transaction, sent, all⟩ := Monitoring.single_iff.mp single
    have claimed : monitoring.claimed transaction row.forwarderAddress = true := by
      refine Bool.or_eq_true_iff.mpr (.inr (any_eq_true.mpr ⟨publication, published, ?_⟩))
      refine Bool.and_eq_true_iff.mpr ⟨single, decide_eq_true ?_⟩
      rw [← key, Deposit.key, hash, sent]
    have within : row.amount ≤ total Movement.amount
        ((monitoring.inflows row.forwarderAddress row.tokenId).filter fun movement =>
          movement.txHash = some transaction) := by
      rw [amount]
      refine (consistent.bounded publication published).amount.trans ?_
      have inside : (monitoring.between publication).Sublist monitoring.movements :=
        filter_sublist.trans ((drop_sublist ..).trans (take_sublist ..))
      rw [← filter_eq_self.mpr fun movement member => decide_eq_true (all movement member)]
      rw [Monitoring.inflows, filter_filter]
      refine (total_filter_mono Movement.amount ?_).trans
        (total_sublist_le Movement.amount (inside.filter _))
      intro movement member hit
      obtain ⟨incoming, at_key⟩ := Bool.and_eq_true_iff.mp (Monitoring.mem_between member).2
      rw [hit, Bool.true_and, of_decide_eq_true at_key, address]
      exact decide_eq_true ⟨incoming, rfl, token⟩
    rw [Monitoring.named_of (hash.trans sent) claimed within] at unnamed
    cases unnamed

/-- The rows of a forwarder and token are charged to different inflows. -/
theorem Monitoring.Consistent.credited_le (consistent : monitoring.Consistent)
    (forwarder : Address) (tokenId : Nat) :
    monitoring.credited forwarder tokenId ≤ monitoring.received forwarder tokenId := by
  let rows := monitoring.polling.store.deposits.filter fun row =>
    row.forwarderAddress = forwarder ∧ row.tokenId = tokenId
  have own : ∀ row ∈ rows, row ∈ monitoring.polling.store.deposits ∧
      row.forwarderAddress = forwarder ∧ row.tokenId = tokenId := by
    intro row member
    obtain ⟨stored, owned⟩ := mem_filter.mp member
    exact ⟨stored, of_decide_eq_true owned⟩
  have unique : ∀ keep : Deposit → Bool, ((rows.filter keep).map Deposit.key).Nodup :=
    fun keep => consistent.rows.unique.sublist
      ((filter_sublist.trans filter_sublist).map Deposit.key)
  have named : total Deposit.amount (rows.filter monitoring.named) ≤ total Movement.amount
      ((monitoring.inflows forwarder tokenId).filter (monitoring.claims forwarder)) := by
    refine Monitoring.named_le (unique _) ?_ ?_
    · exact fun row member => (own row (mem_of_mem_filter member)).2
    · exact fun row member => (mem_filter.mp member).2
  have others : total Deposit.amount (rows.filter fun row => !monitoring.named row) ≤
      total (fun publication => publication.message.amount)
        (monitoring.merging forwarder tokenId) := by
    refine total_le_of_groups Deposit.txHash
      (fun publication : Publication => publication.message.txHash) ?_ ?_
    · exact txHash_nodup (unique _) fun row member =>
        (own row (mem_of_mem_filter member)).2.1
    · intro row member
      obtain ⟨inside, unnamed⟩ := mem_filter.mp member
      obtain ⟨stored, address, token⟩ := own row inside
      obtain ⟨publication, merging, hash, amount⟩ :=
        consistent.merged_row stored (by simpa using unnamed)
      rw [address, token] at merging
      rw [← amount]
      exact le_total (fun publication : Publication => publication.message.amount)
        (mem_filter.mpr ⟨merging, decide_eq_true hash⟩)
  have rowParts := total_filter_add Deposit.amount monitoring.named rows
  have inflowParts := total_filter_add Movement.amount (monitoring.claims forwarder)
    (monitoring.inflows forwarder tokenId)
  calc monitoring.credited forwarder tokenId
      = total Deposit.amount rows := rfl
    _ ≤ total Movement.amount (monitoring.inflows forwarder tokenId) := by
        have merging : total (fun publication => publication.message.amount)
            (monitoring.merging forwarder tokenId) ≤ total Movement.amount
              ((monitoring.inflows forwarder tokenId).filter fun movement =>
                !monitoring.claims forwarder movement) := consistent.merging_le
        omega
    _ = monitoring.received forwarder tokenId := rfl

end CryptoVaultHub.Indexer

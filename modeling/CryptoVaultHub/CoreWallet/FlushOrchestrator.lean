import CryptoVaultHub.CoreWallet.FlushLocks

/-!
# Flush requests

`FlushOrchestratorService.executeFlush` goes through the deposits of a client on a chain and
enqueues one sweep job for all of them, with the first deposit that is worth a flush. The pair
of client and chain is marked before the job is added, so that all later deposits count as
succeeded even if it could not be added.
-/

namespace CryptoVaultHub.CoreWallet.Flush

open List Option

/-! ## Items -/

/-- A row of `deposits`, as far as a flush reads it. -/
structure Deposit where
  clientId : Nat
  chainId : Nat
  tokenId : Nat
  forwarderAddress : Text
  amountRaw : Text
  confirmed : Bool
  sweepTxHash : Option Text

structure FlushItem where
  walletId : Nat
  clientId : Nat
  chainId : Nat
  tokenId : Nat
  forwarderAddress : Text
  amount : Text
deriving DecidableEq

def collectFlushItems (deposits : List Deposit) (clientId chainId : Nat) : List FlushItem :=
  (deposits.filter fun deposit => deposit.clientId = clientId && deposit.chainId = chainId &&
    deposit.confirmed && deposit.sweepTxHash.isNone).map fun deposit =>
      ⟨deposit.clientId, deposit.clientId, deposit.chainId, deposit.tokenId,
        deposit.forwarderAddress, deposit.amountRaw⟩

/-! ## The queue -/

/-- `flush-${chainId}-${clientId}-${now}`. -/
structure SweepJobId where
  chainId : Nat
  clientId : Nat
  now : Nat
deriving DecidableEq

structure SweepJob where
  jobId : SweepJobId
  chainId : Nat
  clientId : Nat
deriving DecidableEq

/-- What becomes of a call of `add`: the job is in the queue, it is but the call fails all the
same, or it is not. -/
inductive AddAnswer where
  | added
  | lost
  | refused
deriving DecidableEq

/-- The answers a flush gets for an item: whether the forwarder is locked, unless the question
fails, and, should it come to that, the time and the answer of the queue. -/
structure Answers where
  locked : Option Bool
  now : Nat
  add : AddAnswer
deriving DecidableEq

/-! ## The loop -/

/-- What an item is counted as. -/
inductive Count where
  | succeeded
  | failed
  | skipped
deriving DecidableEq

/-- The locals of `executeFlush`, the jobs that have reached the queue and what each item was
counted as. -/
structure Tally where
  succeededCount : Nat
  failedCount : Nat
  skippedCount : Nat
  sweepJobIds : List SweepJobId
  groupKeys : List (Nat × Nat)
  enqueued : List SweepJob
  counted : List (FlushItem × Count)
deriving DecidableEq

namespace Tally

def start : Tally := ⟨0, 0, 0, [], [], [], []⟩

def succeed (tally : Tally) (item : FlushItem) : Tally :=
  { tally with
    succeededCount := tally.succeededCount + 1
    counted := tally.counted ++ [(item, .succeeded)] }

def fail (tally : Tally) (item : FlushItem) : Tally :=
  { tally with
    failedCount := tally.failedCount + 1
    counted := tally.counted ++ [(item, .failed)] }

def skip (tally : Tally) (item : FlushItem) : Tally :=
  { tally with
    skippedCount := tally.skippedCount + 1
    counted := tally.counted ++ [(item, .skipped)] }

/-- The job of an item. -/
def job (item : FlushItem) (now : Nat) : SweepJob :=
  ⟨⟨item.chainId, item.clientId, now⟩, item.chainId, item.clientId⟩

/-- Mark the pair of an item and add its job to the queue. -/
def enqueue (tally : Tally) (item : FlushItem) (answers : Answers) : Tally :=
  let grouped := { tally with groupKeys := (item.chainId, item.clientId) :: tally.groupKeys }
  let stored := { grouped with enqueued := job item answers.now :: grouped.enqueued }
  match answers.add with
  | .added =>
    { stored with sweepJobIds := stored.sweepJobIds ++ [(job item answers.now).jobId] }.succeed
      item
  | .lost => stored.fail item
  | .refused => grouped.fail item

end Tally

/-- One turn of the loop; `bigInt` is `BigInt` of a text, where it does not throw. -/
def executeItem (bigInt : Text → Option Int) (tally : Tally) (input : FlushItem × Answers) :
    Tally :=
  match bigInt input.1.amount with
  | none => tally.fail input.1
  | some balance =>
    if balance ≤ 0 then tally.skip input.1
    else
      match input.2.locked with
      | none => tally.fail input.1
      | some true => tally.skip input.1
      | some false =>
        if tally.groupKeys.contains (input.1.chainId, input.1.clientId) then tally.succeed input.1
        else tally.enqueue input.1 input.2

inductive FinalStatus where
  | enqueued
  | failed
  | partiallyEnqueued
  | canceled
deriving DecidableEq

def finalStatus (tally : Tally) : FinalStatus :=
  if tally.failedCount = 0 ∧ 0 < tally.succeededCount then .enqueued
  else if tally.succeededCount = 0 ∧ 0 < tally.failedCount then .failed
  else if 0 < tally.succeededCount ∧ 0 < tally.failedCount then .partiallyEnqueued
  else if tally.succeededCount = 0 ∧ tally.failedCount = 0 then .canceled
  else .failed

structure FlushResult where
  totalItems : Nat
  succeededCount : Nat
  failedCount : Nat
  skippedCount : Nat
  finalStatus : FinalStatus
  sweepJobIds : List SweepJobId
deriving DecidableEq

/-- The items of a request with the answers each of them gets. -/
def flushInputs (deposits : List Deposit) (clientId chainId : Nat) (answers : Nat → Answers) :
    List (FlushItem × Answers) :=
  (collectFlushItems deposits clientId chainId).mapIdx fun index item => (item, answers index)

/-- A flush request: the tally of its loop, and the result that is published and returned. -/
def executeFlush (bigInt : Text → Option Int) (deposits : List Deposit) (clientId chainId : Nat)
    (answers : Nat → Answers) : Tally × FlushResult :=
  let items := collectFlushItems deposits clientId chainId
  let tally := (flushInputs deposits clientId chainId answers).foldl (executeItem bigInt) .start
  (tally, ⟨items.length, tally.succeededCount, tally.failedCount, tally.skippedCount,
    finalStatus tally, tally.sweepJobIds⟩)

/-! ## What a turn does -/

/-- The item is worth a flush, and its forwarder is found unlocked. -/
def eligible (bigInt : Text → Option Int) (input : FlushItem × Answers) : Bool :=
  (bigInt input.1.amount).any (fun balance => 0 < balance) && input.2.locked == some false

/-- The pair an item is grouped by. -/
def FlushItem.pair (item : FlushItem) : Nat × Nat := (item.chainId, item.clientId)

variable {bigInt : Text → Option Int}

/-- A turn counts an item that is not eligible as something else than succeeded, one of a marked
pair as succeeded, and enqueues a job otherwise. -/
theorem executeItem_cases (bigInt : Text → Option Int) (tally : Tally)
    (input : FlushItem × Answers) :
    (eligible bigInt input = false ∧ (executeItem bigInt tally input = tally.fail input.1 ∨
        executeItem bigInt tally input = tally.skip input.1)) ∨
      (eligible bigInt input = true ∧ input.1.pair ∈ tally.groupKeys ∧
        executeItem bigInt tally input = tally.succeed input.1) ∨
      (eligible bigInt input = true ∧ input.1.pair ∉ tally.groupKeys ∧
        executeItem bigInt tally input = tally.enqueue input.1 input.2) := by
  unfold executeItem eligible FlushItem.pair
  cases amount : bigInt input.1.amount with
  | none => exact .inl ⟨rfl, .inl rfl⟩
  | some balance =>
    by_cases worthless : balance ≤ 0
    · refine .inl ⟨?_, .inr (if_pos worthless)⟩
      simp [Int.not_lt.mpr worthless]
    · simp only [if_neg worthless]
      have worth : 0 < balance := Int.not_le.mp worthless
      rcases locked : input.2.locked with _ | _ | _
      · exact .inl ⟨by simp, .inl rfl⟩
      · by_cases marked : (input.1.chainId, input.1.clientId) ∈ tally.groupKeys
        · exact .inr (.inl ⟨by simp [worth], marked, if_pos (contains_iff_mem.mpr marked)⟩)
        · exact .inr (.inr ⟨by simp [worth], marked,
            if_neg (mt contains_iff_mem.mp marked)⟩)
      · exact .inl ⟨by simp, .inr rfl⟩

/-! ## Counts -/

/-- Every item so far is counted once, and the counters agree. -/
structure Tally.Counts (tally : Tally) (items : List FlushItem) : Prop where
  items : tally.counted.map Prod.fst = items
  succeeded : tally.succeededCount = tally.counted.countP fun entry => entry.2 = .succeeded
  failed : tally.failedCount = tally.counted.countP fun entry => entry.2 = .failed
  skipped : tally.skippedCount = tally.counted.countP fun entry => entry.2 = .skipped

namespace Tally.Counts

variable {tally : Tally} {items : List FlushItem}

theorem succeed (counts : tally.Counts items) (item : FlushItem) :
    (tally.succeed item).Counts (items ++ [item]) := by
  obtain ⟨listed, succeeded, failed, skipped⟩ := counts
  constructor <;> simp [Tally.succeed, listed, succeeded, failed, skipped]

theorem fail (counts : tally.Counts items) (item : FlushItem) :
    (tally.fail item).Counts (items ++ [item]) := by
  obtain ⟨listed, succeeded, failed, skipped⟩ := counts
  constructor <;> simp [Tally.fail, listed, succeeded, failed, skipped]

theorem skip (counts : tally.Counts items) (item : FlushItem) :
    (tally.skip item).Counts (items ++ [item]) := by
  obtain ⟨listed, succeeded, failed, skipped⟩ := counts
  constructor <;> simp [Tally.skip, listed, succeeded, failed, skipped]

theorem enqueue (counts : tally.Counts items) (item : FlushItem) (answers : Answers) :
    (tally.enqueue item answers).Counts (items ++ [item]) := by
  have same : ∀ (jobs : List SweepJob) (ids : List SweepJobId) (keys : List (Nat × Nat)),
      { tally with enqueued := jobs, sweepJobIds := ids, groupKeys := keys }.Counts items :=
    fun _ _ _ => ⟨counts.items, counts.succeeded, counts.failed, counts.skipped⟩
  unfold Tally.enqueue
  split
  · exact (same _ _ _).succeed item
  · exact (same _ _ _).fail item
  · exact (same _ _ _).fail item

/-- A turn counts its item. -/
theorem executeItem (counts : tally.Counts items) (bigInt : Text → Option Int)
    (input : FlushItem × Answers) :
    (Flush.executeItem bigInt tally input).Counts (items ++ [input.1]) := by
  obtain ⟨-, turned | turned⟩ | ⟨-, -, turned⟩ | ⟨-, -, turned⟩ :=
    executeItem_cases bigInt tally input
  · rw [turned]
    exact counts.fail input.1
  · rw [turned]
    exact counts.skip input.1
  · rw [turned]
    exact counts.succeed input.1
  · rw [turned]
    exact counts.enqueue input.1 input.2

/-- The loop counts its items. -/
theorem foldl (counts : tally.Counts items) (bigInt : Text → Option Int)
    (inputs : List (FlushItem × Answers)) :
    (inputs.foldl (Flush.executeItem bigInt) tally).Counts
      (items ++ inputs.map Prod.fst) := by
  induction inputs generalizing tally items with
  | nil => simpa using counts
  | cons input rest ih =>
    have continued := ih (counts.executeItem bigInt input)
    simpa using continued

/-- The three counters add up. -/
theorem total (counts : tally.Counts items) :
    tally.succeededCount + tally.failedCount + tally.skippedCount = items.length := by
  have length : tally.counted.length = items.length := by
    rw [← counts.items, length_map]
  rw [counts.succeeded, counts.failed, counts.skipped, ← length]
  generalize tally.counted = counted
  induction counted with
  | nil => rfl
  | cons entry counted ih =>
    obtain ⟨item, _ | _ | _⟩ := entry <;>
      simp only [countP_cons, length_cons] <;> simp <;> omega

end Tally.Counts

/-! ## Pairs -/

/-- The items of a pair that are worth a flush. -/
def eligibleOf (bigInt : Text → Option Int) (pair : Nat × Nat)
    (inputs : List (FlushItem × Answers)) : List (FlushItem × Answers) :=
  inputs.filter fun input => eligible bigInt input && input.1.pair == pair

/-- What a tally knows of a pair: whether it is marked, whether a job of it has reached the
queue, and whether an item of it counts as succeeded. -/
structure Tracks (bigInt : Text → Option Int) (pair : Nat × Nat)
    (inputs : List (FlushItem × Answers)) (tally : Tally) : Prop where
  marked : pair ∈ tally.groupKeys ↔ eligibleOf bigInt pair inputs ≠ []
  stored : (∃ job ∈ tally.enqueued, (job.chainId, job.clientId) = pair) ↔
    ∃ first ∈ (eligibleOf bigInt pair inputs).head?, first.2.add ≠ .refused
  succeeded : (∃ entry ∈ tally.counted, entry.2 = .succeeded ∧ entry.1.pair = pair) ↔
    (∃ first ∈ (eligibleOf bigInt pair inputs).head?, first.2.add = .added) ∨
      1 < (eligibleOf bigInt pair inputs).length

variable {pair : Nat × Nat} {inputs : List (FlushItem × Answers)} {input : FlushItem × Answers}

/-- An item that is not eligible, or of another pair, is of no account. -/
theorem eligibleOf_skip (other : eligible bigInt input = false ∨ input.1.pair ≠ pair) :
    eligibleOf bigInt pair (inputs ++ [input]) = eligibleOf bigInt pair inputs := by
  rw [eligibleOf, filter_append]
  obtain ineligible | different := other
  · simp [eligibleOf, ineligible]
  · simp [eligibleOf, different]

theorem eligibleOf_own (own : eligible bigInt input = true ∧ input.1.pair = pair) :
    eligibleOf bigInt pair (inputs ++ [input]) = eligibleOf bigInt pair inputs ++ [input] := by
  rw [eligibleOf, filter_append]
  simp [eligibleOf, own.1, own.2]

/-- The first item of a pair is all there is to know of it. -/
theorem Tracks.enqueue_own {tally : Tally} (tracks : Tracks bigInt pair inputs tally)
    (own : eligible bigInt input = true ∧ input.1.pair = pair)
    (new : eligibleOf bigInt pair inputs = []) :
    Tracks bigInt pair (inputs ++ [input]) (tally.enqueue input.1 input.2) := by
  obtain ⟨-, stored, succeeded⟩ := tracks
  obtain ⟨chosen, rfl⟩ := own
  simp only [new, head?_nil, mem_def, reduceCtorEq, false_and, exists_false,
    length_nil, Nat.not_lt_zero, or_false, iff_false, not_exists, not_and] at stored succeeded
  have mine : eligibleOf bigInt input.1.pair (inputs ++ [input]) = [input] := by
    rw [eligibleOf_own ⟨chosen, rfl⟩, new, nil_append]
  unfold Tally.enqueue
  constructor
  · rw [mine]
    split <;> simp [Tally.succeed, Tally.fail, FlushItem.pair]
  · rw [mine]
    split <;> rename_i answer
    · simp [Tally.succeed, Tally.job, FlushItem.pair, answer]
    · simp [Tally.fail, Tally.job, FlushItem.pair, answer]
    · simpa [Tally.fail, answer] using stored
  · rw [mine]
    split <;> rename_i answer
    · simp [Tally.succeed, answer, or_and_right, exists_or]
    all_goals
      simp only [Tally.fail, head?_cons, mem_def, Option.some.injEq, exists_eq_left',
        answer, reduceCtorEq, length_singleton, Nat.lt_irrefl, or_false, iff_false,
        not_exists, not_and, mem_append, mem_singleton]
      rintro entry (member | rfl) counted
      · exact succeeded entry member counted
      · cases counted

/-- The first item of another pair is of no account. -/
theorem Tracks.enqueue_other {tally : Tally} (tracks : Tracks bigInt pair inputs tally)
    (different : input.1.pair ≠ pair) :
    Tracks bigInt pair (inputs ++ [input]) (tally.enqueue input.1 input.2) := by
  obtain ⟨marked, stored, succeeded⟩ := tracks
  have apart : (input.1.chainId, input.1.clientId) ≠ pair := different
  unfold Tally.enqueue
  constructor
  · rw [eligibleOf_skip (.inr different), ← marked]
    split <;> simp [Tally.succeed, Tally.fail, Ne.symm apart]
  · rw [eligibleOf_skip (.inr different), ← stored]
    split <;> simp [Tally.succeed, Tally.fail, Tally.job, apart]
  · rw [eligibleOf_skip (.inr different), ← succeeded]
    split <;> simp [Tally.succeed, Tally.fail, or_and_right, exists_or, different]

/-- A turn keeps track of a pair. -/
theorem Tracks.step {pair : Nat × Nat} {inputs : List (FlushItem × Answers)} {tally : Tally}
    (tracks : Tracks bigInt pair inputs tally) (input : FlushItem × Answers) :
    Tracks bigInt pair (inputs ++ [input]) (executeItem bigInt tally input) := by
  obtain ⟨marked, stored, succeeded⟩ := tracks
  obtain ⟨ineligible, turned | turned⟩ | ⟨eligible, known, turned⟩ | ⟨eligible, new, turned⟩ :=
    executeItem_cases bigInt tally input
  · rw [turned, Tally.fail]
    constructor
    · rw [eligibleOf_skip (.inl ineligible)]
      exact marked
    · rw [eligibleOf_skip (.inl ineligible)]
      exact stored
    · rw [eligibleOf_skip (.inl ineligible), ← succeeded]
      simp [or_and_right, exists_or]
  · rw [turned, Tally.skip]
    constructor
    · rw [eligibleOf_skip (.inl ineligible)]
      exact marked
    · rw [eligibleOf_skip (.inl ineligible)]
      exact stored
    · rw [eligibleOf_skip (.inl ineligible), ← succeeded]
      simp [or_and_right, exists_or]
  · rw [turned, Tally.succeed]
    by_cases same : input.1.pair = pair
    · have nonempty := marked.mp (same ▸ known)
      obtain ⟨first, rest, mine⟩ := exists_cons_of_ne_nil nonempty
      constructor
      · rw [eligibleOf_own ⟨eligible, same⟩]
        simp [marked, mine]
      · rw [eligibleOf_own ⟨eligible, same⟩, mine, cons_append, head?_cons]
        rw [mine, head?_cons] at stored
        exact stored
      · rw [eligibleOf_own ⟨eligible, same⟩, mine]
        constructor
        · intro _
          right
          simp
        · intro _
          exact ⟨_, mem_append_right _ (mem_singleton.mpr rfl), rfl, same⟩
    · constructor
      · rw [eligibleOf_skip (.inr same)]
        exact marked
      · rw [eligibleOf_skip (.inr same)]
        exact stored
      · rw [eligibleOf_skip (.inr same), ← succeeded]
        simp [or_and_right, exists_or, same]
  · rw [turned]
    by_cases same : input.1.pair = pair
    · refine Tracks.enqueue_own ⟨marked, stored, succeeded⟩ ⟨eligible, same⟩ ?_
      by_contra nonempty
      exact new (same ▸ marked.mpr nonempty)
    · exact Tracks.enqueue_other ⟨marked, stored, succeeded⟩ same

/-- The loop keeps track of every pair. -/
theorem tracks_foldl (bigInt : Text → Option Int) (pair : Nat × Nat)
    (inputs : List (FlushItem × Answers)) :
    Tracks bigInt pair inputs (inputs.foldl (executeItem bigInt) .start) := by
  induction inputs using List.reverseRecOn with
  | nil => constructor <;> simp [eligibleOf, Tally.start]
  | append_singleton inputs input ih =>
    rw [foldl_append, foldl_cons, foldl_nil]
    exact ih.step input

/-! ## Accounts -/

/-- A request accounts for its items: each is counted once, and a succeeded one has a sweep job
of its chain and wallet in the queue. -/
structure Accounts (items : List FlushItem) (outcome : Tally × FlushResult) : Prop where
  listed : outcome.1.counted.map Prod.fst = items
  total : outcome.2.succeededCount + outcome.2.failedCount + outcome.2.skippedCount =
    items.length
  succeeded : outcome.2.succeededCount =
    outcome.1.counted.countP fun entry => entry.2 = .succeeded
  enqueued : ∀ entry ∈ outcome.1.counted, entry.2 = .succeeded →
    ∃ job ∈ outcome.1.enqueued, job.chainId = entry.1.chainId ∧ job.clientId = entry.1.walletId

/-- The first item that is worth a flush is the only one, or its job has reached the queue. -/
def FirstStored (bigInt : Text → Option Int) (inputs : List (FlushItem × Answers)) : Prop :=
  ∀ first second rest, inputs.filter (eligible bigInt) = first :: second :: rest →
    first.2.add ≠ .refused

/-- The items of a request belong to its pair, and to a wallet named like the client. -/
theorem collectFlushItems_pair {deposits : List Deposit} {clientId chainId : Nat}
    {item : FlushItem} (member : item ∈ collectFlushItems deposits clientId chainId) :
    item.pair = (chainId, clientId) ∧ item.walletId = item.clientId := by
  obtain ⟨deposit, found, rfl⟩ := mem_map.mp member
  simp only [mem_filter, Bool.and_eq_true, decide_eq_true_eq] at found
  obtain ⟨-, ⟨⟨client, chain⟩, -⟩, -⟩ := found
  simp only [FlushItem.pair, client, chain, and_self]

theorem flushInputs_items (deposits : List Deposit) (clientId chainId : Nat)
    (answers : Nat → Answers) :
    (flushInputs deposits clientId chainId answers).map Prod.fst =
      collectFlushItems deposits clientId chainId := by
  refine ext_getElem ?_ ?_
  · simp [flushInputs]
  · intro index _ _
    simp [flushInputs]

/-- The items that are worth a flush are those of the request's pair. -/
theorem eligibleOf_flushInputs {deposits : List Deposit} {clientId chainId : Nat}
    {answers : Nat → Answers} :
    eligibleOf bigInt (chainId, clientId) (flushInputs deposits clientId chainId answers) =
      (flushInputs deposits clientId chainId answers).filter (eligible bigInt) := by
  refine filter_congr ?_
  intro input member
  have collected : input.1 ∈ collectFlushItems deposits clientId chainId := by
    rw [← flushInputs_items deposits clientId chainId answers]
    exact mem_map_of_mem member
  simp [(collectFlushItems_pair collected).1]

/-- A flush request accounts for every item exactly if the job it enqueues reaches the queue,
or no other item relies on it. -/
theorem executeFlush_accounts_iff (bigInt : Text → Option Int) (deposits : List Deposit)
    (clientId chainId : Nat) (answers : Nat → Answers) :
    Accounts (collectFlushItems deposits clientId chainId)
        (executeFlush bigInt deposits clientId chainId answers) ↔
      FirstStored bigInt (flushInputs deposits clientId chainId answers) := by
  have start : Tally.start.Counts [] := ⟨rfl, rfl, rfl, rfl⟩
  have counts := start.foldl bigInt (flushInputs deposits clientId chainId answers)
  rw [nil_append, flushInputs_items] at counts
  have tracks := tracks_foldl bigInt (chainId, clientId)
    (flushInputs deposits clientId chainId answers)
  rw [FirstStored, ← eligibleOf_flushInputs]
  constructor
  · intro accounts first second rest mine refused
    have several : 1 < (eligibleOf bigInt (chainId, clientId)
        (flushInputs deposits clientId chainId answers)).length := by
      simp [mine]
    obtain ⟨entry, counted, succeeded, pair⟩ := tracks.succeeded.mpr (.inr several)
    obtain ⟨job, stored, chain, wallet⟩ := accounts.enqueued entry counted succeeded
    have member : entry.1 ∈ collectFlushItems deposits clientId chainId := by
      rw [← counts.items]
      exact mem_map_of_mem counted
    have same : (job.chainId, job.clientId) = (chainId, clientId) := by
      rw [chain, wallet, (collectFlushItems_pair member).2]
      exact pair
    obtain ⟨other, head, kept⟩ := tracks.stored.mp ⟨job, stored, same⟩
    rw [mine] at head
    cases head
    exact kept refused
  · intro first
    refine ⟨counts.items, counts.total, counts.succeeded, ?_⟩
    intro entry counted succeeded
    have member : entry.1 ∈ collectFlushItems deposits clientId chainId := by
      rw [← counts.items]
      exact mem_map_of_mem counted
    obtain ⟨pair, wallet⟩ := collectFlushItems_pair member
    have head : ∃ other ∈ (eligibleOf bigInt (chainId, clientId)
        (flushInputs deposits clientId chainId answers)).head?, other.2.add ≠ .refused := by
      obtain ⟨other, head, added⟩ | several :=
        tracks.succeeded.mp ⟨entry, counted, succeeded, pair⟩
      · refine ⟨other, head, ?_⟩
        rw [added]
        exact AddAnswer.noConfusion
      · rcases mine : eligibleOf bigInt (chainId, clientId)
            (flushInputs deposits clientId chainId answers) with _ | ⟨other, _ | ⟨second, rest⟩⟩
        · simp [mine] at several
        · simp [mine] at several
        · exact ⟨other, rfl, first other second rest mine⟩
    obtain ⟨job, stored, same⟩ := tracks.stored.mpr head
    rw [← pair] at same
    refine ⟨job, stored, congrArg Prod.fst same, ?_⟩
    rw [wallet]
    exact congrArg Prod.snd same

/-! ## A queue that is down for a moment -/

/-- Two deposits of client 1 on the chain 137. -/
def twoDeposits : List Deposit :=
  [⟨1, 137, 10, ['a'], ['5'], true, none⟩, ⟨1, 137, 10, ['b'], ['7'], true, none⟩]

/-- `BigInt` on the two amounts. -/
def readAmount (amount : Text) : Option Int :=
  if amount = ['5'] then some 5 else if amount = ['7'] then some 7 else none

/-- Nothing is locked, and the queue takes no job for the first deposit. -/
def queueDown (index : Nat) : Answers := ⟨some false, 1000, if index = 0 then .refused else .added⟩

/-- The second deposit counts as succeeded, and there is no job at all. -/
theorem flush_counts_without_job :
    ¬ ∀ (bigInt : Text → Option Int) (deposits : List Deposit) (clientId chainId : Nat)
      (answers : Nat → Answers), Accounts (collectFlushItems deposits clientId chainId)
        (executeFlush bigInt deposits clientId chainId answers) := by
  intro accounts
  have enqueued := (accounts readAmount twoDeposits 1 137 queueDown).enqueued
    (⟨1, 1, 137, 10, ['b'], ['7']⟩, .succeeded) (by decide) rfl
  have none : (executeFlush readAmount twoDeposits 1 137 queueDown).1.enqueued = [] := by decide
  obtain ⟨job, stored, -⟩ := enqueued
  rw [none] at stored
  cases stored

end CryptoVaultHub.CoreWallet.Flush

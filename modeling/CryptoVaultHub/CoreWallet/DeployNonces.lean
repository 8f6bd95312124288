import CryptoVaultHub.CoreWallet.NonceService

/-!
# The nonces of failed deployments

`deployContract` and `deployHotWallet` take a nonce for the gas tank, have the Key Vault sign a
transaction with it, and broadcast it. A deployment can fail at every step in between. Then it
releases the lock, but it does not reset the cached counter, as the executor of withdrawals does.

The deployments from one gas tank on one chain are modelled, one after the other. What follows
the broadcast touches no nonce. The nonce that a failed deployment has left unused, and whether
a later one was handed out in its place, is not in the program.
-/

namespace CryptoVaultHub.CoreWallet.DeployNonces

open TransitionSystem List Option

/-! ## Pending transactions -/

/-- The number of pending transactions of an account that has sent one with each of the nonces:
the first nonce without one. -/
def pendingCount (used : List Nat) : Nat :=
  ((List.range (used.length + 1)).find? fun nonce => nonce ∉ used).getD 0

theorem pendingCount_spec (used : List Nat) :
    pendingCount used ∉ used ∧ ∀ nonce < pendingCount used, nonce ∈ used := by
  rw [pendingCount]
  cases found : (List.range (used.length + 1)).find? fun nonce => nonce ∉ used with
  | some first =>
    obtain ⟨free, -, below⟩ := find?_range_eq_some.mp found
    exact ⟨by simpa using free, fun nonce less => by simpa using below nonce less⟩
  | none =>
    exfalso
    have subset : List.range (used.length + 1) ⊆ used := by
      intro nonce member
      simpa using find?_eq_none.mp found nonce member
    have length := (subperm_of_subset nodup_range subset).length_le
    simp at length

/-- A nonce that is free while all smaller ones are used is the next one. -/
theorem pendingCount_eq {used : List Nat} {nonce : Nat} (free : nonce ∉ used)
    (below : ∀ smaller < nonce, smaller ∈ used) : pendingCount used = nonce := by
  obtain ⟨first, least⟩ := pendingCount_spec used
  rcases Nat.lt_trichotomy (pendingCount used) nonce with less | equal | greater
  · exact absurd (below _ less) first
  · exact equal
  · exact absurd (least _ greater) free

/-! ## The account of a gas tank -/

/-- The counter `nonce:<chain>:<address>`, the nonces of the transactions that have reached the
chain, the unused nonce of the last failed deployment, and whether `acquireNonce` has ever
returned another nonce than the unused one. -/
structure Account where
  chainId : Nat
  address : String
  cached : Option Nat
  used : List Nat
  unused : Option Nat
  skipped : Bool
deriving DecidableEq

/-- What the calls of `acquireNonce` come to: whether the lock was taken in time, and the errors
of reading the counter, of asking the chain, and of storing the next nonce. -/
structure AcquireAnswers where
  locked : Bool
  get : Except String Unit
  getTransactionCount : Except String Unit
  set : Except String Unit

namespace Account

variable (account : Account)

/-- `acquireNonce`; the nonce, and the account with the next one in the counter. -/
def acquireNonce (answers : AcquireAnswers) : Except String (Nat × Account) := do
  if !answers.locked then
    throw (s!"Failed to acquire nonce lock for {account.address} on chain {account.chainId}" ++
      " after 15000ms")
  answers.get
  let nonce ←
    match account.cached with
    | some nonce => pure nonce
    | none => do
      answers.getTransactionCount
      pure (pendingCount account.used)
  answers.set
  return (nonce, { account with cached := some (nonce + 1) })

/-- `resetNonce`, or the end of the lifetime of the counter. -/
def resetNonce : Account :=
  { account with cached := none }

/-- A nonce was handed out. -/
def handOut (nonce : Nat) : Account :=
  { account with
    unused := none
    skipped := account.skipped || account.unused.any fun unused => unused ≠ nonce }

/-- A deployment has failed with its nonce. -/
def abandon (nonce : Nat) : Account :=
  { account with unused := if nonce ∈ account.used then none else some nonce }

/-- A transaction has reached the chain. -/
def send (nonce : Nat) : Account :=
  { account with
    used := nonce :: account.used
    unused := account.unused.filter fun unused => unused ≠ nonce }

end Account

/-! ## Deployments -/

structure FeeData where
  maxFeePerGas : Option Nat
  maxPriorityFeePerGas : Option Nat
  gasPrice : Option Nat

inductive GasPricing where
  | dynamic (maxFeePerGas maxPriorityFeePerGas : Nat)
  | legacy (gasPrice : Nat)
deriving DecidableEq

/-- The prices of a transaction. -/
def FeeData.pricing (feeData : FeeData) (chainId : Nat) : Except String GasPricing :=
  match feeData.maxFeePerGas with
  | some maxFeePerGas => pure (.dynamic maxFeePerGas (feeData.maxPriorityFeePerGas.getD 0))
  | none =>
    match feeData.gasPrice with
    | some gasPrice => pure (.legacy gasPrice)
    | none => throw s!"Unable to determine gas price for chain {chainId}"

structure TransactionData where
  toAddress : Option String
  data : String
  value : Nat
  gasLimit : Nat
  nonce : Nat
  chainId : Nat
  pricing : GasPricing
deriving DecidableEq

structure KeyVaultSignResponse where
  success : Bool
  signedTransaction : String
deriving DecidableEq

/-- The answer of `sign-transaction`; reading its body can fail. -/
structure SignResponse where
  status : Nat
  text : Except String String
  json : Except String KeyVaultSignResponse

def SignResponse.ok (response : SignResponse) : Bool :=
  200 ≤ response.status && response.status ≤ 299

/-- What the two kinds of deployments differ in. -/
structure Deployment where
  name : String
  toAddress : Option String
  calldata : String
  fallbackGasLimit : Nat

def deployContract (contractName calldata : String) : Deployment :=
  ⟨contractName, none, calldata, 5000000⟩

def deployHotWallet (walletFactoryAddress calldata : String) : Deployment :=
  ⟨"hot wallet", some walletFactoryAddress, calldata, 1000000⟩

/-- What the calls of a deployment come to. A broadcast whose answer is lost has reached the
chain. -/
structure DeployAnswers where
  acquire : AcquireAnswers
  feeData : Except String FeeData
  estimateGas : Option Nat
  signTransaction : TransactionData → Except String SignResponse
  broadcast : Ending

/-- The steps between `acquireNonce` and the broadcast, up to the signed transaction. -/
def Deployment.prepare (deployment : Deployment) (chainId nonce : Nat)
    (answers : DeployAnswers) : Except String String := do
  let feeData ← answers.feeData
  let gasLimit :=
    match answers.estimateGas with
    | some estimated => estimated * 120 / 100
    | none => deployment.fallbackGasLimit
  let pricing ← feeData.pricing chainId
  let response ← answers.signTransaction
    { toAddress := deployment.toAddress
      data := deployment.calldata
      value := 0
      gasLimit := gasLimit
      nonce := nonce
      chainId := chainId
      pricing := pricing }
  if !response.ok then
    let body ← response.text
    throw s!"Key Vault sign-transaction failed ({response.status}): {body}"
  let signData ← response.json
  if !signData.success || signData.signedTransaction = "" then
    throw s!"Key Vault sign-transaction returned unsuccessful for {deployment.name}"
  return signData.signedTransaction

/-- A deployment. The transaction that the Key Vault signs has the nonce that it was given. -/
def Account.deploy (account : Account) (deployment : Deployment) (answers : DeployAnswers) :
    Account :=
  match account.acquireNonce answers.acquire with
  | .error _ => account
  | .ok (nonce, stored) =>
    match deployment.prepare account.chainId nonce answers with
    | .error _ => (stored.handOut nonce).abandon nonce
    | .ok _ =>
      match answers.broadcast with
      | .done | .lost => (stored.handOut nonce).send nonce
      | .failed => (stored.handOut nonce).abandon nonce

/-- A deployment, a reset or the end of the lifetime of the counter, or a transaction that
another program sends for the gas tank. -/
inductive AccountEvent where
  | deploy (deployment : Deployment) (answers : DeployAnswers)
  | resetNonce
  | expireNonce
  | sendElsewhere (nonce : Nat)

def Account.after (account : Account) : AccountEvent → Account
  | .deploy deployment answers => account.deploy deployment answers
  | .resetNonce | .expireNonce => account.resetNonce
  | .sendElsewhere nonce => account.send nonce

/-- The counter is not cached yet. -/
structure Account.Initial (account : Account) : Prop where
  cached : account.cached = none
  unused : account.unused = none
  skipped : account.skipped = false

def deployments : TransitionSystem Account AccountEvent where
  Initial := Account.Initial
  step account event := some (account.after event)

/-! ## The property and the condition -/

/-- After each failed deployment, the next `acquireNonce` has returned the unused nonce. -/
def Account.NeverSkips (account : Account) : Prop :=
  account.skipped = false

/-- The calls of `acquireNonce` succeed. -/
def AcquireAnswers.succeed (answers : AcquireAnswers) (cached : Option Nat) : Bool :=
  answers.locked && answers.get.isOk && (cached.isSome || answers.getTransactionCount.isOk) &&
    answers.set.isOk

/-- When a nonce is taken while one is unused, the counter has been reset or has expired. -/
def Account.ReadsChain (account : Account) : AccountEvent → Prop
  | .deploy _ answers =>
    answers.acquire.succeed account.cached = true → account.unused.isSome = true →
      account.cached = none
  | .resetNonce | .expireNonce | .sendElsewhere _ => True

instance (account : Account) : ∀ event, Decidable (account.ReadsChain event)
  | .deploy _ answers =>
    inferInstanceAs (Decidable (answers.acquire.succeed account.cached = true →
      account.unused.isSome = true → account.cached = none))
  | .resetNonce | .expireNonce | .sendElsewhere _ => inferInstanceAs (Decidable True)

/-! ## One event -/

variable {account : Account}

/-- The nonce that `acquireNonce` returns if it succeeds. -/
def Account.counter (account : Account) : Nat :=
  account.cached.getD (pendingCount account.used)

/-- The counter goes on, and its nonce is handed out. -/
def Account.advance (account : Account) : Account :=
  { account with cached := some (account.counter + 1) }.handOut account.counter

theorem Account.acquireNonce_cases (account : Account) (answers : AcquireAnswers) :
    (answers.succeed account.cached = true ∧ account.acquireNonce answers =
        .ok (account.counter, { account with cached := some (account.counter + 1) })) ∨
      (answers.succeed account.cached = false ∧
        ∃ error, account.acquireNonce answers = .error error) := by
  obtain ⟨locked, get, getTransactionCount, set⟩ := answers
  obtain ⟨chainId, address, cached, used, unused, skipped⟩ := account
  cases locked with
  | false => exact .inr ⟨rfl, _, rfl⟩
  | true =>
    rcases get with error | _
    · exact .inr ⟨rfl, _, rfl⟩
    · rcases cached with _ | nonce
      · rcases getTransactionCount with error | _
        · exact .inr ⟨rfl, _, rfl⟩
        · rcases set with error | _
          · exact .inr ⟨rfl, _, rfl⟩
          · exact .inl ⟨rfl, rfl⟩
      · rcases set with error | _
        · exact .inr ⟨rfl, _, rfl⟩
        · exact .inl ⟨rfl, rfl⟩

/-- When `acquireNonce` succeeds, it does what the same call does in the nonce service if nobody
else holds the lock. -/
theorem acquireNonce_runs {account stored : Account} {answers : AcquireAnswers} {nonce : Nat}
    (drawn : Nat) (issued : List Acquisition)
    (returned : account.acquireNonce answers = .ok (nonce, stored)) :
    nonceService.system.Steps Unrestricted ⟨⟨none, account.cached, drawn, issued⟩, []⟩
      ⟨⟨none, stored.cached, drawn + 1, issued ++ [⟨nonce, false⟩]⟩, [none]⟩ := by
  obtain ⟨-, succeeded⟩ | ⟨-, error, thrown⟩ := account.acquireNonce_cases answers
  · rw [succeeded] at returned
    cases returned
    have replayed : nonceService.system.run Unrestricted
        ⟨⟨none, account.cached, drawn, issued⟩, []⟩
        (.launch .acquireNonce :: List.replicate (if account.cached = none then 7 else 5)
          (.advance 0 ⟨.done, ⟨false, pendingCount account.used⟩⟩)) =
        some ⟨⟨none, some (account.counter + 1), drawn + 1,
          issued ++ [⟨account.counter, false⟩]⟩, [none]⟩ := by
      rcases cached : account.cached with _ | next <;>
        simp [run, List.replicate, nonceService, ProcessPool.ofStatements, ProcessPool.system,
          ProcessPool.step, Nonces.start, PoolState.spawn, PoolState.process?, PoolState.update,
          Statement.perform, Caller.statement, Caller.goTo, Account.counter, cached, Unrestricted]
    exact run_steps replayed
  · rw [thrown] at returned
    cases returned

/-- A deployment takes no nonce, or it takes the next one, and fails with it or sends it. -/
theorem Account.deploy_cases (account : Account) (deployment : Deployment)
    (answers : DeployAnswers) :
    (answers.acquire.succeed account.cached = false ∧
        account.deploy deployment answers = account) ∨
      (answers.acquire.succeed account.cached = true ∧
        (account.deploy deployment answers = account.advance.abandon account.counter ∨
          account.deploy deployment answers = account.advance.send account.counter)) := by
  rw [Account.deploy]
  obtain ⟨succeeds, acquired⟩ | ⟨fails, error, thrown⟩ :=
    account.acquireNonce_cases answers.acquire
  · refine .inr ⟨succeeds, ?_⟩
    simp only [acquired]
    cases deployment.prepare account.chainId account.counter answers with
    | error => exact .inl rfl
    | ok =>
      cases answers.broadcast with
      | done | lost => exact .inr rfl
      | failed => exact .inl rfl
  · rw [thrown]
    exact .inl ⟨fails, rfl⟩

@[simp] theorem Account.advance_used : account.advance.used = account.used := rfl

@[simp] theorem Account.advance_cached : account.advance.cached = some (account.counter + 1) :=
  rfl

@[simp] theorem Account.advance_unused : account.advance.unused = none := rfl

/-- What a deployment that takes a nonce does to the record of skipped ones. -/
theorem Account.deploy_skipped {deployment : Deployment} {answers : DeployAnswers}
    (succeeds : answers.acquire.succeed account.cached = true) :
    (account.deploy deployment answers).skipped =
      (account.skipped || account.unused.any fun unused => unused ≠ account.counter) := by
  obtain ⟨fails, -⟩ | ⟨-, failed | sent⟩ := account.deploy_cases deployment answers
  · rw [succeeds] at fails
    cases fails
  · rw [failed]
    rfl
  · rw [sent]
    rfl

/-- What the counter counts: every nonce below it is used, but for the unused one, which comes
right before the counter. -/
structure Account.Sound (account : Account) : Prop where
  counted : ∀ cached ∈ account.cached, ∀ nonce < cached,
    nonce ∈ account.used ∨ nonce ∈ account.unused
  free : ∀ unused ∈ account.unused, unused ∉ account.used ∧
    (∀ nonce < unused, nonce ∈ account.used) ∧ ∀ cached ∈ account.cached, cached = unused + 1

/-- A counter that was reset after a failed deployment returns the unused nonce. -/
theorem Account.Sound.counter_eq (sound : account.Sound) {unused : Nat}
    (left : unused ∈ account.unused) (gone : account.cached = none) :
    account.counter = unused := by
  obtain ⟨free, below, -⟩ := sound.free unused left
  rw [Account.counter, gone]
  exact pendingCount_eq free below

/-- A counter that is still cached after a failed deployment returns the nonce after it. -/
theorem Account.Sound.counter_ne (sound : account.Sound) {unused : Nat}
    (left : unused ∈ account.unused) (cached : account.cached ≠ none) :
    account.counter ≠ unused := by
  obtain ⟨next, stored⟩ := ne_none_iff_exists'.mp cached
  obtain ⟨-, -, follows⟩ := sound.free unused left
  have next_eq : next = unused + 1 := follows next stored
  rw [Account.counter, stored, getD_some, next_eq]
  omega

/-- The nonce that is handed out comes right after the used ones. -/
theorem Account.Sound.counter_below (sound : account.Sound)
    (reads : account.unused.isSome = true → account.cached = none) :
    ∀ nonce < account.counter, nonce ∈ account.used := by
  intro nonce less
  rcases left : account.unused with _ | unused
  · rcases stored : account.cached with _ | next
    · rw [Account.counter, stored] at less
      exact (pendingCount_spec account.used).2 nonce less
    · rw [Account.counter, stored] at less
      simpa [left] using sound.counted next stored nonce less
  · rw [sound.counter_eq left (reads (by rw [left]; rfl))] at less
    exact (sound.free unused left).2.1 nonce less

theorem Account.sound_abandon (below : ∀ nonce < account.counter, nonce ∈ account.used) :
    (account.advance.abandon account.counter).Sound := by
  constructor
  · rintro cached ⟨⟩ nonce less
    by_cases used : nonce ∈ account.used
    · exact .inl used
    · have last : nonce = account.counter := by
        by_contra other
        exact used (below nonce (by omega))
      right
      simp [Account.abandon, last, last ▸ used]
  · intro unused left
    by_cases free : account.counter ∈ account.used
    · simp [Account.abandon, free] at left
    · obtain rfl : account.counter = unused := by simpa [Account.abandon, free] using left
      refine ⟨free, below, ?_⟩
      rintro cached ⟨⟩
      rfl

theorem Account.sound_send (below : ∀ nonce < account.counter, nonce ∈ account.used) :
    (account.advance.send account.counter).Sound := by
  constructor
  · rintro cached ⟨⟩ nonce less
    left
    rcases Nat.lt_succ_iff_lt_or_eq.mp less with smaller | last
    · exact mem_cons_of_mem _ (below nonce smaller)
    · exact last ▸ mem_cons_self
  · intro unused left
    cases left

theorem Account.Sound.resetNonce (sound : account.Sound) : account.resetNonce.Sound where
  counted := by rintro cached ⟨⟩
  free unused left :=
    ⟨(sound.free unused left).1, (sound.free unused left).2.1, by rintro cached ⟨⟩⟩

theorem Account.Sound.send (sound : account.Sound) (nonce : Nat) : (account.send nonce).Sound := by
  constructor
  · intro cached stored smaller less
    by_cases same : smaller = nonce
    · exact .inl (same ▸ mem_cons_self)
    · rcases sound.counted cached stored smaller less with used | left
      · exact .inl (mem_cons_of_mem _ used)
      · exact .inr (mem_filter_iff.mpr ⟨left, by simpa using same⟩)
  · intro unused left
    obtain ⟨before, other⟩ := mem_filter_iff.mp left
    obtain ⟨free, below, follows⟩ := sound.free unused before
    refine ⟨?_, fun smaller less => mem_cons_of_mem _ (below smaller less), follows⟩
    exact not_mem_cons_of_ne_of_not_mem (by simpa using other) free

theorem Account.Sound.after (sound : account.Sound) {event : AccountEvent}
    (reads : account.ReadsChain event) : (account.after event).Sound := by
  cases event with
  | deploy deployment answers =>
    change (account.deploy deployment answers).Sound
    obtain ⟨-, same⟩ | ⟨succeeds, failed | sent⟩ := account.deploy_cases deployment answers
    · rwa [same]
    · rw [failed]
      exact Account.sound_abandon (sound.counter_below (reads succeeds))
    · rw [sent]
      exact Account.sound_send (sound.counter_below (reads succeeds))
  | resetNonce | expireNonce => exact sound.resetNonce
  | sendElsewhere nonce => exact sound.send nonce

theorem Account.Sound.after_neverSkips (sound : account.Sound) (never : account.NeverSkips)
    (event : AccountEvent) : (account.after event).NeverSkips ↔ account.ReadsChain event := by
  cases event with
  | deploy deployment answers =>
    change (account.deploy deployment answers).skipped = false ↔ _
    by_cases succeeds : answers.acquire.succeed account.cached = true
    · rw [Account.deploy_skipped succeeds, never, Bool.false_or]
      rcases left : account.unused with _ | unused
      · simp [Account.ReadsChain, left]
      · by_cases gone : account.cached = none
        · simp [Account.ReadsChain, gone, sound.counter_eq left gone]
        · simp [Account.ReadsChain, gone, succeeds, left, (sound.counter_ne left gone).symm]
    · obtain ⟨-, same⟩ | ⟨holds, -⟩ := account.deploy_cases deployment answers
      · rw [same]
        exact ⟨fun _ holds => absurd holds succeeds, fun _ => never⟩
      · exact absurd holds succeeds
  | resetNonce | expireNonce | sendElsewhere => exact ⟨fun _ => trivial, fun _ => never⟩

/-- What was skipped stays skipped. -/
theorem Account.after_skipped (event : AccountEvent) (never : (account.after event).NeverSkips) :
    account.NeverSkips := by
  cases event with
  | deploy deployment answers =>
    change (account.deploy deployment answers).skipped = false at never
    by_cases succeeds : answers.acquire.succeed account.cached = true
    · rw [Account.deploy_skipped succeeds] at never
      exact (Bool.or_eq_false_iff.mp never).1
    · obtain ⟨-, same⟩ | ⟨holds, -⟩ := account.deploy_cases deployment answers
      · rwa [same] at never
      · exact absurd holds succeeds
  | resetNonce | expireNonce | sendElsewhere => exact never

/-! ## Sequences of deployments -/

theorem deployments_sound (reached : deployments.Reachable Account.ReadsChain account) :
    account.Sound := by
  refine reached.invariant ?_ ?_
  · intro start initial
    constructor
    · simp [initial.cached]
    · simp [initial.unused]
  · rintro before event after sound reads ⟨⟩
    exact sound.after reads

/-- The nonces of failed deployments are handed out again in exactly the sequences in which the
counter has been reset or has expired before the next `acquireNonce`. -/
theorem unused_nonce_returned_iff (reached : deployments.Reachable Unrestricted account) :
    account.NeverSkips ↔ deployments.Reachable Account.ReadsChain account := by
  refine @Reachable.property_iff _ _ _ Account.ReadsChain Account.NeverSkips account reached
    ?_ ?_ ?_
  · exact fun start initial => initial.skipped
  · rintro before event after healthy never ⟨⟩
    exact (deployments_sound healthy).after_neverSkips never event
  · rintro before event after ⟨⟩ never
    exact before.after_skipped event never

/-! ## A chain without a gas price -/

/-- A gas tank that has sent two transactions. -/
def sampleAccount : Account := ⟨137, "0xabc", none, [1, 0], none, false⟩

theorem sampleAccount_initial : deployments.Initial sampleAccount := ⟨rfl, rfl, rfl⟩

theorem acquireNonce_runs_sample :
    nonceService.system.Steps Unrestricted ⟨⟨none, none, 0, []⟩, []⟩
      ⟨⟨none, some 3, 1, [⟨2, false⟩]⟩, [none]⟩ :=
  @acquireNonce_runs sampleAccount _ ⟨true, .ok (), .ok (), .ok ()⟩ 2 0 [] rfl

/-- Everything succeeds, with this gas price. -/
def priced (gasPrice : Option Nat) : DeployAnswers :=
  { acquire := ⟨true, .ok (), .ok (), .ok ()⟩
    feeData := .ok ⟨none, none, gasPrice⟩
    estimateGas := some 100000
    signTransaction := fun _ => .ok ⟨200, .ok "", .ok ⟨true, "0x02"⟩⟩
    broadcast := .done }

/-- The counter expires after the failed deployment; the next one sends the nonce 2. -/
theorem unused_nonce_returned_iff_sample :
    ∃ account : Account, account.used = [2, 1, 0] ∧
      (account.NeverSkips ↔ deployments.Reachable Account.ReadsChain account) := by
  obtain ⟨account, reached, sent⟩ : ∃ account, deployments.Reachable Unrestricted account ∧
      account.used = [2, 1, 0] :=
    exists_reachable sampleAccount_initial
      [.deploy (deployContract "WalletSimple" "0x60") (priced none), .expireNonce,
        .deploy (deployHotWallet "0xdef" "0x61") (priced (some 7))] (by decide +kernel)
  exact ⟨account, sent, unused_nonce_returned_iff reached⟩

/-- The provider names no gas price for the first deployment. The next one gets the nonce 3, and
there is no transaction with the nonce 2. -/
theorem unused_nonce_skipped :
    ¬ ∀ account : Account, deployments.Reachable Unrestricted account → account.NeverSkips := by
  intro never
  obtain ⟨account, reached, sent⟩ : ∃ account, deployments.Reachable Unrestricted account ∧
      account.used = [3, 1, 0] ∧ account.skipped = true :=
    exists_reachable sampleAccount_initial
      [.deploy (deployContract "WalletSimple" "0x60") (priced none),
        .deploy (deployHotWallet "0xdef" "0x61") (priced (some 7))] (by decide +kernel)
  have skips := sent.2
  rw [never account reached] at skips
  cases skips

end CryptoVaultHub.CoreWallet.DeployNonces

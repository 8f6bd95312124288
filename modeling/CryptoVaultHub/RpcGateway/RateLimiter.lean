import CryptoVaultHub.Semantics.SlidingWindow
import CryptoVaultHub.Semantics.Statement

/-!
# The rate limiter of the RPC nodes

`checkAndRecord` runs one script on the set of the last second of a node and, when that admits the
request, the same script on the set of the last minute. The calls of all nodes interleave between
their scripts, and a script can fail, or take effect and lose its answer.
-/

namespace CryptoVaultHub.RpcGateway.RateLimiter

open TransitionSystem

/-! ## Scripts -/

/-- The two sets of a node, `rpc:rate:…:s` and `rpc:rate:…:m`. -/
inductive Period where
  | second
  | minute
deriving DecidableEq

def Period.windowMs : Period → Nat
  | .second => 1000
  | .minute => 60000

structure RpcNodeLimits where
  maxRequestsPerSecond : Nat
  maxRequestsPerMinute : Nat
deriving DecidableEq

def RpcNodeLimits.limit (node : RpcNodeLimits) : Period → Nat
  | .second => node.maxRequestsPerSecond
  | .minute => node.maxRequestsPerMinute

structure RateKey where
  nodeId : Nat
  period : Period
deriving DecidableEq

/-- A call that was granted, with its time stamp. -/
structure Grant where
  nodeId : Nat
  now : Nat
deriving DecidableEq

/-- The sorted sets, and the calls that were granted, which are not stored. -/
structure RateStore where
  sets : RateKey → SlidingWindow String
  granted : List Grant

/-- A call before its script on the set of a period; `member` is its time stamp with a random
suffix. -/
structure RateCall where
  nodeId : Nat
  node : RpcNodeLimits
  now : Nat
  member : String
  period : Period
deriving DecidableEq

namespace RateCall

def key (call : RateCall) : RateKey := ⟨call.nodeId, call.period⟩

def grant (call : RateCall) : Grant := ⟨call.nodeId, call.now⟩

/-- Whether `CHECK_AND_INCREMENT_SCRIPT` returns 1. -/
def allowed (store : RateStore) (call : RateCall) : Bool :=
  (store.sets call.key).allows (call.node.limit call.period) call.period.windowMs call.now
    call.member

/-- `CHECK_AND_INCREMENT_SCRIPT`, with the call granted when both its scripts have admitted it. -/
def eval (store : RateStore) (call : RateCall) : RateStore :=
  { sets := Function.update store.sets call.key
      ((store.sets call.key).check (call.node.limit call.period) call.period.windowMs call.now
        call.member)
    granted :=
      if call.period = .minute ∧ call.allowed store then call.grant :: store.granted
      else store.granted }

def statement (store : RateStore) (call : RateCall) (_ : Unit) : Statement RateStore RateCall :=
  { after := call.eval store
    next :=
      match call.period with
      | .second => if call.allowed store then some { call with period := .minute } else none
      | .minute => none }

end RateCall

/-- What begins: a call, or the expiry of a set at a time. -/
inductive RateStart where
  | checkAndRecord (nodeId now : Nat) (member : String)
  | expire (key : RateKey) (now : Nat)

variable (nodeLimits : Nat → Option RpcNodeLimits)

/-- A node without limits grants every call. -/
def RateStore.start (store : RateStore) : RateStart → RateStore × Option RateCall
  | .checkAndRecord nodeId now member =>
    match nodeLimits nodeId with
    | none => ({ store with granted := ⟨nodeId, now⟩ :: store.granted }, none)
    | some node => (store, some ⟨nodeId, node, now, member, .second⟩)
  | .expire key now =>
    ({ store with sets := Function.update store.sets key ((store.sets key).expire now) }, none)

def RateStore.Initial (store : RateStore) : Prop :=
  store.granted = [] ∧ ∀ key, store.sets key = .fresh

abbrev RatePool := PoolState RateStore RateCall

abbrev RateAction := PoolAction (Input Unit) RateStart

/-- The scripts on a set run in the order of their time stamps and with distinct members, and a set
expires when its last entry is as old as the window. -/
def InOrder (state : RatePool) : RateAction → Prop
  | .advance pid input => ∀ call ∈ state.process? pid, input.ending ≠ .failed →
      (state.shared.sets call.key).InOrder call.now call.member
  | .launch (.expire key now) => (state.shared.sets key).Expired key.period.windowMs now
  | _ => True

instance (state : RatePool) (action : RateAction) : Decidable (InOrder state action) := by
  rcases action with ⟨_ | _⟩ | _ | _ <;> unfold InOrder <;> infer_instance

/-! ## The sets -/

section Sets

variable {nodeLimits} {store : RateStore} {call : RateCall} {state : RatePool}

/-- The sets of every node keep its limits. -/
def RateStore.Sound (nodeLimits : Nat → Option RpcNodeLimits) (store : RateStore) : Prop :=
  ∀ key node, nodeLimits key.nodeId = some node →
    (store.sets key).Sound (node.limit key.period) key.period.windowMs

theorem RateStore.Sound.update (sound : store.Sound nodeLimits) {key : RateKey}
    {window : SlidingWindow String}
    (kept : ∀ node, nodeLimits key.nodeId = some node →
      window.Sound (node.limit key.period) key.period.windowMs) (granted : List Grant) :
    RateStore.Sound nodeLimits ⟨Function.update store.sets key window, granted⟩ := by
  intro other node registered
  by_cases same : other = key
  · subst same
    simpa using kept node registered
  · simpa [same] using sound other node registered

/-- A call that goes on is for the same node. -/
theorem RateCall.statement_next {later : RateCall}
    (goes : (call.statement store ()).next = some later) :
    call.period = .second ∧ call.allowed store = true ∧
      later = { call with period := .minute } := by
  obtain ⟨nodeId, node, now, member, _ | _⟩ := call
  · simp only [RateCall.statement] at goes
    split at goes
    · rename_i allowed
      cases goes
      exact ⟨rfl, allowed, rfl⟩
    · cases goes
  · cases goes

end Sets

/-! ## Granted calls -/

section Grants

variable {nodeLimits} {store : RateStore} {call : RateCall} {state : RatePool} {nodeId : Nat}
  {counted : Nat → Bool}

/-- The time stamps of the calls that a node was granted. -/
def RateStore.grantedTo (store : RateStore) (nodeId : Nat) : List Nat :=
  (store.granted.filter fun grant => grant.nodeId = nodeId).map Grant.now

/-- How many requests of some time stamps the set of a period has admitted. -/
def RateStore.admitted (store : RateStore) (nodeId : Nat) (period : Period)
    (counted : Nat → Bool) : Nat :=
  (store.sets ⟨nodeId, period⟩).admitted.countP counted

/-- One for a call on the node with such a time stamp. -/
def RateCall.share (nodeId : Nat) (counted : Nat → Bool) (call : RateCall) : Nat :=
  if call.nodeId = nodeId ∧ counted call.now then 1 else 0

/-- The share of a call that the set of the second has admitted. -/
def RateCall.between (nodeId : Nat) (counted : Nat → Bool) (call : RateCall) : Nat :=
  if call.period = .minute then call.share nodeId counted else 0

/-- Each granted call was admitted by both sets, and a call before its second script by the first. -/
structure Accounted (nodeId : Nat) (counted : Nat → Bool) (state : RatePool) : Prop where
  second : (state.shared.grantedTo nodeId).countP counted +
    state.tally (RateCall.between nodeId counted) ≤ state.shared.admitted nodeId .second counted
  minute : (state.shared.grantedTo nodeId).countP counted ≤
    state.shared.admitted nodeId .minute counted

theorem RateCall.admitted_eval (period : Period) :
    (call.eval store).admitted nodeId period counted =
      store.admitted nodeId period counted +
        if call.period = period ∧ call.allowed store then call.share nodeId counted else 0 := by
  unfold RateStore.admitted RateCall.eval RateCall.share
  dsimp only
  by_cases same : (⟨nodeId, period⟩ : RateKey) = call.key
  · have parts : nodeId = call.nodeId ∧ period = call.period := by simpa [RateCall.key] using same
    obtain ⟨rfl, rfl⟩ := parts
    rw [same, Function.update_self, SlidingWindow.check]
    change List.countP counted (if call.allowed store then _ else _) = _
    split <;> simp [List.countP_cons, *]
  · rw [Function.update_of_ne same]
    have apart : ¬ ((call.period = period ∧ call.allowed store) ∧ call.nodeId = nodeId) := by
      rintro ⟨⟨rfl, -⟩, rfl⟩
      exact same rfl
    split
    · rename_i admitted
      rw [if_neg fun mine => apart ⟨admitted, mine.1⟩]
      rfl
    · rfl

theorem RateCall.grantedTo_eval :
    ((call.eval store).grantedTo nodeId).countP counted =
      (store.grantedTo nodeId).countP counted +
        if call.period = .minute ∧ call.allowed store then call.share nodeId counted else 0 := by
  unfold RateStore.grantedTo RateCall.eval RateCall.share
  dsimp only
  split
  · by_cases mine : call.nodeId = nodeId
    · simp [RateCall.grant, mine, List.countP_cons]
    · simp [RateCall.grant, mine]
  · rfl

/-- A call that goes on has been admitted by the set of the second. -/
theorem RateCall.between_next :
    (call.statement store ()).next.elim 0 (RateCall.between nodeId counted) =
      if call.period = .second ∧ call.allowed store then call.share nodeId counted else 0 := by
  obtain ⟨_, _, _, _, _ | _⟩ := call
  · simp only [RateCall.statement]
    split <;> simp [RateCall.between, RateCall.share, *]
  · simp [RateCall.statement]

theorem Accounted.advance (accounted : Accounted nodeId counted state) {pid : Nat}
    {input : Input Unit} {process : Option RateCall} {after : RateStore}
    (found : state.process? pid = some call)
    (performed : (call.statement state.shared ()).perform state.shared input.ending =
      (after, process)) :
    Accounted nodeId counted (state.update after pid process) := by
  have moved : (state.update after pid process).tally (RateCall.between nodeId counted) +
      call.between nodeId counted = state.tally (RateCall.between nodeId counted) +
        process.elim 0 (RateCall.between nodeId counted) :=
    PoolState.tally_update found after process
  have next := @RateCall.between_next state.shared call nodeId counted
  obtain ⟨second, minute⟩ := accounted
  obtain ⟨rfl, ending⟩ | ⟨-, rfl, rfl⟩ := Statement.perform_cases performed
  · have less : process.elim 0 (RateCall.between nodeId counted) ≤
        if call.period = .second ∧ call.allowed state.shared then call.share nodeId counted
        else 0 := by
      rcases ending with ⟨-, rfl⟩ | ⟨-, rfl⟩
      · exact next.le
      · exact Nat.zero_le _
    refine ⟨?_, ?_⟩
    · change ((call.eval state.shared).grantedTo nodeId).countP counted + _ ≤
        (call.eval state.shared).admitted nodeId .second counted
      rw [RateCall.admitted_eval, RateCall.grantedTo_eval]
      -- at the second, the call is admitted and goes on; at the minute, it goes over to the granted
      cases period : call.period with
      | second =>
        simp only [period, RateCall.between, true_and, reduceCtorEq, false_and, if_false]
          at moved less ⊢
        omega
      | minute =>
        simp only [period, RateCall.between, if_true, reduceCtorEq, false_and, if_false, true_and]
          at moved less ⊢
        split <;> omega
    · change ((call.eval state.shared).grantedTo nodeId).countP counted ≤
        (call.eval state.shared).admitted nodeId .minute counted
      rw [RateCall.admitted_eval, RateCall.grantedTo_eval]
      exact Nat.add_le_add_right minute _
  · refine ⟨le_trans (Nat.add_le_add_left ?_ _) second, minute⟩
    exact le_trans (Nat.le_add_right _ _) moved.le

/-- What begins has been admitted nowhere. -/
theorem Accounted.spawn (accounted : Accounted nodeId counted state) {after : RateStore}
    {process : Option RateCall} (granted : after.grantedTo nodeId = state.shared.grantedTo nodeId)
    (admitted : ∀ period, after.admitted nodeId period counted =
      state.shared.admitted nodeId period counted)
    (begins : process.elim 0 (RateCall.between nodeId counted) = 0) :
    Accounted nodeId counted (state.spawn after process) where
  second := by
    rw [PoolState.tally_spawn, begins, PoolState.shared_spawn, granted, admitted]
    exact accounted.second
  minute := by
    rw [PoolState.shared_spawn, granted, admitted]
    exact accounted.minute

theorem Accounted.launch (accounted : Accounted nodeId counted state) {node : RpcNodeLimits}
    (registered : nodeLimits nodeId = some node) {begun : RateStart} {after : RateStore}
    {process : Option RateCall}
    (started : state.shared.start nodeLimits begun = (after, process)) :
    Accounted nodeId counted (state.spawn after process) := by
  cases begun with
  | checkAndRecord other now member =>
    simp only [RateStore.start] at started
    split at started
    · rename_i unregistered
      cases started
      have apart : other ≠ nodeId := by
        rintro rfl
        cases registered.symm.trans unregistered
      refine accounted.spawn ?_ (fun _ => rfl) rfl
      simp [RateStore.grantedTo, apart]
    · cases started
      exact accounted.spawn rfl (fun _ => rfl) rfl
  | expire key now =>
    cases started
    refine accounted.spawn rfl (fun period => ?_) rfl
    unfold RateStore.admitted
    dsimp only
    by_cases here : (⟨nodeId, period⟩ : RateKey) = key
    · rw [here, Function.update_self]
      rfl
    · rw [Function.update_of_ne here]

end Grants

/-! ## Runs -/

def idle : RatePool := ⟨⟨fun _ => .fresh, []⟩, []⟩

end CryptoVaultHub.RpcGateway.RateLimiter

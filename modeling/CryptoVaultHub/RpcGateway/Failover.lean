import CryptoVaultHub.RpcGateway.CircuitBreaker
import CryptoVaultHub.RpcGateway.Quotas

/-!
# Failover between the RPC nodes

Sequences of `executeRpcCall` on one replica. What `provider.send` makes of a response is a
parameter, and the limits of the nodes answer as the environment says. `rotation_kept` says when
all nodes stay in rotation.
-/

namespace CryptoVaultHub.RpcGateway.Failover

open TransitionSystem

/-- A well-formed JSON-RPC response. -/
inductive Response (Value : Type) where
  | result (value : Value)
  | error (message : String)

/-- What one attempt finds: the nodes of the chain, those within their limits, the response of the
selected one unless it is late, and whether its usage is recorded. -/
structure Attempt (Value : Type) where
  now : Nat
  nodes : List Nat
  withinLimits : Nat → Bool
  response : Option (Response Value)
  recorded : Bool

/-- The cached circuits and the column of the rows. Which circuits opened and which nodes each call
was sent to is not in the program. -/
structure Router where
  circuits : Nat → Circuit
  consecutiveFailures : Nat → Nat
  opened : List Nat
  asked : List (List Nat)

variable {Value : Type} (send : Response Value → Option Value)

namespace Router

def setCircuit (router : Router) (node : Nat) (circuit : Circuit) : Router :=
  { router with circuits := Function.update router.circuits node circuit }

/-- The first of the nodes that is allowed and within its limits. -/
def selectNode (attempt : Attempt Value) : List Nat → Router → Option Nat × Router
  | [], router => (none, router)
  | node :: rest, router =>
    let circuit := router.circuits node
    if circuit.allows attempt.now then
      let router :=
        if circuit.status = .open then router.setCircuit node { circuit with status := .halfOpen }
        else router
      if attempt.withinLimits node then (some node, router) else selectNode attempt rest router
    else selectNode attempt rest router

def recordSuccess (router : Router) (node : Nat) : Router :=
  router.setCircuit node (router.circuits node).succeeded

/-- `recordFailure`, and the increment of the column. -/
def recordFailure (router : Router) (node now : Nat) : Router :=
  let circuit := (router.circuits node).failed now
  { router.setCircuit node circuit with
    consecutiveFailures :=
      Function.update router.consecutiveFailures node (router.consecutiveFailures node + 1)
    opened :=
      if circuit.status = .open ∧ (router.circuits node).status ≠ .open then
        node :: router.opened
      else router.opened }

/-- The call ends. -/
def close (router : Router) (attempted : List Nat) : Router :=
  { router with asked := attempted :: router.asked }

/-- The attempts that are left, after those on some nodes. -/
def retry (attempts : Nat → Attempt Value) : Nat → List Nat → Router → Option Value × Router
  | 0, attempted, router => (none, router.close attempted)
  | left + 1, attempted, router =>
    let attempt := attempts attempted.length
    match selectNode attempt (attempt.nodes.filter (· ∉ attempted)) router with
    | (none, router) => (none, router.close attempted)
    | (some node, router) =>
      let attempted := attempted ++ [node]
      match attempt.response.bind send with
      | some value =>
        let router := router.recordSuccess node
        -- a usage that is not recorded is taken for a failure of the node
        if attempt.recorded then (some value, router.close attempted)
        else retry attempts left attempted (router.recordFailure node attempt.now)
      | none => retry attempts left attempted (router.recordFailure node attempt.now)

def executeRpcCall (router : Router) (attempts : Nat → Attempt Value) : Option Value × Router :=
  retry send attempts maxRetries [] router

/-- No circuit has opened, no failures were counted and no call was sent to a second node. -/
def InRotation (start router : Router) : Prop :=
  router.opened = [] ∧
    (∀ node, router.consecutiveFailures node ≤ start.consecutiveFailures node) ∧
    ∀ nodes ∈ router.asked, nodes.length ≤ 1

/-- The node that the first attempt selects answers with a result, and its usage is recorded. -/
def Served (router : Router) (attempts : Nat → Attempt Value) : Prop :=
  (selectNode (attempts 0) (attempts 0).nodes router).1 ≠ none →
    (∃ value, (attempts 0).response = some (.result value)) ∧ (attempts 0).recorded = true

end Router

open Router

/-- Calls one after another, from any circuits and failures. -/
def routing (start : Router) : TransitionSystem Router (Nat → Attempt Value) where
  Initial router := router = start ∧ start.opened = [] ∧ start.asked = []
  step router attempts := some (router.executeRpcCall send attempts).2

variable {send} {start router : Router}

/-- A selection changes nothing but circuits. -/
theorem selectNode_keeps (attempt : Attempt Value) (nodes : List Nat) (router : Router) :
    ∃ circuits, (selectNode attempt nodes router).2 = { router with circuits := circuits } := by
  induction nodes generalizing router with
  | nil => exact ⟨_, rfl⟩
  | cons node rest ih =>
    simp only [selectNode]
    split
    · split
      · split
        · exact ⟨_, rfl⟩
        · exact ⟨_, rfl⟩
      · obtain ⟨circuits, kept⟩ := ih (if (router.circuits node).status = .open then
          router.setCircuit node { router.circuits node with status := .halfOpen } else router)
        refine ⟨circuits, kept.trans ?_⟩
        split <;> rfl
    · exact ih router

/-- All nodes stay in rotation in any run in which the node that the first attempt of each call
selects, if any, answers with a result and its usage is recorded. -/
theorem rotation_kept (returns : ∀ value, send (.result value) = some value)
    (reached : (routing send start).Reachable Served router) : InRotation start router := by
  apply reached.invariant
  · rintro _ ⟨rfl, opened, asked⟩
    exact ⟨opened, fun _ => le_rfl, by simp [asked]⟩
  · rintro before attempts _ ⟨opened, failures, single⟩ served ⟨⟩
    have closes : ∀ circuits, ∀ attempted : List Nat, attempted.length ≤ 1 →
        InRotation start ({ before with circuits := circuits }.close attempted) := by
      refine fun circuits attempted short => ⟨opened, failures, fun nodes member => ?_⟩
      rcases List.mem_cons.mp member with rfl | earlier
      · exact short
      · exact single nodes earlier
    obtain ⟨circuits, kept⟩ := selectNode_keeps (attempts 0) (attempts 0).nodes before
    have unattempted : (attempts 0).nodes.filter (· ∉ ([] : List Nat)) = (attempts 0).nodes := by
      simp
    unfold executeRpcCall maxRetries retry
    simp only [List.length_nil, unattempted, List.nil_append]
    unfold Served at served
    cases found : selectNode (attempts 0) (attempts 0).nodes before with
    | mk chosen selected =>
      rw [found] at kept served
      subst kept
      cases chosen with
      | none => exact closes circuits [] (Nat.zero_le 1)
      | some node =>
        obtain ⟨⟨value, result⟩, recorded⟩ := served (by simp)
        simp only [result, Option.bind_some, returns, recorded, if_true]
        exact closes _ [node] le_rfl

/-- Two nodes, which respond in time. -/
def answered (response : Response Nat) : Attempt Nat :=
  ⟨1000, [1, 2], fun _ => true, some response, true⟩

def freshRouter : Router := ⟨fun _ => .initial, fun _ => 0, [], []⟩

/-- `send` resolves to a result and rejects an error object. -/
def sends : Response Nat → Option Nat
  | .result value => some value
  | .error _ => none

/-- A call that the first node answers. -/
theorem rotation_kept_sample : ∃ router, (routing sends freshRouter).Reachable Served router ∧
    router.asked = [[1]] ∧ InRotation freshRouter router := by
  have reached : (routing sends freshRouter).Reachable Served
      (freshRouter.executeRpcCall sends fun _ => answered (.result 5)).2 :=
    ⟨freshRouter, ⟨rfl, rfl, rfl⟩, .step .refl (fun _ => ⟨⟨5, rfl⟩, rfl⟩) rfl⟩
  exact ⟨_, reached, by decide, rotation_kept (fun _ => rfl) reached⟩

/-- A reverting call is counted as a failure of both nodes. -/
theorem reverted_call_retried : ∃ router, (routing sends freshRouter).Reachable
      (fun _ attempts => ∀ number, (attempts number).response.isSome ∧ (attempts number).recorded)
      router ∧ ¬ InRotation freshRouter router := by
  refine ⟨(freshRouter.executeRpcCall sends fun _ => answered (.error "execution reverted")).2,
    ⟨freshRouter, ⟨rfl, rfl, rfl⟩, .step .refl (fun _ => ⟨rfl, rfl⟩) rfl⟩, ?_⟩
  rintro ⟨-, -, single⟩
  exact absurd (single [1, 2] (by decide)) (by decide)

end CryptoVaultHub.RpcGateway.Failover

import CryptoVaultHub.Semantics.ProcessPool

/-!
# The circuit of a node on several replicas

`CircuitBreakerService` for one node: each replica decides by its local cache, which holds a
reference to a circuit that is changed in place, and saves the circuit to Redis in the background.
Nodes share nothing. A restarted replica is a new one. One clock serves all replicas.

When the keys were last written is not in the program. `circuit_shared` shows when every replica
refuses a node whose circuit is open in Redis.
-/

namespace CryptoVaultHub.RpcGateway

open Option

/-! ## Circuits -/

inductive CircuitStatus where
  | closed
  | open
  | halfOpen
deriving DecidableEq

structure Circuit where
  status : CircuitStatus
  failures : Nat
  openedAt : Nat
deriving DecidableEq

def failureThreshold : Nat := 5

/-- `OPEN_DURATION_MS`. -/
def openDuration : Nat := 30000

/-- `LOCAL_CACHE_TTL_MS`. -/
def localCacheTtl : Nat := 2000

namespace Circuit

/-- The circuit of a node that is not known. -/
def initial : Circuit := ⟨.closed, 0, 0⟩

/-- The answer of `isAllowed`. -/
def allows (circuit : Circuit) (now : Nat) : Bool :=
  match circuit.status with
  | .closed => true
  | .open => openDuration ≤ now - circuit.openedAt
  | .halfOpen => true

def succeeded (circuit : Circuit) : Circuit :=
  match circuit.status with
  | .halfOpen => ⟨.closed, 0, 0⟩
  | .closed => { circuit with failures := 0 }
  | .open => circuit

def failed (circuit : Circuit) (now : Nat) : Circuit :=
  match circuit.status with
  | .halfOpen => { circuit with status := .open, openedAt := now }
  | .closed | .open =>
    let counted := { circuit with failures := circuit.failures + 1 }
    if failureThreshold ≤ counted.failures then { counted with status := .open, openedAt := now }
    else counted

end Circuit

/-! ## Replicas -/

/-- The circuit objects of a replica, and its cache entry: which object, since when. -/
structure Replica where
  running : Bool
  circuits : List Circuit
  cache : Option (Nat × Nat)
deriving DecidableEq

namespace Replica

/-- The cached circuit. -/
def circuit? (replica : Replica) : Option Circuit :=
  replica.cache.bind fun entry => replica.circuits[entry.1]?

def circuit (replica : Replica) : Circuit := replica.circuit?.getD .initial

/-- `isAllowed` of this replica. -/
def isAllowed (replica : Replica) (now : Nat) : Bool := replica.circuit.allows now

/-- The object that a change is made to: the cached one, or a new one. -/
def object (replica : Replica) : Nat :=
  match replica.cache with
  | some (index, _) => index
  | none => replica.circuits.length

/-- The circuit is changed in place and cached. -/
def put (replica : Replica) (circuit : Circuit) (now : Nat) : Replica :=
  { replica with
    circuits :=
      if replica.object < replica.circuits.length then replica.circuits.set replica.object circuit
      else replica.circuits ++ [circuit]
    cache := some (replica.object, now) }

/-- A new object, which is not cached yet. -/
def allocate (replica : Replica) (circuit : Circuit) : Replica :=
  { replica with circuits := replica.circuits ++ [circuit] }

end Replica

/-- The three keys of the node in Redis, when one of them was last written, and the replicas. -/
structure Breaker where
  now : Nat
  state : Option CircuitStatus
  failures : Option Nat
  openedAt : Option Nat
  writtenAt : Nat
  replicas : List Replica
deriving DecidableEq

inductive CircuitKey where
  | state
  | failures
  | openedAt
deriving DecidableEq

namespace Breaker

def set (breaker : Breaker) (key : CircuitKey) (circuit : Circuit) : Breaker :=
  match key with
  | .state => { breaker with state := some circuit.status, writtenAt := breaker.now }
  | .failures => { breaker with failures := some circuit.failures, writtenAt := breaker.now }
  | .openedAt => { breaker with openedAt := some circuit.openedAt, writtenAt := breaker.now }

def expire (breaker : Breaker) : CircuitKey → Breaker
  | .state => { breaker with state := none }
  | .failures => { breaker with failures := none }
  | .openedAt => { breaker with openedAt := none }

/-- What `getCircuit` makes of the three keys. -/
def read (breaker : Breaker) : Circuit :=
  ⟨breaker.state.getD .closed, breaker.failures.getD 0, breaker.openedAt.getD 0⟩

def replica? (breaker : Breaker) (replica : Nat) : Option Replica :=
  (breaker.replicas[replica]?).filter Replica.running

def setReplica (breaker : Breaker) (index : Nat) (replica : Replica) : Breaker :=
  { breaker with replicas := breaker.replicas.set index replica }

end Breaker

/-! ## Saving and reading in the background -/

inductive SavePoint where
  | write (key : CircuitKey)
  | fill
deriving DecidableEq

/-- `saveCircuit` with the object that it caches and the values that it writes, and `getCircuit`
with what it has read. -/
inductive BreakerProcess where
  | save (replica object : Nat) (written : Circuit) (point : SavePoint)
  | refresh (replica : Nat) (circuit : Option Circuit)
deriving DecidableEq

/-- Whether a command takes effect, and whether its promise is rejected. -/
structure CommandInput where
  takes : Bool
  rejected : Bool
deriving DecidableEq

namespace BreakerProcess

def nextKey : CircuitKey → SavePoint
  | .state => .write .failures
  | .failures => .write .openedAt
  | .openedAt => .fill

def next (breaker : Breaker) (process : BreakerProcess) (input : CommandInput) :
    Option (Breaker × Option BreakerProcess) :=
  match process with
  | .save replica object written (.write key) =>
    some (if input.takes then breaker.set key written else breaker,
      some (.save replica object written (nextKey key)))
  | .save replica object _ .fill =>
    some (match breaker.replica? replica with
      | some found =>
        if input.rejected then breaker
        else breaker.setReplica replica { found with cache := some (object, breaker.now) }
      | none => breaker, none)
  | .refresh replica none =>
    some (breaker, if input.rejected then none else some (.refresh replica (some breaker.read)))
  | .refresh replica (some circuit) =>
    some (match breaker.replica? replica with
      | some found => breaker.setReplica replica
          { found.allocate circuit with
            cache := some (found.circuits.length, breaker.now) }
      | none => breaker, none)

end BreakerProcess

/-- A call of a replica, its start or stop, the end of the lifetime of a key, and time. -/
inductive BreakerStart where
  | isAllowed (replica : Nat)
  | recordSuccess (replica : Nat)
  | recordFailure (replica : Nat)
  | reset (replica : Nat)
  | getCircuit (replica : Nat)
  | startReplica
  | stopReplica (replica : Nat)
  | expire (key : CircuitKey)
  | pass (milliseconds : Nat)
deriving DecidableEq

namespace Breaker

/-- The cached circuit is changed, and saved in the background. -/
def change (breaker : Breaker) (index : Nat) (replica : Replica) (circuit : Circuit) :
    Breaker × Option BreakerProcess :=
  (breaker.setReplica index (replica.put circuit breaker.now),
    some (.save index replica.object circuit (.write .state)))

def start (breaker : Breaker) : BreakerStart → Option (Breaker × Option BreakerProcess)
  | .isAllowed index => (breaker.replica? index).map fun replica =>
    if replica.circuit.status = .open ∧ replica.isAllowed breaker.now = true then
      breaker.change index replica { replica.circuit with status := .halfOpen }
    else (breaker, none)
  | .recordSuccess index => (breaker.replica? index).map fun replica =>
    breaker.change index replica replica.circuit.succeeded
  | .recordFailure index => (breaker.replica? index).map fun replica =>
    breaker.change index replica (replica.circuit.failed breaker.now)
  | .reset index => (breaker.replica? index).map fun replica =>
    (breaker.setReplica index (replica.allocate .initial),
      some (.save index replica.circuits.length .initial (.write .state)))
  | .getCircuit index => (breaker.replica? index).map fun replica =>
    (breaker,
      if replica.cache.any fun entry => breaker.now - entry.2 < localCacheTtl then none
      else some (.refresh index none))
  | .startReplica =>
    some ({ breaker with replicas := breaker.replicas ++ [⟨true, [], none⟩] }, none)
  | .stopReplica index => (breaker.replica? index).map fun replica =>
    (breaker.setReplica index { replica with running := false }, none)
  | .expire key => some (breaker.expire key, none)
  | .pass milliseconds => some ({ breaker with now := breaker.now + milliseconds }, none)

end Breaker

def breakerPool : ProcessPool Breaker BreakerProcess CommandInput BreakerStart where
  Initial breaker := breaker.replicas = []
  next := BreakerProcess.next
  start := Breaker.start

abbrev BreakerState := PoolState Breaker BreakerProcess

abbrev BreakerAction := PoolAction CommandInput BreakerStart

/-! ## The property and the condition -/

namespace Breaker

/-- The circuit is open in Redis since less than the duration, and was not written for the
lifetime of the caches. -/
def InForce (breaker : Breaker) : Prop :=
  breaker.state = some .open ∧
    (∃ openedAt ∈ breaker.openedAt,
      openedAt ≤ breaker.now ∧ breaker.now < openedAt + openDuration) ∧
    breaker.writtenAt + localCacheTtl ≤ breaker.now

/-- Every replica refuses the node while its circuit is in force. -/
def Shared (breaker : Breaker) : Prop :=
  breaker.InForce → ∀ replica ∈ breaker.replicas, replica.running = true →
    replica.isAllowed breaker.now = false

/-- A circuit is open, and not since an earlier time than in Redis. -/
def Matches (breaker : Breaker) (circuit : Circuit) : Prop :=
  circuit.status = .open ∧ ∀ openedAt ∈ breaker.openedAt, openedAt ≤ circuit.openedAt

/-- A replica has such a circuit in its cache. -/
def Informed (breaker : Breaker) (replica : Replica) : Prop :=
  ∃ circuit ∈ replica.circuit?, breaker.Matches circuit

/-- Every running replica is informed. -/
def AllInformed (breaker : Breaker) : Prop :=
  ∀ replica ∈ breaker.replicas, replica.running = true → breaker.Informed replica

end Breaker

/-- A process that is about to fill a cache has a circuit for it that matches. -/
def BreakerProcess.Fits (breaker : Breaker) (input : CommandInput) : BreakerProcess → Prop
  | .save index object _ .fill => input.rejected = false →
      ∀ replica ∈ breaker.replica? index, ∃ circuit ∈ replica.circuits[object]?,
        breaker.Matches circuit
  | .save _ _ _ (.write _) => True
  | .refresh _ none => True
  | .refresh index (some circuit) =>
    (breaker.replica? index).isSome = true → breaker.Matches circuit

/-- When the circuit comes into force every replica has opened its own, no replica starts while
it is, and then no process fills a cache with another circuit. -/
def BreakerState.Told (state : BreakerState) : BreakerAction → Prop
  | .launch (.pass milliseconds) =>
    Breaker.InForce { state.shared with now := state.shared.now + milliseconds } →
      ¬ state.shared.InForce → state.shared.AllInformed
  | .launch .startReplica => ¬ state.shared.InForce
  | .advance pid input => state.shared.InForce →
      ∀ process ∈ state.process? pid, process.Fits state.shared input
  | _ => True

/-! ## What a step leaves in the caches -/

variable {breaker : Breaker}

theorem Breaker.mem_replicas_of_replica? {index : Nat} {replica : Replica}
    (found : breaker.replica? index = some replica) :
    replica ∈ breaker.replicas ∧ replica.running = true := by
  obtain ⟨entry, running⟩ := filter_eq_some_iff.mp found
  exact ⟨List.mem_of_getElem? entry, running⟩

/-- One replica is replaced by an informed or stopped one. -/
theorem Breaker.AllInformed.setReplica (informed : breaker.AllInformed) {index : Nat}
    {replica : Replica} (replaced : replica.running = true → breaker.Informed replica) :
    (breaker.setReplica index replica).AllInformed := by
  intro other member running
  obtain before | rfl := List.mem_or_eq_of_mem_set member
  · exact informed other before running
  · exact replaced running

theorem Replica.circuit?_put {replica : Replica} {before : Circuit}
    (cached : replica.circuit? = some before) (circuit : Circuit) (now : Nat) :
    (replica.put circuit now).circuit? = some circuit := by
  obtain ⟨⟨index, since⟩, isCached, found⟩ := bind_eq_some_iff.mp cached
  have inside : index < replica.circuits.length := (List.getElem?_eq_some_iff.mp found).1
  simp [Replica.put, Replica.circuit?, Replica.object, isCached, inside]

theorem Replica.circuit?_allocate {replica : Replica} {before : Circuit}
    (cached : replica.circuit? = some before) (circuit : Circuit) :
    (replica.allocate circuit).circuit? = some before := by
  obtain ⟨⟨index, since⟩, isCached, found⟩ := bind_eq_some_iff.mp cached
  have inside : index < replica.circuits.length := (List.getElem?_eq_some_iff.mp found).1
  simp only [Replica.allocate, Replica.circuit?, isCached, bind_some]
  rw [List.getElem?_append_left inside, found]

/-- A matching circuit matches after a success and after a failure. -/
theorem Breaker.Matches.succeeded {circuit : Circuit} (fits : breaker.Matches circuit) :
    breaker.Matches circuit.succeeded := by
  simpa [Circuit.succeeded, fits.1] using fits

theorem Breaker.Matches.failed {circuit : Circuit} (fits : breaker.Matches circuit)
    (inForce : breaker.InForce) : breaker.Matches (circuit.failed breaker.now) := by
  obtain ⟨-, ⟨openedAt, isKey, past, -⟩, -⟩ := inForce
  obtain ⟨isOpen, since⟩ := fits
  simp only [Circuit.failed, isOpen]
  split
  · refine ⟨rfl, ?_⟩
    intro key isOther
    cases isKey.symm.trans isOther
    exact past
  · exact ⟨rfl, since⟩

/-- An informed replica refuses the node while its circuit is in force. -/
theorem Breaker.Informed.refuses {replica : Replica} (informed : breaker.Informed replica)
    (inForce : breaker.InForce) : replica.isAllowed breaker.now = false := by
  obtain ⟨-, ⟨openedAt, isKey, past, recent⟩, -⟩ := inForce
  obtain ⟨circuit, isCached, isOpen, since⟩ := informed
  have later := since openedAt isKey
  have cached : replica.circuit = circuit := by
    rw [Replica.circuit, isCached, getD_some]
  simp only [Replica.isAllowed, Circuit.allows, cached, isOpen, decide_eq_false_iff_not, not_le]
  omega

/-- A change of the cached circuit to one that matches. -/
theorem Breaker.AllInformed.change (informed : breaker.AllInformed) {index : Nat}
    {replica : Replica} (found : breaker.replica? index = some replica) {circuit : Circuit}
    (fits : ∀ before ∈ replica.circuit?, breaker.Matches before → breaker.Matches circuit) :
    (breaker.change index replica circuit).1.AllInformed := by
  apply informed.setReplica
  intro _
  obtain ⟨member, running⟩ := Breaker.mem_replicas_of_replica? found
  obtain ⟨before, isCached, fitsBefore⟩ := informed replica member running
  exact ⟨circuit, Replica.circuit?_put isCached circuit breaker.now,
    fits before isCached fitsBefore⟩

/-- What holds of the replicas: while the circuit is in force, all are informed. -/
def Breaker.Agreed (breaker : Breaker) : Prop := breaker.InForce → breaker.AllInformed

theorem Breaker.Agreed.start {state : BreakerState} {begun : BreakerStart} {after : Breaker}
    {process : Option BreakerProcess} (agreed : state.shared.Agreed)
    (told : state.Told (.launch begun))
    (started : state.shared.start begun = some (after, process)) : after.Agreed := by
  intro inForce
  cases begun with
  | isAllowed index =>
    obtain ⟨replica, found, result⟩ := map_eq_some_iff.mp started
    split at result
    · rename_i reopens
      cases result
      have informed := agreed inForce
      obtain ⟨member, running⟩ := Breaker.mem_replicas_of_replica? found
      have refuses := (informed replica member running).refuses inForce
      rw [reopens.2] at refuses
      cases refuses
    · cases result
      exact agreed inForce
  | recordSuccess index =>
    obtain ⟨replica, found, result⟩ := map_eq_some_iff.mp started
    cases result
    apply (agreed inForce).change found
    intro before isCached fits
    rw [Replica.circuit, isCached, getD_some]
    exact fits.succeeded
  | recordFailure index =>
    obtain ⟨replica, found, result⟩ := map_eq_some_iff.mp started
    cases result
    apply (agreed inForce).change found
    intro before isCached fits
    rw [Replica.circuit, isCached, getD_some]
    exact fits.failed inForce
  | reset index =>
    obtain ⟨replica, found, result⟩ := map_eq_some_iff.mp started
    cases result
    apply (agreed inForce).setReplica
    intro _
    obtain ⟨member, running⟩ := Breaker.mem_replicas_of_replica? found
    obtain ⟨before, isCached, fits⟩ := agreed inForce replica member running
    exact ⟨before, Replica.circuit?_allocate isCached .initial, fits⟩
  | getCircuit index =>
    obtain ⟨replica, found, result⟩ := map_eq_some_iff.mp started
    cases result
    exact agreed inForce
  | startReplica =>
    cases started
    exact absurd inForce told
  | stopReplica index =>
    obtain ⟨replica, found, result⟩ := map_eq_some_iff.mp started
    cases result
    apply (agreed inForce).setReplica
    rintro ⟨⟩
  | expire key =>
    cases started
    cases key with
    | state => cases inForce.1
    | failures => exact agreed inForce
    | openedAt =>
      obtain ⟨-, ⟨openedAt, isKey, -⟩, -⟩ := inForce
      cases isKey
  | pass milliseconds =>
    cases started
    by_cases before : state.shared.InForce
    · exact agreed before
    · exact told inForce before

/-- A key was just written, so that the circuit is not in force. -/
theorem Breaker.not_inForce_set (key : CircuitKey) (circuit : Circuit) :
    ¬ (breaker.set key circuit).InForce := by
  rintro ⟨-, -, old⟩
  cases key <;> simp only [Breaker.set, localCacheTtl] at old <;> omega

theorem Breaker.Agreed.next {process : BreakerProcess} {input : CommandInput} {after : Breaker}
    {later : Option BreakerProcess} (agreed : breaker.Agreed)
    (fits : breaker.InForce → process.Fits breaker input)
    (moved : process.next breaker input = some (after, later)) : after.Agreed := by
  intro inForce
  cases process with
  | save index object written point =>
    cases point with
    | write key =>
      cases moved
      split at inForce
      · exact absurd inForce (Breaker.not_inForce_set key written)
      · rename_i lost
        rw [if_neg lost]
        exact agreed inForce
    | fill =>
      cases moved
      cases found : breaker.replica? index with
      | none =>
        simp only [found] at inForce ⊢
        exact agreed inForce
      | some replica =>
        simp only [found] at inForce ⊢
        cases rejected : input.rejected with
        | true =>
          simp only [rejected, if_true] at inForce ⊢
          exact agreed inForce
        | false =>
          simp only [rejected] at inForce ⊢
          have before : breaker.InForce := inForce
          obtain ⟨circuit, isObject, matching⟩ := fits before rejected replica found
          apply (agreed before).setReplica
          intro _
          exact ⟨circuit, isObject, matching⟩
  | refresh index read =>
    cases read with
    | none =>
      cases moved
      exact agreed inForce
    | some circuit =>
      cases moved
      cases found : breaker.replica? index with
      | none =>
        simp only [found] at inForce ⊢
        exact agreed inForce
      | some replica =>
        simp only [found] at inForce ⊢
        have before : breaker.InForce := inForce
        have matching := fits before (by rw [found]; rfl)
        apply (agreed before).setReplica
        intro _
        refine ⟨circuit, ?_, matching⟩
        simp [Replica.allocate, Replica.circuit?]

/-! ## Shared circuits -/

/-- Every replica refuses a node whose circuit is in force, in any run in which they are told. -/
theorem circuit_shared {state : BreakerState}
    (reached : breakerPool.system.Reachable BreakerState.Told state) : state.shared.Shared := by
  have agreed : state.shared.Agreed := by
    apply reached.invariant
    · rintro ⟨shared, processes⟩ ⟨none, -⟩ _ replica member
      have empty : shared.replicas = [] := none
      rw [show (PoolState.mk shared processes).shared.replicas = [] from empty] at member
      cases member
    · intro before action after holds told transition
      cases action with
      | launch begun =>
        obtain ⟨shared, process, started, rfl⟩ := ProcessPool.step_launch transition
        exact holds.start told started
      | advance pid input =>
        obtain ⟨process, shared, later, found, moved, rfl⟩ := ProcessPool.step_advance transition
        exact holds.next (fun inForce => told inForce process found) moved
      | crash pid =>
        obtain ⟨process, found, rfl⟩ := ProcessPool.step_crash transition
        exact holds
  intro inForce replica member running
  exact (agreed inForce replica member running).refuses inForce

/-! ## A replica that was not told -/

instance : DecidablePred Breaker.InForce := fun breaker => by
  unfold Breaker.InForce
  infer_instance

instance (breaker : Breaker) : DecidablePred breaker.Matches := fun circuit => by
  unfold Breaker.Matches
  infer_instance

instance (breaker : Breaker) : DecidablePred breaker.Informed := fun replica => by
  unfold Breaker.Informed
  infer_instance

instance : DecidablePred Breaker.AllInformed := fun breaker => by
  unfold Breaker.AllInformed
  infer_instance

instance (breaker : Breaker) (input : CommandInput) (process : BreakerProcess) :
    Decidable (process.Fits breaker input) := by
  unfold BreakerProcess.Fits
  split <;> infer_instance

instance (state : BreakerState) : DecidablePred state.Told := fun action => by
  unfold BreakerState.Told
  split <;> infer_instance

/-- Redis holds nothing for the node. -/
def freshBreaker : BreakerState := ⟨⟨100000, none, none, none, 0, []⟩, []⟩

theorem freshBreaker_initial : breakerPool.system.Initial freshBreaker := ⟨rfl, rfl⟩

/-- The commands of a save take effect, and its circuit is cached. -/
def savesCircuit (pid : Nat) : List BreakerAction :=
  List.replicate 4 (.advance pid ⟨true, false⟩)

/-- Five failures on a replica, each of them saved. -/
def opensCircuit (replica pid : Nat) : List BreakerAction :=
  (List.range 5).flatMap fun count =>
    .launch (.recordFailure replica) :: savesCircuit (pid + count)

theorem circuit_shared_sample :
    ∃ state, breakerPool.system.Reachable BreakerState.Told state ∧ state.shared.InForce ∧
      state.shared.replicas.length = 1 ∧ state.shared.Shared := by
  obtain ⟨state, reached, inForce, one⟩ : ∃ state,
      breakerPool.system.Reachable BreakerState.Told state ∧
        state.shared.InForce ∧ state.shared.replicas.length = 1 :=
    TransitionSystem.exists_reachable freshBreaker_initial
      (.launch .startReplica :: opensCircuit 0 1 ++ [.launch (.pass 5000)]) (by decide +kernel)
  exact ⟨state, reached, inForce, one, circuit_shared reached⟩

/-- A second replica has not seen the failures, and allows the node. -/
theorem circuit_not_shared :
    ∃ state, breakerPool.system.Reachable TransitionSystem.Unrestricted state ∧
      ¬ state.shared.Shared := by
  obtain ⟨state, reached, inForce, replica, member, running, allowed⟩ : ∃ state,
      breakerPool.system.Reachable TransitionSystem.Unrestricted state ∧
        state.shared.InForce ∧ ∃ replica ∈ state.shared.replicas,
          replica.running = true ∧ replica.isAllowed state.shared.now = true :=
    TransitionSystem.exists_reachable freshBreaker_initial
      (.launch .startReplica :: .launch .startReplica :: opensCircuit 0 2 ++
        [.launch (.pass 5000)]) (by decide +kernel)
  refine ⟨state, reached, ?_⟩
  intro shared
  rw [shared inForce replica member running] at allowed
  cases allowed

end CryptoVaultHub.RpcGateway

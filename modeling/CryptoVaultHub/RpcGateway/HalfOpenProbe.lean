import CryptoVaultHub.RpcGateway.CircuitBreaker

/-!
# The probe of a half-open circuit

The calls of `isAllowed`, `recordSuccess` and `recordFailure` for one node on one replica, in any
order. `one_probe_iff` says when a half-open circuit lets one request through.
-/

namespace CryptoVaultHub.RpcGateway.Probing

open TransitionSystem

/-- The cached circuit of the node. For each time it was half-open, latest first, `further` counts
the calls that were allowed after the one that made it half-open; this is not in the program. -/
structure ProbeLog where
  now : Nat
  circuit : Circuit
  further : List Nat
deriving DecidableEq

inductive ProbeCall where
  | isAllowed
  | recordSuccess
  | recordFailure
  | pass (milliseconds : Nat)
deriving DecidableEq

namespace ProbeLog

def isAllowed (log : ProbeLog) : ProbeLog :=
  match log.circuit.status with
  | .closed => log
  | .open =>
    if log.circuit.allows log.now then
      { log with circuit := { log.circuit with status := .halfOpen }, further := 0 :: log.further }
    else log
  | .halfOpen => { log with further := log.further.modifyHead (· + 1) }

def step (log : ProbeLog) : ProbeCall → Option ProbeLog
  | .isAllowed => some log.isAllowed
  | .recordSuccess => some { log with circuit := log.circuit.succeeded }
  | .recordFailure => some { log with circuit := log.circuit.failed log.now }
  | .pass milliseconds => some { log with now := log.now + milliseconds }

/-- Between turning half-open and the next outcome exactly one call was allowed, every time. -/
@[reducible] def OneProbe (log : ProbeLog) : Prop := ∀ calls ∈ log.further, calls = 0

/-- No call is made while the circuit is half-open. -/
def Patient (log : ProbeLog) (call : ProbeCall) : Prop :=
  call = .isAllowed → log.circuit.status ≠ .halfOpen

end ProbeLog

open ProbeLog

/-- Any circuit that is closed or open. -/
def probing : TransitionSystem ProbeLog ProbeCall where
  Initial log := log.further = [] ∧ log.circuit.status ≠ .halfOpen
  step := step

variable {log : ProbeLog}

theorem isAllowed_halfOpen (halfOpen : log.circuit.status = .halfOpen) :
    log.isAllowed = { log with further := log.further.modifyHead (· + 1) } := by
  simp [isAllowed, halfOpen]

/-- Elsewhere a call leaves the counts, or it begins one. -/
theorem isAllowed_cases (status : log.circuit.status ≠ .halfOpen) :
    log.isAllowed = log ∨ log.isAllowed.further = 0 :: log.further := by
  unfold isAllowed
  split
  · exact .inl rfl
  · split
    · exact .inr rfl
    · exact .inl rfl
  · exact absurd ‹_› status

theorem not_halfOpen_succeeded (circuit : Circuit) : circuit.succeeded.status ≠ .halfOpen := by
  unfold Circuit.succeeded
  split <;> simp [*]

theorem not_halfOpen_failed (circuit : Circuit) (now : Nat) :
    (circuit.failed now).status ≠ .halfOpen := by
  cases status : circuit.status <;> simp only [Circuit.failed, status] <;> try split
  all_goals simp

/-- A half-open circuit has been counted. -/
theorem counted_of_reachable {Allowed : ProbeLog → ProbeCall → Prop}
    (reached : probing.Reachable Allowed log) :
    log.circuit.status = .halfOpen → log.further ≠ [] := by
  refine @Reachable.invariant _ _ _ _
    (fun log => log.circuit.status = .halfOpen → log.further ≠ []) _ reached ?_ ?_
  · exact fun _ initial halfOpen => absurd halfOpen initial.2
  · intro before call after counted _ transition
    cases call with
    | isAllowed =>
      cases transition
      by_cases status : before.circuit.status = .halfOpen
      · simpa [isAllowed_halfOpen status] using counted
      · obtain same | begun := isAllowed_cases status
        · rwa [same]
        · simp [begun]
    | recordSuccess =>
      cases transition
      exact fun halfOpen => absurd halfOpen (not_halfOpen_succeeded _)
    | recordFailure =>
      cases transition
      exact fun halfOpen => absurd halfOpen (not_halfOpen_failed _ _)
    | pass milliseconds =>
      cases transition
      exact counted

/-- A half-open circuit lets exactly one request through, every time, if and only if no call is
made while it is half-open. -/
theorem one_probe_iff (reached : probing.Reachable Unrestricted log) :
    log.OneProbe ↔ probing.Reachable Patient log := by
  refine @Reachable.property_iff _ _ _ Patient OneProbe log reached ?_ ?_ ?_
  · rintro start ⟨none, -⟩ calls member
    rw [none] at member
    cases member
  · intro before call after allowed holds transition
    cases call with
    | isAllowed =>
      cases transition
      by_cases status : before.circuit.status = .halfOpen
      · obtain ⟨calls, rest, counts⟩ :=
          List.exists_cons_of_ne_nil (counted_of_reachable allowed status)
        simp [isAllowed_halfOpen status, counts, OneProbe, Patient, status]
      · obtain same | begun := isAllowed_cases status
        · simpa [same, Patient, status] using holds
        · simpa [OneProbe, begun, Patient, status] using holds
    | _ =>
      cases transition
      simpa [Patient, OneProbe] using holds
  · intro before call after transition holds
    cases call with
    | isAllowed =>
      cases transition
      by_cases status : before.circuit.status = .halfOpen
      · cases counts : before.further with
        | nil => simp [OneProbe, counts]
        | cons calls rest => simp [isAllowed_halfOpen status, counts, OneProbe] at holds
      · obtain same | begun := isAllowed_cases status
        · rwa [same] at holds
        · exact fun calls member => holds calls (begun ▸ List.mem_cons_of_mem _ member)
    | _ =>
      cases transition
      exact holds

/-- Five failures open the circuit of a node, and half a minute later it is asked for. -/
def opensAndAsks : List ProbeCall := List.replicate 5 .recordFailure ++ [.pass 30000, .isAllowed]

def freshLog : ProbeLog := ⟨100000, .initial, []⟩

theorem one_probe_sample : ∃ log, probing.Reachable Unrestricted log ∧ log.further = [0] ∧
    (log.OneProbe ↔ probing.Reachable Patient log) := by
  obtain ⟨log, reached, found⟩ := @exists_reachable _ _ probing Unrestricted _ freshLog (fun log =>
    log.further = [0]) _ ⟨rfl, by decide⟩ (opensAndAsks ++ [.recordSuccess]) (by decide +kernel)
  exact ⟨log, reached, found, one_probe_iff reached⟩

/-- Two more requests pass before the outcome of the first. -/
theorem several_probes : ∃ log, probing.Reachable Unrestricted log ∧ ¬ log.OneProbe := by
  obtain ⟨log, reached, found⟩ := @exists_reachable _ _ probing Unrestricted _ freshLog (fun log =>
    ¬ log.OneProbe) _ ⟨rfl, by decide⟩ (opensAndAsks ++ [.isAllowed, .isAllowed])
    (by decide +kernel)
  exact ⟨log, reached, found⟩

end CryptoVaultHub.RpcGateway.Probing

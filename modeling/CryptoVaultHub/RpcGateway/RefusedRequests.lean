import CryptoVaultHub.RpcGateway.RateLimiter

/-!
# What a refused request costs

The router asks a node's windows of the second and of the minute, which record the request, and
then its quotas. `refused_costs_nothing_iff` says when a request that the node does not get leaves
the windows as they were.
-/

namespace CryptoVaultHub.RpcGateway.RateLimiter

/-- The registered limits of a node, with its quotas. -/
structure QuotaLimits extends RpcNodeLimits where
  maxRequestsPerDay : Option Nat
  maxRequestsPerMonth : Option Nat

/-- What the statements of a request find, each at its own time: the two sets and the counters. -/
structure Windows where
  second : SortedSet String
  minute : SortedSet String
  usedToday : Nat
  usedThisMonth : Nat
deriving DecidableEq

inductive Verdict where
  | rateLimited
  | quotaExhausted
  | selected
deriving DecidableEq

namespace Windows

variable (windows : Windows) (limits : Option QuotaLimits) (now : Nat) (member : String)

/-- `checkAndRecord`, with the windows after it. -/
def checkAndRecord : Bool × Windows :=
  match limits with
  | none => (true, windows)
  | some node =>
    let second := windows.second.checkAndIncrement node.maxRequestsPerSecond 1000 now member
    if second.1 then
      let minute := windows.minute.checkAndIncrement node.maxRequestsPerMinute 60000 now member
      (minute.1, { windows with second := second.2, minute := minute.2 })
    else (false, { windows with second := second.2 })

/-- A counter has reached its limit; zero is taken for no limit. -/
def reached (limit : Option Nat) (used : Nat) : Bool :=
  limit.any fun limit => limit ≠ 0 ∧ limit ≤ used

def isQuotaExhausted : Bool :=
  limits.any fun node => reached node.maxRequestsPerDay windows.usedToday ||
    reached node.maxRequestsPerMonth windows.usedThisMonth

/-- What `executeRpcCall` does with a node whose circuit admits the request. -/
def visit : Verdict × Windows :=
  let checked := windows.checkAndRecord limits now member
  if checked.1 then
    (if checked.2.isQuotaExhausted limits then .quotaExhausted else .selected, checked.2)
  else (.rateLimited, checked.2)

/-- Nothing but expired entries has changed. -/
def Unchanged (after : Windows) : Prop :=
  after.second.evict 1000 now = windows.second.evict 1000 now ∧
    after.minute.evict 60000 now = windows.minute.evict 60000 now

def secondFull (node : QuotaLimits) : Prop :=
  node.maxRequestsPerSecond ≤ (windows.second.evict 1000 now).length

def minuteFull (node : QuotaLimits) : Prop :=
  node.maxRequestsPerMinute ≤ (windows.minute.evict 60000 now).length

/-- The second refuses the request, or nothing does. -/
def Free : Prop :=
  ∀ node ∈ limits, windows.secondFull now node ∨
    ¬ windows.minuteFull now node ∧ windows.isQuotaExhausted limits = false

/-- A member that is in neither set. -/
def New : Prop := ∀ entry ∈ windows.second ++ windows.minute, entry.1 ≠ member

end Windows

variable {limit window now : Nat} {member : String} {set : SortedSet String}

@[simp] theorem evict_evict : (set.evict window now).evict window now = set.evict window now := by
  simp [SortedSet.evict]

/-- A request that is recorded changes the live entries. -/
theorem evict_checkAndIncrement (length : 0 < window) (new : ∀ entry ∈ set, entry.1 ≠ member) :
    (set.checkAndIncrement limit window now member).2.evict window now = set.evict window now ↔
      limit ≤ (set.evict window now).length := by
  obtain ⟨full, refused⟩ | ⟨room, admitted⟩ :=
    set.checkAndIncrement_cases limit window now member
  · simp [refused, full]
  · have live : ∀ entry ∈ set.evict window now, entry.1 ≠ member :=
      fun entry inside => new entry (List.mem_filter.mp inside).1
    rw [admitted, SortedSet.add_of_new now live]
    refine iff_of_false (fun same => ?_) (Nat.not_le.mpr room)
    have lengths := congrArg List.length same
    rw [SortedSet.length_evict, List.countP_cons_of_pos (by simpa using length),
      ← SortedSet.length_evict, evict_evict] at lengths
    omega

theorem checkAndIncrement_fst (member : String) :
    (set.checkAndIncrement limit window now member).1 = true ↔
      ¬ limit ≤ (set.evict window now).length := by
  unfold SortedSet.checkAndIncrement
  by_cases full : limit ≤ (set.evict window now).length <;> simp [full]

/-- A request that a node does not get leaves its windows as they were, if and only if the window
of the second refuses it, or neither the window of the minute nor a quota does. -/
theorem refused_costs_nothing_iff {windows : Windows} {limits : Option QuotaLimits} {now : Nat}
    {member : String} (new : windows.New member) :
    ((windows.visit limits now member).1 ≠ .selected →
        windows.Unchanged now (windows.visit limits now member).2) ↔
      windows.Free limits now := by
  have newSecond := fun entry inside => new entry (List.mem_append_left _ inside)
  have newMinute := fun entry inside => new entry (List.mem_append_right _ inside)
  cases limits with
  | none => simp [Windows.visit, Windows.checkAndRecord, Windows.isQuotaExhausted, Windows.Free]
  | some node =>
    have second := @evict_checkAndIncrement node.maxRequestsPerSecond 1000 now member _
      (by simp) newSecond
    have minute := @evict_checkAndIncrement node.maxRequestsPerMinute 60000 now member _
      (by simp) newMinute
    by_cases secondFull : windows.secondFull now node
    · have refused := mt (checkAndIncrement_fst member).mp (not_not.mpr secondFull)
      simp [Windows.visit, Windows.checkAndRecord, refused, Windows.Unchanged, second.mpr secondFull,
        Windows.Free, secondFull]
    · -- the second is charged from here on
      have admitted := (checkAndIncrement_fst member).mpr secondFull
      have charged := mt second.mp secondFull
      by_cases minuteFull : windows.minuteFull now node
      · have refused := mt (checkAndIncrement_fst member).mp (not_not.mpr minuteFull)
        simp [Windows.visit, Windows.checkAndRecord, admitted, refused, Windows.Unchanged, charged,
          Windows.Free, secondFull, minuteFull]
      · have both := (checkAndIncrement_fst member).mpr minuteFull
        have counters : ∀ second minute, Windows.isQuotaExhausted
            ⟨second, minute, windows.usedToday, windows.usedThisMonth⟩ (some node) =
              windows.isQuotaExhausted (some node) := fun _ _ => rfl
        cases exhausted : windows.isQuotaExhausted (some node) <;>
          simp [Windows.visit, Windows.checkAndRecord, admitted, both, counters, exhausted,
            Windows.Unchanged, charged, Windows.Free, secondFull, minuteFull]

/-- Two requests a second, one a minute. -/
def oneAMinute : Option QuotaLimits := some ⟨⟨2, 1⟩, none, none⟩

/-- The request of the minute was made two seconds ago. -/
def minuteUsed : Windows := ⟨[], [("1000:a", 1000)], 0, 0⟩

theorem refused_costs_nothing_iff_sample :
    ((minuteUsed.visit oneAMinute 61000 "61000:b").1 ≠ .selected →
        minuteUsed.Unchanged 61000 (minuteUsed.visit oneAMinute 61000 "61000:b").2) ↔
      minuteUsed.Free oneAMinute 61000 :=
  refused_costs_nothing_iff (by unfold Windows.New; decide)

/-- The minute refuses a request that the second has recorded. -/
theorem refused_request_charged :
    (minuteUsed.checkAndRecord oneAMinute 3000 "3000:b").1 = false ∧
      ¬ minuteUsed.Unchanged 3000 (minuteUsed.checkAndRecord oneAMinute 3000 "3000:b").2 := by
  unfold Windows.Unchanged
  decide

end CryptoVaultHub.RpcGateway.RateLimiter

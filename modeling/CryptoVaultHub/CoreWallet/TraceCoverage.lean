import CryptoVaultHub.CoreWallet.Compliance

/-!
# What a trace covers

A trace gives up where its time is over and where there are more rows or counterparties than it
takes. Within these limits it goes through the graph of the transfers by breadth, whatever the
letter case of the stored addresses (`traceHops_reports`). A failed query of the rows ends it, and
a failed screening leaves the addresses of its hop clear. `trace_breadth_first` adds what holds
where the tables are in lower case, and `clear_of_not_flagged` what a trace that flags nothing says.
-/

namespace CryptoVaultHub.CoreWallet

open Semantics List

/-- Two ends of one row, in any letter case. -/
def Linked (transfers : List Transfer) (left right : NormalAddress) : Prop :=
  ∃ transfer ∈ transfers,
    left ∈ transfer.ends.map toLowerCase ∧ right ∈ transfer.ends.map toLowerCase

/-- A search without regard to letter case. -/
def normalSearch (search : Search AddressText) : Search NormalAddress :=
  ⟨search.scanned.map toLowerCase, search.current.map toLowerCase⟩

namespace ComplianceEnvironment

variable (environment : ComplianceEnvironment)

local instance : LawfulBEq AddressText := inferInstance

/-- All the addresses that the last round of a search leads to and that it has not seen. -/
def fresh (hop : Nat) (search : Search AddressText) : List AddressText :=
  (((environment.select hop (environment.rowsOf search.current)).flatMap Transfer.ends).filter
    fun address => address ∉ search.current ∧ address ∉ search.scanned).dedup

/-- The search without limits. -/
def explored (address : NormalAddress) : Nat → Search AddressText
  | 0 => ⟨[address.val], [address.val]⟩
  | hops + 1 =>
    let search := explored address hops
    ⟨search.scanned ++ environment.fresh (hops + 1) search,
      environment.fresh (hops + 1) search⟩

/-- A trace of so many hops stays within its time and its limits. -/
structure WithinLimits (address : NormalAddress) (hops : Nat) : Prop where
  inTime : ∀ hop < hops,
    environment.late (hop + 1) = false ∧ environment.lateScreening (hop + 1) = false
  fewRows : ∀ hop < hops, (environment.select (hop + 1)
    (environment.rowsOf (environment.explored address hop).current)).length ≤ maxAddressesPerHop * 2
  fewAddresses : ∀ hop < hops,
    (environment.fresh (hop + 1) (environment.explored address hop)).length ≤ maxAddressesPerHop

/-- Nothing cuts a trace of so many hops short. -/
structure Undisturbed (address : NormalAddress) (hops : Nat) : Prop extends
    environment.WithinLimits address hops where
  events : ∀ hop < hops, environment.ending (.events (hop + 1)) = .done
  counterparties : ∀ hop < hops, environment.ending (.counterparties (hop + 1)) = .done

/-- The tables hold their addresses in lower case. -/
structure LowerCase : Prop where
  transfers : ∀ transfer ∈ environment.transfers, ∀ address ∈ transfer.ends,
    (toLowerCase address).val = address
  sanctions : ∀ entry ∈ environment.sanctions, (toLowerCase entry.address).val = entry.address

variable {environment}

/-! ## Rows -/

theorem mem_rowsOf {current : List AddressText} {transfer : Transfer} :
    transfer ∈ environment.rowsOf current ↔ transfer ∈ environment.transfers ∧
      ∃ address ∈ transfer.ends, toLowerCase address ∈ current.map toLowerCase := by
  simp only [rowsOf, mem_filter, any_eq_true, decide_eq_true_eq]

theorem rowsOf_congr {left right : List AddressText}
    (same : ∀ address, address ∈ left ↔ address ∈ right) :
    environment.rowsOf left = environment.rowsOf right := by
  have lowered : ∀ address : NormalAddress,
      address ∈ left.map toLowerCase ↔ address ∈ right.map toLowerCase := by
    intro address
    simp only [mem_map, same]
  simp only [rowsOf, lowered]

variable {hop : Nat}

theorem fresh_congr {left right : Search AddressText}
    (scanned : ∀ address, address ∈ left.scanned ↔ address ∈ right.scanned)
    (current : ∀ address, address ∈ left.current ↔ address ∈ right.current) :
    environment.fresh hop left = environment.fresh hop right := by
  simp only [fresh, rowsOf_congr current, scanned, current]

/-- Rows that the collation does not tell apart have the same ends. -/
theorem map_ends_of_normal {left right : Transfer} (same : left.normal = right.normal) :
    left.ends.map toLowerCase = right.ends.map toLowerCase := by
  have first : left.fromAddress.map toLowerCase = right.fromAddress.map toLowerCase :=
    congrArg Prod.fst same
  have second : left.toAddress.map toLowerCase = right.toAddress.map toLowerCase :=
    congrArg Prod.snd same
  simp only [Transfer.ends, map_append, ← Option.toList_map, first, second]

variable {search : Search AddressText} {address : AddressText}

theorem mem_fresh :
    address ∈ environment.fresh hop search ↔
      (address ∉ search.current ∧ address ∉ search.scanned) ∧
        ∃ transfer ∈ environment.select hop (environment.rowsOf search.current),
          address ∈ transfer.ends := by
  simp only [fresh, mem_dedup, mem_filter, mem_flatMap, decide_eq_true_eq]
  tauto

/-- What is fresh is linked to the last round. -/
theorem linked_of_fresh (fresh : address ∈ environment.fresh hop search) :
    ∃ middle ∈ (normalSearch search).current,
      Linked environment.transfers middle (toLowerCase address) := by
  obtain ⟨_, transfer, chosen, isEnd⟩ := mem_fresh.mp fresh
  have row := (environment.select_distinct hop _).subset chosen
  obtain ⟨stored, last, other, current⟩ := mem_rowsOf.mp row
  exact ⟨toLowerCase last, current, transfer, stored, mem_map_of_mem other,
    mem_map_of_mem isEnd⟩

/-- What is linked to the last round and was not seen in any letter case is fresh. -/
theorem fresh_of_linked {middle target : NormalAddress}
    (current : ∀ address ∈ search.current, address ∈ search.scanned)
    (last : middle ∈ (normalSearch search).current)
    (linked : Linked environment.transfers middle target)
    (unseen : target ∉ (normalSearch search).scanned) :
    ∃ address ∈ environment.fresh hop search, toLowerCase address = target := by
  obtain ⟨transfer, stored, first, second⟩ := linked
  obtain ⟨start, isEnd, rfl⟩ := mem_map.mp first
  have row : transfer ∈ environment.rowsOf search.current :=
    mem_rowsOf.mpr ⟨stored, start, isEnd, last⟩
  obtain ⟨other, chosen, same⟩ := (environment.select_distinct hop _).covers transfer row
  rw [← map_ends_of_normal same] at second
  obtain ⟨address, otherEnd, rfl⟩ := mem_map.mp second
  have unscanned : address ∉ search.scanned :=
    fun seen => unseen (mem_map_of_mem seen)
  exact ⟨address, mem_fresh.mpr ⟨⟨mt (current address) unscanned, unscanned⟩, other, chosen,
    otherEnd⟩, rfl⟩

/-- Below its limits a hop finds all the fresh addresses. -/
theorem mem_counterpartiesOf {target : AddressText}
    (done : environment.ending (.events hop) = .done)
    (fewRows : (environment.select hop (environment.rowsOf search.current)).length ≤
      maxAddressesPerHop * 2)
    (fewAddresses : (environment.fresh hop search).length ≤ maxAddressesPerHop) :
    target ∈ environment.counterpartiesOf hop search ↔ target ∈ environment.fresh hop search := by
  have whole : environment.eventsOf hop search.current =
      environment.select hop (environment.rowsOf search.current) := take_of_length_le fewRows
  rw [counterpartiesOf, if_pos done, whole]
  constructor
  · intro member
    rcases mem_of_mem_collectUpTo member with earlier | ⟨candidate, isFresh⟩
    · cases earlier
    · rw [fresh, mem_dedup, mem_filter]
      exact ⟨candidate, isFresh⟩
  · intro member
    rw [fresh, mem_dedup, mem_filter] at member
    refine mem_collectUpTo nodup_nil ?_ member.1 member.2
    rw [nil_append]
    refine le_trans (le_of_eq ?_) fewAddresses
    rw [fresh, ← toFinset_card_of_nodup (nodup_dedup _)]
    congr 1
    ext address
    simp only [mem_toFinset, mem_dedup]

theorem nodup_counterpartiesOf (hop : Nat) (search : Search AddressText) :
    (environment.counterpartiesOf hop search).Nodup := by
  rw [counterpartiesOf]
  split
  · exact nodup_collectUpTo nodup_nil
  · exact nodup_nil

theorem unseen_of_counterparty (member : address ∈ environment.counterpartiesOf hop search) :
    address ∉ search.scanned := by
  rw [counterpartiesOf] at member
  split at member
  · rcases mem_of_mem_collectUpTo member with earlier | ⟨_, fresh⟩
    · cases earlier
    · rw [decide_eq_true_eq] at fresh
      exact fresh.2
  · cases member

/-! ## Verdicts -/

@[simp] theorem hopResult_hop (lists : List String) (hop : Nat) (address : AddressText) :
    (environment.hopResult lists hop address).hop = hop := by
  simp only [hopResult]
  split <;> rfl

@[simp] theorem hopResult_address (lists : List String) (hop : Nat) (address : AddressText) :
    (environment.hopResult lists hop address).address = address := by
  simp only [hopResult]
  split <;> rfl

/-- An address is flagged when the screening of its hop succeeds and an entry is spelled alike. -/
theorem hopResult_hit {lists : List String} :
    (environment.hopResult lists hop address).screeningResult = .hit ↔
      environment.ending (.counterparties hop) = .done ∧
        environment.matchesByAddress lists address ≠ [] := by
  have details : (environment.matchesByAddress lists address).map SanctionsEntry.matchDetail ≠ [] ↔
      environment.matchesByAddress lists address ≠ [] := by simp
  rw [← details]
  simp only [hopResult]
  split
  · rename_i both
    exact iff_of_true rfl both
  · rename_i neither
    exact iff_of_false (by simp) neither

/-- Where the tables are in lower case, the entries of an address are spelled like it. -/
theorem matchesByAddress_of_lowerCase (lower : environment.LowerCase) (lists : List String)
    (address : NormalAddress) :
    environment.matchesByAddress lists address.val = environment.matchesOf lists address := by
  rw [matchesByAddress, toLowerCase_val, filter_eq_self]
  intro entry member
  rw [matchesOf, mem_filter, decide_eq_true_eq] at member
  rw [decide_eq_true_eq, ← member.2.1, lower.sanctions entry member.1]

end ComplianceEnvironment

/-! ## The trace -/

/-- What a trace of so many hops has reported. -/
structure Trace.Reports (environment : ComplianceEnvironment) (lists : List String)
    (source : NormalAddress) (hops : Nat) (trace : Trace) : Prop where
  within : ∀ result ∈ trace.allResults, 1 ≤ result.hop ∧ result.hop ≤ hops ∧
    toLowerCase result.address ∈ withinHops (Linked environment.transfers) source result.hop
  verdict : ∀ result ∈ trace.allResults,
    result = environment.hopResult lists result.hop result.address
  stored : ∀ result ∈ trace.allResults, ∃ transfer ∈ environment.transfers,
    result.address ∈ transfer.ends
  complete : ∀ hop, 1 ≤ hop → hop ≤ hops →
    (∀ earlier, 1 ≤ earlier → earlier ≤ hop → environment.ending (.events earlier) = .done) →
    ∀ target, AtDistance (Linked environment.transfers) source hop target →
      ∃ result ∈ trace.allResults, result.hop = hop ∧ toLowerCase result.address = target
  distinct : (source.val :: trace.allResults.map HopResult.address).Nodup
  flagged : trace.flaggedAddresses =
    trace.allResults.filter fun result => result.screeningResult = .hit

/-- The trace has followed the search without limits for some hops. -/
structure Trace.Follows (environment : ComplianceEnvironment) (lists : List String)
    (source : NormalAddress) (hops : Nat) (trace : Trace) : Prop where
  explores : Explores (Linked environment.transfers) source hops (normalSearch trace.search)
  current : ∀ address ∈ trace.search.current, address ∈ trace.search.scanned
  scanned_iff : ∀ address, address ∈ trace.search.scanned ↔
    address ∈ (environment.explored source hops).scanned
  current_iff : ∀ address, address ∈ trace.search.current ↔
    address ∈ (environment.explored source hops).current
  scanned : trace.search.scanned = source.val :: trace.allResults.map HopResult.address
  reports : trace.Reports environment lists source hops

variable {environment : ComplianceEnvironment} {lists : List String} {source : NormalAddress}
  {trace : Trace} {done more : Nat}

theorem Trace.Follows.initial (environment : ComplianceEnvironment) (lists : List String)
    (source : NormalAddress) :
    Trace.Follows environment lists source 0 ⟨⟨[source.val], [source.val]⟩, 0, [], []⟩ where
  explores := by
    simp only [normalSearch, map_cons, map_nil, toLowerCase_val]
    exact .start
  current _ member := member
  scanned_iff _ := .rfl
  current_iff _ := .rfl
  scanned := rfl
  reports :=
    { within := by simp
      verdict := by simp
      stored := by simp
      complete := by
        intro hop first last
        omega
      distinct := nodup_singleton _
      flagged := rfl }

/-- A search that finds nothing new leaves nothing for the hops to come. -/
theorem Trace.Follows.stop (follows : trace.Follows environment lists source done)
    (nothing : environment.ending (.events (done + 1)) = .done →
      ∀ middle ∈ (normalSearch trace.search).current, ∀ target,
        Linked environment.transfers middle target →
          target ∈ (normalSearch trace.search).scanned)
    (hopsCompleted : Nat) : Trace.Reports environment lists source (done + more)
      { trace with hopsCompleted := hopsCompleted } where
  within result member := by
    obtain ⟨first, last, reached⟩ := follows.reports.within result member
    exact ⟨first, by omega, reached⟩
  verdict := follows.reports.verdict
  stored := follows.reports.stored
  distinct := follows.reports.distinct
  flagged := follows.reports.flagged
  complete hop first last succeed target distance := by
    by_cases early : hop ≤ done
    · exact follows.reports.complete hop first early succeed target distance
    · have sum : done + (hop - done) = hop := by omega
      have reached : target ∈ withinHops (Linked environment.transfers) source
          (done + (hop - done)) := by
        rw [sum]
        exact distance.1
      have closed := follows.explores.closed
        (nothing (succeed (done + 1) (by omega) (by omega))) (hop - done) reached
      have within := (follows.explores.scanned_iff target).mp closed
      exact absurd within (distance.2 done (by omega))

/-- A hop that finds something. -/
theorem Trace.Follows.advance (follows : trace.Follows environment lists source done)
    (found_iff : ∀ address, address ∈ environment.counterpartiesOf (done + 1) trace.search ↔
      address ∈ environment.fresh (done + 1) trace.search) :
    Trace.Follows environment lists source (done + 1)
      { search := ⟨trace.search.scanned ++ environment.counterpartiesOf (done + 1) trace.search,
          environment.counterpartiesOf (done + 1) trace.search⟩
        hopsCompleted := done + 1
        flaggedAddresses := trace.flaggedAddresses ++
          (environment.hopResults lists (done + 1)
            (environment.counterpartiesOf (done + 1) trace.search)).filter
              fun result => result.screeningResult = .hit
        allResults := trace.allResults ++ environment.hopResults lists (done + 1)
          (environment.counterpartiesOf (done + 1) trace.search) } := by
  have same : environment.fresh (done + 1) trace.search =
      environment.fresh (done + 1) (environment.explored source done) :=
    environment.fresh_congr follows.scanned_iff follows.current_iff
  have explores : Explores (Linked environment.transfers) source (done + 1)
      (normalSearch ⟨trace.search.scanned ++
        environment.counterpartiesOf (done + 1) trace.search,
        environment.counterpartiesOf (done + 1) trace.search⟩) := by
    simp only [normalSearch, map_append]
    refine follows.explores.advance_covering ?_ ?_
    · intro target member
      obtain ⟨address, found, rfl⟩ := mem_map.mp member
      exact environment.linked_of_fresh ((found_iff address).mp found)
    · intro target unseen middle last linked
      obtain ⟨address, fresh, rfl⟩ :=
        environment.fresh_of_linked follows.current last linked unseen
      exact mem_map_of_mem ((found_iff address).mpr fresh)
  have hopOf : ∀ result ∈ environment.hopResults lists (done + 1)
      (environment.counterpartiesOf (done + 1) trace.search),
      ∃ address ∈ environment.counterpartiesOf (done + 1) trace.search,
        result = environment.hopResult lists (done + 1) address := by
    intro result member
    obtain ⟨address, found, rfl⟩ := mem_map.mp member
    exact ⟨address, found, rfl⟩
  have addresses : (environment.hopResults lists (done + 1)
      (environment.counterpartiesOf (done + 1) trace.search)).map HopResult.address =
        environment.counterpartiesOf (done + 1) trace.search := by
    rw [ComplianceEnvironment.hopResults, map_map]
    conv_rhs => rw [← map_id (environment.counterpartiesOf (done + 1) trace.search)]
    refine map_congr_left fun address _ => ?_
    exact environment.hopResult_address lists (done + 1) address
  have scanned : trace.search.scanned ++ environment.counterpartiesOf (done + 1) trace.search =
      source.val :: (trace.allResults ++ environment.hopResults lists (done + 1)
        (environment.counterpartiesOf (done + 1) trace.search)).map HopResult.address := by
    rw [map_append, addresses, follows.scanned, cons_append]
  constructor
  · exact explores
  · exact fun address member => mem_append_right _ member
  · intro address
    rw [ComplianceEnvironment.explored, mem_append, mem_append,
      follows.scanned_iff address, found_iff address, same]
  · intro address
    rw [ComplianceEnvironment.explored, found_iff address, same]
  · exact scanned
  constructor
  · intro result member
    rcases mem_append.mp member with earlier | last
    · obtain ⟨first, within, reached⟩ := follows.reports.within result earlier
      exact ⟨first, by omega, reached⟩
    · obtain ⟨address, found, rfl⟩ := hopOf result last
      rw [environment.hopResult_hop, environment.hopResult_address]
      refine ⟨by omega, le_rfl, (explores.scanned_iff _).mp ?_⟩
      exact mem_map_of_mem (mem_append_right _ found)
  · intro result member
    rcases mem_append.mp member with earlier | last
    · exact follows.reports.verdict result earlier
    · obtain ⟨address, found, rfl⟩ := hopOf result last
      rw [environment.hopResult_hop, environment.hopResult_address]
  · intro result member
    rcases mem_append.mp member with earlier | last
    · exact follows.reports.stored result earlier
    · obtain ⟨address, found, rfl⟩ := hopOf result last
      rw [environment.hopResult_address]
      obtain ⟨_, transfer, chosen, isEnd⟩ :=
        environment.mem_fresh.mp ((found_iff address).mp found)
      have row := (environment.select_distinct (done + 1) _).subset chosen
      exact ⟨transfer, (environment.mem_rowsOf.mp row).1, isEnd⟩
  · intro hop first last succeed target distance
    by_cases early : hop ≤ done
    · obtain ⟨result, member, reported⟩ :=
        follows.reports.complete hop first early succeed target distance
      exact ⟨result, mem_append_left _ member, reported⟩
    · have now : hop = done + 1 := by omega
      subst now
      have reached := (explores.scanned_iff target).mpr distance.1
      simp only [normalSearch, map_append, mem_append] at reached
      rcases reached with seen | new
      · have within := (follows.explores.scanned_iff target).mp seen
        exact absurd within (distance.2 done (by omega))
      · obtain ⟨address, found, rfl⟩ := mem_map.mp new
        refine ⟨environment.hopResult lists (done + 1) address,
          mem_append_right _ (mem_map_of_mem found), ?_, ?_⟩
        · exact environment.hopResult_hop lists (done + 1) address
        · rw [environment.hopResult_address]
  · rw [← scanned, nodup_append]
    refine ⟨?_, environment.nodup_counterpartiesOf (done + 1) trace.search, ?_⟩
    · rw [follows.scanned]
      exact follows.reports.distinct
    · intro left seen right found equal
      exact environment.unseen_of_counterparty found (equal ▸ seen)
  · rw [filter_append, follows.reports.flagged]

/-- Within its limits a trace reports the graph by breadth. -/
theorem traceHops_reports (limits : environment.WithinLimits source (done + more))
    (follows : trace.Follows environment lists source done) :
    (traceHops environment lists (List.range' (done + 1) more) trace).Reports environment lists
      source (done + more) := by
  induction more generalizing done trace with
  | zero => exact follows.reports
  | succ more ih =>
    have before : done < done + (more + 1) := by omega
    obtain ⟨inTime, screenedInTime⟩ := limits.inTime done before
    have fewRows := limits.fewRows done before
    have fewAddresses := limits.fewAddresses done before
    rw [← environment.rowsOf_congr follows.current_iff] at fewRows
    rw [← environment.fresh_congr follows.scanned_iff follows.current_iff] at fewAddresses
    have found_iff : environment.ending (.events (done + 1)) = .done → ∀ address,
        address ∈ environment.counterpartiesOf (done + 1) trace.search ↔
          address ∈ environment.fresh (done + 1) trace.search :=
      fun succeeds address => environment.mem_counterpartiesOf succeeds fewRows fewAddresses
    -- Where no address is fresh, the search is closed.
    have nothing : (environment.ending (.events (done + 1)) = .done →
        ∀ address, address ∉ environment.fresh (done + 1) trace.search) →
        environment.ending (.events (done + 1)) = .done →
        ∀ middle ∈ (normalSearch trace.search).current, ∀ target,
          Linked environment.transfers middle target →
            target ∈ (normalSearch trace.search).scanned := by
      intro noneFresh succeeds middle last target linked
      by_contra unseen
      obtain ⟨address, fresh, _⟩ :=
        environment.fresh_of_linked follows.current last linked unseen
      exact noneFresh succeeds address fresh
    rw [range'_succ, traceHops, inTime, screenedInTime]
    simp only [Bool.false_eq_true, or_false, if_false]
    split
    · rename_i ended
      refine follows.stop ?_ trace.hopsCompleted
      intro _ middle last
      simp [normalSearch, ended] at last
    · split
      · rename_i noneFound
        refine follows.stop (nothing ?_) (done + 1)
        intro succeeds address fresh
        have counterparty := (found_iff succeeds address).mpr fresh
        rw [noneFound] at counterparty
        cases counterparty
      · rename_i someFound
        have succeeds : environment.ending (.events (done + 1)) = .done := by
          by_contra fails
          exact someFound (if_neg fails)
        have further : done + (more + 1) = done + 1 + more := by omega
        rw [further] at limits ⊢
        exact ih limits (follows.advance (found_iff succeeds))

/-! ## Breadth-first search -/

/-- What a trace of so many hops is of the graph of the transfers, as far as its queries of rows
succeed: the addresses at a distance are reported first at that hop. -/
structure TraceResult.BreadthFirst (environment : ComplianceEnvironment) (source : NormalAddress)
    (hops : Nat) (trace : TraceResult) : Prop where
  reported : ∀ hop, 1 ≤ hop → hop ≤ hops →
    (∀ earlier, 1 ≤ earlier → earlier ≤ hop → environment.ending (.events earlier) = .done) →
    ∀ target, AtDistance (Linked environment.transfers) source hop target →
      (∃ result ∈ trace.allResults, result.hop = hop ∧ toLowerCase result.address = target) ∧
        ∀ result ∈ trace.allResults, toLowerCase result.address = target → hop ≤ result.hop
  within : ∀ result ∈ trace.allResults, 1 ≤ result.hop ∧ result.hop ≤ hops ∧
    toLowerCase result.address ∈ withinHops (Linked environment.transfers) source result.hop
  flagged : trace.flaggedAddresses =
    trace.allResults.filter fun result => result.screeningResult = .hit

/-- What a trace reports is exact: each address once, with its distance, and flagged when it is
listed and the screening of its hop succeeded. -/
structure TraceResult.Exact (environment : ComplianceEnvironment) (lists : List String)
    (source : NormalAddress) (trace : TraceResult) : Prop where
  once : (trace.allResults.map fun result => toLowerCase result.address).Nodup
  distance : ∀ result ∈ trace.allResults,
    (∀ earlier, 1 ≤ earlier → earlier ≤ result.hop →
      environment.ending (.events earlier) = .done) →
    AtDistance (Linked environment.transfers) source result.hop (toLowerCase result.address)
  verdict : ∀ result ∈ trace.allResults, result.screeningResult = .hit ↔
    environment.ending (.counterparties result.hop) = .done ∧
      environment.matchesOf lists (toLowerCase result.address) ≠ []

theorem Trace.Reports.exact {trace : Trace} {hops : Nat}
    (reports : trace.Reports environment lists source hops) (lower : environment.LowerCase) :
    (trace.allResults.map fun result => toLowerCase result.address).Nodup ∧
    (∀ result ∈ trace.allResults,
      (∀ earlier, 1 ≤ earlier → earlier ≤ result.hop →
        environment.ending (.events earlier) = .done) →
      AtDistance (Linked environment.transfers) source result.hop (toLowerCase result.address)) ∧
    ∀ result ∈ trace.allResults, result.screeningResult = .hit ↔
      environment.ending (.counterparties result.hop) = .done ∧
        environment.matchesOf lists (toLowerCase result.address) ≠ [] := by
  have spelled : ∀ result ∈ trace.allResults,
      (toLowerCase result.address).val = result.address := by
    intro result member
    obtain ⟨transfer, stored, isEnd⟩ := reports.stored result member
    exact lower.transfers transfer stored result.address isEnd
  have distinct := (nodup_cons.mp reports.distinct).2
  have other := (nodup_cons.mp reports.distinct).1
  have once : (trace.allResults.map fun result => toLowerCase result.address).Nodup := by
    refine List.Nodup.of_map Subtype.val ?_
    rw [map_map]
    have same : trace.allResults.map (Subtype.val ∘ fun result => toLowerCase result.address) =
        trace.allResults.map HopResult.address :=
      map_congr_left fun result member => spelled result member
    rwa [same]
  refine ⟨once, ?_, ?_⟩
  · intro result member succeed
    obtain ⟨first, last, reached⟩ := reports.within result member
    obtain ⟨distance, le, exactly⟩ := exists_atDistance reached
    have positive : 1 ≤ distance := by
      by_contra zero
      obtain rfl : distance = 0 := by omega
      have isSource : toLowerCase result.address = source := exactly.1
      refine other (mem_map.mpr ⟨result, member, ?_⟩)
      rw [← isSource]
      exact (spelled result member).symm
    obtain ⟨reported, listed, hop, same⟩ := reports.complete distance positive (by omega)
      (fun earlier first last => succeed earlier first (by omega)) _ exactly
    have equal : reported = result := inj_on_of_nodup_map once listed member same
    subst equal
    rw [hop]
    exact exactly
  · intro result member
    have whole := reports.verdict result member
    have verdict : result.screeningResult = .hit ↔
        environment.ending (.counterparties result.hop) = .done ∧
          environment.matchesByAddress lists result.address ≠ [] := by
      conv_lhs => rw [whole]
      exact environment.hopResult_hit
    rw [verdict, ← spelled result member, environment.matchesByAddress_of_lowerCase lower,
      spelled result member]

/-- A trace within its limits is a breadth-first search of at most three hops over the transfers,
in any letter case; where the tables are in lower case it is exact. -/
theorem trace_breadth_first {address : AddressText} {maxHops : Nat}
    (limits : environment.WithinLimits (toLowerCase address) (min (max maxHops 1) 3)) :
    (traceAddressHops environment address maxHops lists).BreadthFirst environment
        (toLowerCase address) (min (max maxHops 1) 3) ∧
      (environment.LowerCase →
        (traceAddressHops environment address maxHops lists).Exact environment lists
          (toLowerCase address)) := by
  have start : environment.WithinLimits (toLowerCase address) (0 + min (max maxHops 1) 3) := by
    rwa [Nat.zero_add]
  have reports := traceHops_reports start (.initial environment lists (toLowerCase address))
  rw [Nat.zero_add] at reports
  constructor
  · constructor
    · intro hop first last succeed target distance
      refine ⟨reports.complete hop first last succeed target distance, ?_⟩
      rintro result member rfl
      by_contra early
      exact distance.2 result.hop (by omega) (reports.within result member).2.2
    · exact reports.within
    · exact reports.flagged
  · intro lower
    obtain ⟨once, distance, verdict⟩ := reports.exact lower
    exact ⟨once, distance, verdict⟩

/-- The address "d" has sent something to the listed address "e"; the transfer is stored as given. -/
def sampleTransfers (stored : Transfer) (screeningFails : Bool) : ComplianceEnvironment where
  ending statement := if screeningFails ∧ statement = .counterparties 1 then .failed else .done
  client := some .full
  clientAgain := some .full
  project := some 7
  sanctions := [⟨"OFAC_SDN", ['e'], none, none, true⟩]
  transfers := [stored]
  select _ rows := distinctRows rows
  select_distinct _ rows := distinctRows_isDistinct rows
  late _ := false
  lateScreening _ := false

theorem sampleTransfers_withinLimits (screeningFails : Bool) :
    (sampleTransfers ⟨some ['d'], some ['e']⟩ screeningFails).WithinLimits (toLowerCase ['d'])
      (min (max 3 1) 3) := by
  refine ⟨fun _ _ => ⟨rfl, rfl⟩, ?_, ?_⟩
  · cases screeningFails <;> decide
  · cases screeningFails <;> decide

theorem trace_breadth_first_sample :
    (traceAddressHops (sampleTransfers ⟨some ['d'], some ['e']⟩ false) ['D'] 3
      ["OFAC_SDN"]).Exact (sampleTransfers ⟨some ['d'], some ['e']⟩ false) ["OFAC_SDN"]
        (toLowerCase ['D']) := by
  refine (trace_breadth_first (sampleTransfers_withinLimits false)).2 ⟨?_, ?_⟩
  · decide
  · decide

/-- The listed address is at distance 1. It is reported as clear when the screening fails, and, when
its transfer is stored with another letter case, also when nothing fails; then the trace reports
its own start, too. -/
theorem trace_misses_listed :
    AtDistance (Linked [⟨some ['d'], some ['e']⟩]) (toLowerCase ['d']) 1 (toLowerCase ['e']) ∧
    (traceAddressHops (sampleTransfers ⟨some ['d'], some ['e']⟩ true) ['d'] 3
      ["OFAC_SDN"]).allResults = [⟨1, ['e'], .clear, none⟩] ∧
    (traceAddressHops (sampleTransfers ⟨some ['D'], some ['E']⟩ false) ['d'] 3
      ["OFAC_SDN"]).allResults = [⟨1, ['D'], .clear, none⟩, ⟨1, ['E'], .clear, none⟩] ∧
    (sampleTransfers ⟨some ['D'], some ['E']⟩ false).matchesOf ["OFAC_SDN"] (toLowerCase ['E']) ≠
      [] := by
  refine ⟨⟨.inr ⟨toLowerCase ['d'], rfl, ⟨_, mem_singleton_self _, by decide, by decide⟩⟩, ?_⟩,
    by decide +kernel, by decide +kernel, by decide +kernel⟩
  intro fewer less reached
  obtain rfl : fewer = 0 := by omega
  have equal : toLowerCase ['e'] = toLowerCase ['d'] := reached
  exact absurd equal (by decide)

/-- A trace that flags nothing, and that nothing cuts short, leaves no listed address within its
hops, where the tables are in lower case. -/
theorem clear_of_not_flagged {address : AddressText} {target : NormalAddress}
    (undisturbed : environment.Undisturbed (toLowerCase address) 3)
    (lower : environment.LowerCase)
    (nothing : (traceAddressHops environment address 3 lists).flaggedAddresses = [])
    (within : target ∈ withinHops (Linked environment.transfers) (toLowerCase address) 3)
    (other : target ≠ toLowerCase address) : environment.matchesOf lists target = [] := by
  have limits : environment.WithinLimits (toLowerCase address) (0 + 3) :=
    undisturbed.toWithinLimits
  have reports := traceHops_reports limits
    (.initial environment lists (toLowerCase address))
  obtain ⟨distance, le, exactly⟩ := exists_atDistance within
  have positive : 1 ≤ distance := by
    by_contra zero
    obtain rfl : distance = 0 := by omega
    exact other exactly.1
  obtain ⟨result, member, hop, rfl⟩ := reports.complete distance positive (by omega)
    (fun earlier first last => by
      have done := undisturbed.events (earlier - 1) (by omega)
      rwa [Nat.sub_add_cancel first] at done) target exactly
  obtain ⟨transfer, inTransfers, isEnd⟩ := reports.stored result member
  have spelled := lower.transfers transfer inTransfers result.address isEnd
  by_contra listed
  have hit : result.screeningResult = .hit := by
    rw [reports.verdict result member, ComplianceEnvironment.hopResult_hit, hop]
    constructor
    · have done := undisturbed.counterparties (distance - 1) (by omega)
      rwa [Nat.sub_add_cancel positive] at done
    · rw [← spelled, ComplianceEnvironment.matchesByAddress_of_lowerCase lower]
      exact listed
  have kept : result ∈ ([] : List HopResult) := by
    rw [← nothing]
    change result ∈ (traceHops environment lists (List.range' (0 + 1) 3) _).flaggedAddresses
    rw [reports.flagged]
    exact mem_filter.mpr ⟨member, decide_eq_true hit⟩
  cases kept

end CryptoVaultHub.CoreWallet

import CryptoVaultHub.Semantics.Hops
import CryptoVaultHub.Semantics.Statement
import CryptoVaultHub.Withdrawal.Records

/-!
# Sanctions screening

`ComplianceService`: the direct screening of an address, the tracing of its counterparties
by hops, and the two screenings that combine them. Each access to a database ends as the
environment says; what is written stays written when a later statement throws. The tables
hold addresses in any letter case, which their queries ignore and the service does not; the
tracing sees one state of them.
-/

namespace CryptoVaultHub.CoreWallet

open Semantics List

/-! ## Addresses -/

abbrev AddressText := List Char

/-- An address in lower case. -/
abbrev NormalAddress := {text : AddressText // text.map Char.toLower = text}

def toLowerCase (address : AddressText) : NormalAddress :=
  ⟨address.map Char.toLower, by simp⟩

@[simp] theorem toLowerCase_val (address : NormalAddress) : toLowerCase address.val = address :=
  Subtype.ext address.property

/-! ## Levels and lists -/

inductive KytLevel where
  | off
  | basic
  | enhanced
  | full
deriving DecidableEq

/-- `KYT_LEVEL_LISTS`. -/
def KytLevel.lists : KytLevel → List String
  | .off => []
  | .basic => ["OFAC_SDN"]
  | .enhanced => ["OFAC_SDN", "OFAC_CONSOLIDATED", "EU", "UN"]
  | .full => ["OFAC_SDN", "OFAC_CONSOLIDATED", "EU", "UN", "UK_OFSI"]

structure SanctionsEntry where
  listSource : String
  address : AddressText
  entityName : Option String
  entityId : Option String
  isActive : Bool
deriving DecidableEq

structure MatchDetail where
  listSource : String
  entityName : Option String
  entityId : Option String
  address : AddressText
deriving DecidableEq

def SanctionsEntry.matchDetail (entry : SanctionsEntry) : MatchDetail :=
  ⟨entry.listSource, entry.entityName, entry.entityId, entry.address⟩

inductive ScreeningResult where
  | clear
  | hit
  | possibleMatch
deriving DecidableEq

inductive ScreeningAction where
  | allowed
  | blocked
  | review
deriving DecidableEq

inductive Direction where
  | inbound
  | outbound
deriving DecidableEq

def Direction.text : Direction → String
  | .inbound => "inbound"
  | .outbound => "outbound"

inductive Trigger where
  | deposit
  | withdrawal
  | manual
deriving DecidableEq

def Trigger.text : Trigger → String
  | .deposit => "deposit"
  | .withdrawal => "withdrawal"
  | .manual => "manual"

structure ScreeningInput where
  address : AddressText
  direction : Direction
  trigger : Trigger
  clientId : Nat
  txHash : Option String

structure ScreeningOutput where
  result : ScreeningResult
  action : ScreeningAction
  listsChecked : List String
  matchDetails : Option (List MatchDetail)
deriving DecidableEq

/-! ## Records -/

structure ScreeningRecord where
  clientId : Nat
  projectId : Nat
  address : AddressText
  direction : Direction
  trigger : Trigger
  txHash : Option String
  listsChecked : List String
  result : ScreeningResult
  matchDetails : Option (List MatchDetail)
  action : ScreeningAction
deriving DecidableEq

structure ComplianceAlert where
  clientId : Nat
  severity : String
  alertType : String
  address : AddressText
  matchedEntity : Option String
  matchedList : Option String
  status : String
deriving DecidableEq

/-- A new row of `withdrawals`. -/
structure CreatedWithdrawal where
  clientId : Nat
  projectId : Nat
  sourceWallet : Withdrawal.SourceWallet
  chainId : Nat
  tokenId : Nat
  fromWallet : AddressText
  toAddressId : Nat
  toAddress : AddressText
  toLabel : String
  amount : String
  amountRaw : Nat
  status : Withdrawal.Status
  kytResult : Option ScreeningResult
  idempotencyKey : String
deriving DecidableEq

/-- What the two services write; every list has its newest entry first. -/
structure Records where
  screenings : List ScreeningRecord
  alerts : List ComplianceAlert
  withdrawals : List CreatedWithdrawal

/-! ## Statements -/

inductive Failure where
  | notFound
  | badRequest
  | unprocessable
  | serviceUnavailable
  | database
deriving DecidableEq

abbrev Service := EStateM Failure Records

/-- Read, which has no effect whether or not the answer arrives. -/
def read {α : Type} (ending : Ending) (answer : α) : Service α :=
  if ending = .done then pure answer else throw .database

def write (ending : Ending) (change : Records → Records) : Service Unit :=
  match ending with
  | .done => modify change
  | .failed => throw .database
  | .lost => do
    modify change
    throw .database

/-! ## Tracing -/

/-- The two ends of a row of `indexed_events`, as the indexer stored them. -/
structure Transfer where
  fromAddress : Option AddressText
  toAddress : Option AddressText
deriving DecidableEq

def Transfer.ends (transfer : Transfer) : List AddressText :=
  transfer.fromAddress.toList ++ transfer.toAddress.toList

/-- The row as the collation compares it. -/
def Transfer.normal (transfer : Transfer) : Option NormalAddress × Option NormalAddress :=
  (transfer.fromAddress.map toLowerCase, transfer.toAddress.map toLowerCase)

/-- What SELECT DISTINCT makes of some rows: one of those that the collation does not tell apart,
in any order. -/
structure IsDistinct (rows chosen : List Transfer) : Prop where
  subset : chosen ⊆ rows
  covers : ∀ row ∈ rows, ∃ other ∈ chosen, other.normal = row.normal
  distinct : (chosen.map Transfer.normal).Nodup

/-- SELECT DISTINCT that keeps the first of equal rows. -/
def distinctRows : List Transfer → List Transfer
  | [] => []
  | row :: rest => row :: (distinctRows rest).filter fun other => other.normal ≠ row.normal

theorem distinctRows_isDistinct (rows : List Transfer) : IsDistinct rows (distinctRows rows) := by
  induction rows with
  | nil => exact ⟨by simp [distinctRows], by simp, by simp [distinctRows]⟩
  | cons row rest ih =>
    constructor
    · intro other member
      rcases mem_cons.mp member with rfl | kept
      · exact mem_cons_self
      · exact mem_cons_of_mem _ (ih.subset (mem_of_mem_filter kept))
    · intro other member
      by_cases same : other.normal = row.normal
      · exact ⟨row, mem_cons_self, same.symm⟩
      · rcases mem_cons.mp member with rfl | later
        · exact absurd rfl same
        · obtain ⟨chosen, kept, equal⟩ := ih.covers other later
          refine ⟨chosen, mem_cons_of_mem _ (mem_filter.mpr ⟨kept, ?_⟩), equal⟩
          rw [decide_eq_true_eq, equal]
          exact same
    · rw [distinctRows, map_cons, nodup_cons]
      constructor
      · intro repeated
        obtain ⟨other, kept, same⟩ := mem_map.mp repeated
        have differs := of_decide_eq_true (mem_filter.mp kept).2
        exact differs same
      · exact (filter_sublist.map Transfer.normal).nodup ih.distinct

inductive ComplianceStatement where
  | client
  | sanctions
  | alert
  | project
  | save
  | clientAgain
  | events (hop : Nat)
  | counterparties (hop : Nat)
  | traceAlert
deriving DecidableEq

/-- What the compliance service reads, how its statements end, which of several equal rows the
database returns and in which order, and when the deadline of a trace has passed. -/
structure ComplianceEnvironment where
  ending : ComplianceStatement → Ending
  client : Option KytLevel
  clientAgain : Option KytLevel
  project : Option Nat
  sanctions : List SanctionsEntry
  transfers : List Transfer
  select : Nat → List Transfer → List Transfer
  select_distinct : ∀ hop rows, IsDistinct rows (select hop rows)
  late : Nat → Bool
  lateScreening : Nat → Bool

structure HopResult where
  hop : Nat
  address : AddressText
  screeningResult : ScreeningResult
  matchDetails : Option (List MatchDetail)
deriving DecidableEq

structure TraceResult where
  sourceAddress : NormalAddress
  totalHops : Nat
  hopsCompleted : Nat
  counterpartiesScanned : Nat
  flaggedAddresses : List HopResult
  allResults : List HopResult
deriving DecidableEq

def maxAddressesPerHop : Nat := 1000

namespace ComplianceEnvironment

/-- The active entries of some lists for an address, in any letter case. -/
def matchesOf (environment : ComplianceEnvironment) (lists : List String)
    (address : NormalAddress) : List SanctionsEntry :=
  environment.sanctions.filter fun entry =>
    toLowerCase entry.address = address ∧ entry.listSource ∈ lists ∧ entry.isActive

/-- The entries that `matchesByAddress` holds under an address: the query finds them in any letter
case, the map in that of the entry. -/
def matchesByAddress (environment : ComplianceEnvironment) (lists : List String)
    (address : AddressText) : List SanctionsEntry :=
  (environment.matchesOf lists (toLowerCase address)).filter fun entry => entry.address = address

/-- The rows with an end among some addresses. -/
def rowsOf (environment : ComplianceEnvironment) (current : List AddressText) : List Transfer :=
  environment.transfers.filter fun transfer =>
    transfer.ends.any fun address => decide (toLowerCase address ∈ current.map toLowerCase)

/-- The rows that the query of a hop returns. -/
def eventsOf (environment : ComplianceEnvironment) (hop : Nat) (current : List AddressText) :
    List Transfer :=
  (environment.select hop (environment.rowsOf current)).take (maxAddressesPerHop * 2)

/-- The addresses that the rows lead to, other than those seen. The size is checked before
either end of a row. -/
def counterpartiesOf (environment : ComplianceEnvironment) (hop : Nat)
    (search : Search AddressText) : List AddressText :=
  if environment.ending (.events hop) = .done then
    collectUpTo maxAddressesPerHop
      (fun address => address ∉ search.current ∧ address ∉ search.scanned) []
      ((environment.eventsOf hop search.current).flatMap Transfer.ends)
  else []

def hopResult (environment : ComplianceEnvironment) (lists : List String) (hop : Nat)
    (counterparty : AddressText) : HopResult :=
  let details := (environment.matchesByAddress lists counterparty).map SanctionsEntry.matchDetail
  if environment.ending (.counterparties hop) = .done ∧ details ≠ [] then
    ⟨hop, counterparty, .hit, some details⟩
  else ⟨hop, counterparty, .clear, none⟩

/-- The results of one hop; they are all clear when the screening fails. -/
def hopResults (environment : ComplianceEnvironment) (lists : List String) (hop : Nat)
    (counterparties : List AddressText) : List HopResult :=
  counterparties.map (environment.hopResult lists hop)

end ComplianceEnvironment

structure Trace where
  search : Search AddressText
  hopsCompleted : Nat
  flaggedAddresses : List HopResult
  allResults : List HopResult

/-- The loop of `traceAddressHops` over the hops that are left. -/
def traceHops (environment : ComplianceEnvironment) (lists : List String) :
    List Nat → Trace → Trace
  | [], trace => trace
  | hop :: rest, trace =>
    if trace.search.current = [] ∨ environment.late hop then trace
    else
      let counterparties := environment.counterpartiesOf hop trace.search
      if counterparties = [] then { trace with hopsCompleted := hop }
      else if environment.lateScreening hop then trace
      else
        let results := environment.hopResults lists hop counterparties
        let flagged := results.filter fun result => result.screeningResult = .hit
        traceHops environment lists rest
          { search := ⟨trace.search.scanned ++ counterparties, counterparties⟩
            hopsCompleted := hop
            flaggedAddresses := trace.flaggedAddresses ++ flagged
            allResults := trace.allResults ++ results }

def traceAddressHops (environment : ComplianceEnvironment) (address : AddressText)
    (maxHops : Nat) (lists : List String) : TraceResult :=
  let hops := min (max maxHops 1) 3
  let normalizedAddress := toLowerCase address
  let trace := traceHops environment lists (List.range' 1 hops)
    ⟨⟨[normalizedAddress.val], [normalizedAddress.val]⟩, 0, [], []⟩
  { sourceAddress := normalizedAddress
    totalHops := hops
    hopsCompleted := trace.hopsCompleted
    counterpartiesScanned := trace.search.scanned.length - 1
    flaggedAddresses := trace.flaggedAddresses
    allResults := trace.allResults }

/-! ## Screening -/

/-- A failed lookup of the project is ignored. -/
def saveScreeningResult (environment : ComplianceEnvironment) (record : Nat → ScreeningRecord) :
    Service Unit :=
  let projectId :=
    if environment.ending .project = .done then environment.project.getD 0 else 0
  write (environment.ending .save) fun records =>
    { records with screenings := record projectId :: records.screenings }

def createAlert (ending : Ending) (alert : ComplianceAlert) : Service Unit :=
  write ending fun records => { records with alerts := alert :: records.alerts }

/-- The alert for an address that some entries match. -/
def alertMatches (environment : ComplianceEnvironment) (input : ScreeningInput)
    (details : List MatchDetail) : Service Unit :=
  if details = [] then pure ()
  else
    createAlert (environment.ending .alert)
      { clientId := input.clientId
        severity := "critical"
        alertType := "sanctions_" ++ input.trigger.text ++ "_" ++ input.direction.text
        address := input.address
        matchedEntity := details.head?.bind MatchDetail.entityName
        matchedList := details.head?.map MatchDetail.listSource
        status := "open" }

def screenAddress (environment : ComplianceEnvironment) (input : ScreeningInput) :
    Service ScreeningOutput := do
  match ← read (environment.ending .client) environment.client with
  | none => throw .notFound
  | some kytLevel =>
    let listsToCheck := kytLevel.lists
    if listsToCheck = [] then
      saveScreeningResult environment fun projectId =>
        ⟨input.clientId, projectId, input.address, input.direction, input.trigger,
          input.txHash, [], .clear, none, .allowed⟩
      return ⟨.clear, .allowed, [], none⟩
    else
      let normalizedAddress := toLowerCase input.address
      let found ← read (environment.ending .sanctions)
        (environment.matchesOf listsToCheck normalizedAddress)
      let details := found.map SanctionsEntry.matchDetail
      let output : ScreeningOutput :=
        if details = [] then ⟨.clear, .allowed, listsToCheck, none⟩
        else ⟨.hit, .blocked, listsToCheck, some details⟩
      alertMatches environment input details
      saveScreeningResult environment fun projectId =>
        ⟨input.clientId, projectId, normalizedAddress.val, input.direction, input.trigger,
          input.txHash, listsToCheck, output.result, output.matchDetails, output.action⟩
      return output

/-- The screening that `screenDeposit` and `screenWithdrawal` share: at the level `full` an
address that is clear is traced, and whatever the tracing throws is ignored. -/
def screenTraced (environment : ComplianceEnvironment) (input : ScreeningInput)
    (alertType : String) : Service ScreeningOutput := do
  let baseResult ← screenAddress environment input
  let client ← read (environment.ending .clientAgain) environment.clientAgain
  if client = some .full ∧ baseResult.result = .clear then
    tryCatch
      (do
        let traceResult := traceAddressHops environment input.address 3 KytLevel.full.lists
        if traceResult.flaggedAddresses ≠ [] then
          let first := traceResult.flaggedAddresses.head?.bind fun flagged =>
            flagged.matchDetails.bind List.head?
          createAlert (environment.ending .traceAlert)
            { clientId := input.clientId
              severity := "medium"
              alertType := alertType
              address := input.address
              matchedEntity := first.bind MatchDetail.entityName
              matchedList := first.map MatchDetail.listSource
              status := "open" }
          return { baseResult with
            result := .possibleMatch
            action := .review }
        else return baseResult)
      (fun _ => return baseResult)
  else return baseResult

def screenDeposit (environment : ComplianceEnvironment) (clientId : Nat)
    (fromAddress : AddressText) (txHash : String) : Service ScreeningOutput :=
  screenTraced environment ⟨fromAddress, .inbound, .deposit, clientId, some txHash⟩
    "nhop_trace_deposit"

def screenWithdrawal (environment : ComplianceEnvironment) (clientId : Nat)
    (toAddress : AddressText) (txHash : Option String) : Service ScreeningOutput :=
  screenTraced environment ⟨toAddress, .outbound, .withdrawal, clientId, txHash⟩
    "nhop_trace_withdrawal"

end CryptoVaultHub.CoreWallet

import CryptoVaultHub.CoreWallet.Compliance

/-!
# Synchronising the sanctions lists

`syncOfacList`, `syncOfacConsolidatedList` and `syncEuSanctionsList`: a list is downloaded, its
crypto addresses are read, and the entries of its source are upserted and deactivated. The XML
parser gives a text, or a value that it made from one, such as a number; the OFAC reader throws at
those and keeps what it has read. `sync_all_or_nothing_iff` says when a sync leaves the listed
addresses active, or, where a step failed, those that were.
-/

namespace CryptoVaultHub.CoreWallet

open List

/-! ## Documents -/

/-- A value of the parsed XML: a text, or what the parser made of a written one. -/
inductive XmlValue where
  | text (content : AddressText)
  | converted (written shown : AddressText) (truthy : Bool)
deriving DecidableEq

namespace XmlValue

def written : XmlValue → AddressText
  | .text content => content
  | .converted written _ _ => written

/-- `toString`. -/
def shown : XmlValue → AddressText
  | .text content => content
  | .converted _ shown _ => shown

def truthy : XmlValue → Bool
  | .text content => !content.isEmpty
  | .converted _ _ truthy => truthy

end XmlValue

/-- The white space that `trim` removes. -/
def isWhiteSpace (char : Char) : Bool :=
  let code := char.toNat
  (9 ≤ code && code ≤ 13) || code = 0x20 || code = 0xa0 || code = 0x1680 ||
    (0x2000 ≤ code && code ≤ 0x200a) || code = 0x2028 || code = 0x2029 || code = 0x202f ||
    code = 0x205f || code = 0x3000 || code = 0xfeff

def trim (text : AddressText) : AddressText :=
  ((text.dropWhile isWhiteSpace).reverse.dropWhile isWhiteSpace).reverse

/-- `typeof idType === 'string'` and it includes one of some phrases, in any letter case. -/
def includesAny (phrases : List String) : Option XmlValue → Bool
  | some (.text content) =>
    phrases.any fun phrase => decide (phrase.toList <:+: (toLowerCase content).val)
  | some (.converted _ _ _) => false
  | none => false

structure ParsedSanctionEntry where
  sdnId : String
  entityName : String
  cryptoAddress : AddressText
  currency : String
deriving DecidableEq

/-- An identification that is taken for that of a wallet, and the entry it makes of an address. -/
structure Candidate where
  address : XmlValue
  entry : AddressText → ParsedSanctionEntry
  entry_cryptoAddress : ∀ text, (entry text).cryptoAddress = text

/-- The text of a value, or another if it is not one. -/
def textOr (fallback : String) : Option XmlValue → String
  | some (.text content) => String.ofList content
  | _ => fallback

/-- The text that a value is shown as. -/
def shownOr (fallback : String) (value : Option XmlValue) : String :=
  (value.map fun value => String.ofList value.shown).getD fallback

/-! ### OFAC -/

structure OfacId where
  idType : Option XmlValue
  idTypeDescription : Option XmlValue
  idNumber : Option XmlValue
  idValue : Option XmlValue
  idCountry : Option XmlValue
  currency : Option XmlValue

structure SdnEntry where
  uid : Option XmlValue
  uidAttribute : Option XmlValue
  firstName : Option XmlValue
  lastName : Option XmlValue
  sdnName : Option XmlValue
  ids : List (Option OfacId)

/-- The first and the last name, or else the name of the entry. -/
def SdnEntry.entityName (sdn : SdnEntry) : String :=
  let names := ([sdn.firstName, sdn.lastName].filterMap id).filter XmlValue.truthy
  let joined := " ".intercalate (names.map fun name => String.ofList name.shown)
  if joined.isEmpty then shownOr "" (sdn.sdnName.filter XmlValue.truthy) else joined

def OfacId.candidate? (sdn : SdnEntry) (id : OfacId) : Option Candidate :=
  if includesAny ["digital currency"] (id.idType.or id.idTypeDescription) then
    ((id.idNumber.or id.idValue).filter XmlValue.truthy).map fun address =>
      { address := address
        entry := fun cryptoAddress =>
          { sdnId := shownOr "" (sdn.uid.or sdn.uidAttribute)
            entityName := sdn.entityName
            cryptoAddress := cryptoAddress
            currency :=
              match id.idCountry.or id.currency with
              | some value => textOr "Unknown" (some value)
              | none => "Unknown" }
        entry_cryptoAddress := fun _ => rfl }
  else none

/-- `address.trim()`, which only a text has. -/
def ofacAddress : XmlValue → Option AddressText
  | .text content => some (trim content)
  | .converted _ _ _ => none

/-! ### European Union -/

structure Identification where
  schemeAttribute : Option XmlValue
  scheme : Option XmlValue
  regulationType : Option XmlValue
  numberAttribute : Option XmlValue
  number : Option XmlValue
  latinNumber : Option XmlValue
  currency : Option XmlValue

structure SanctionEntity where
  referenceNumber : Option XmlValue
  logicalId : Option XmlValue
  wholeNameAttribute : Option XmlValue
  wholeName : Option XmlValue
  identifications : List (Option Identification)

def Identification.candidate? (entity : SanctionEntity) (id : Identification) :
    Option Candidate :=
  if includesAny ["digital currency", "crypto", "virtual asset"]
      ((id.schemeAttribute.or id.scheme).or id.regulationType) then
    (((id.numberAttribute.or id.number).or id.latinNumber).filter XmlValue.truthy).map
      fun address =>
        { address := address
          entry := fun cryptoAddress =>
            { sdnId := shownOr "" (entity.referenceNumber.or entity.logicalId)
              entityName := textOr "" (entity.wholeNameAttribute.or entity.wholeName)
              cryptoAddress := cryptoAddress
              currency := shownOr "Unknown" id.currency }
          entry_cryptoAddress := fun _ => rfl }
  else none

/-- `address.toString().trim()`. -/
def euAddress (value : XmlValue) : Option AddressText := some (trim value.shown)

/-! ### Reading -/

/-- What a parser returns, and whether it got through the document. -/
structure Reading where
  entries : List ParsedSanctionEntry
  complete : Bool

/-- The loop of a parser, which keeps what it has when an address makes it throw. -/
def readCandidates (address : XmlValue → Option AddressText) : List Candidate → Reading
  | [] => ⟨[], true⟩
  | candidate :: rest =>
    match address candidate.address with
    | some text =>
      let later := readCandidates address rest
      ⟨candidate.entry text :: later.entries, later.complete⟩
    | none => ⟨[], false⟩

/-- A parser that got through has an entry for every candidate. -/
theorem length_readCandidates {address : XmlValue → Option AddressText}
    {candidates : List Candidate} (complete : (readCandidates address candidates).complete = true) :
    (readCandidates address candidates).entries.length = candidates.length := by
  induction candidates with
  | nil => rfl
  | cons candidate rest ih =>
    rw [readCandidates] at complete ⊢
    split at complete
    · simp only [length_cons, ih complete]
    · cases complete

/-- A downloaded list: not well formed, with the addresses that are written in it, or its
entries. -/
inductive Document (Entry : Type) where
  | malformed (addresses : List AddressText)
  | parsed (entries : List (Option Entry))

namespace Document

variable {Entry : Type} (candidates : Entry → List Candidate)

def read (address : XmlValue → Option AddressText) : Document Entry → Reading
  | .malformed _ => ⟨[], false⟩
  | .parsed entries => readCandidates address ((entries.filterMap id).flatMap candidates)

/-- The addresses as they are written in the document. -/
def written : Document Entry → List AddressText
  | .malformed addresses => addresses
  | .parsed entries =>
    ((entries.filterMap id).flatMap candidates).map fun candidate =>
      trim candidate.address.written

end Document

def SdnEntry.candidates (sdn : SdnEntry) : List Candidate :=
  (sdn.ids.filterMap id).filterMap (OfacId.candidate? sdn)

def SanctionEntity.candidates (entity : SanctionEntity) : List Candidate :=
  (entity.identifications.filterMap id).filterMap (Identification.candidate? entity)

def parseOfacXml (document : Document SdnEntry) : Reading :=
  document.read SdnEntry.candidates ofacAddress

def parseEuSanctionsXml (document : Document SanctionEntity) : Reading :=
  document.read SanctionEntity.candidates euAddress

/-! ## The table -/

/-- A row of `sanctions_entries`, with the column that only the synchronisation writes. -/
structure ListedEntry extends SanctionsEntry where
  addressType : String
deriving DecidableEq

/-- The row of a source for an address, in any letter case. -/
@[reducible] def ListedEntry.Lists (row : ListedEntry) (source : String) (address : NormalAddress) : Prop :=
  row.listSource = source ∧ toLowerCase row.address = address

/-- The upsert of one entry. -/
def upsertEntry (source : String) (table : List ListedEntry) (entry : ParsedSanctionEntry) :
    List ListedEntry :=
  let address := toLowerCase entry.cryptoAddress
  if table.any fun row => row.Lists source address then
    table.map fun row =>
      if row.Lists source address then
        { row with
          isActive := true
          entityName := some entry.entityName
          entityId := some entry.sdnId
          addressType := entry.currency }
      else row
  else
    table ++ [{ listSource := source
                address := address.val
                addressType := entry.currency
                entityName := some entry.entityName
                entityId := some entry.sdnId
                isActive := true }]

/-- The transaction of all upserts. -/
def upsertEntries (source : String) (table : List ListedEntry)
    (entries : List ParsedSanctionEntry) : List ListedEntry :=
  entries.foldl (upsertEntry source) table

/-- An active row of a source whose address is not among some. -/
def ListedEntry.Stale (row : ListedEntry) (source : String) (newAddresses : List NormalAddress) :
    Prop :=
  row.listSource = source ∧ toLowerCase row.address ∉ newAddresses ∧ row.isActive = true

instance (row : ListedEntry) (source : String) (newAddresses : List NormalAddress) :
    Decidable (row.Stale source newAddresses) :=
  inferInstanceAs (Decidable (_ ∧ _))

def deactivateEntries (source : String) (table : List ListedEntry)
    (newAddresses : List NormalAddress) : List ListedEntry :=
  table.map fun row =>
    if row.Stale source newAddresses then { row with isActive := false } else row

/-! ## The synchronisation -/

/-- How the steps of a synchronisation end. -/
structure SyncAnswers where
  downloaded : Bool
  upserted : Ending
  deactivated : Ending
  published : Ending
deriving DecidableEq

structure SanctionsSyncResult where
  totalParsed : Nat
  upserted : Nat
  deactivated : Nat
  errors : Nat
deriving DecidableEq

/-- The table after a synchronisation, its counts, and whether an error was thrown. -/
structure SyncOutcome where
  table : List ListedEntry
  result : SanctionsSyncResult
  thrown : Bool
deriving DecidableEq

/-- A failure of the upserts is counted and no more. -/
def upsertAndDeactivate (source : String) (table : List ListedEntry)
    (entries : List ParsedSanctionEntry) (result : SanctionsSyncResult) (answers : SyncAnswers) :
    SyncOutcome :=
  let newAddresses := entries.map fun entry => toLowerCase entry.cryptoAddress
  let upserted := if answers.upserted = .failed then table else upsertEntries source table entries
  let counted :=
    if answers.upserted = .done then { result with upserted := entries.length }
    else { result with errors := entries.length }
  if newAddresses = [] then ⟨upserted, counted, answers.published ≠ .done⟩
  else
    let stale := upserted.countP fun row => row.Stale source newAddresses
    let after :=
      if answers.deactivated = .failed then upserted
      else deactivateEntries source upserted newAddresses
    if answers.deactivated = .done then
      ⟨after, { counted with deactivated := stale }, answers.published ≠ .done⟩
    else ⟨after, counted, true⟩

/-- The three lists, each with the document that its server holds. -/
inductive SanctionsList where
  | ofacSdn (document : Document SdnEntry)
  | ofacConsolidated (document : Document SdnEntry)
  | eu (document : Document SanctionEntity)

namespace SanctionsList

def source : SanctionsList → String
  | .ofacSdn _ => "OFAC_SDN"
  | .ofacConsolidated _ => "OFAC_CONSOLIDATED"
  | .eu _ => "EU"

def reading : SanctionsList → Reading
  | .ofacSdn document => parseOfacXml document
  | .ofacConsolidated document => parseOfacXml document
  | .eu document => parseEuSanctionsXml document

/-- The addresses of the list, as they are written in it. -/
def written : SanctionsList → List AddressText
  | .ofacSdn document => document.written SdnEntry.candidates
  | .ofacConsolidated document => document.written SdnEntry.candidates
  | .eu document => document.written SanctionEntity.candidates

/-- The addresses of the list in lower case. -/
def listed (list : SanctionsList) : List NormalAddress := list.written.map toLowerCase

/-- The addresses that are read from it, in lower case. -/
def read (list : SanctionsList) : List NormalAddress :=
  list.reading.entries.map fun entry => toLowerCase entry.cryptoAddress

end SanctionsList

/-- `syncOfacList` and `syncOfacConsolidatedList`, whose errors are thrown. -/
def syncOfac (source : String) (table : List ListedEntry) (reading : Reading)
    (answers : SyncAnswers) : SyncOutcome :=
  if answers.downloaded then
    upsertAndDeactivate source table reading.entries ⟨reading.entries.length, 0, 0, 0⟩ answers
  else ⟨table, ⟨0, 0, 0, 0⟩, true⟩

/-- An error is counted in place of the others and not thrown further. -/
def SyncOutcome.caught (outcome : SyncOutcome) : SyncOutcome :=
  if outcome.thrown then
    { outcome with result := { outcome.result with errors := 1 }, thrown := false }
  else outcome

@[simp] theorem SyncOutcome.caught_table (outcome : SyncOutcome) :
    outcome.caught.table = outcome.table := by
  unfold SyncOutcome.caught
  split <;> rfl

/-- `syncEuSanctionsList`, which catches its errors. -/
def syncEuSanctionsList (table : List ListedEntry) (reading : Reading) (answers : SyncAnswers) :
    SyncOutcome :=
  if answers.downloaded then
    let result := ⟨reading.entries.length, 0, 0, 0⟩
    if reading.entries = [] then SyncOutcome.caught ⟨table, result, answers.published ≠ .done⟩
    else (upsertAndDeactivate "EU" table reading.entries result answers).caught
  else SyncOutcome.caught ⟨table, ⟨0, 0, 0, 0⟩, true⟩

def SanctionsList.sync (list : SanctionsList) (table : List ListedEntry) (answers : SyncAnswers) :
    SyncOutcome :=
  match list with
  | .ofacSdn document => syncOfac "OFAC_SDN" table (parseOfacXml document) answers
  | .ofacConsolidated document =>
    syncOfac "OFAC_CONSOLIDATED" table (parseOfacXml document) answers
  | .eu document => syncEuSanctionsList table (parseEuSanctionsXml document) answers

/-! ## Active addresses -/

/-- The addresses of the active entries of a source, in lower case. -/
def activeAddresses (source : String) (table : List ListedEntry) : List NormalAddress :=
  (table.filter fun row => row.listSource = source ∧ row.isActive = true).map
    fun row => toLowerCase row.address

variable {source : String} {table : List ListedEntry} {address : NormalAddress}

theorem mem_activeAddresses :
    address ∈ activeAddresses source table ↔
      ∃ row ∈ table, row.Lists source address ∧ row.isActive = true := by
  simp only [activeAddresses, mem_map, mem_filter, decide_eq_true_eq, ListedEntry.Lists]
  constructor
  · rintro ⟨row, ⟨member, listed, active⟩, same⟩
    exact ⟨row, member, ⟨listed, same⟩, active⟩
  · rintro ⟨row, member, ⟨listed, same⟩, active⟩
    exact ⟨row, ⟨member, listed, active⟩, same⟩

/-- An upsert makes its address active and leaves the others as they are. -/
theorem mem_activeAddresses_upsertEntry (entry : ParsedSanctionEntry) :
    address ∈ activeAddresses source (upsertEntry source table entry) ↔
      address ∈ activeAddresses source table ∨ address = toLowerCase entry.cryptoAddress := by
  simp only [mem_activeAddresses, upsertEntry]
  split
  · rename_i present
    simp only [any_eq_true, decide_eq_true_eq] at present
    obtain ⟨found, isFound, lists⟩ := present
    constructor
    · rintro ⟨row, member, isListed, active⟩
      obtain ⟨before, isBefore, rfl⟩ := mem_map.mp member
      split at isListed
      · rename_i same
        exact .inr (isListed.2.symm.trans same.2)
      · rename_i other
        rw [if_neg other] at active
        exact .inl ⟨before, isBefore, isListed, active⟩
    · rintro (⟨row, member, isListed, active⟩ | rfl)
      · refine ⟨_, mem_map_of_mem member, ?_, ?_⟩
        · split <;> exact isListed
        · split
          · rfl
          · exact active
      · refine ⟨_, mem_map_of_mem isFound, ?_, ?_⟩
        · rw [if_pos lists]
          exact lists
        · rw [if_pos lists]
  · simp only [mem_append, mem_singleton]
    constructor
    · rintro ⟨row, member | rfl, isListed, active⟩
      · exact .inl ⟨row, member, isListed, active⟩
      · exact .inr (isListed.2.symm.trans (toLowerCase_val _))
    · rintro (⟨row, member, isListed, active⟩ | rfl)
      · exact ⟨row, .inl member, isListed, active⟩
      · exact ⟨_, .inr rfl, ⟨rfl, toLowerCase_val _⟩, rfl⟩

/-- The transaction makes the addresses of its entries active. -/
theorem mem_activeAddresses_upsertEntries (entries : List ParsedSanctionEntry) :
    address ∈ activeAddresses source (upsertEntries source table entries) ↔
      address ∈ activeAddresses source table ∨
        address ∈ entries.map fun entry => toLowerCase entry.cryptoAddress := by
  induction entries generalizing table with
  | nil => simp [upsertEntries]
  | cons entry rest ih =>
    have step : upsertEntries source table (entry :: rest) =
        upsertEntries source (upsertEntry source table entry) rest := rfl
    rw [step, ih, mem_activeAddresses_upsertEntry, map_cons,
      mem_cons, or_assoc]

/-- The deactivation leaves the active addresses that are in the new list. -/
theorem mem_activeAddresses_deactivateEntries (newAddresses : List NormalAddress) :
    address ∈ activeAddresses source (deactivateEntries source table newAddresses) ↔
      address ∈ activeAddresses source table ∧ address ∈ newAddresses := by
  simp only [mem_activeAddresses, deactivateEntries]
  constructor
  · rintro ⟨row, member, isListed, active⟩
    obtain ⟨before, isBefore, rfl⟩ := mem_map.mp member
    split at isListed
    · rename_i stale
      rw [if_pos stale] at active
      cases active
    · rename_i fresh
      rw [if_neg fresh] at active
      refine ⟨⟨before, isBefore, isListed, active⟩, ?_⟩
      by_contra absent
      exact fresh ⟨isListed.1, isListed.2 ▸ absent, active⟩
  · rintro ⟨⟨row, member, isListed, active⟩, isNew⟩
    have fresh : ¬ row.Stale source newAddresses := by
      intro stale
      exact stale.2.1 (isListed.2 ▸ isNew)
    refine ⟨_, mem_map_of_mem member, ?_, ?_⟩
    · rwa [if_neg fresh]
    · rwa [if_neg fresh]

/-- The active addresses after both steps, each of which may have had no effect. -/
theorem mem_activeAddresses_upsertAndDeactivate {entries : List ParsedSanctionEntry}
    {result : SanctionsSyncResult} {answers : SyncAnswers} {read : List NormalAddress}
    (reads : read = entries.map fun entry => toLowerCase entry.cryptoAddress) :
    address ∈ activeAddresses source
        (upsertAndDeactivate source table entries result answers).table ↔
      (address ∈ activeAddresses source table ∨
          answers.upserted ≠ .failed ∧ address ∈ read) ∧
        (read ≠ [] ∧ answers.deactivated ≠ .failed → address ∈ read) := by
  have upserts : address ∈ activeAddresses source (if answers.upserted = .failed then table
      else upsertEntries source table entries) ↔ address ∈ activeAddresses source table ∨
        answers.upserted ≠ .failed ∧ address ∈ read := by
    split
    · rename_i failed
      simp [failed]
    · rename_i effective
      rw [mem_activeAddresses_upsertEntries, ← reads]
      simp [effective]
  rw [← upserts]
  dsimp only [upsertAndDeactivate]
  rw [← reads]
  by_cases empty : read = []
  · simp [empty]
  · simp only [if_neg empty]
    cases answers.deactivated with
    | failed => simp
    | done =>
      simp only [reduceCtorEq, if_false, if_true, ne_eq, empty, not_false_eq_true, and_self,
        forall_const]
      exact mem_activeAddresses_deactivateEntries read
    | lost =>
      simp only [reduceCtorEq, if_false, ne_eq, empty, not_false_eq_true, and_self, forall_const]
      exact mem_activeAddresses_deactivateEntries read

/-- The same for an OFAC list, which may not have been downloaded. -/
theorem mem_activeAddresses_syncOfac {reading : Reading} {answers : SyncAnswers}
    {read : List NormalAddress}
    (reads : read = reading.entries.map fun entry => toLowerCase entry.cryptoAddress) :
    address ∈ activeAddresses source (syncOfac source table reading answers).table ↔
      (address ∈ activeAddresses source table ∨
          (answers.downloaded = true ∧ answers.upserted ≠ .failed) ∧ address ∈ read) ∧
        (answers.downloaded = true ∧ read ≠ [] ∧ answers.deactivated ≠ .failed →
          address ∈ read) := by
  unfold syncOfac
  split
  · rename_i downloaded
    rw [mem_activeAddresses_upsertAndDeactivate reads]
    simp [downloaded]
  · rename_i offline
    simp [offline]

/-- The same for the list of the European Union, whose synchronisation skips an empty list. -/
theorem mem_activeAddresses_syncEuSanctionsList {reading : Reading} {answers : SyncAnswers}
    {read : List NormalAddress}
    (reads : read = reading.entries.map fun entry => toLowerCase entry.cryptoAddress) :
    address ∈ activeAddresses "EU" (syncEuSanctionsList table reading answers).table ↔
      (address ∈ activeAddresses "EU" table ∨
          (answers.downloaded = true ∧ answers.upserted ≠ .failed) ∧ address ∈ read) ∧
        (answers.downloaded = true ∧ read ≠ [] ∧ answers.deactivated ≠ .failed →
          address ∈ read) := by
  unfold syncEuSanctionsList
  split
  · rename_i downloaded
    dsimp only
    split
    · rename_i empty
      rw [SyncOutcome.caught_table, reads, empty]
      simp
    · rw [SyncOutcome.caught_table, mem_activeAddresses_upsertAndDeactivate reads]
      simp [downloaded]
  · rename_i offline
    simp [offline]

/-! ## All or nothing -/

namespace SanctionsList

variable (list : SanctionsList)

/-- The upserts are made: always for an OFAC list, for the other one if it has addresses. -/
def Upserts : SanctionsList → Prop
  | .ofacSdn _ => True
  | .ofacConsolidated _ => True
  | .eu document => (parseEuSanctionsXml document).entries ≠ []

/-- No step of the synchronisation fails. -/
structure Succeeds (answers : SyncAnswers) : Prop where
  downloaded : answers.downloaded = true
  complete : list.reading.complete = true
  upserted : list.Upserts → answers.upserted = .done
  deactivated : list.read ≠ [] → answers.deactivated = .done
  published : answers.published = .done

/-- The upserts take effect. -/
def UpsertsTake (answers : SyncAnswers) : Prop :=
  answers.downloaded = true ∧ answers.upserted ≠ .failed

/-- The deactivation is made and takes effect. -/
def DeactivationTakes (answers : SyncAnswers) : Prop :=
  answers.downloaded = true ∧ list.read ≠ [] ∧ answers.deactivated ≠ .failed

/-- The active addresses of the source after a synchronisation. -/
def activeAfter (table : List ListedEntry) (answers : SyncAnswers) : List NormalAddress :=
  activeAddresses list.source (list.sync table answers).table

/-- The listed addresses are active, if every step succeeded, and else those that were. -/
def AllOrNothing (table : List ListedEntry) (answers : SyncAnswers) : Prop :=
  (list.Succeeds answers → ∀ address,
    address ∈ list.activeAfter table answers ↔ address ∈ list.listed) ∧
  (¬ list.Succeeds answers → ∀ address,
    address ∈ list.activeAfter table answers ↔ address ∈ activeAddresses list.source table)

/-- A failure deactivates no address and leaves no listed one inactive. -/
def LosesNone (table : List ListedEntry) (answers : SyncAnswers) : Prop :=
  ¬ list.Succeeds answers →
    activeAddresses list.source table ⊆ list.activeAfter table answers ∧
      list.listed ⊆ list.activeAfter table answers

variable {list} {answers : SyncAnswers}

theorem mem_activeAfter :
    address ∈ list.activeAfter table answers ↔
      (address ∈ activeAddresses list.source table ∨
          UpsertsTake answers ∧ address ∈ list.read) ∧
        (list.DeactivationTakes answers → address ∈ list.read) := by
  cases list with
  | ofacSdn document => exact mem_activeAddresses_syncOfac rfl
  | ofacConsolidated document => exact mem_activeAddresses_syncOfac rfl
  | eu document => exact mem_activeAddresses_syncEuSanctionsList rfl

/-- A list that was read through and gave no address has none. -/
theorem listed_eq_nil (complete : list.reading.complete = true) (empty : list.read = []) :
    list.listed = [] := by
  have none : list.reading.entries = [] := map_eq_nil_iff.mp empty
  have ofDocument : ∀ {Entry : Type} {candidates : Entry → List Candidate}
      {address : XmlValue → Option AddressText} {document : Document Entry},
      (document.read candidates address).complete = true →
        (document.read candidates address).entries = [] → document.written candidates = [] := by
    intro Entry candidates address document through noEntry
    cases document with
    | malformed addresses => cases through
    | parsed entries =>
      have lengths := length_readCandidates through
      rw [show (readCandidates _ _).entries = [] from noEntry] at lengths
      exact map_eq_nil_iff.mpr (length_eq_zero_iff.mp lengths.symm)
  cases list with
  | ofacSdn document => exact map_eq_nil_iff.mpr (ofDocument complete none)
  | ofacConsolidated document => exact map_eq_nil_iff.mpr (ofDocument complete none)
  | eu document => exact map_eq_nil_iff.mpr (ofDocument complete none)

/-- When a synchronisation is all or nothing. Where every step succeeds, an empty list needs a
source without active entries, and another one is read as it is written. Where a step fails, what
takes effect changes nothing. -/
structure Settles (list : SanctionsList) (table : List ListedEntry) (answers : SyncAnswers) :
    Prop where
  empty : list.Succeeds answers → list.read = [] → activeAddresses list.source table = []
  asWritten : list.Succeeds answers → list.read ≠ [] →
    ∀ address, address ∈ list.read ↔ address ∈ list.listed
  upserts : ¬ list.Succeeds answers → UpsertsTake answers →
    list.read ⊆ activeAddresses list.source table
  deactivation : ¬ list.Succeeds answers → list.DeactivationTakes answers →
    activeAddresses list.source table ⊆ list.read

theorem Succeeds.mem_activeAfter (succeeds : list.Succeeds answers) (nonempty : list.read ≠ []) :
    address ∈ list.activeAfter table answers ↔ address ∈ list.read := by
  have upserts : list.Upserts := by
    cases list with
    | ofacSdn document => trivial
    | ofacConsolidated document => trivial
    | eu document =>
      intro none
      exact nonempty (map_eq_nil_iff.mpr none)
  have upsertsTake : UpsertsTake answers := by
    refine ⟨succeeds.downloaded, ?_⟩
    rw [succeeds.upserted upserts]
    exact Ending.noConfusion
  have deactivationTakes : list.DeactivationTakes answers := by
    refine ⟨succeeds.downloaded, nonempty, ?_⟩
    rw [succeeds.deactivated nonempty]
    exact Ending.noConfusion
  rw [SanctionsList.mem_activeAfter]
  tauto

theorem Succeeds.mem_activeAfter_empty (empty : list.read = []) :
    address ∈ list.activeAfter table answers ↔ address ∈ activeAddresses list.source table := by
  rw [SanctionsList.mem_activeAfter]
  simp [empty, DeactivationTakes]

theorem allOrNothing_iff : list.AllOrNothing table answers ↔ list.Settles table answers := by
  constructor
  · rintro ⟨whole, nothing⟩
    refine ⟨?_, ?_, ?_, ?_⟩
    · intro succeeds empty
      rw [eq_nil_iff_forall_not_mem]
      intro address active
      have listed := (whole succeeds address).mp ((Succeeds.mem_activeAfter_empty empty).mpr active)
      rw [listed_eq_nil succeeds.complete empty] at listed
      cases listed
    · intro succeeds nonempty address
      rw [← whole succeeds address, succeeds.mem_activeAfter nonempty]
    · intro failed take address isRead
      exact (nothing failed address).mp (mem_activeAfter.mpr ⟨.inr ⟨take, isRead⟩, fun _ => isRead⟩)
    · intro failed take address active
      exact (mem_activeAfter.mp ((nothing failed address).mpr active)).2 take
  · intro settles
    refine ⟨?_, ?_⟩
    · intro succeeds address
      by_cases empty : list.read = []
      · rw [Succeeds.mem_activeAfter_empty empty, settles.empty succeeds empty,
          listed_eq_nil succeeds.complete empty]
      · rw [succeeds.mem_activeAfter empty, settles.asWritten succeeds empty]
    · intro failed address
      rw [mem_activeAfter]
      constructor
      · rintro ⟨active | ⟨take, isRead⟩, -⟩
        · exact active
        · exact settles.upserts failed take isRead
      · intro active
        exact ⟨.inl active, fun take => settles.deactivation failed take active⟩

/-- A synchronisation is all or nothing exactly if it settles, and it loses none besides exactly
if, where a step fails, every listed address was active before. -/
theorem sync_all_or_nothing_iff (list : SanctionsList) (table : List ListedEntry)
    (answers : SyncAnswers) :
    (list.AllOrNothing table answers ↔ list.Settles table answers) ∧
    (list.AllOrNothing table answers ∧ list.LosesNone table answers ↔
      list.Settles table answers ∧
        (¬ list.Succeeds answers → list.listed ⊆ activeAddresses list.source table)) := by
  refine ⟨allOrNothing_iff, ?_⟩
  rw [← allOrNothing_iff]
  apply and_congr_right
  rintro ⟨-, nothing⟩
  constructor
  · intro loses failed address isListed
    exact (nothing failed address).mp ((loses failed).2 isListed)
  · intro listed failed
    refine ⟨?_, ?_⟩
    · intro address active
      exact (nothing failed address).mpr active
    · intro address isListed
      exact (nothing failed address).mpr (listed failed isListed)

end SanctionsList

/-! ## Upserts that fail -/

def sampleSdn : SdnEntry :=
  { uid := some (.text "36".toList)
    uidAttribute := none
    firstName := none
    lastName := some (.text "Mixer".toList)
    sdnName := none
    ids :=
      [some
        { idType := some (.text "Digital Currency Address - ETH".toList)
          idTypeDescription := none
          idNumber := some (.text "0xC".toList)
          idValue := none
          idCountry := none
          currency := none }] }

def sampleSanctions : SanctionsList := .ofacSdn (.parsed [some sampleSdn])

/-- A table with an active entry that the list no longer has. -/
def sampleEntries : List ListedEntry :=
  [{ listSource := "OFAC_SDN"
     address := "0xa".toList
     entityName := some "Exchange"
     entityId := some "12"
     isActive := true
     addressType := "ETH" }]

/-- A new list replaces the active addresses. -/
example : sampleSanctions.activeAfter sampleEntries ⟨true, .done, .done, .done⟩ =
    [toLowerCase "0xc".toList] := by decide

/-- The transaction of the upserts fails, and the entry of the old list is deactivated. -/
theorem sync_deactivates_all :
    ¬ sampleSanctions.AllOrNothing sampleEntries ⟨true, .failed, .done, .done⟩ ∧
      activeAddresses "OFAC_SDN" sampleEntries = [toLowerCase "0xa".toList] ∧
      sampleSanctions.activeAfter sampleEntries ⟨true, .failed, .done, .done⟩ = [] := by
  have before : activeAddresses "OFAC_SDN" sampleEntries = [toLowerCase "0xa".toList] := by
    decide
  have after : sampleSanctions.activeAfter sampleEntries ⟨true, .failed, .done, .done⟩ = [] := by
    decide
  refine ⟨?_, before, after⟩
  rintro ⟨-, nothing⟩
  have failed : ¬ sampleSanctions.Succeeds ⟨true, .failed, .done, .done⟩ := by
    intro succeeds
    cases succeeds.upserted trivial
  have kept := (nothing failed (toLowerCase "0xa".toList)).mpr (by
    rw [show sampleSanctions.source = "OFAC_SDN" from rfl, before]
    exact mem_singleton_self _)
  rw [after] at kept
  cases kept

end CryptoVaultHub.CoreWallet

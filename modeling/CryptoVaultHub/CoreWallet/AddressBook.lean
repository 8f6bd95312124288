import CryptoVaultHub.Semantics.Execution

/-!
# The address book

`AddressBookService` keeps the addresses that clients may withdraw to, in one table for all
clients. Every operation carries the id of the client that issues it. `updateAddress` does not
read it, and changes and returns the row of any client.

What `BigInt` makes of an id, the collation of the addresses and the order of the labels are
parameters.
-/

namespace CryptoVaultHub.CoreWallet.AddressBook

open List

/-! ## The table -/

inductive AddressStatus where
  | cooldown
  | active
  | disabled
deriving DecidableEq

/-- A row of `whitelisted_addresses`. -/
structure WhitelistedAddress where
  id : Nat
  clientId : Nat
  projectId : Nat
  address : String
  label : String
  chainId : Int
  status : AddressStatus
  cooldownEndsAt : Option Nat
  createdAt : Nat
deriving DecidableEq

/-- The rows, each with an id of its own, and the next id. -/
structure Book where
  rows : List WhitelistedAddress
  nextId : Nat
  distinct : (rows.map WhitelistedAddress.id).Nodup
  below : ∀ row ∈ rows, row.id < nextId

/-- What `serialize` returns. -/
structure SerializedAddress where
  id : Nat
  clientId : Nat
  address : String
  label : String
  chainId : Int
  status : AddressStatus
  cooldownExpiresAt : Option Nat
  createdAt : Nat
deriving DecidableEq

def WhitelistedAddress.serialize (row : WhitelistedAddress) : SerializedAddress where
  id := row.id
  clientId := row.clientId
  address := row.address
  label := row.label
  chainId := row.chainId
  status := row.status
  cooldownExpiresAt := row.cooldownEndsAt
  createdAt := row.createdAt

namespace Book

variable (book : Book)

/-- `findUnique({ where: { id } })`. -/
def findUnique (id : Int) : Option WhitelistedAddress :=
  book.rows.find? fun row => (row.id : Int) = id

/-- `update({ where: { id }, data })`, for data without an id. -/
def update (id : Int) (change : WhitelistedAddress → WhitelistedAddress)
    (sameId : ∀ row, (change row).id = row.id) : Book where
  rows := book.rows.map fun row => if (row.id : Int) = id then change row else row
  nextId := book.nextId
  distinct := by
    have same : (book.rows.map fun row => if (row.id : Int) = id then change row else row).map
        WhitelistedAddress.id = book.rows.map WhitelistedAddress.id := by
      rw [map_map]
      refine map_congr_left fun row _ => ?_
      simp only [Function.comp]
      split
      · exact sameId row
      · rfl
    rw [same]
    exact book.distinct
  below := by
    intro row member
    obtain ⟨before, stored, rfl⟩ := mem_map.mp member
    split
    · rw [sameId]
      exact book.below before stored
    · exact book.below before stored

/-- The row that `create` stores. -/
def newRow (clientId projectId : Nat) (address label : String) (chainId : Int) (now : Nat) :
    WhitelistedAddress where
  id := book.nextId
  clientId := clientId
  projectId := projectId
  address := address
  label := label
  chainId := chainId
  status := .cooldown
  cooldownEndsAt := some (now + 24 * 60 * 60 * 1000)
  createdAt := now

def create (clientId projectId : Nat) (address label : String) (chainId : Int) (now : Nat) :
    Book where
  rows := book.rows ++ [book.newRow clientId projectId address label chainId now]
  nextId := book.nextId + 1
  distinct := by
    rw [map_append, map_singleton]
    refine nodup_append.mpr ⟨book.distinct, nodup_singleton _, ?_⟩
    rintro id member other new rfl
    obtain ⟨row, stored, same⟩ := mem_map.mp member
    have less := book.below row stored
    rw [mem_singleton.mp new] at same
    exact absurd same less.ne
  below := by
    intro row member
    rcases mem_append.mp member with before | new
    · exact (book.below row before).trans (Nat.lt_succ_self _)
    · rw [mem_singleton.mp new]
      exact Nat.lt_succ_self _

/-- The rows of one client. -/
def rowsOf (clientId : Nat) : List WhitelistedAddress :=
  book.rows.filter fun row => row.clientId = clientId

end Book

/-! ## The service -/

/-- Pages of a list; without a limit there is no number of pages. -/
structure PageMeta where
  page : Int
  limit : Int
  total : Nat
  totalPages : Option Int
deriving DecidableEq

inductive Response where
  | addresses (addresses : List SerializedAddress) (pages : PageMeta)
  | address (address : SerializedAddress)
  | disabled (message : String)
deriving DecidableEq

/-- The rows that a response shows. -/
def Response.shown : Response → List SerializedAddress
  | .addresses list _ => list
  | .address entry => [entry]
  | .disabled _ => []

/-- What a client asks for. -/
inductive Operation where
  | listAddresses (page limit chainId : Option Int)
  | addAddress (projectId : Nat) (address : String) (label : Option String) (chainId : Option Int)
  | updateAddress (id : String) (label : Option String)
  | deleteAddress (id : String)
deriving DecidableEq

variable (bigInt : String → Option Int) (collation : String → String)
  (precedes : String → String → Bool)

namespace Book

variable (book : Book)

/-- `skip` and `take` of a query: a negative `take` counts from the end. -/
def paginate (rows : List WhitelistedAddress) (skip take : Int) :
    Except String (List WhitelistedAddress) :=
  if skip < 0 then throw "Invalid value for skip argument"
  else if 0 ≤ take then return (rows.drop skip.toNat).take take.toNat
  else return ((rows.reverse.drop skip.toNat).take (-take).toNat).reverse

def listAddresses (clientId : Nat) (page limit chainId : Option Int) : Except String Response := do
  let page := page.getD 1
  let limit := limit.getD 50
  let skip := (page - 1) * limit
  let rows := (book.rowsOf clientId).filter fun row => row.status ≠ .disabled &&
    chainId.all fun chainId => chainId = 0 || row.chainId = chainId
  let addresses ←
    paginate (rows.mergeSort fun first second => precedes first.label second.label) skip limit
  return .addresses (addresses.map WhitelistedAddress.serialize)
    ⟨page, limit, rows.length, if limit = 0 then none else some (-(-rows.length / limit))⟩

def addAddress (clientId : Nat) (now : Nat) (projectId : Nat) (address : String)
    (label : Option String) (chainId : Option Int) : Book × Except String Response :=
  let chainId := chainId.getD 1
  let existing := (book.rowsOf clientId).any fun row =>
    collation row.address = collation address && row.chainId = chainId &&
      (row.status = .active || row.status = .cooldown)
  if existing then
    (book, throw "Address+chain combination already exists and is active or in cooldown")
  else
    let created := book.newRow clientId projectId address (label.getD "") chainId now
    (book.create clientId projectId address (label.getD "") chainId now,
      return .address created.serialize)

/-- The `data` of an update: the label, if there is one. -/
def setLabel (label : Option String) (row : WhitelistedAddress) : WhitelistedAddress :=
  { row with label := label.getD row.label }

/-- The client id of the body is not read. -/
def updateAddress (id : String) (label : Option String) : Book × Except String Response :=
  match bigInt id with
  | none => (book, throw s!"Cannot convert {id} to a BigInt")
  | some value =>
    match book.findUnique value with
    | none => (book, throw s!"Address {id} not found")
    | some record =>
      if record.status = .disabled then (book, throw s!"Address {id} not found")
      else
        (book.update value (setLabel label) fun _ => rfl,
          return .address (setLabel label record).serialize)

def disable (row : WhitelistedAddress) : WhitelistedAddress :=
  { row with status := .disabled }

/-- The id of no client, 0, is taken for a missing one. -/
def deleteAddress (id : String) (clientId : Nat) : Book × Except String Response :=
  match bigInt id with
  | none => (book, throw s!"Cannot convert {id} to a BigInt")
  | some value =>
    match book.findUnique value with
    | none => (book, throw s!"Address {id} not found or already disabled")
    | some record =>
      if record.status = .disabled then
        (book, throw s!"Address {id} not found or already disabled")
      else if clientId ≠ 0 ∧ record.clientId ≠ clientId then
        (book, throw s!"Address {id} not found")
      else
        (book.update value disable fun _ => rfl, return .disabled "Address disabled")

/-- An operation that a client issues. -/
def perform (clientId now : Nat) : Operation → Book × Except String Response
  | .listAddresses page limit chainId =>
    (book, book.listAddresses precedes clientId page limit chainId)
  | .addAddress projectId address label chainId =>
    book.addAddress collation clientId now projectId address label chainId
  | .updateAddress id label => book.updateAddress bigInt id label
  | .deleteAddress id => book.deleteAddress bigInt id clientId

end Book

/-! ## The property and the condition -/

/-- The rows of other clients are unchanged, and none of them is shown. -/
structure Isolated (clientId : Nat) (before : Book) (outcome : Book × Except String Response) :
    Prop where
  unchanged : ∀ other, other ≠ clientId → outcome.1.rowsOf other = before.rowsOf other
  undisclosed : ∀ response, outcome.2 = .ok response →
    ∀ address ∈ response.shown, address.clientId = clientId

/-- The row with an id, unless it is disabled. -/
def Book.live? (book : Book) (id : String) : Option WhitelistedAddress :=
  ((bigInt id).bind book.findUnique).filter fun row => row.status ≠ .disabled

/-- The id is not the one of a row of another client, or this row is disabled. -/
def Book.OwnId (book : Book) (clientId : Nat) (id : String) : Prop :=
  ∀ row ∈ book.live? bigInt id, row.clientId = clientId

/-- The operation is no update of an address of another client, nor a deletion of one that names
no client. -/
def Book.Owns (book : Book) (clientId : Nat) : Operation → Prop
  | .updateAddress id _ => book.OwnId bigInt clientId id
  | .deleteAddress id => clientId ≠ 0 ∨ book.OwnId bigInt clientId id
  | .listAddresses .. | .addAddress .. => True

/-! ## One operation -/

variable {bigInt} {book : Book} {clientId : Nat}

theorem Book.findUnique_some {id : Int} {row : WhitelistedAddress}
    (found : book.findUnique id = some row) : row ∈ book.rows ∧ (row.id : Int) = id :=
  ⟨mem_of_find?_eq_some found, by simpa using find?_some found⟩

/-- Two rows with one id are the same. -/
theorem Book.eq_of_id {first second : WhitelistedAddress} (left : first ∈ book.rows)
    (right : second ∈ book.rows) (same : first.id = second.id) : first = second :=
  inj_on_of_nodup_map book.distinct left right same

/-- A change of rows of other clients leaves the rows of this one. -/
theorem filter_map_change {rows : List WhitelistedAddress} {id : Int} {other : Nat}
    {change : WhitelistedAddress → WhitelistedAddress}
    (sameClient : ∀ row, (change row).clientId = row.clientId)
    (foreign : ∀ row ∈ rows, (row.id : Int) = id → row.clientId ≠ other) :
    (rows.map fun row => if (row.id : Int) = id then change row else row).filter
        (fun row => row.clientId = other) = rows.filter fun row => row.clientId = other := by
  induction rows with
  | nil => rfl
  | cons row rest ih =>
    have head := foreign row mem_cons_self
    have later := ih fun row member =>
      foreign row (mem_cons_of_mem _ member)
    rw [map_cons, filter_cons, filter_cons, later]
    by_cases same : (row.id : Int) = id
    · simp [same, sameClient, head same]
    · simp [same]

/-- An update of a row that keeps its client leaves the rows of all other clients. -/
theorem Book.rowsOf_update {id : Int} {change : WhitelistedAddress → WhitelistedAddress}
    (sameId : ∀ row, (change row).id = row.id) {record : WhitelistedAddress}
    (found : book.findUnique id = some record)
    (sameClient : ∀ row, (change row).clientId = row.clientId) {other : Nat}
    (different : record.clientId ≠ other) :
    (book.update id change sameId).rowsOf other = book.rowsOf other := by
  obtain ⟨stored, has⟩ := Book.findUnique_some found
  refine filter_map_change sameClient ?_
  intro row member same
  have equal : row = record := Book.eq_of_id member stored (by omega)
  rw [equal]
  exact different

theorem Book.rowsOf_create {projectId now : Nat} {address label : String} {chainId : Int}
    {other : Nat} (different : other ≠ clientId) :
    (book.create clientId projectId address label chainId now).rowsOf other =
      book.rowsOf other := by
  simp [Book.rowsOf, Book.create, Book.newRow, different.symm]

/-- Nothing changes and nothing is shown. -/
theorem isolated_throw (error : String) : Isolated clientId book (book, throw error) where
  unchanged _ _ := rfl
  undisclosed := by rintro response ⟨⟩

/-- A page holds rows of the list. -/
theorem mem_of_paginate {rows page : List WhitelistedAddress} {skip take : Int}
    (result : Book.paginate rows skip take = .ok page) : page ⊆ rows := by
  intro row member
  rw [Book.paginate] at result
  split at result
  · cases result
  · split at result
    · cases result
      exact mem_of_mem_drop (mem_of_mem_take member)
    · cases result
      have reversed := mem_of_mem_drop (mem_of_mem_take (mem_reverse.mp member))
      exact mem_reverse.mp reversed

theorem listAddresses_isolated (page limit chainId : Option Int) :
    Isolated clientId book (book, book.listAddresses precedes clientId page limit chainId) where
  unchanged _ _ := rfl
  undisclosed := by
    intro response result entry shown
    simp only [Book.listAddresses] at result
    generalize paginated : Book.paginate _ _ _ = found at result
    rcases found with _ | rows
    · cases result
    · cases result
      obtain ⟨row, member, rfl⟩ := mem_map.mp shown
      have listed := (mergeSort_perm ..).mem_iff.mp (mem_of_paginate paginated member)
      have own := (mem_filter.mp (mem_of_mem_filter listed)).2
      exact of_decide_eq_true own

theorem addAddress_isolated (now projectId : Nat) (address : String) (label : Option String)
    (chainId : Option Int) : Isolated clientId book
      (book.addAddress collation clientId now projectId address label chainId) := by
  rw [Book.addAddress]
  split
  · exact isolated_throw _
  · constructor
    · intro other different
      exact Book.rowsOf_create different
    · rintro response ⟨⟩ entry shown
      rw [mem_singleton.mp shown]
      rfl

/-- A change of an own row. -/
theorem update_isolated {id : Int} {record : WhitelistedAddress}
    {change : WhitelistedAddress → WhitelistedAddress} {sameId : ∀ row, (change row).id = row.id}
    {answer : Response} (found : book.findUnique id = some record)
    (sameClient : ∀ row, (change row).clientId = row.clientId)
    (shows : ∀ address ∈ answer.shown, address.clientId = record.clientId)
    (own : record.clientId = clientId) :
    Isolated clientId book (book.update id change sameId, .ok answer) where
  unchanged other different := by
    refine Book.rowsOf_update sameId found sameClient fun same => ?_
    exact different (same.symm.trans own)
  undisclosed := by
    rintro response ⟨⟩ entry shown
    exact (shows entry shown).trans own

/-- What `updateAddress` and `deleteAddress` find: no row, or one that they may change. -/
theorem Book.live?_cases (book : Book) (id : String) :
    (book.live? bigInt id = none ∧ ∀ value, bigInt id = some value →
        ∀ row, book.findUnique value = some row → row.status = .disabled) ∨
      ∃ value record, bigInt id = some value ∧ book.findUnique value = some record ∧
        record.status ≠ .disabled ∧ book.live? bigInt id = some record := by
  rcases read : bigInt id with _ | value
  · exact .inl ⟨by simp [Book.live?, read], by simp⟩
  · rcases found : book.findUnique value with _ | record
    · refine .inl ⟨by simp [Book.live?, read, found], ?_⟩
      rintro _ ⟨⟩ row met
      rw [found] at met
      cases met
    · by_cases disabled : record.status = .disabled
      · refine .inl ⟨by simp [Book.live?, read, found, disabled], ?_⟩
        rintro _ ⟨⟩ row met
        rw [found] at met
        cases met
        exact disabled
      · exact .inr ⟨value, record, rfl, found, disabled, by
          simp [Book.live?, read, found, disabled]⟩

/-- An update is isolated exactly if it does not meet a row of another client. -/
theorem updateAddress_isolated_iff (id : String) (label : Option String) :
    Isolated clientId book (book.updateAddress bigInt id label) ↔
      book.OwnId bigInt clientId id := by
  obtain ⟨none, refused⟩ | ⟨value, record, read, found, live, some⟩ := book.live?_cases id
  · have thrown : ∃ error, book.updateAddress bigInt id label = (book, throw error) := by
      rw [Book.updateAddress]
      split
      · exact ⟨_, rfl⟩
      · rename_i value read
        split
        · exact ⟨_, rfl⟩
        · rename_i record found
          rw [if_pos (refused value read record found)]
          exact ⟨_, rfl⟩
    obtain ⟨error, thrown⟩ := thrown
    rw [thrown, Book.OwnId, none]
    exact ⟨fun _ => by simp, fun _ => isolated_throw error⟩
  · have updated : book.updateAddress bigInt id label =
        (book.update value (Book.setLabel label) fun _ => rfl,
          .ok (.address (Book.setLabel label record).serialize)) := by
      simp [Book.updateAddress, read, found, live, pure, Except.pure]
    rw [updated, Book.OwnId, some]
    constructor
    · rintro isolated _ ⟨⟩
      exact isolated.undisclosed _ rfl _ mem_cons_self
    · intro own
      refine update_isolated found (fun _ => rfl) ?_ (own record rfl)
      intro entry shown
      rw [mem_singleton.mp shown]
      rfl

/-- A deletion is isolated exactly if it names its client or does not meet a row of another
one. -/
theorem deleteAddress_isolated_iff (id : String) :
    Isolated clientId book (book.deleteAddress bigInt id clientId) ↔
      clientId ≠ 0 ∨ book.OwnId bigInt clientId id := by
  obtain ⟨none, refused⟩ | ⟨value, record, read, found, live, some⟩ := book.live?_cases id
  · have thrown : ∃ error, book.deleteAddress bigInt id clientId = (book, throw error) := by
      rw [Book.deleteAddress]
      split
      · exact ⟨_, rfl⟩
      · rename_i value read
        split
        · exact ⟨_, rfl⟩
        · rename_i record found
          rw [if_pos (refused value read record found)]
          exact ⟨_, rfl⟩
    obtain ⟨error, thrown⟩ := thrown
    rw [thrown, Book.OwnId, none]
    exact ⟨fun _ => .inr (by simp), fun _ => isolated_throw error⟩
  · by_cases own : record.clientId = clientId
    · have deleted : book.deleteAddress bigInt id clientId =
          (book.update value Book.disable fun _ => rfl, .ok (.disabled "Address disabled")) := by
        simp [Book.deleteAddress, read, found, live, own, pure, Except.pure]
      rw [deleted, Book.OwnId, some]
      refine ⟨fun _ => .inr ?_, fun _ => ?_⟩
      · rintro _ ⟨⟩
        exact own
      · exact update_isolated found (fun _ => rfl) (by simp [Response.shown]) own
    · rw [Book.OwnId, some]
      by_cases nobody : clientId = 0
      · have deleted : book.deleteAddress bigInt id clientId =
            (book.update value Book.disable fun _ => rfl, .ok (.disabled "Address disabled")) := by
          simp [Book.deleteAddress, read, found, live, nobody, pure, Except.pure]
        rw [deleted]
        constructor
        · intro isolated
          exfalso
          -- The row was not disabled before, and is disabled now.
          have kept := isolated.unchanged record.clientId own
          have member : record ∈ book.rowsOf record.clientId :=
            mem_filter.mpr ⟨(Book.findUnique_some found).1, by simp⟩
          rw [← kept] at member
          obtain ⟨row, stored, same⟩ := mem_map.mp (mem_of_mem_filter member)
          split at same
          · rw [← same] at live
            exact live rfl
          · rename_i other
            rw [same] at other
            exact other (Book.findUnique_some found).2
        · rintro (named | owns)
          · exact absurd nobody named
          · exact absurd (owns record rfl) own
      · have thrown : book.deleteAddress bigInt id clientId =
            (book, throw s!"Address {id} not found") := by
          simp [Book.deleteAddress, read, found, live, nobody, own]
        rw [thrown]
        exact ⟨fun _ => .inl nobody, fun _ => isolated_throw _⟩

/-- An operation leaves the rows of all other clients alone, and shows none of them, exactly if
it is no update of an address of another client (nor a deletion without a client). -/
theorem perform_isolated_iff (bigInt : String → Option Int) (collation : String → String)
    (precedes : String → String → Bool) (book : Book) (clientId now : Nat)
    (operation : Operation) :
    Isolated clientId book (book.perform bigInt collation precedes clientId now operation) ↔
      book.Owns bigInt clientId operation := by
  cases operation with
  | listAddresses page limit chainId =>
    exact ⟨fun _ => trivial, fun _ => listAddresses_isolated precedes page limit chainId⟩
  | addAddress projectId address label chainId =>
    exact ⟨fun _ => trivial,
      fun _ => addAddress_isolated collation now projectId address label chainId⟩
  | updateAddress id label => exact updateAddress_isolated_iff id label
  | deleteAddress id => exact deleteAddress_isolated_iff id

/-! ## Sequences of operations -/

/-- An operation, the client that issues it, and the time. -/
structure Issued where
  clientId : Nat
  now : Nat
  operation : Operation

def operations (bigInt : String → Option Int) (collation : String → String)
    (precedes : String → String → Bool) : TransitionSystem Book Issued where
  Initial book := book.rows = []
  step book issued :=
    some (book.perform bigInt collation precedes issued.clientId issued.now issued.operation).1

/-- Whatever the other clients do with their own addresses, the rows of a client are kept. -/
theorem rows_kept {bigInt : String → Option Int} {collation : String → String}
    {precedes : String → String → Bool} {clientId : Nat} {before after : Book}
    (steps : (operations bigInt collation precedes).Steps (fun book issued =>
      issued.clientId ≠ clientId ∧ book.Owns bigInt issued.clientId issued.operation)
      before after) :
    after.rowsOf clientId = before.rowsOf clientId := by
  induction steps with
  | refl => rfl
  | @step book issued next prior allowed transition ih =>
    cases transition
    obtain ⟨caller, now, operation⟩ := issued
    obtain ⟨other, owns⟩ := allowed
    have isolated : Isolated caller book
        (book.perform bigInt collation precedes caller now operation) := by
      cases operation with
      | listAddresses => exact listAddresses_isolated ..
      | addAddress => exact addAddress_isolated ..
      | updateAddress => exact (updateAddress_isolated_iff ..).mpr owns
      | deleteAddress => exact (deleteAddress_isolated_iff ..).mpr owns
    rw [isolated.unchanged clientId other.symm, ih]

/-! ## A guessed id -/

/-- An active address of the client 2. -/
def sampleBook : Book where
  rows := [⟨7, 2, 1, "0xa", "treasury", 1, .active, none, 0⟩]
  nextId := 8
  distinct := by decide
  below := by decide

theorem rows_kept_sample : (sampleBook.perform (fun _ => none) id (fun _ _ => true) 1 0
    (.addAddress 1 "0xb" none none)).1.rowsOf 2 = sampleBook.rowsOf 2 :=
  rows_kept (@TransitionSystem.Steps.step _ _ (operations _ _ _) _ _ _
    ⟨1, 0, .addAddress 1 "0xb" none none⟩ _ .refl ⟨by decide, trivial⟩ rfl)

/-- The client 1 renames the address of the client 2, and gets to see it. -/
theorem updateAddress_not_isolated :
    ¬ ∀ (bigInt : String → Option Int) (collation : String → String)
      (precedes : String → String → Bool) (book : Book) (clientId now : Nat)
      (operation : Operation), clientId ≠ 0 →
        Isolated clientId book
          (book.perform bigInt collation precedes clientId now operation) := by
  intro always
  have isolated := always (fun id => if id = "7" then some 7 else none) id (fun _ _ => true)
    sampleBook 1 0 (.updateAddress "7" (some "mine")) (by decide)
  have shown := isolated.undisclosed
    (.address ⟨7, 2, "0xa", "mine", 1, .active, none, 0⟩) (by decide +kernel) _
    mem_cons_self
  exact absurd shown (by decide)

end CryptoVaultHub.CoreWallet.AddressBook

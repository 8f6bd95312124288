import CryptoVaultHub.CoreWallet.AddressBook
import CryptoVaultHub.CoreWallet.WithdrawalCreation

/-!
# The cooldown of an address

`addAddress` stores an address in cooldown, with the time 24 hours later, and `createWithdrawal`
asks for an active one whose cooldown is over. No operation makes an address active.

The text of a date is a parameter.
-/

namespace CryptoVaultHub.CoreWallet.AddressBook

open TransitionSystem

def cooldownMs : Nat := 24 * 60 * 60 * 1000

/-! ## The check of the destination -/

def AddressStatus.text : AddressStatus → String
  | .cooldown => "cooldown"
  | .active => "active"
  | .disabled => "disabled"

/-- `findFirst` of the id, the client and the chain. -/
def Book.findWhitelisted (book : Book) (params : WithdrawalParams) : Option WhitelistedAddress :=
  book.rows.find? fun row =>
    row.id = params.toAddressId ∧ row.clientId = params.clientId ∧ row.chainId = params.chainId

inductive Refusal where
  | notFound (message : String)
  | badRequest (message : String)
deriving DecidableEq

def Refusal.failure : Refusal → Failure
  | .notFound _ => .notFound
  | .badRequest _ => .badRequest

/-- What `createWithdrawal` asks of its destination. -/
def Book.checkDestination (dateText : Nat → String) (book : Book) (params : WithdrawalParams)
    (now : Nat) : Except Refusal WhitelistedAddress :=
  let named := s!"Whitelisted address {params.toAddressId}"
  match book.findWhitelisted params with
  | none =>
    .error (.notFound
      s!"{named} not found for client {params.clientId} on chain {params.chainId}")
  | some whitelisted =>
    if whitelisted.status ≠ .active then
      .error (.badRequest s!"{named} is not active (status: {whitelisted.status.text})")
    else
      match whitelisted.cooldownEndsAt.filter fun cooldownEndsAt => now < cooldownEndsAt with
      | some cooldownEndsAt =>
        .error (.badRequest s!"Address is in cooldown until {dateText cooldownEndsAt}")
      | none => .ok whitelisted

/-- What `createWithdrawal` reads of a row. -/
def WhitelistedAddress.read (row : WhitelistedAddress) : CoreWallet.WhitelistedAddress where
  address := row.address.toList
  label := row.label
  isActive := row.status = .active
  cooldownEndsAt := row.cooldownEndsAt

/-- What follows the check. -/
def screenDestination (environment : CreationEnvironment) (params : WithdrawalParams)
    (whitelisted : CoreWallet.WhitelistedAddress) : Service CreationResult := do
  let screeningResult ← screenWithdrawal environment.compliance params.clientId
    whitelisted.address none
  if screeningResult.result = .hit then rejectWithdrawal environment params whitelisted
  else acceptWithdrawal environment params whitelisted

/-- Without an earlier withdrawal of its key, `createWithdrawal` fails as the check does, or goes on
with the row. -/
theorem createWithdrawal_eq_checkDestination (dateText : Nat → String) {book : Book}
    {params : WithdrawalParams} {environment : CreationEnvironment}
    (unused : environment.existing = none) (asked : environment.ending .existing = .done)
    (answered : environment.ending .whitelisted = .done)
    (whitelisted : environment.whitelisted =
      (book.findWhitelisted params).map WhitelistedAddress.read) :
    createWithdrawal environment params =
      (match book.checkDestination dateText params environment.now with
      | .error refusal => throw refusal.failure
      | .ok row => screenDestination environment params row.read) := by
  rw [createWithdrawal, CoreWallet.read, if_pos asked, unused, CoreWallet.read, if_pos answered,
    whitelisted, Book.checkDestination]
  cases found : book.findWhitelisted params with
  | none => rfl
  | some row =>
    simp only [Option.map_some, pure_bind]
    by_cases active : row.status = .active
    · have isActive : row.read.isActive = true := decide_eq_true active
      rw [CoreWallet.check, if_pos isActive, pure_bind, CoreWallet.check,
        if_neg (not_not.mpr active)]
      cases cools : row.cooldownEndsAt.filter fun cooldownEndsAt =>
          environment.now < cooldownEndsAt with
      | none =>
        have ended : ∀ cooldownEndsAt ∈ row.read.cooldownEndsAt,
            cooldownEndsAt ≤ environment.now := by
          intro cooldownEndsAt ends
          have passed := Option.filter_eq_none_iff.mp cools cooldownEndsAt ends
          exact Nat.le_of_not_lt (by simpa using passed)
        rw [if_pos ended, pure_bind]
        rfl
      | some cooldownEndsAt =>
        obtain ⟨ends, later⟩ := Option.filter_eq_some_iff.mp cools
        have cooling : ¬ ∀ cooldownEndsAt ∈ row.read.cooldownEndsAt,
            cooldownEndsAt ≤ environment.now :=
          fun ended => absurd (of_decide_eq_true later) (Nat.not_lt.mpr (ended _ ends))
        rw [if_neg cooling]
        rfl
    · have inactive : ¬ row.read.isActive = true := fun reads => active (of_decide_eq_true reads)
      rw [CoreWallet.check, if_neg inactive, if_pos active]
      rfl

/-- The destination of a call passes. -/
def Book.Accepts (dateText : Nat → String) (book : Book) (params : WithdrawalParams) (now : Nat)
    (row : WhitelistedAddress) : Prop :=
  book.checkDestination dateText params now = .ok row

/-- A call that has a row as its destination. -/
structure WhitelistedAddress.NamedBy (row : WhitelistedAddress) (params : WithdrawalParams) :
    Prop where
  id : row.id = params.toAddressId
  clientId : row.clientId = params.clientId
  chainId : row.chainId = params.chainId

section Entries

variable {dateText : Nat → String} {bigInt : String → Option Int} {collation : String → String}
  {precedes : String → String → Bool} {book : Book} {params : WithdrawalParams}
  {row : WhitelistedAddress} {now : Nat}

/-- A row is found by its id, its client and its chain. -/
theorem Book.findWhitelisted_of_mem (stored : row ∈ book.rows) (named : row.NamedBy params) :
    book.findWhitelisted params = some row := by
  cases found : book.findWhitelisted params with
  | none =>
    have missing := List.find?_eq_none.mp found row stored
    simp [named.id, named.clientId, named.chainId] at missing
  | some other =>
    have matched := List.find?_some found
    simp only [Bool.decide_and, Bool.and_eq_true, decide_eq_true_eq] at matched
    have same := Book.eq_of_id (List.mem_of_find?_eq_some found) stored
      (matched.1.trans named.id.symm)
    rw [same]

/-- The check passes for an active row without a cooldown that goes on. -/
theorem Book.accepts_iff (stored : row ∈ book.rows) (named : row.NamedBy params) :
    book.Accepts dateText params now row ↔
      row.status = .active ∧ ∀ cooldownEndsAt ∈ row.cooldownEndsAt, cooldownEndsAt ≤ now := by
  rw [Book.Accepts, Book.checkDestination, Book.findWhitelisted_of_mem stored named]
  dsimp only
  by_cases active : row.status = .active
  · rw [if_neg (not_not.mpr active), and_iff_right active]
    cases cools : row.cooldownEndsAt.filter fun cooldownEndsAt => now < cooldownEndsAt with
    | none =>
      simpa [Option.filter_eq_none_iff] using cools
    | some cooldownEndsAt =>
      obtain ⟨ends, later⟩ := Option.filter_eq_some_iff.mp cools
      simp only [reduceCtorEq, false_iff, not_forall]
      exact ⟨cooldownEndsAt, ends, Nat.not_le.mpr (of_decide_eq_true later)⟩
  · rw [if_pos active]
    simp [active]

/-- A row that has not been made active, with the cooldown of its creation. -/
structure WhitelistedAddress.Cooling (row : WhitelistedAddress) : Prop where
  status : row.status ≠ .active
  cooldownEndsAt : row.cooldownEndsAt = some (row.createdAt + cooldownMs)

def Book.Cooling (book : Book) : Prop := ∀ row ∈ book.rows, row.Cooling

theorem Book.Cooling.update (cooling : book.Cooling) {id : Int}
    (change : WhitelistedAddress → WhitelistedAddress) (sameId : ∀ row, (change row).id = row.id)
    (kept : ∀ row, row.Cooling → (change row).Cooling) :
    (book.update id change sameId).Cooling := by
  intro row member
  obtain ⟨before, stored, rfl⟩ := List.mem_map.mp member
  split
  · exact kept before (cooling before stored)
  · exact cooling before stored

theorem Book.Cooling.addAddress (cooling : book.Cooling) (clientId projectId : Nat)
    (address : String) (label : Option String) (chainId : Option Int) :
    (book.addAddress collation clientId now projectId address label chainId).1.Cooling := by
  rw [Book.addAddress]
  split
  · exact cooling
  · intro row member
    rcases List.mem_append.mp member with before | new
    · exact cooling row before
    · rw [List.mem_singleton.mp new]
      exact ⟨by simp [Book.newRow], rfl⟩

/-- No operation makes an address active or moves its cooldown. -/
theorem Book.Cooling.perform (cooling : book.Cooling) (clientId : Nat) (operation : Operation) :
    (book.perform bigInt collation precedes clientId now operation).1.Cooling := by
  cases operation with
  | listAddresses page limit chainId => exact cooling
  | addAddress projectId address label chainId =>
    exact cooling.addAddress clientId projectId address label chainId
  | updateAddress id label =>
    simp only [Book.perform, Book.updateAddress]
    split
    · exact cooling
    · split
      · exact cooling
      · split
        · exact cooling
        · exact cooling.update (Book.setLabel label) (fun _ => rfl) fun row cools =>
            ⟨cools.status, cools.cooldownEndsAt⟩
  | deleteAddress id =>
    simp only [Book.perform, Book.deleteAddress]
    split
    · exact cooling
    · split
      · exact cooling
      · split
        · exact cooling
        · split
          · exact cooling
          · exact cooling.update Book.disable (fun _ => rfl) fun row cools =>
              ⟨by simp [Book.disable], cools.cooldownEndsAt⟩

theorem operations_cooling
    (reached : (operations bigInt collation precedes).Reachable Unrestricted book) :
    book.Cooling := by
  refine reached.invariant ?_ ?_
  · intro start empty row stored
    rw [show start.rows = [] from empty] at stored
    cases stored
  · rintro before issued after cooling - ⟨⟩
    exact cooling.perform issued.clientId issued.operation

end Entries

/-! ## Runs -/

/-- Whatever was added, disabled and added again, `createWithdrawal` treats an entry as its cooldown
says exactly while the entry is disabled or less than 24 hours old. -/
theorem cooldown_exact_iff {bigInt : String → Option Int} {collation : String → String}
    {precedes : String → String → Bool} {book : Book}
    (reached : (operations bigInt collation precedes).Reachable Unrestricted book)
    {row : WhitelistedAddress} (stored : row ∈ book.rows) {params : WithdrawalParams}
    (named : row.NamedBy params) (dateText : Nat → String) (now : Nat) :
    (book.Accepts dateText params now row ↔
        row.status ≠ .disabled ∧ row.createdAt + cooldownMs ≤ now) ↔
      row.status = .disabled ∨ now < row.createdAt + cooldownMs := by
  have never : ¬ book.Accepts dateText params now row := by
    rw [Book.accepts_iff stored named]
    exact fun accepted => (operations_cooling reached row stored).status accepted.1
  rw [iff_false_left never, not_and_or, not_not, Nat.not_le]

/-! ## An address that is never active -/

def idOf (id : String) : Option Int := if id = "1" then some 1 else none

def plainOperations : TransitionSystem Book Issued := operations idOf id fun _ _ => true

def emptyBook : Book := ⟨[], 1, by simp, by simp⟩

def addTreasury (now : Nat) : Issued := ⟨3, now, .addAddress 1 "0xa" (some "treasury") (some 137)⟩

def toTreasury : WithdrawalParams := ⟨3, 137, 1, 1, "1", "k", .hot⟩

def treasury (status : AddressStatus) : WhitelistedAddress :=
  ⟨1, 3, 1, "0xa", "treasury", 137, status, some (1000 + cooldownMs), 1000⟩

theorem treasury_named (status : AddressStatus) : (treasury status).NamedBy toTreasury :=
  ⟨rfl, rfl, rfl⟩

/-- The address is disabled, and stays refused. -/
theorem cooldown_exact_iff_sample :
    ∃ book : Book, treasury .disabled ∈ book.rows ∧
      (book.Accepts toString toTreasury 90000000 (treasury .disabled) ↔
        (treasury .disabled).status ≠ .disabled ∧ 1000 + cooldownMs ≤ 90000000) := by
  obtain ⟨book, reachable, stored⟩ := @exists_reachable _ _ plainOperations Unrestricted _ emptyBook
    (fun book => treasury .disabled ∈ book.rows) _ rfl [addTreasury 1000, ⟨3, 2000, .deleteAddress
    "1"⟩] (by decide +kernel)
  have disabled := stored
  exact ⟨book, disabled,
    (cooldown_exact_iff reachable disabled (treasury_named _) toString 90000000).mpr (.inl rfl)⟩

/-- More than a day after the address was added, it is refused. -/
theorem cooldown_not_exact :
    ¬ ∀ (book : Book) (row : WhitelistedAddress) (params : WithdrawalParams) (now : Nat),
      plainOperations.Reachable Unrestricted book → row ∈ book.rows → row.NamedBy params →
        (book.Accepts toString params now row ↔
          row.status ≠ .disabled ∧ row.createdAt + cooldownMs ≤ now) := by
  intro exact
  obtain ⟨book, reachable, stored⟩ := @exists_reachable _ _ plainOperations Unrestricted _ emptyBook
    (fun book => book.rows = [treasury .cooldown]) _ rfl [addTreasury 1000] (by decide +kernel)
  have only : book.rows = [treasury .cooldown] := stored
  have member : treasury .cooldown ∈ book.rows := by simp [only]
  have accepted := (exact book (treasury .cooldown) toTreasury 90000000 reachable member
    (treasury_named _)).mpr ⟨by decide, by decide⟩
  have active := ((Book.accepts_iff member (treasury_named _)).mp accepted).1
  cases active

end CryptoVaultHub.CoreWallet.AddressBook

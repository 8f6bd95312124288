import Mathlib

/-!
# USD values of forwarders

`computeUsdPerForwarder` adds up the values of the deposits of each forwarder. A deposit that
cannot be priced makes the total of its forwarder null only if it is the first one.
`usd_totals_iff` says when no order of the deposits changes the totals.

The numbers of the language are a parameter: nothing is assumed about how they are rounded.
-/

namespace CryptoVaultHub.Sweep.UsdTotals

open List Option

/-! ## The computation -/

/-- The numbers of the language and how they are read: `formatUnits` is none when it throws. -/
structure Numbers (Number : Type) where
  zero : Number
  add : Number → Number → Number
  mul : Number → Number → Number
  isFinite : Number → Bool
  ofText : String → Number
  formatUnits : String → Nat → Option Number

/-- The letters of an address. -/
abbrev AddressText := List Char

def toLowerCase (address : AddressText) : AddressText := address.map Char.toLower

structure Deposit where
  forwarderAddress : AddressText
  tokenId : Nat
  amount : String
  amountRaw : String
deriving DecidableEq

/-- A row of `tokens`. -/
structure Token where
  id : Nat
  coingeckoId : Option String
  decimals : Nat
deriving DecidableEq

variable {Number : Type} (numbers : Numbers Number) (tokens : List Token)
  (prices : String → Option Number)

/-- `out`: no entry, null, or a number for each forwarder. -/
abbrev Totals (Number : Type) := AddressText → Option (Option Number)

def Totals.set (out : Totals Number) (forwarder : AddressText) (total : Option Number) :
    Totals Number :=
  Function.update out forwarder (some total)

/-- Null, unless the forwarder has an entry. -/
def Totals.poison (out : Totals Number) (forwarder : AddressText) : Totals Number :=
  if (out forwarder).isSome then out else out.set forwarder none

/-- A value is added to a number; null stays. -/
def Totals.addUsd (out : Totals Number) (forwarder : AddressText) (usd : Number) : Totals Number :=
  match out forwarder with
  | some none => out
  | some (some previous) => out.set forwarder (some (numbers.add previous usd))
  | none => out.set forwarder (some (numbers.add numbers.zero usd))

/-- One round of the loop. -/
def addDeposit (out : Totals Number) (deposit : Deposit) : Totals Number :=
  let forwarder := toLowerCase deposit.forwarderAddress
  match tokens.find? fun token => token.id = deposit.tokenId with
  | none => out.poison forwarder
  | some token =>
    match token.coingeckoId.filter fun id => id ≠ "" with
    | none => out.poison forwarder
    | some coingeckoId =>
      match prices coingeckoId with
      | none => out.poison forwarder
      | some price =>
        let humanAmount := (numbers.formatUnits deposit.amountRaw token.decimals).getD
          (numbers.ofText deposit.amount)
        if numbers.isFinite humanAmount then
          out.addUsd numbers forwarder (numbers.mul humanAmount price)
        else out.poison forwarder

def computeUsdPerForwarder (deposits : List Deposit) (needsUsd : Bool) : Totals Number :=
  if !needsUsd || deposits.isEmpty then fun _ => none
  else deposits.foldl (addDeposit numbers tokens prices) fun _ => none

/-! ## What the totals have to be -/

/-- The value of a deposit, if it can be priced. -/
def usd? (deposit : Deposit) : Option Number := do
  let token ← tokens.find? fun token => token.id = deposit.tokenId
  let coingeckoId ← token.coingeckoId.filter fun id => id ≠ ""
  let price ← prices coingeckoId
  let humanAmount := (numbers.formatUnits deposit.amountRaw token.decimals).getD
    (numbers.ofText deposit.amount)
  if numbers.isFinite humanAmount then some (numbers.mul humanAmount price) else none

/-- The values of the deposits of a forwarder. -/
def valuesOf (deposits : List Deposit) (forwarder : AddressText) : List (Option Number) :=
  (deposits.filter fun deposit => toLowerCase deposit.forwarderAddress = forwarder).map
    (usd? numbers tokens prices)

/-- A number is the sum of some values, whatever the order in which they are added. -/
def IsSum (values : List Number) (total : Number) : Prop :=
  ∀ order : List Number, order.Perm values → order.foldl numbers.add numbers.zero = total

/-- The entry of a forwarder is the sum of the values of its deposits, and null exactly when one
of them cannot be priced. -/
def EntryOf (values : List (Option Number)) (entry : Option (Option Number)) : Prop :=
  match entry with
  | none => values = []
  | some none => none ∈ values
  | some (some total) => ∃ priced : List Number, values = priced.map some ∧ priced ≠ [] ∧
      IsSum numbers priced total

/-- Every order of the deposits gives the same totals, and those that they have to be. -/
def OrderIndependent (deposits : List Deposit) (needsUsd : Bool) : Prop :=
  ∀ order : List Deposit, order.Perm deposits → ∀ forwarder : AddressText,
    computeUsdPerForwarder numbers tokens prices order needsUsd forwarder =
        computeUsdPerForwarder numbers tokens prices deposits needsUsd forwarder ∧
      (needsUsd = true → EntryOf numbers (valuesOf numbers tokens prices order forwarder)
        (computeUsdPerForwarder numbers tokens prices order needsUsd forwarder))

/-- The additions of some values give one number in every order. -/
def Additive (values : List Number) : Prop :=
  IsSum numbers values (values.foldl numbers.add numbers.zero)

/-! ## The entry of one forwarder -/

variable {numbers} {tokens} {prices} {values : List (Option Number)} {deposits : List Deposit}
  {forwarder : AddressText}

/-- What a value does to the entry of its forwarder. -/
def absorb (numbers : Numbers Number) : Option (Option Number) → Option Number →
    Option (Option Number)
  | none, none => some none
  | some entry, none => some entry
  | some none, some _ => some none
  | none, some usd => some (some (numbers.add numbers.zero usd))
  | some (some previous), some usd => some (some (numbers.add previous usd))

theorem poison_apply (out : Totals Number) (key : AddressText) :
    out.poison key forwarder =
      if key = forwarder then absorb numbers (out forwarder) none else out forwarder := by
  rw [Totals.poison]
  by_cases same : key = forwarder
  · subst same
    rw [if_pos rfl]
    cases entry : out key with
    | none => simp [Totals.set, absorb]
    | some total => simp [entry, absorb]
  · rw [if_neg same]
    split
    · rfl
    · exact Function.update_of_ne (Ne.symm same) _ _

theorem addUsd_apply (out : Totals Number) (key : AddressText) (usd : Number) :
    out.addUsd numbers key usd forwarder =
      if key = forwarder then absorb numbers (out forwarder) (some usd) else out forwarder := by
  rw [Totals.addUsd]
  by_cases same : key = forwarder
  · subst same
    rw [if_pos rfl]
    rcases entry : out key with _ | _ | previous
    · exact Function.update_self _ _ _
    · exact entry
    · exact Function.update_self _ _ _
  · rw [if_neg same]
    rcases out key with _ | _ | previous
    · exact Function.update_of_ne (Ne.symm same) _ _
    · rfl
    · exact Function.update_of_ne (Ne.symm same) _ _

/-- One round changes the entry of one forwarder. -/
theorem addDeposit_apply (out : Totals Number) (deposit : Deposit) :
    addDeposit numbers tokens prices out deposit forwarder =
      if toLowerCase deposit.forwarderAddress = forwarder then
        absorb numbers (out forwarder) (usd? numbers tokens prices deposit)
      else out forwarder := by
  rw [addDeposit, usd?]
  cases tokens.find? fun token => token.id = deposit.tokenId with
  | none => exact poison_apply out _
  | some token =>
    simp only [bind_eq_bind, bind_some]
    cases token.coingeckoId.filter fun id => id ≠ "" with
    | none => exact poison_apply out _
    | some coingeckoId =>
      simp only [bind_some]
      cases prices coingeckoId with
      | none => exact poison_apply out _
      | some price =>
        simp only [bind_some]
        split
        · exact addUsd_apply out _ _
        · exact poison_apply out _

/-- The loop takes each forwarder on its own. -/
theorem foldl_addDeposit_apply (out : Totals Number) :
    deposits.foldl (addDeposit numbers tokens prices) out forwarder =
      (valuesOf numbers tokens prices deposits forwarder).foldl (absorb numbers) (out forwarder) := by
  induction deposits generalizing out with
  | nil => rfl
  | cons deposit rest ih =>
    rw [foldl_cons, ih, addDeposit_apply, valuesOf, valuesOf]
    by_cases same : toLowerCase deposit.forwarderAddress = forwarder
    · rw [if_pos same, filter_cons_of_pos (by simpa using same)]
      rfl
    · rw [if_neg same, filter_cons_of_neg (by simpa using same)]

theorem computeUsd_apply : computeUsdPerForwarder numbers tokens prices deposits true forwarder =
    (valuesOf numbers tokens prices deposits forwarder).foldl (absorb numbers) none := by
  rw [computeUsdPerForwarder]
  cases deposits with
  | nil => rfl
  | cons deposit rest =>
    rw [if_neg (by simp), foldl_addDeposit_apply]

/-- Once null, an entry stays null. -/
theorem absorb_null : values.foldl (absorb numbers) (some none) = some none := by
  induction values with
  | nil => rfl
  | cons value rest ih =>
    cases value <;> exact ih

/-- A number is never poisoned: the deposits that cannot be priced are left out. -/
theorem absorb_number (total : Number) : values.foldl (absorb numbers) (some (some total)) =
    some (some ((values.filterMap id).foldl numbers.add total)) := by
  induction values generalizing total with
  | nil => rfl
  | cons value rest ih =>
    cases value with
    | none => exact ih total
    | some usd => exact ih (numbers.add total usd)

/-- The first deposit of a forwarder decides whether its entry is null. -/
theorem absorb_all : values.foldl (absorb numbers) none =
    match values with
    | [] => none
    | none :: _ => some none
    | some usd :: rest =>
      some (some ((usd :: rest.filterMap id).foldl numbers.add numbers.zero)) := by
  match values with
  | [] => rfl
  | none :: rest => exact absorb_null
  | some usd :: rest => exact absorb_number _

/-! ## Orders -/

theorem valuesOf_perm {order : List Deposit} (permutation : order.Perm deposits) :
    (valuesOf numbers tokens prices order forwarder).Perm
      (valuesOf numbers tokens prices deposits forwarder) :=
  (permutation.filter _).map _

/-- The deposits of a forwarder can come in an order that begins with any one of them. -/
theorem exists_order_first {value : Option Number}
    (member : value ∈ valuesOf numbers tokens prices deposits forwarder) :
    ∃ order : List Deposit, order.Perm deposits ∧
      ∃ rest, valuesOf numbers tokens prices order forwarder = value :: rest := by
  obtain ⟨deposit, ofForwarder, rfl⟩ := mem_map.mp member
  obtain ⟨inside, same⟩ := mem_filter.mp ofForwarder
  obtain ⟨before, after, rfl⟩ := append_of_mem inside
  refine ⟨deposit :: (before ++ after), perm_middle.symm, ?_⟩
  rw [valuesOf, filter_cons, if_pos same]
  exact ⟨_, rfl⟩

theorem exists_map_some (priced : none ∉ values) : ∃ amounts : List Number,
    values = amounts.map some ∧ values.filterMap id = amounts := by
  induction values with
  | nil => exact ⟨[], rfl, rfl⟩
  | cons value rest ih =>
    obtain ⟨amounts, same, kept⟩ :=
      ih fun later => priced (mem_cons_of_mem _ later)
    cases value with
    | none => exact absurd mem_cons_self priced
    | some usd =>
      refine ⟨usd :: amounts, by rw [same, map_cons], ?_⟩
      rw [filterMap_cons]
      exact congrArg (usd :: ·) kept

/-! ## When the order does not matter -/

theorem entry_of_unpriced (unpriced : ∀ value ∈ values, value = none) :
    values.foldl (absorb numbers) none = if values.isEmpty then none else some none := by
  rw [absorb_all]
  match values with
  | [] => rfl
  | none :: rest => rfl
  | some usd :: rest => cases unpriced (some usd) mem_cons_self

theorem entry_of_priced {amounts : List Number} (priced : values = amounts.map some) :
    values.foldl (absorb numbers) none =
      if amounts.isEmpty then none else some (some (amounts.foldl numbers.add numbers.zero)) := by
  subst priced
  cases amounts with
  | nil => rfl
  | cons usd rest =>
    rw [absorb_all, map_cons]
    simp only [filterMap_map, Function.comp_def, id, filterMap_some]
    rfl

/-- No order of the deposits changes the totals, and they are what they have to be, if and only if
each forwarder has deposits that can be priced only, whose values can be added in any order, or
only deposits that cannot be priced. -/
theorem usd_totals_iff (numbers : Numbers Number) (tokens : List Token)
    (prices : String → Option Number) (deposits : List Deposit) (needsUsd : Bool) :
    OrderIndependent numbers tokens prices deposits needsUsd ↔
      needsUsd = false ∨ ∀ forwarder : AddressText,
        (∀ value ∈ valuesOf numbers tokens prices deposits forwarder, value = none) ∨
          none ∉ valuesOf numbers tokens prices deposits forwarder ∧
            Additive numbers ((valuesOf numbers tokens prices deposits forwarder).filterMap id) := by
  cases needsUsd with
  | false =>
    refine iff_of_true ?_ (.inl rfl)
    intro order permutation forwarder
    exact ⟨rfl, fun impossible => (by cases impossible)⟩
  | true =>
    simp only [Bool.true_eq_false, false_or]
    constructor
    · intro independent forwarder
      by_cases unpriced : ∀ value ∈ valuesOf numbers tokens prices deposits forwarder, value = none
      · exact .inl unpriced
      · push Not at unpriced
        obtain ⟨value, member, isPriced⟩ := unpriced
        obtain ⟨usd, rfl⟩ := ne_none_iff_exists'.mp isPriced
        -- the order that begins with a deposit that can be priced gives a number
        obtain ⟨order, permutation, rest, first⟩ := exists_order_first member
        obtain ⟨_, entry⟩ := independent order permutation forwarder
        have number := entry rfl
        rw [computeUsd_apply, first, absorb_all] at number
        obtain ⟨priced, values, _, isSum⟩ := number
        rw [← first] at values
        have together := @valuesOf_perm _ numbers tokens prices deposits forwarder order permutation
        have amounts : ((valuesOf numbers tokens prices deposits forwarder).filterMap id).Perm
            priced := by
          have kept := (together.filterMap id).symm
          rw [values, filterMap_map, Function.id_comp, filterMap_some] at kept
          exact kept
        refine .inr ⟨?_, ?_⟩
        · rw [← together.mem_iff, values]
          simp
        · intro other reordered
          exact (isSum other (reordered.trans amounts)).trans (isSum _ amounts).symm
    · intro condition order permutation forwarder
      have together := @valuesOf_perm _ numbers tokens prices deposits forwarder order permutation
      rw [computeUsd_apply, computeUsd_apply]
      rcases condition forwarder with unpriced | ⟨priced, additive⟩
      · have reordered : ∀ value ∈ valuesOf numbers tokens prices order forwarder,
            value = none := fun value member => unpriced value (together.mem_iff.mp member)
        rw [entry_of_unpriced unpriced, entry_of_unpriced reordered, together.isEmpty_eq]
        refine ⟨rfl, fun _ => ?_⟩
        rw [← together.isEmpty_eq]
        cases values : valuesOf numbers tokens prices order forwarder with
        | nil => rfl
        | cons value rest =>
          rw [values] at reordered
          rw [reordered value mem_cons_self]
          exact mem_cons_self
      · obtain ⟨amounts, values, kept⟩ := exists_map_some priced
        obtain ⟨reordered, values', kept'⟩ :=
          exists_map_some (mt together.mem_iff.mp priced)
        rw [kept] at additive
        have amountsPerm : reordered.Perm amounts := by
          have both := together.filterMap id
          rwa [kept, kept'] at both
        rw [entry_of_priced values, entry_of_priced values', amountsPerm.isEmpty_eq,
          additive reordered amountsPerm]
        refine ⟨rfl, fun _ => ?_⟩
        rw [values']
        cases amounts with
        | nil => rw [perm_nil.mp amountsPerm]; rfl
        | cons usd rest =>
          refine ⟨reordered, rfl, ?_, fun other permuted => ?_⟩
          · rintro rfl
            exact absurd (nil_perm.mp amountsPerm) (by simp)
          · exact additive other (permuted.trans amountsPerm)

/-! ## Samples -/

/-- Exact numbers, of tokens without decimals. -/
def sampleNumbers : Numbers Nat where
  zero := 0
  add := (· + ·)
  mul := (· * ·)
  isFinite _ := true
  ofText _ := 0
  formatUnits amount _ := if amount = "1" then some 1 else some 5

def sampleForwarder : AddressText := ['0', 'x', 'a']

/-- A deposit of a token with a price, and one of a token without. -/
def sampleDeposits : List Deposit :=
  [⟨sampleForwarder, 1, "1", "1"⟩, ⟨sampleForwarder, 2, "5", "5"⟩]

def sampleTokens : List Token := [⟨1, some "usd-coin", 0⟩, ⟨2, none, 0⟩]

def samplePrices (id : String) : Option Nat := if id = "usd-coin" then some 1 else none

/-- The forwarder has a total although one of its deposits cannot be priced. -/
theorem usd_totals_not_independent :
    ¬OrderIndependent sampleNumbers sampleTokens samplePrices sampleDeposits true := by
  intro independent
  have entry := (independent sampleDeposits (.refl _) sampleForwarder).2 rfl
  have number : computeUsdPerForwarder sampleNumbers sampleTokens samplePrices sampleDeposits true
      sampleForwarder = some (some 1) := by decide
  rw [number] at entry
  obtain ⟨priced, values, _⟩ := entry
  have unpriced : none ∈
      valuesOf sampleNumbers sampleTokens samplePrices sampleDeposits sampleForwarder := by
    decide
  rw [values] at unpriced
  simp at unpriced

end CryptoVaultHub.Sweep.UsdTotals

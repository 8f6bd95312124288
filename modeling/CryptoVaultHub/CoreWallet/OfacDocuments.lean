import CryptoVaultHub.CoreWallet.SanctionsSync

/-!
# The documents of the OFAC parser

The XML library makes a value of each text before `parseOfacXml` sees it: one that looks like a
number becomes one, and a list of one element becomes that element. The address of a wallet is a
number of the document, and some addresses look like numbers.

What the library converts is a parameter.
-/

namespace CryptoVaultHub.CoreWallet.Ofac

open List Option

/-! ## The library -/

/-- What a text is converted to, shown as a text, and whether that is truthy. -/
structure XmlLibrary where
  convert : AddressText → Option (AddressText × Bool)

def isNumeric (char : Char) : Bool :=
  char.isDigit || "abcdefABCDEFxX+-.".toList.contains char

/-- A text of digits, signs and points, perhaps with an exponent or in hexadecimal, or the name of a
truth value. -/
def looksConverted (text : AddressText) : Bool :=
  text.all isNumeric || text = "true".toList || text = "false".toList

/-- The library converts only what looks so, and leaves an empty text. -/
structure XmlLibrary.Lawful (library : XmlLibrary) : Prop where
  looks : ∀ text, library.convert text ≠ none → looksConverted text = true
  empty : library.convert [] = none

/-- The value of a tag, without the white space around its text. -/
def XmlLibrary.value (library : XmlLibrary) (text : AddressText) : XmlValue :=
  match library.convert (trim text) with
  | some (shown, truthy) => .converted (trim text) shown truthy
  | none => .text (trim text)

/-- The elements of one name, as the library returns them. -/
inductive Collapsed (Element : Type) where
  | absent
  | single (element : Element)
  | many (elements : List Element)

def collapse {Element : Type} : List Element → Collapsed Element
  | [] => .absent
  | [element] => .single element
  | elements => .many elements

/-- `Array.isArray(x) ? x : [x]`, for `x ?? []`. -/
def Collapsed.elements {Element : Type} : Collapsed Element → List Element
  | .absent => []
  | .single element => [element]
  | .many elements => elements

theorem elements_collapse {Element : Type} (elements : List Element) :
    (collapse elements).elements = elements := by
  rcases elements with _ | ⟨first, _ | ⟨second, rest⟩⟩ <;> rfl

/-! ## Documents -/

/-- An `id` element, with the texts of its tags. -/
structure WrittenId where
  idType : Option AddressText
  idTypeDescription : Option AddressText
  idNumber : Option AddressText
  idValue : Option AddressText
  idCountry : Option AddressText
  currency : Option AddressText

/-- An `sdnEntry` element, with its `id` elements; a blank element has no tags. -/
structure WrittenEntry where
  uid : Option AddressText
  uidAttribute : Option AddressText
  firstName : Option AddressText
  lastName : Option AddressText
  sdnName : Option AddressText
  ids : List (Option WrittenId)

abbrev WrittenDocument := List (Option WrittenEntry)

variable (library : XmlLibrary)

def XmlLibrary.id (written : WrittenId) : OfacId where
  idType := written.idType.map library.value
  idTypeDescription := written.idTypeDescription.map library.value
  idNumber := written.idNumber.map library.value
  idValue := written.idValue.map library.value
  idCountry := written.idCountry.map library.value
  currency := written.currency.map library.value

/-- Attributes are not converted. -/
def XmlLibrary.entry (written : WrittenEntry) : SdnEntry where
  uid := written.uid.map library.value
  uidAttribute := written.uidAttribute.map fun text => .text (trim text)
  firstName := written.firstName.map library.value
  lastName := written.lastName.map library.value
  sdnName := written.sdnName.map library.value
  ids := (collapse (written.ids.map (Option.map library.id))).elements

def XmlLibrary.parse (document : WrittenDocument) : Document SdnEntry :=
  .parsed (collapse (document.map (Option.map library.entry))).elements

/-- The text of the document that is the address of a wallet: the number of an id whose type
contains "digital currency", if it is not blank. -/
def WrittenId.wallet? (id : WrittenId) : Option AddressText :=
  if "digital currency".toList <:+:
      (toLowerCase (trim ((id.idType.or id.idTypeDescription).getD []))).val then
    ((id.idNumber.or id.idValue).map trim).filter fun number => number ≠ []
  else none

def WrittenEntry.wallets (entry : WrittenEntry) : List AddressText :=
  (entry.ids.filterMap id).filterMap WrittenId.wallet?

def wallets (document : WrittenDocument) : List AddressText :=
  (document.filterMap id).flatMap WrittenEntry.wallets

/-! ## Texts -/

theorem dropWhile_of_prefix {text first : AddressText} (kept : text.dropWhile isWhiteSpace = text)
    (part : first <+: text) : first.dropWhile isWhiteSpace = first := by
  rcases first with _ | ⟨char, rest⟩
  · rfl
  · obtain ⟨last, rfl⟩ := part
    have visible : isWhiteSpace char = false := by
      by_contra blank
      have shorter := congrArg List.length kept
      rw [cons_append, dropWhile_cons_of_pos (by simpa using blank)] at shorter
      have bound := (dropWhile_suffix isWhiteSpace (l := rest ++ last)).length_le
      simp only [length_cons] at shorter
      omega
    exact dropWhile_cons_of_neg (by simp [visible])

theorem trim_trim (text : AddressText) : trim (trim text) = trim text := by
  have inner : (trim text).dropWhile isWhiteSpace = trim text :=
    dropWhile_of_prefix (dropWhile_idempotent ..) (List.rdropWhile_prefix ..)
  calc trim (trim text) = ((trim text).dropWhile isWhiteSpace).rdropWhile isWhiteSpace := rfl
    _ = (trim text).rdropWhile isWhiteSpace := by rw [inner]
    _ = trim text := rdropWhile_idempotent ..

variable {library : XmlLibrary}

theorem value_of_unconverted {text : AddressText} (plain : library.convert (trim text) = none) :
    library.value text = .text (trim text) := by
  simp [XmlLibrary.value, plain]

theorem toLower_of_numeric {char : Char} (numeric : isNumeric char = true) :
    char.toLower ≠ 'g' := by
  obtain digit | letter := (Bool.or_eq_true _ _).mp numeric
  · have lower : ¬ char.isUpper := by
      simp only [Char.isDigit, Char.isUpper, Bool.and_eq_true, decide_eq_true_eq] at digit ⊢
      intro upper
      exact absurd (UInt32.le_trans upper.1 digit.2) (by decide)
    rw [Char.toLower_eq_of_not_isUpper lower]
    rintro rfl
    exact absurd digit (by decide)
  · have lowered : "abcdefABCDEFxX+-.".toList.map Char.toLower = "abcdefabcdefxx+-.".toList := by
      simp
    have member := mem_map_of_mem (f := Char.toLower) (contains_iff_mem.mp letter)
    intro lower
    rw [lowered, lower] at member
    exact absurd member (by simp)

/-- No text that contains "digital currency" is converted. -/
theorem convert_of_phrase (lawful : library.Lawful) {text : AddressText}
    (phrase : "digital currency".toList <:+: (toLowerCase text).val) :
    library.convert text = none := by
  by_contra converts
  have member : 'g' ∈ text.map Char.toLower := phrase.subset (by decide)
  obtain ⟨char, inside, lower⟩ := mem_map.mp member
  have looks := lawful.looks text converts
  simp only [looksConverted, Bool.or_eq_true, decide_eq_true_eq] at looks
  rcases looks with (numeric | rfl) | rfl
  · exact toLower_of_numeric (all_eq_true.mp numeric char inside) lower
  · exact absurd member (by decide)
  · exact absurd member (by decide)

/-! ## Ids -/

/-- The entry of a wallet, when the parser makes it. -/
inductive Reads : Option Candidate → Option AddressText → Prop where
  | none : Reads none none
  | some (candidate : Candidate) (text : AddressText)
      (reads : ofacAddress candidate.address = some text) : Reads (some candidate) (some text)

/-- A wallet that the parser skips, or at which it ends. -/
inductive Loses : Option Candidate → Option AddressText → Prop where
  | skips (text : AddressText) : Loses none (some text)
  | ends (candidate : Candidate) (text : AddressText)
      (fails : ofacAddress candidate.address = none) : Loses (some candidate) (some text)

theorem includesAny_value (lawful : library.Lawful) (text? : Option AddressText) :
    includesAny ["digital currency"] (text?.map library.value) =
      decide ("digital currency".toList <:+: (toLowerCase (trim (text?.getD []))).val) := by
  rcases text? with _ | text
  · exact (decide_eq_false (by decide)).symm
  · cases converts : library.convert (trim text) with
    | none =>
      rw [map_some, value_of_unconverted converts]
      exact Bool.or_false _
    | some result =>
      have other : ¬ "digital currency".toList <:+: (toLowerCase (trim text)).val := fun phrase =>
        absurd (convert_of_phrase lawful phrase) (by simp [converts])
      simp only [map_some, XmlLibrary.value, converts, getD_some]
      exact (decide_eq_false other).symm

theorem WrittenId.trim_wallet {written : WrittenId} {text : AddressText}
    (wallet : written.wallet? = some text) : trim text = text ∧ text ≠ [] := by
  unfold WrittenId.wallet? at wallet
  split at wallet
  · obtain ⟨number, visible⟩ := filter_eq_some_iff.mp wallet
    obtain ⟨raw, -, rfl⟩ := map_eq_some_iff.mp number
    exact ⟨trim_trim raw, of_decide_eq_true visible⟩
  · cases wallet

/-- The parser takes the ids of wallets, but not those with a falsy number. -/
theorem map_candidate? (lawful : library.Lawful) (sdn : SdnEntry) (written : WrittenId) :
    ((library.id written).candidate? sdn).map Candidate.address =
      (written.wallet?.map library.value).filter XmlValue.truthy := by
  unfold OfacId.candidate? WrittenId.wallet?
  simp only [XmlLibrary.id, ← map_or, includesAny_value lawful, decide_eq_true_eq]
  split
  · rcases written.idNumber.or written.idValue with _ | number
    · rfl
    · have again : library.value (trim number) = library.value number := by
        simp only [XmlLibrary.value, trim_trim]
      by_cases blank : trim number = []
      · have empty : library.value number = .text [] := by
          rw [← blank]
          exact value_of_unconverted (blank ▸ lawful.empty)
        simp [Option.filter, blank, empty, XmlValue.truthy]
      · simp only [map_some, Option.filter, again, blank, ne_eq, not_false_eq_true,
          decide_true, if_true]
        split <;> rfl
  · rfl

theorem candidate?_reads (lawful : library.Lawful) (sdn : SdnEntry) (written : WrittenId)
    (plain : ∀ text, written.wallet? = some text → library.convert text = none) :
    Reads ((library.id written).candidate? sdn) written.wallet? := by
  have taken := map_candidate? lawful sdn written
  cases wallet : written.wallet? with
  | none =>
    rw [wallet] at taken
    rw [map_eq_none_iff.mp taken]
    exact .none
  | some text =>
    obtain ⟨trimmed, visible⟩ := WrittenId.trim_wallet wallet
    have isText : library.value text = .text text := by
      rw [value_of_unconverted (by rw [trimmed]; exact plain text wallet), trimmed]
    rw [wallet, map_some, isText, filter_some,
      if_pos (by simpa [XmlValue.truthy] using visible)] at taken
    obtain ⟨candidate, found, address⟩ := map_eq_some_iff.mp taken
    rw [found]
    exact .some candidate text (by rw [address, ofacAddress, trimmed])

theorem candidate?_loses (lawful : library.Lawful) (sdn : SdnEntry) (written : WrittenId)
    {text : AddressText} (wallet : written.wallet? = some text)
    (converts : library.convert text ≠ none) :
    Loses ((library.id written).candidate? sdn) written.wallet? := by
  have taken := map_candidate? lawful sdn written
  obtain ⟨trimmed, -⟩ := WrittenId.trim_wallet wallet
  obtain ⟨⟨shown, truthy⟩, converted⟩ := ne_none_iff_exists'.mp converts
  have isValue : library.value text = .converted text shown truthy := by
    simp only [XmlLibrary.value, trimmed, converted]
  rw [wallet, map_some, isValue, filter_some] at taken
  split at taken
  · obtain ⟨candidate, found, address⟩ := map_eq_some_iff.mp taken
    rw [wallet, found]
    exact .ends candidate text (by rw [address, ofacAddress])
  · rw [wallet, map_eq_none_iff.mp taken]
    exact .skips text

/-! ## The loop -/

section Loop

variable {pairs : List (Option Candidate × Option AddressText)}

theorem readCandidates_of_reads (reads : ∀ pair ∈ pairs, Reads pair.1 pair.2) :
    (readCandidates ofacAddress (pairs.filterMap Prod.fst)).entries.map
      ParsedSanctionEntry.cryptoAddress = pairs.filterMap Prod.snd := by
  induction pairs with
  | nil => rfl
  | cons pair rest ih =>
    have later := ih fun other member => reads other (mem_cons_of_mem _ member)
    obtain ⟨candidate?, text?⟩ := pair
    cases reads _ mem_cons_self with
    | none => exact later
    | some candidate text found =>
      simp [readCandidates, found, candidate.entry_cryptoAddress, later]

/-- One wallet that is lost leaves fewer entries than wallets. -/
theorem length_readCandidates_lt
    (each : ∀ pair ∈ pairs, Reads pair.1 pair.2 ∨ Loses pair.1 pair.2) :
    (readCandidates ofacAddress (pairs.filterMap Prod.fst)).entries.length ≤
        (pairs.filterMap Prod.snd).length ∧
      ((∃ pair ∈ pairs, Loses pair.1 pair.2) →
        (readCandidates ofacAddress (pairs.filterMap Prod.fst)).entries.length <
          (pairs.filterMap Prod.snd).length) := by
  induction pairs with
  | nil => simp [readCandidates]
  | cons pair rest ih =>
    obtain ⟨most, fewer⟩ := ih fun other member => each other (mem_cons_of_mem _ member)
    obtain ⟨candidate?, text?⟩ := pair
    obtain reads | loses := each _ mem_cons_self
    · have elsewhere : ¬ Loses candidate? text? := by
        rintro (_ | ⟨_, _, fails⟩) <;> cases reads
        rename_i found
        cases found.symm.trans fails
      have lost : (∃ pair ∈ (candidate?, text?) :: rest, Loses pair.1 pair.2) →
          ∃ pair ∈ rest, Loses pair.1 pair.2 := by
        rintro ⟨other, member, loses⟩
        rcases mem_cons.mp member with rfl | later
        · exact absurd loses elsewhere
        · exact ⟨other, later, loses⟩
      cases reads with
      | none => exact ⟨most, fun loses => fewer (lost loses)⟩
      | some candidate text found =>
        simp only [filterMap_cons, readCandidates, found, length_cons]
        exact ⟨Nat.succ_le_succ most, fun loses => Nat.succ_lt_succ (fewer (lost loses))⟩
    · cases loses with
      | skips text =>
        simp only [filterMap_cons, length_cons]
        exact ⟨Nat.le_succ_of_le most, fun _ => Nat.lt_succ_of_le most⟩
      | ends candidate text fails =>
        simp [readCandidates, fails]

end Loop

/-! ## Completeness -/

/-- The candidate that the parser makes of each id, and the wallet that it writes. -/
def pairs (library : XmlLibrary) (document : WrittenDocument) :
    List (Option Candidate × Option AddressText) :=
  (document.filterMap id).flatMap fun entry =>
    (entry.ids.filterMap id).map fun written =>
      ((library.id written).candidate? (library.entry entry), written.wallet?)

theorem filterMap_pairs_wallets (library : XmlLibrary) (document : WrittenDocument) :
    (pairs library document).filterMap Prod.snd = wallets document := by
  rw [pairs, filterMap_flatMap]
  simp only [filterMap_map]
  rfl

theorem filterMap_map_map {First Second : Type} (convert : First → Second)
    (elements : List (Option First)) :
    (elements.map (Option.map convert)).filterMap id = (elements.filterMap id).map convert := by
  rw [filterMap_map, map_filterMap]
  rfl

theorem candidates_entry (entry : WrittenEntry) :
    (library.entry entry).candidates =
      ((entry.ids.filterMap id).map library.id).filterMap
        (OfacId.candidate? (library.entry entry)) := by
  rw [SdnEntry.candidates, ← filterMap_map_map]
  simp only [XmlLibrary.entry, elements_collapse]

theorem parseOfacXml_parse (document : WrittenDocument) :
    parseOfacXml (library.parse document) =
      readCandidates ofacAddress ((pairs library document).filterMap Prod.fst) := by
  rw [parseOfacXml, XmlLibrary.parse, Document.read, elements_collapse, filterMap_map_map, pairs,
    filterMap_flatMap, flatMap_map]
  simp only [filterMap_map, candidates_entry]
  rfl

/-- The parser has one entry for each wallet of the document, with the address as it is written,
if and only if the library converts none of the addresses. -/
theorem ofac_complete_iff (library : XmlLibrary) (lawful : library.Lawful)
    (document : WrittenDocument) :
    (parseOfacXml (library.parse document)).entries.map ParsedSanctionEntry.cryptoAddress =
        wallets document ↔
      ∀ text ∈ wallets document, library.convert text = none := by
  rw [parseOfacXml_parse, ← filterMap_pairs_wallets library]
  have written {pair : Option Candidate × Option AddressText}
      (member : pair ∈ pairs library document) : ∃ entry written,
        pair = ((library.id written).candidate? (library.entry entry), written.wallet?) := by
    obtain ⟨entry, -, inside⟩ := mem_flatMap.mp member
    obtain ⟨written, -, rfl⟩ := mem_map.mp inside
    exact ⟨entry, written, rfl⟩
  constructor
  · intro complete text wallet
    by_contra converts
    have each : ∀ pair ∈ pairs library document, Reads pair.1 pair.2 ∨ Loses pair.1 pair.2 := by
      intro pair member
      obtain ⟨entry, written, rfl⟩ := written member
      by_cases plain : ∀ text, written.wallet? = some text → library.convert text = none
      · exact .inl (candidate?_reads lawful _ written plain)
      · push Not at plain
        obtain ⟨text, wallet, converts⟩ := plain
        exact .inr (candidate?_loses lawful _ written wallet converts)
    obtain ⟨pair, member, isWallet⟩ := mem_filterMap.mp wallet
    have loses : Loses pair.1 pair.2 := by
      obtain ⟨entry, written, rfl⟩ := written member
      exact candidate?_loses lawful _ written isWallet converts
    have fewer := (length_readCandidates_lt each).2 ⟨pair, member, loses⟩
    have equal := congrArg List.length complete
    rw [length_map] at equal
    exact absurd equal (Nat.ne_of_lt fewer)
  · intro plain
    refine readCandidates_of_reads fun pair member => ?_
    obtain ⟨entry, written, rfl⟩ := written member
    exact candidate?_reads lawful _ written fun text wallet =>
      plain text (mem_filterMap.mpr ⟨_, member, wallet⟩)

/-! ## Samples -/

/-- A library that converts one address, of a hexadecimal number. -/
def sampleLibrary : XmlLibrary where
  convert text :=
    if text = "0x0000000000000000000000000000000000000010".toList then some ("16".toList, true)
    else none

def currencyId (number : String) : WrittenId where
  idType := some "Digital Currency Address - XBT".toList
  idTypeDescription := none
  idNumber := some number.toList
  idValue := none
  idCountry := none
  currency := none

def listing (ids : List (Option WrittenId)) : WrittenEntry where
  uid := some "17".toList
  uidAttribute := none
  firstName := none
  lastName := some "Holder".toList
  sdnName := none
  ids := ids

theorem sampleLibrary_lawful : sampleLibrary.Lawful where
  looks text converts := by
    simp only [sampleLibrary, ne_eq, ite_eq_right_iff, reduceCtorEq, imp_false, not_not] at converts
    rw [converts]
    decide +kernel
  empty := by decide +kernel

theorem ofac_complete_sample :
    (parseOfacXml (sampleLibrary.parse [some (listing
        [some (currencyId "12QtD5BFwRsdNsAZY76UVE1xyCGNTojH9h")])])).entries.map
      ParsedSanctionEntry.cryptoAddress = wallets [some (listing
        [some (currencyId "12QtD5BFwRsdNsAZY76UVE1xyCGNTojH9h")])] :=
  (ofac_complete_iff sampleLibrary sampleLibrary_lawful _).mpr (by decide +kernel)

/-- An address that looks like a number, before another. -/
theorem ofac_incomplete :
    ∃ library : XmlLibrary, library.Lawful ∧ ∃ document : WrittenDocument,
      wallets document = ["0x0000000000000000000000000000000000000010".toList,
          "12QtD5BFwRsdNsAZY76UVE1xyCGNTojH9h".toList] ∧
        (parseOfacXml (library.parse document)).entries = [] :=
  ⟨sampleLibrary, sampleLibrary_lawful,
    [some (listing [some (currencyId "0x0000000000000000000000000000000000000010")]),
      some (listing [some (currencyId "12QtD5BFwRsdNsAZY76UVE1xyCGNTojH9h")])],
    by decide +kernel, by decide +kernel⟩

end CryptoVaultHub.CoreWallet.Ofac

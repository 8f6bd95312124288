import CryptoVaultHub.Semantics.Execution

/-!
# CSV output

`CsvGenerator` writes a header and a line for each row, quoting the fields that need it.
`parse` is the reader of RFC 4180, and `csv_read_back` reads the output back.
-/

namespace CryptoVaultHub.Export

/-- A text as its characters. -/
abbrev Text := List Char

/-! ## The reader -/

/-- Where the reader stands in a record. -/
inductive Place where
  | start
  | plain
  | quoted
  | closed
  | carriage
  deriving DecidableEq

/-- Read the records of a text, with the field and the fields of the record begun so far. The
last record may leave out its line break. -/
def read : Place → Text → List Text → Text → Option (List (List Text))
  | .quoted, _, _, [] => none
  | .carriage, _, _, [] => none
  | .start, _, [], [] => some []
  | _, field, fields, [] => some [fields ++ [field]]
  | .quoted, field, fields, char :: rest =>
    if char = '"' then read .closed field fields rest
    else read .quoted (field ++ [char]) fields rest
  | .carriage, field, fields, char :: rest =>
    if char = '\n' then (read .start [] [] rest).map fun records => (fields ++ [field]) :: records
    else none
  | place, field, fields, char :: rest =>
    if char = ',' then read .start [] (fields ++ [field]) rest
    else if char = '\r' then read .carriage field fields rest
    else if char = '\n' then none
    else if char = '"' then
      match place with
      | .start => read .quoted field fields rest
      | .closed => read .quoted (field ++ ['"']) fields rest
      | _ => none
    else if place = .closed then none
    else read .plain (field ++ [char]) fields rest

/-- The records of a text, unless it is not well formed. -/
def parse (text : Text) : Option (List (List Text)) := read .start [] [] text

/-! ## The generator -/

/-- A value of a row; a primitive is kept as the text `String` gives for it. -/
inductive Value (Object : Type) where
  | null
  | undefined
  | object (value : Object)
  | primitive (shown : Text)

/-- The fields of `CsvGenerator`. -/
structure CsvGenerator where
  headerWritten : Bool := false
  columns : List Text

/-- Double the quotes of a text. -/
def doubled : Text → Text
  | [] => []
  | char :: rest => if char = '"' then '"' :: '"' :: doubled rest else char :: doubled rest

/-- Quote a text that holds a comma, a quote or a line break. -/
def escapeText (text : Text) : Text :=
  if ',' ∈ text ∨ '"' ∈ text ∨ '\n' ∈ text ∨ '\r' ∈ text then '"' :: doubled text ++ ['"']
  else text

variable {Object : Type} (stringify : Object → Option Text)

/-- `escapeField`; `stringify` is `JSON.stringify`, `none` where it gives no text and the call
throws. -/
def escapeField : Value Object → Option Text
  | .null | .undefined => some []
  | .object value => (stringify value).map escapeText
  | .primitive shown => some (escapeText shown)

/-- A line of fields already escaped. -/
def line (fields : List Text) : Text := List.intercalate [','] fields ++ ['\r', '\n']

/-- `_transform`: the chunks it pushes, and the generator after it unless it fails. -/
def transform (generator : CsvGenerator) (row : Text → Value Object) :
    List Text × Option CsvGenerator :=
  let header := if generator.headerWritten then [] else [line (generator.columns.map escapeText)]
  match generator.columns.mapM fun column => escapeField stringify (row column) with
  | none => (header, none)
  | some fields => (header ++ [line fields], some { generator with headerWritten := true })

/-- Write rows until one fails: the chunks pushed, and whether every row was written. -/
def write : CsvGenerator → List (Text → Value Object) → List Text × Bool
  | _, [] => ([], true)
  | generator, row :: rows =>
    match transform stringify generator row with
    | (chunks, none) => (chunks, false)
    | (chunks, some next) => (chunks ++ (write next rows).1, (write next rows).2)

/-- The string form of a value, where it has one. -/
def stringForm : Value Object → Option Text
  | .null | .undefined => some []
  | .object value => stringify value
  | .primitive shown => some shown

/-- The fields of a row. -/
def record (columns : List Text) (row : Text → Value Object) : List Text :=
  columns.map fun column => (stringForm stringify (row column)).getD []

/-! ## Reading back -/

/-- The places after a whole field. -/
def Place.Ended (place : Place) : Prop := place = .start ∨ place = .plain ∨ place = .closed

theorem read_doubled (field text : Text) (fields : List Text) (rest : Text) :
    read .quoted field fields (doubled text ++ '"' :: rest) =
      read .closed (field ++ text) fields rest := by
  induction text generalizing field with
  | nil => simp [doubled, read]
  | cons char text ih =>
    by_cases quote : char = '"'
    · subst quote
      simpa [doubled, read] using ih (field ++ ['"'])
    · simpa [doubled, quote, read] using ih (field ++ [char])

theorem read_plain (field text : Text) (fields : List Text) (rest : Text)
    (plain : ∀ char ∈ text, char ≠ ',' ∧ char ≠ '"' ∧ char ≠ '\n' ∧ char ≠ '\r') :
    read .plain field fields (text ++ rest) = read .plain (field ++ text) fields rest := by
  induction text generalizing field with
  | nil => simp
  | cons char text ih =>
    obtain ⟨comma, quote, feed, carriage⟩ := plain char List.mem_cons_self
    simpa [read, comma, quote, feed, carriage] using
      ih (field ++ [char]) fun other member => plain other (List.mem_cons_of_mem _ member)

/-- The reader takes an escaped text back whole. -/
theorem read_escapeText (text : Text) (fields : List Text) (rest : Text) :
    ∃ place, Place.Ended place ∧
      read .start [] fields (escapeText text ++ rest) = read place text fields rest := by
  unfold escapeText
  split
  · refine ⟨.closed, .inr (.inr rfl), ?_⟩
    simpa [read] using read_doubled [] text fields rest
  · rename_i special
    have plain : ∀ char ∈ text, char ≠ ',' ∧ char ≠ '"' ∧ char ≠ '\n' ∧ char ≠ '\r' := by
      rintro char member
      refine ⟨?_, ?_, ?_, ?_⟩ <;> rintro rfl <;> simp [member] at special
    cases text with
    | nil => exact ⟨.start, .inl rfl, by simp⟩
    | cons char text =>
      obtain ⟨comma, quote, feed, carriage⟩ := plain char List.mem_cons_self
      refine ⟨.plain, .inr (.inl rfl), ?_⟩
      simpa [read, comma, quote, feed, carriage] using read_plain [char] text fields rest
        fun other member => plain other (List.mem_cons_of_mem _ member)

theorem read_comma {place : Place} (ended : place.Ended) (field : Text) (fields : List Text)
    (rest : Text) :
    read place field fields (',' :: rest) = read .start [] (fields ++ [field]) rest := by
  obtain rfl | rfl | rfl := ended <;> simp [read]

theorem read_lineBreak {place : Place} (ended : place.Ended) (field : Text)
    (fields : List Text) (rest : Text) :
    read place field fields ('\r' :: '\n' :: rest) =
      (parse rest).map fun records => (fields ++ [field]) :: records := by
  obtain rfl | rfl | rfl := ended <;> simp [read, parse]

/-- A line is read as one record, with the fields already read before its own. -/
theorem read_line {texts : List Text} (nonempty : texts ≠ []) (fields : List Text) (rest : Text) :
    read .start [] fields (line (texts.map escapeText) ++ rest) =
      (parse rest).map fun records => (fields ++ texts) :: records := by
  induction texts generalizing fields with
  | nil => exact absurd rfl nonempty
  | cons text texts ih =>
    cases texts with
    | nil =>
      obtain ⟨place, ended, whole⟩ := read_escapeText text fields ('\r' :: '\n' :: rest)
      simpa [line, read_lineBreak ended] using whole
    | cons next texts =>
      have tail := ih (List.cons_ne_nil _ _) (fields ++ [text])
      obtain ⟨place, ended, whole⟩ := read_escapeText text fields
        (',' :: (line ((next :: texts).map escapeText) ++ rest))
      rw [read_comma ended, tail] at whole
      simpa [line, List.intercalate] using whole

theorem mapM_escapeField {columns : List Text} {row : Text → Value Object}
    (defined : ∀ column ∈ columns, stringForm stringify (row column) ≠ none) :
    columns.mapM (fun column => escapeField stringify (row column)) =
      some ((record stringify columns row).map escapeText) := by
  induction columns with
  | nil => rfl
  | cons column columns ih =>
    have first : escapeField stringify (row column) =
        some (escapeText ((stringForm stringify (row column)).getD [])) := by
      have present := defined column List.mem_cons_self
      cases value : row column with
      | object =>
        obtain ⟨text, shown⟩ := Option.ne_none_iff_exists'.mp (value ▸ present)
        simp_all [escapeField, stringForm]
      | primitive => rfl
      | _ => simp [escapeField, stringForm, escapeText]
    have rest := ih fun other member => defined other (List.mem_cons_of_mem _ member)
    simp [first, rest, record]

/-- Every row writes its record after the header, which is written once. -/
theorem parse_write {columns : List Text} (nonempty : columns ≠ [])
    (rows : List (Text → Value Object))
    (defined : ∀ row ∈ rows, ∀ column ∈ columns, stringForm stringify (row column) ≠ none) :
    (write stringify ⟨true, columns⟩ rows).2 = true ∧
      parse (write stringify ⟨true, columns⟩ rows).1.flatten =
        some (rows.map (record stringify columns)) := by
  induction rows with
  | nil => exact ⟨rfl, rfl⟩
  | cons row rows ih =>
    obtain ⟨done, records⟩ := ih fun other member => defined other (List.mem_cons_of_mem _ member)
    have fields := mapM_escapeField stringify (defined row List.mem_cons_self)
    have texts : record stringify columns row ≠ [] := by simpa [record] using nonempty
    have first := read_line texts [] (write stringify ⟨true, columns⟩ rows).1.flatten
    simp only [records] at first
    simpa [write, transform, fields, done, parse] using first

/-- Whatever the values hold, a reader of the output finds the column names and then one record
for each row. -/
theorem csv_read_back {columns : List Text} (nonempty : columns ≠ [])
    {rows : List (Text → Value Object)} (given : rows ≠ [])
    (defined : ∀ row ∈ rows, ∀ column ∈ columns, stringForm stringify (row column) ≠ none) :
    (write stringify { columns } rows).2 = true ∧
      parse (write stringify { columns } rows).1.flatten =
        some (columns :: rows.map (record stringify columns)) := by
  cases rows with
  | nil => exact absurd rfl given
  | cons row rows =>
    obtain ⟨done, records⟩ := parse_write stringify nonempty (row :: rows) defined
    have header := read_line nonempty []
      (write stringify ⟨true, columns⟩ (row :: rows)).1.flatten
    have fields := mapM_escapeField stringify (defined row List.mem_cons_self)
    simp only [records] at header
    simp only [write, transform, fields, if_true, List.nil_append] at done header
    simpa [write, transform, fields, done, parse] using header

theorem csv_read_back_sample :
    parse (write (fun _ : Unit => some "[\"a\",1]".toList) { columns := ["x,".toList, []] }
      [fun column => if column = [] then .object () else .null]).1.flatten =
        some [["x,".toList, []], [[], "[\"a\",1]".toList]] := by
  have run := @csv_read_back Unit (fun _ => some "[\"a\",1]".toList) ["x,".toList, []] (by decide)
    [fun column => if column = [] then .object () else .null] (by simp) (by simp [stringForm])
  simpa [record, stringForm] using run.2

end CryptoVaultHub.Export

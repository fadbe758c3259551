import PlantEconomics.Market.PriceTable.Reading
import PlantEconomics.Proofs.Csv.Writing
import PlantEconomics.Proofs.Outcome
import PlantEconomics.Proofs.Text.Encoding

/-!
# Price tables that are written and read

A header and rows of texts are written as a document of quoted fields. Reading it gives the table
of the trimmed texts, if the price fields are numbers, and otherwise the fault of the first one
that is none, row by row.

  * `PriceTable.RowReads`: what a row of a table has to do with the texts of its fields;
  * `PriceTable.FirstUnread`: the first price field that is no number;
  * `PriceTable.ofDocument_of_written`: reading undoes writing.
-/

namespace PlantEconomics

namespace PriceTable

/-- The trimmed text of a field. -/
def field (row : List String) (k : Nat) : String := Text.trim (row.getD k "")

/-- The trimmed text of a price field. -/
def priceField (rows : List (List String)) (i j : Nat) : String := field (rows.getD i []) (j + 2)

/-! ## §1. Fields -/

theorem textsFrom_encode (record : Nat) (place : Csv.Place) (i : Nat) (texts : List String) :
    textsFrom record place i (texts.map Utf8.encode) = .ok texts := by
  induction texts generalizing i with
  | nil => rfl
  | cons text texts ih =>
    rw [List.map_cons, textsFrom, Utf8.decode_encode]
    dsimp only
    rw [ih]
    rfl

theorem headerTexts_eq {r : Csv.Record} {header : List String}
    (fields : r.fields = header.map Utf8.encode) : headerTexts r = .ok (header.map Text.trim) := by
  unfold headerTexts
  rw [fields, textsFrom_encode]
  rfl

/-- The fields of a row are trimmed twice, as bytes and as texts. -/
theorem rowTexts_eq {r : Csv.Record} {row : List String} (fields : r.fields = row.map Utf8.encode)
    (number : Nat) {width : Nat} (fits : row.length = width) :
    rowTexts number width r = .ok (row.map Text.trim) := by
  have bytes : (row.map Utf8.encode).map (Text.trimBy Text.isBlankByte) =
      (row.map Text.asciiTrim).map Utf8.encode := by
    simp only [List.map_map, Function.comp_def, Utf8.trimBy_encode]
  have texts : (row.map Text.asciiTrim).map Text.trim = row.map Text.trim := by
    simp only [List.map_map, Function.comp_def, Text.trim_asciiTrim]
  unfold rowTexts
  rw [if_neg (by rw [fields, List.length_map]; exact not_not_intro fits), fields, bytes,
    textsFrom_encode, Except.map, texts]

theorem getD_map_trim (row : List String) (k : Nat) :
    (row.map Text.trim).getD k "" = field row k := by
  unfold field
  rw [List.getD_eq_getElem?_getD, List.getD_eq_getElem?_getD, List.getElem?_map]
  cases row[k]? with
  | none => rfl
  | some text => rfl

theorem field_drop (row : List String) (k : Nat) : field (row.drop 2) k = field row (k + 2) := by
  unfold field
  rw [List.getD_eq_getElem?_getD, List.getElem?_drop, ← List.getD_eq_getElem?_getD, Nat.add_comm]

theorem priceField_eq {rows : List (List String)} {i : Nat} (h : i < rows.length) (j : Nat) :
    priceField rows i j = field rows[i] (j + 2) := by
  unfold priceField
  rw [List.getD_eq_getElem?_getD, List.getElem?_eq_getElem h]
  rfl

/-! ## §2. Rows -/

/-- Whether a row of a table is what the texts of its fields say. -/
structure RowReads {n : Nat} (texts : List String) (row : PriceRow Float n) : Prop where
  label : row.label = field texts 0
  timestamp : row.timestamp = DateTime.read? (field texts 0)
  scenario : row.scenario = field texts 1
  prices : ∀ j : Fin n, Decimal.read? (field texts (j + 2)) = some (row.prices.get j)

theorem readPrice_eq_ok_iff {number : Nat} {column text : String} {x : Float} :
    readPrice number column text = .ok x ↔ Decimal.read? text = some x := by
  unfold readPrice
  cases Decimal.read? text <;> simp

theorem readPrice_eq_error_iff {number : Nat} {column text : String} {e : Fault Float} :
    readPrice number column text = .error e ↔
      Decimal.read? text = none ∧ e = .dataShape (.notANumber number column text) := by
  unfold readPrice
  cases Decimal.read? text <;> simp [eq_comm]

section Row

variable {columns : List String} {number : Nat} {r : Csv.Record} {texts : List String}

theorem readRow_eq (fields : r.fields = texts.map Utf8.encode)
    (fits : texts.length = columns.length + 2) : readRow columns number r = do
      let prices ← Vector.ofFnM fun j : Fin columns.length =>
        readPrice number columns[j] (field texts (j + 2))
      return ⟨field texts 0, DateTime.read? (field texts 0), field texts 1, prices⟩ := by
  unfold readRow
  rw [rowTexts_eq fields number fits]
  simp only [Except.mapError, bind, Except.bind, getD_map_trim]

/-- A row that is read is what its fields say. -/
theorem rowReads_of_readRow (fields : r.fields = texts.map Utf8.encode)
    (fits : texts.length = columns.length + 2) {row : PriceRow Float columns.length}
    (run : readRow columns number r = .ok row) : RowReads texts row := by
  rw [readRow_eq fields fits] at run
  simp only [bind_eq_ok_iff, pure_eq_ok_iff] at run
  obtain ⟨prices, hprices, rfl⟩ := run
  refine ⟨by dsimp only, by dsimp only, by dsimp only, fun j => ?_⟩
  exact readPrice_eq_ok_iff.1 (eq_ok_of_ofFnM_eq_ok hprices j)

/-- A row that is not read has a first price field that is no number. -/
theorem exists_unread_of_readRow (fields : r.fields = texts.map Utf8.encode)
    (fits : texts.length = columns.length + 2) {e : Fault Float}
    (run : readRow columns number r = .error e) :
    ∃ j, ∃ h : j < columns.length, Decimal.read? (field texts (j + 2)) = none ∧
      (∀ j' < j, (Decimal.read? (field texts (j' + 2))).isSome) ∧
      e = .dataShape (.notANumber number columns[j] (field texts (j + 2))) := by
  rw [readRow_eq fields fits] at run
  rcases bind_eq_error_iff.1 run with unread | ⟨_, -, impossible⟩
  · obtain ⟨j, hj, before⟩ := exists_first_of_ofFnM_eq_error unread
    obtain ⟨none, fault⟩ := readPrice_eq_error_iff.1 hj
    refine ⟨j, j.isLt, none, fun j' earlier => ?_, fault⟩
    obtain ⟨x, hx⟩ := before ⟨j', earlier.trans j.isLt⟩ earlier
    exact Option.isSome_iff_exists.2 ⟨x, readPrice_eq_ok_iff.1 hx⟩
  · cases impossible

end Row

/-! ## §3. All rows -/

/-- Whether a price field is the first that is no number, row by row. -/
structure FirstUnread (rows : List (List String)) (n i j : Nat) : Prop where
  row : i < rows.length
  column : j < n
  unread : Decimal.read? (priceField rows i j) = none
  before : ∀ i' < rows.length, ∀ j' < n, i' < i ∨ i' = i ∧ j' < j →
    (Decimal.read? (priceField rows i' j')).isSome

/-- The first price field behind a row that is read is the first one with that row. -/
theorem FirstUnread.succ {texts : List String} {rows : List (List String)} {n i j : Nat}
    (h : FirstUnread rows n i j) (row : ∀ j' < n, (Decimal.read? (field texts (j' + 2))).isSome) :
    FirstUnread (texts :: rows) n (i + 1) j := by
  refine ⟨Nat.succ_lt_succ h.row, h.column, h.unread, fun i' inside j' hj' earlier => ?_⟩
  cases i' with
  | zero => exact row j' hj'
  | succ i' => exact h.before i' (Nat.lt_of_succ_lt_succ inside) j' hj' (by omega)

section Rows

variable {columns : List String} {number : Nat} {records : List Csv.Record}
  {rows : List (List String)}

/-- Rows that are read are what their fields say. -/
theorem rowsRead_of_readRows
    (fields : records.map (·.fields) = rows.map (·.map Utf8.encode))
    (even : ∀ row ∈ rows, row.length = columns.length + 2)
    {read : List (PriceRow Float columns.length)} (run : readRows columns number records = .ok read) :
    List.Forall₂ RowReads rows read := by
  induction rows generalizing records number read with
  | nil =>
    obtain rfl := List.map_eq_nil_iff.1 fields
    cases run
    exact .nil
  | cons texts rows ih =>
    obtain ⟨r, rest, rfl, first, others⟩ := List.map_eq_cons_iff.1 fields
    obtain ⟨fits, even⟩ := List.forall_mem_cons.1 even
    simp only [readRows, bind_eq_ok_iff, pure_eq_ok_iff] at run
    obtain ⟨row, hrow, more, hmore, rfl⟩ := run
    exact .cons (rowReads_of_readRow first fits hrow) (ih others even hmore)

/-- Rows that are not read have a first price field that is no number. -/
theorem exists_firstUnread_of_readRows
    (fields : records.map (·.fields) = rows.map (·.map Utf8.encode))
    (even : ∀ row ∈ rows, row.length = columns.length + 2) {e : Fault Float}
    (run : readRows columns number records = .error e) :
    ∃ i j, FirstUnread rows columns.length i j ∧
      e = .dataShape (.notANumber (number + i) (columns.getD j "") (priceField rows i j)) := by
  induction rows generalizing records number with
  | nil =>
    obtain rfl := List.map_eq_nil_iff.1 fields
    cases run
  | cons texts rows ih =>
    obtain ⟨r, rest, rfl, first, others⟩ := List.map_eq_cons_iff.1 fields
    obtain ⟨fits, even⟩ := List.forall_mem_cons.1 even
    -- the rows in front of a faulty one have been read, so their prices are numbers
    rcases bind_eq_error_iff.1 run with here | ⟨row, hrow, run⟩
    · obtain ⟨j, inside, unread, before, rfl⟩ := exists_unread_of_readRow first fits here
      refine ⟨0, j, ⟨Nat.zero_lt_succ _, inside, unread, fun i' _ j' _ earlier => ?_⟩, ?_⟩
      · obtain ⟨rfl, left⟩ : i' = 0 ∧ j' < j := by omega
        exact before j' left
      · rw [List.getD_eq_getElem?_getD, List.getElem?_eq_getElem inside]
        rfl
    · rcases bind_eq_error_iff.1 run with later | ⟨_, -, impossible⟩
      · obtain ⟨i, j, unread, rfl⟩ := ih others even later
        refine ⟨i + 1, j, unread.succ fun j' inside => ?_, ?_⟩
        · exact Option.isSome_iff_exists.2 ⟨_, (rowReads_of_readRow first fits hrow).prices ⟨j', inside⟩⟩
        · rw [Nat.add_right_comm, Nat.add_assoc]
          rfl
      · cases impossible

end Rows

/-! ## §4. Documents -/

section Document

variable {header : List String} {rows : List (List String)} {document : List UInt8}

/-- A written document is read as its header and its rows. -/
theorem ofDocument_eq (wide : 3 ≤ header.length)
    (written : Csv.Written ((header :: rows).map (·.map Utf8.encode)) document)
    (even : ∀ row ∈ rows, row.length = header.length) :
    ∃ records : List Csv.Record, records.map (·.fields) = rows.map (·.map Utf8.encode) ∧
      ofDocument document = do
        let read ← readRows ((header.drop 2).map Text.trim) 1 records
        return ⟨(header.drop 2).map Text.trim, read⟩ := by
  -- a record without fields would be an empty line, and not be read at all
  have nonempty : ∀ r ∈ (header :: rows).map (·.map Utf8.encode), r ≠ [] := by
    intro r hr
    obtain ⟨row, hrow, rfl⟩ := List.mem_map.1 hr
    have long : 3 ≤ row.length := by
      rcases List.mem_cons.1 hrow with rfl | hrow
      · exact wide
      · exact (even row hrow).symm ▸ wide
    rw [Ne, List.map_eq_nil_iff, ← List.length_eq_zero_iff]
    omega
  obtain ⟨r, records, cut, fields, others⟩ :=
    List.map_eq_cons_iff.1 (Csv.records_of_written written nonempty)
  refine ⟨records, others, ?_⟩
  have enough : ¬(header.map Text.trim).length < 3 := by
    rw [List.length_map]
    exact Nat.not_lt.2 wide
  unfold ofDocument
  rw [cut, ofRecords, headerTexts_eq fields, List.map_drop]
  show (if (header.map Text.trim).length < 3 then _ else _) = _
  rw [if_neg enough]

/-- **Reading undoes writing.** A header of three texts or more and rows of as many texts, written
in quotes with any line ends, are read as the table of the trimmed texts if the price fields are
numbers, and all its columns have one length. If some price field is no number, the result is the
fault of the first one, row by row. -/
theorem ofDocument_of_written (wide : 3 ≤ header.length)
    (even : ∀ row ∈ rows, row.length = header.length)
    (written : Csv.Written ((header :: rows).map (·.map Utf8.encode)) document) :
    ((∀ row ∈ rows, ∀ j, j + 2 < header.length → (Decimal.read? (field row (j + 2))).isSome) →
      ∃ t, ofDocument document = .ok t ∧
        t.columns = (header.drop 2).map Text.trim ∧
        t.rows.map (·.label) = rows.map (field · 0) ∧
        t.timestamps = rows.map (fun row => DateTime.read? (field row 0)) ∧
        t.rows.map (·.scenario) = rows.map (field · 1) ∧
        ∀ j : Fin t.columns.length, (t.column j).length = rows.length ∧
          (t.column j).map some = rows.map fun row => Decimal.read? (field row (j + 2))) ∧
    ((∃ row ∈ rows, ∃ j, j + 2 < header.length ∧ Decimal.read? (field row (j + 2)) = none) →
      ∃ i j, FirstUnread rows (header.length - 2) i j ∧
        ofDocument document =
          .error (.dataShape (.notANumber (i + 1) (field header (j + 2)) (priceField rows i j)))) := by
  obtain ⟨records, fields, result⟩ := ofDocument_eq wide written even
  have width : ((header.drop 2).map Text.trim).length = header.length - 2 := by
    rw [List.length_map, List.length_drop]
  have fit : ∀ row ∈ rows, row.length = ((header.drop 2).map Text.trim).length + 2 := fun row hrow => by
    rw [even row hrow, width]
    omega
  -- what the rows give decides between the two halves; it rules out the premise of the other one
  cases run : readRows ((header.drop 2).map Text.trim) 1 records with
  | ok read =>
    have rowsRead := rowsRead_of_readRows fields fit run
    rw [run] at result
    constructor
    · intro _
      refine ⟨⟨_, read⟩, result, rfl, map_eq_of_forall₂ rowsRead fun _ _ h => h.label,
        map_eq_of_forall₂ rowsRead fun _ _ h => h.timestamp,
        map_eq_of_forall₂ rowsRead fun _ _ h => h.scenario, fun j => ⟨?_, ?_⟩⟩
      · rw [column, List.length_map, rowsRead.length_eq]
      · rw [column, List.map_map]
        exact map_eq_of_forall₂ rowsRead fun _ _ h => (h.prices j).symm
    · rintro ⟨row, hrow, j, inside, unread⟩
      have said := map_eq_of_forall₂ rowsRead fun _ _ h => (h.prices ⟨j, by omega⟩).symm
      have none_mem : none ∈ rows.map fun row => Decimal.read? (field row (j + 2)) :=
        unread ▸ List.mem_map_of_mem hrow
      rw [← said] at none_mem
      obtain ⟨_, -, impossible⟩ := List.mem_map.1 none_mem
      cases impossible
  | error e =>
    obtain ⟨i, j, first, rfl⟩ := exists_firstUnread_of_readRows fields fit run
    rw [run] at result
    constructor
    · intro all
      have inside := first.column
      have isSome := all _ (List.getElem_mem first.row) j (by omega)
      rw [← priceField_eq first.row, first.unread] at isSome
      cases isSome
    · intro _
      refine ⟨i, j, width ▸ first, ?_⟩
      rw [result, getD_map_trim, field_drop, Nat.add_comm 1 i]
      rfl

end Document

/-- Fields with a comma, a line end, quotes and blanks in them, behind line ends of three kinds; and
the same header over a row whose price is no number. -/
theorem ofDocument_of_written_odd_fields :
    let header := ["t", "s", " p \"q\" "]
    let rows := [["a", "b,\r\nc ", "\u2003 1.5\n"], ["d ", "", "2"]]
    let document := Utf8.encode
      "\"t\",\"s\",\" p \"\"q\"\" \"\r\n\"a\",\"b,\r\nc \",\"\u2003 1.5\n\"\r\"d \",\"\",\"2\""
    let faulty := Utf8.encode "\"t\",\"s\",\" p \"\"q\"\" \"\n\"a\",\"b\",\"1\"\n\"c\",\"d\",\" x \"\n"
    Csv.Written ((header :: rows).map (·.map Utf8.encode)) document ∧
    (∃ t, ofDocument document = .ok t ∧ t.columns = ["p \"q\""] ∧
      t.rows.map (·.label) = ["a", "d"] ∧ t.rows.map (·.scenario) = ["b,\r\nc", ""] ∧
      ∀ j, (t.column j).map some = [some 1.5, some 2]) ∧
    ofDocument faulty = .error (.dataShape (.notANumber 2 "p \"q\"" "x")) := by
  intro header rows document faulty
  have written : Csv.Written ((header :: rows).map (·.map Utf8.encode)) document := by
    have spelled : document = Csv.quotedRecord (header.map Utf8.encode) ++ [0x0D, 0x0A] ++
        (Csv.quotedRecord (["a", "b,\r\nc ", "\u2003 1.5\n"].map Utf8.encode) ++ [0x0D] ++
          Csv.quotedRecord (["d ", "", "2"].map Utf8.encode)) := by decide +kernel
    rw [spelled]
    exact .ended _ .both (.ended _ .carriageReturn (.unended _))
  have writtenFaulty : Csv.Written
      ((header :: [["a", "b", "1"], ["c", "d", " x "]]).map (·.map Utf8.encode)) faulty := by
    have spelled : faulty = Csv.quotedRecord (header.map Utf8.encode) ++ [0x0A] ++
        (Csv.quotedRecord (["a", "b", "1"].map Utf8.encode) ++ [0x0A] ++
          (Csv.quotedRecord (["c", "d", " x "].map Utf8.encode) ++ [0x0A] ++ [])) := by
      decide +kernel
    rw [spelled]
    exact .ended _ .lineFeed (.ended _ .lineFeed (.ended _ .lineFeed .nothing))
  have numbers : ∀ row ∈ rows, ∀ j < 1, (Decimal.read? (field row (j + 2))).isSome := by
    decide +kernel
  refine ⟨written, ?_, ?_⟩
  · obtain ⟨t, read, columns, labels, -, scenarios, prices⟩ :=
      (ofDocument_of_written (by decide) (by decide) written).1 fun row hrow j inside =>
        numbers row hrow j (Nat.lt_of_add_lt_add_right inside)
    refine ⟨t, read, columns.trans (by decide +kernel), labels.trans (by decide +kernel),
      scenarios.trans (by decide +kernel), fun j => ?_⟩
    have one : t.columns.length = 1 := by
      rw [columns]
      rfl
    rw [(prices j).2, show (j : Nat) = 0 by omega]
    decide +kernel
  · obtain ⟨i, j, first, fault⟩ := (ofDocument_of_written (by decide) (by decide) writtenFaulty).2
      ⟨["c", "d", " x "], by simp, 0, by decide, by decide +kernel⟩
    have row : i < 2 := first.row
    obtain rfl : j = 0 := Nat.lt_one_iff.1 first.column
    have column : field header (0 + 2) = "p \"q\"" := by decide +kernel
    have text : priceField [["a", "b", "1"], ["c", "d", " x "]] 1 0 = "x" := by decide +kernel
    obtain rfl | rfl : i = 0 ∨ i = 1 := by omega
    · exact absurd first.unread (by decide +kernel)
    · rw [fault, column, text]

end PriceTable

end PlantEconomics

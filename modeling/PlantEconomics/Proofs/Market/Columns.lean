import PlantEconomics.Market.PriceTable.Reading
import PlantEconomics.Proofs.Outcome

/-!
# Price tables by columns

A price table may as well be kept by columns: a list of labels, one of moments, one of scenarios and
one of prices for every price column. Such a table is cut down to a scenario by picking places out
of every list, and it is read by lengthening the lists record by record, the columns of prices one
after the other. A table of rows is that table turned around: its rows cannot differ in length, and
no place can be missing from one of the lists.

  * `PriceTable.byColumns`: the table turned around;
  * `PriceTable.byColumns_ofScenario`, `PriceTable.series_byColumns`: scenarios and series;
  * `PriceTable.byColumns_ofDocument`: reading.
-/

namespace PlantEconomics

/-! ## §1. Tables by columns -/

/-- A price table by columns. -/
structure PriceColumns (α : Type) where
  labels : List String
  timestamps : List (Option DateTime)
  scenarios : List String
  names : List String
  prices : List (List α)

namespace PriceColumns

variable {α : Type}

/-- The elements in some places of a list. -/
def pick {β : Type} (places : List Nat) (l : List β) : List β := places.filterMap fun i => l[i]?

/-- The places of a scenario. -/
def placesOf (scenarios : List String) (scenario : String) : List Nat :=
  (scenarios.zipIdx.filter fun s => s.1 == scenario).map (·.2)

/-- The table of one scenario. The scenario has to have a place. -/
def ofScenario (c : PriceColumns α) (scenario : String) : Except (Fault α) (PriceColumns α) :=
  let places := placesOf c.scenarios scenario
  if places.isEmpty then .error (.unknownOption "scenario" scenario)
  else
    .ok {
      labels := pick places c.labels
      timestamps := pick places c.timestamps
      scenarios := pick places c.scenarios
      names := c.names
      prices := c.prices.map (pick places) }

/-- The first column of a name as a series. -/
def series (c : PriceColumns α) (name : String) : Except (Fault α) (PriceSeries α) :=
  match c.names.idxOf? name with
  | none => .error (.unknownOption "price column" name)
  | some i => PriceSeries.ofRows name c.timestamps (c.prices.getD i [])

end PriceColumns

namespace PriceTable

variable {α : Type}

/-- The columns of prices in the rows of a table. -/
def pricesByColumns {n : Nat} (rows : List (PriceRow α n)) : List (List α) :=
  (List.finRange n).map fun j => rows.map fun row => row.prices.get j

/-- A table turned around. -/
def byColumns (t : PriceTable α) : PriceColumns α where
  labels := t.rows.map (·.label)
  timestamps := t.timestamps
  scenarios := t.rows.map (·.scenario)
  names := t.columns
  prices := pricesByColumns t.rows

/-! ## §2. Scenarios and series -/

section Places

variable {β : Type} (l : List β) (key : β → String) (scenario : String)

/-- The places of a scenario are those of the elements that have it for their key. -/
theorem placesOf_map : PriceColumns.placesOf (l.map key) scenario =
    (l.zipIdx.filter fun x => key x.1 == scenario).map (·.2) := by
  unfold PriceColumns.placesOf
  rw [List.zipIdx_map, List.filter_map, List.map_map]
  rfl

/-- The elements with a key, from what goes with their places. -/
theorem filter_eq_map_zipIdx : l.filter (fun b => key b == scenario) =
    (l.zipIdx.filter fun x => key x.1 == scenario).map (·.1) := by
  conv_lhs => rw [← List.zipIdx_map_fst 0 l, List.filter_map]
  rfl

/-- What is in the places of a scenario is what the elements with that key are made into. -/
theorem pick_map {γ : Type} (f : β → γ) :
    PriceColumns.pick (PriceColumns.placesOf (l.map key) scenario) (l.map f) =
      (l.filter fun b => key b == scenario).map f := by
  have found : ∀ x ∈ l.zipIdx.filter (fun x => key x.1 == scenario),
      (l.map f)[x.2]? = some (f x.1) := fun x hx => by
    rw [List.getElem?_map, List.mem_zipIdx_iff_getElem?.1 (List.mem_filter.1 hx).1]
    rfl
  unfold PriceColumns.pick
  calc (PriceColumns.placesOf (l.map key) scenario).filterMap (fun i => (l.map f)[i]?)
      = (l.zipIdx.filter fun x => key x.1 == scenario).filterMap fun x => (l.map f)[x.2]? := by
        rw [placesOf_map, List.filterMap_map]
        rfl
    _ = (l.zipIdx.filter fun x => key x.1 == scenario).filterMap fun x => some (f x.1) :=
        List.filterMap_congr found
    _ = (l.filter fun b => key b == scenario).map f := by
        rw [filter_eq_map_zipIdx l, List.map_map, ← List.filterMap_eq_map]
        rfl

theorem isEmpty_placesOf : (PriceColumns.placesOf (l.map key) scenario).isEmpty =
    (l.filter fun b => key b == scenario).isEmpty := by
  rw [placesOf_map, filter_eq_map_zipIdx l, List.isEmpty_map, List.isEmpty_map]

end Places

/-- The rows of a scenario turned around are the places of the scenario picked out of all columns. -/
theorem byColumns_ofScenario (t : PriceTable α) (scenario : String) :
    (t.ofScenario scenario).map byColumns = t.byColumns.ofScenario scenario := by
  unfold ofScenario PriceColumns.ofScenario
  dsimp only [byColumns]
  rw [isEmpty_placesOf]
  split
  · rfl
  · simp only [Except.map, byColumns, timestamps, pricesByColumns, List.map_map, Function.comp_def,
      pick_map]

/-- A table by columns has the same series. -/
theorem series_byColumns (t : PriceTable α) (name : String) :
    t.byColumns.series name = t.series name := by
  unfold series PriceColumns.series
  dsimp only [byColumns]
  rw [List.idxOf?_eq_map_finIdxOf?_val]
  cases t.columns.finIdxOf? name with
  | none => rfl
  | some i =>
    have listed : (List.finRange t.columns.length)[i.val]? = some i := by simp
    have place : (pricesByColumns t.rows).getD i [] = t.column i := by
      rw [pricesByColumns, List.getD_eq_getElem?_getD, List.getElem?_map, listed]
      rfl
    dsimp only [Option.map_some]
    rw [place]

/-! ## §3. Reading -/

/-- The lists that records lengthen. -/
structure Filling where
  labels : List String
  scenarios : List String
  prices : List (List Float)

/-- Lengthen the columns of prices, one after the other, by what the fields of a record write. -/
def pushPrices (names : List String) (number : Nat) (texts : List String)
    (prices : List (List Float)) : Except (Fault Float) (List (List Float)) :=
  prices.zipIdx.mapM fun c =>
    (readPrice number (names.getD c.2 "") (texts.getD (c.2 + 2) "")).map fun x => c.1 ++ [x]

/-- Lengthen all lists by a record. -/
def Filling.push (names : List String) (f : Filling) (number : Nat) (r : Csv.Record) :
    Except (Fault Float) Filling := do
  let texts ← (rowTexts number (names.length + 2) r).mapError .csv
  let labels := f.labels ++ [texts.getD 0 ""]
  let scenarios := f.scenarios ++ [texts.getD 1 ""]
  let prices ← pushPrices names number texts f.prices
  return { labels, scenarios, prices }

/-- The table by columns that the records behind a header fill. The moments are read off the labels
in the end. -/
def fill (names : List String) (records : List Csv.Record) :
    Except (Fault Float) (PriceColumns Float) := do
  let start : Filling := ⟨[], [], names.map fun _ => []⟩
  let f ← (records.zipIdx 1).foldlM (fun f r => f.push names r.2 r.1) start
  return {
    labels := f.labels
    timestamps := f.labels.map DateTime.read?
    scenarios := f.scenarios
    names
    prices := f.prices }

/-- The table by columns that a document holds. -/
def columnsOfDocument (document : List UInt8) : Except (Fault Float) (PriceColumns Float) :=
  match Csv.records document with
  | [] => .error (.dataShape (.fewColumns 0))
  | header :: rest => do
    let texts ← (headerTexts header).mapError .csv
    if texts.length < 3 then .error (.dataShape (.fewColumns texts.length))
    else fill (texts.drop 2) rest

/-- Lists that rows have filled. -/
def Filling.ofRows {n : Nat} (rows : List (PriceRow Float n)) : Filling :=
  ⟨rows.map (·.label), rows.map (·.scenario), pricesByColumns rows⟩

/-- Steps one after the other along a vector and along a list, with a use made of each result. -/
theorem mapM_finRange {ε β γ : Type} {n : Nat} (f : Fin n → Except ε β) (g : Fin n → β → γ) :
    (List.finRange n).mapM (fun j => (f j).map (g j)) =
      (Vector.ofFnM f).map fun v => (List.finRange n).map fun j => g j (v.get j) := by
  induction n with
  | zero =>
    rw [Vector.ofFnM_zero]
    rfl
  | succ n ih =>
    have front := ih (fun j => f j.castSucc) fun j => g j.castSucc
    rw [List.finRange_succ_last, List.mapM_append, List.mapM_map, Function.comp_def, front,
      Vector.ofFnM_succ]
    cases Vector.ofFnM fun j : Fin n => f j.castSucc with
    | error e => rfl
    | ok front =>
      cases last : f (Fin.last n) with
      | error e => simp [last, Except.map, bind, Except.bind]
      | ok x =>
        have early (j : Fin n) : (front.push x).get j.castSucc = front.get j :=
          Vector.getElem_push_lt j.isLt
        have late : (front.push x).get (Fin.last n) = x := Vector.getElem_push_eq
        simp [last, early, late, Except.map, bind, Except.bind, pure, Except.pure,
          Function.comp_def]

/-- Lengthening the columns of some rows by a record is reading its prices and adding them as those
of another row. -/
theorem pushPrices_pricesByColumns (names : List String) (number : Nat) (texts : List String)
    (rows : List (PriceRow Float names.length)) :
    pushPrices names number texts (pricesByColumns rows) =
      (Vector.ofFnM fun j : Fin names.length =>
        readPrice number (names.get j) (texts.getD (j + 2) "")).map fun prices =>
          (List.finRange names.length).map fun j =>
            rows.map (fun row => row.prices.get j) ++ [prices.get j] := by
  have numbered : (pricesByColumns rows).zipIdx =
      (List.finRange names.length).map fun j : Fin names.length =>
        (rows.map fun row => row.prices.get j, j.val) := by
    refine List.ext_getElem (by simp [pricesByColumns]) fun i _ _ => ?_
    simp [pricesByColumns]
  have each : ∀ j : Fin names.length,
      (readPrice number (names.getD j "") (texts.getD (j + 2) "")) =
        readPrice number (names.get j) (texts.getD (j + 2) "") := fun j => by
    simp
  unfold pushPrices
  rw [numbered, List.mapM_map, Function.comp_def]
  simp only [each]
  exact mapM_finRange _ fun j x => rows.map (fun row => row.prices.get j) ++ [x]

/-- **One record.** It lengthens the lists of some rows to those with its own row behind them, and
fails where its row does. -/
theorem Filling.push_ofRows (names : List String) (rows : List (PriceRow Float names.length))
    (number : Nat) (r : Csv.Record) :
    (Filling.ofRows rows).push names number r =
      (readRow names number r).map fun row => Filling.ofRows (rows ++ [row]) := by
  unfold Filling.push readRow
  cases (rowTexts number (names.length + 2) r).mapError Fault.csv with
  | error e => rfl
  | ok texts =>
    simp only [Filling.ofRows, bind, Except.bind]
    rw [pushPrices_pricesByColumns]
    show _ = Except.map _ ((Vector.ofFnM fun j : Fin names.length =>
      readPrice number (names.get j) (texts.getD (j + 2) "")).bind _)
    cases Vector.ofFnM fun j : Fin names.length =>
        readPrice number (names.get j) (texts.getD (j + 2) "") with
    | error e => rfl
    | ok prices => simp [Except.map, Except.bind, pure, Except.pure, pricesByColumns]

/-- **All records.** They lengthen the lists of some rows to those with their own rows behind
them. -/
theorem Filling.foldlM_push_ofRows (names : List String)
    (rows : List (PriceRow Float names.length)) (number : Nat) (records : List Csv.Record) :
    (records.zipIdx number).foldlM (fun f r => f.push names r.2 r.1) (Filling.ofRows rows) =
      (readRows names number records).map fun read => Filling.ofRows (rows ++ read) := by
  induction records generalizing rows number with
  | nil => simp [readRows, Except.map, pure, Except.pure]
  | cons r rest ih =>
    rw [List.zipIdx_cons, List.foldlM_cons, Filling.push_ofRows, readRows]
    cases readRow names number r with
    | error e => rfl
    | ok row =>
      show List.foldlM _ (Filling.ofRows (rows ++ [row])) (rest.zipIdx (number + 1)) = _
      rw [ih]
      cases readRows names (number + 1) rest with
      | error e => rfl
      | ok read => simp [Except.map, bind, Except.bind, pure, Except.pure]

/-- A row is read with the moment of its label. -/
theorem timestamp_of_readRow {names : List String} {number : Nat} {r : Csv.Record}
    {row : PriceRow Float names.length} (run : readRow names number r = .ok row) :
    row.timestamp = DateTime.read? row.label := by
  unfold readRow at run
  simp only [bind_eq_ok_iff, pure_eq_ok_iff] at run
  obtain ⟨texts, -, prices, -, rfl⟩ := run
  rfl

theorem timestamps_of_readRows {names : List String} {number : Nat} {records : List Csv.Record}
    {rows : List (PriceRow Float names.length)} (run : readRows names number records = .ok rows) :
    rows.map (·.timestamp) = (rows.map (·.label)).map DateTime.read? := by
  induction records generalizing number rows with
  | nil =>
    cases run
    rfl
  | cons r rest ih =>
    simp only [readRows, bind_eq_ok_iff, pure_eq_ok_iff] at run
    obtain ⟨row, first, more, others, rfl⟩ := run
    simp only [List.map_cons, timestamp_of_readRow first, ih others]

/-- Filling the lists of a table is reading its rows. -/
theorem fill_eq (names : List String) (records : List Csv.Record) :
    fill names records = (readRows names 1 records).map fun rows => byColumns ⟨names, rows⟩ := by
  have start : (⟨[], [], names.map fun _ => []⟩ : Filling) =
      Filling.ofRows ([] : List (PriceRow Float names.length)) := by
    simp [Filling.ofRows, pricesByColumns, List.map_const']
  unfold fill
  dsimp only
  rw [start, Filling.foldlM_push_ofRows]
  cases read : readRows names 1 records with
  | error e => rfl
  | ok rows =>
    simp [Except.map, bind, Except.bind, pure, Except.pure, byColumns, Filling.ofRows, timestamps,
      timestamps_of_readRows read]

/-- **Reading row by row is reading column by column.** A document gives the same table either way,
or the same fault. -/
theorem byColumns_ofDocument (document : List UInt8) :
    (ofDocument document).map byColumns = columnsOfDocument document := by
  unfold ofDocument columnsOfDocument
  cases Csv.records document with
  | nil => rfl
  | cons header rest =>
    unfold ofRecords
    dsimp only
    cases (headerTexts header).mapError (Fault.csv : Csv.Fault → Fault Float) with
    | error e => rfl
    | ok texts =>
      show Except.map byColumns (if texts.length < 3 then _ else _) =
        if texts.length < 3 then _ else _
      split
      · rfl
      · rw [fill_eq]
        cases readRows (texts.drop 2) 1 rest <;> rfl

end PriceTable

end PlantEconomics

import PlantEconomics.Market.PriceTable
import PlantEconomics.Proofs.Market.Chronology

/-!
# The rows of a scenario

The table of a scenario has the rows that are labelled with it, in their order, and every column of
it is cut down in the same places. What was in the order of time stays so: a row that is left out
takes a moment away, and any two moments that are left were in order before.

  * `exists_places_of_filter`: what a list keeps, by places, and so the rows of a scenario;
  * `PriceTable.ofScenario_keeps_rows`: the table of a scenario, its series and its own scenarios.
-/

namespace PlantEconomics

/-! ## §1. Places -/

/-- The elements that a list keeps, by their places in it. -/
theorem exists_places_of_filter {β : Type} (l : List β) (p : β → Bool) :
    ∃ places : List Nat, places.Pairwise (· < ·) ∧
      (∀ i, i ∈ places ↔ ∃ b, l[i]? = some b ∧ p b) ∧
      (l.filter p).map some = places.map fun i => l[i]? := by
  -- the places are filtered by what is found there, so both lists are cut from all places
  refine ⟨(List.range l.length).filter fun i => l[i]?.any p, ?_, fun i => ?_, ?_⟩
  · exact List.pairwise_lt_range.filter _
  · rw [List.mem_filter, List.mem_range]
    constructor
    · rintro ⟨hi, kept⟩
      rw [List.getElem?_eq_getElem hi] at kept ⊢
      exact ⟨l[i], rfl, kept⟩
    · rintro ⟨b, hb, kept⟩
      refine ⟨(List.getElem?_eq_some_iff.1 hb).1, ?_⟩
      rw [hb]
      exact kept
  · have every : (List.range l.length).map (fun i => l[i]?) = l.map some := by
      refine List.ext_getElem (by simp) fun i hi _ => ?_
      have inside : i < l.length := by simpa using hi
      simp [inside]
    calc (l.filter p).map some
        = (l.map some).filter (Option.any p) := by
          rw [List.filter_map]
          rfl
      _ = ((List.range l.length).map fun i => l[i]?).filter (Option.any p) := by rw [every]
      _ = _ := by
          rw [List.filter_map]
          rfl

/-- What is in some places of a list is found in the same places of what is made of the list. -/
theorem map_places {β γ : Type} {kept l : List β} {places : List Nat}
    (h : kept.map some = places.map fun i => l[i]?) (f : β → γ) :
    (kept.map f).map some = places.map fun i => (l.map f)[i]? := by
  calc (kept.map f).map some
      = (kept.map some).map (Option.map f) := by
        rw [List.map_map, List.map_map]
        rfl
    _ = (places.map fun i => l[i]?).map (Option.map f) := by rw [h]
    _ = places.map fun i => (l.map f)[i]? := by
        rw [List.map_map]
        simp [Function.comp_def]

namespace PriceTable

variable {α : Type}

/-! ## §2. The table of a scenario -/

/-- Whether places are those of the rows of a scenario, in their order. -/
structure PlacesOf (t : PriceTable α) (scenario : String) (places : List Nat) : Prop where
  ascending : places.Pairwise (· < ·)
  mem_iff : ∀ i, i ∈ places ↔ ∃ row, t.rows[i]? = some row ∧ row.scenario = scenario

/-- Whether a row is one of a scenario. -/
def Has (t : PriceTable α) (scenario : String) : Prop := ∃ row ∈ t.rows, row.scenario = scenario

theorem ofScenario_of_has {t : PriceTable α} {scenario : String} (has : t.Has scenario) :
    t.ofScenario scenario =
      .ok { t with rows := t.rows.filter fun row => row.scenario == scenario } := by
  obtain ⟨row, hrow, own⟩ := has
  have some_row : row ∈ t.rows.filter fun row => row.scenario == scenario :=
    List.mem_filter.2 ⟨hrow, beq_iff_eq.2 own⟩
  unfold ofScenario
  have nonempty : (t.rows.filter fun row => row.scenario == scenario).isEmpty = false := by
    rw [List.isEmpty_eq_false_iff]
    exact List.ne_nil_of_mem some_row
  simp [nonempty]

theorem ofScenario_of_not_has {t : PriceTable α} {scenario : String} (h : ¬t.Has scenario) :
    t.ofScenario scenario = .error (.unknownOption "scenario" scenario) := by
  have none : t.rows.filter (fun row => row.scenario == scenario) = [] := by
    rw [List.filter_eq_nil_iff]
    intro row hrow own
    exact h ⟨row, hrow, eq_of_beq own⟩
  unfold ofScenario
  simp [none]

theorem series_eq_ok_iff {t : PriceTable α} {name : String} {s : PriceSeries α} :
    t.series name = .ok s ↔ ∃ i, t.columns.finIdxOf? name = some i ∧
      PriceSeries.InTimeOrder t.timestamps ∧ s = ⟨name, t.timestamps, t.column i⟩ := by
  unfold series
  cases t.columns.finIdxOf? name with
  | none => simp
  | some i =>
    have even : t.timestamps.length = (t.column i).length := by simp [timestamps, column]
    simp [PriceSeries.ofRows_eq_ok_iff, even]

/-- **The table of a scenario has its rows and nothing else.** There is one exactly when some row is
labelled with the scenario. Its rows are those in the places of the scenario, in their order, and so
are the moments and the values of each of its series. It is its own table of the scenario, and it
has no other scenario. A column that is a series of the whole table is one of the scenario too. -/
theorem ofScenario_keeps_rows (t : PriceTable α) (scenario : String) :
    (t.ofScenario scenario = .error (.unknownOption "scenario" scenario) ↔ ¬t.Has scenario) ∧
    (t.Has scenario → ∃ rows places, t.PlacesOf scenario places ∧
      rows.map some = places.map (fun i => t.rows[i]?) ∧
      t.ofScenario scenario = .ok { t with rows } ∧
      (∀ name s, PriceTable.series { t with rows } name = .ok s →
        ∃ i, t.columns.finIdxOf? name = some i ∧ s.name = name ∧
          s.timestamps.map some = places.map (fun j => t.timestamps[j]?) ∧
          s.values.map some = places.map fun j => (t.column i)[j]?) ∧
      PriceTable.ofScenario { t with rows } scenario = .ok { t with rows } ∧
      (∀ other ≠ scenario, PriceTable.ofScenario { t with rows } other =
        .error (.unknownOption "scenario" other)) ∧
      ∀ name s, t.series name = .ok s →
        ∃ s', PriceTable.series { t with rows } name = .ok s') := by
  constructor
  · constructor
    · intro refused has
      rw [ofScenario_of_has has] at refused
      cases refused
    · exact ofScenario_of_not_has
  · intro has
    obtain ⟨places, ascending, places_iff, kept⟩ :=
      exists_places_of_filter t.rows fun row => row.scenario == scenario
    refine ⟨_, places, ⟨ascending, fun i => ?_⟩, kept, ofScenario_of_has has, ?_, ?_, ?_, ?_⟩
    · rw [places_iff]
      simp only [beq_iff_eq]
    · intro name s run
      obtain ⟨i, column, -, rfl⟩ := series_eq_ok_iff.1 run
      exact ⟨i, column, rfl, map_places kept (·.timestamp), map_places kept (·.prices[i])⟩
    · -- its rows are all labelled with the scenario
      obtain ⟨row, hrow, own⟩ := has
      have again : PriceTable.Has { t with rows := t.rows.filter (·.scenario == scenario) }
          scenario := ⟨row, List.mem_filter.2 ⟨hrow, beq_iff_eq.2 own⟩, own⟩
      rw [ofScenario_of_has again]
      simp only [List.filter_filter, Bool.and_self]
    · intro other different
      refine ofScenario_of_not_has ?_
      rintro ⟨row, hrow, own⟩
      exact different (own.symm.trans (eq_of_beq (List.mem_filter.1 hrow).2))
    · -- rows are left out, which leaves the order of time as it is
      intro name s run
      obtain ⟨i, column, ordered, -⟩ := series_eq_ok_iff.1 run
      have fewer : (t.rows.filter fun row => row.scenario == scenario).Sublist t.rows :=
        List.filter_sublist
      exact ⟨_, series_eq_ok_iff.2 ⟨i, column, ordered.sublist (fewer.map _), rfl⟩⟩

/-- Rows of two scenarios in turns, some without a moment. The rows of the one are cut out of the
labels, the moments and the prices alike. -/
theorem ofScenario_keeps_rows_in_turns :
    let hour (h : Nat) : Option DateTime := some ⟨2023, 1, 1, h, 0, 0⟩
    let t : PriceTable Nat := ⟨["2022", "2023"],
      [⟨"1", hour 1, "base", #v[10, 11]⟩, ⟨"x", none, "high", #v[20, 21]⟩,
        ⟨"y", none, "base", #v[30, 31]⟩, ⟨"2", hour 2, "high", #v[40, 41]⟩,
        ⟨"2", hour 2, "base", #v[50, 51]⟩]⟩
    t.ofScenario "low" = .error (.unknownOption "scenario" "low") ∧
    ∃ u, t.ofScenario "base" = .ok u ∧ u.rows.map (·.label) = ["1", "y", "2"] ∧
      u.ofScenario "base" = .ok u ∧
      u.ofScenario "high" = .error (.unknownOption "scenario" "high") ∧
      ∃ s, u.series "2023" = .ok s ∧ s.values = [11, 31, 51] := by
  intro hour t
  have has : t.Has "base" := ⟨_, List.mem_cons_self, rfl⟩
  have lacks : ¬t.Has "low" := by
    simp [Has, t]
  refine ⟨(ofScenario_keeps_rows t "low").1.2 lacks, ?_⟩
  obtain ⟨rows, places, placesOf, kept, run, series, again, others, accepted⟩ :=
    (ofScenario_keeps_rows t "base").2 has
  have cut : t.ofScenario "base" = .ok { t with rows := [⟨"1", hour 1, "base", #v[10, 11]⟩,
      ⟨"y", none, "base", #v[30, 31]⟩, ⟨"2", hour 2, "base", #v[50, 51]⟩] } := rfl
  obtain rfl := eq_of_heq (PriceTable.mk.inj (Except.ok.inj (run.symm.trans cut))).2
  have ordered : PriceSeries.InTimeOrder t.timestamps :=
    PriceSeries.firstBackwards?_eq_none_iff.1 rfl
  obtain ⟨s, found⟩ := accepted "2023" _ (series_eq_ok_iff.2 ⟨1, rfl, ordered, rfl⟩)
  obtain ⟨i, column, -, rfl⟩ := series_eq_ok_iff.1 found
  obtain rfl : (1 : Fin 2) = i := Option.some.inj column
  exact ⟨_, run, rfl, again, others "high" (by decide), _, found, rfl⟩

end PriceTable

end PlantEconomics

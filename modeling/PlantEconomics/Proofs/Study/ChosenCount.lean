import PlantEconomics.Study.Run
import PlantEconomics.Proofs.Clustering.Lloyd
import PlantEconomics.Proofs.Market.ClusterCount
import PlantEconomics.Proofs.Market.Conservation
import PlantEconomics.Proofs.Market.Years

/-!
# The count that a study chooses

A study that chooses its number of representative days reads its prices twice: once for the days
that the sweep goes over, and once for the days that are grouped. The sweep takes the column by its
name and the horizon of the planner; loading also lets an empty name stand for the first column, and
an override take the place of the horizon. So the two are the same days for every table exactly when
the name is not empty and the override changes nothing.

Where they are the same days, a count that the sweep has chosen can be loaded: the sweep has grouped
these days with it.

  * `sweptDays` and `groupedDays` are the two ways of reading;
  * `Planner.load_single_eq`: loading is the grouping of `groupedDays`;
  * `chosen_count_fits` puts it together.
-/

namespace PlantEconomics

/-! ## §1. What a grouping covers -/

/-- A labelling of days of one length covers all hours of all clusters. -/
theorem RepresentativeDays.covers_of_isLabelled {α : Type} [Scalar α] {samples : List (List α)}
    {k : Nat} {p : Partition α} (clusterable : Clusterable samples k)
    (labelled : p.IsLabelled samples k) :
    (ofPartition p).Covers k (featureCount samples) := by
  obtain ⟨labels, -, rfl⟩ := labelled
  intro day hday
  have number := PriceSet.mem_upTo.1 hday
  have found : (ofPartition (Partition.ofLabels samples labels k)).day? day =
      some (ofCluster samples labels (day - 1)) := day?_ofPartition_iff.2 ⟨number, rfl⟩
  refine ⟨⟨_, by rw [weight?, found, Option.map_some]⟩, fun hour hhour => ?_⟩
  obtain ⟨first, last⟩ := PriceSet.mem_upTo.1 hhour
  have inside : hour - 1 < (ofCluster samples labels (day - 1)).profile.length := by
    show hour - 1 < ((memberMean samples labels (day - 1)).map withoutNoise).length
    rw [List.length_map, length_memberMean clusterable.wide]
    omega
  exact ⟨_, price?_eq_some_iff.2 ⟨_, found, first, List.getElem?_eq_getElem inside⟩⟩

/-! ## §2. Reading the days of a table -/

namespace DayProfiles

/-- Days tell the horizon that a series was cut by. -/
theorem horizon_unique {α : Type} {s : PriceSeries α} {h h' : Nat}
    (same : ofSeries s h = ofSeries s h') : h = h' := by
  cases cut : ofSeries s h with
  | error fault =>
    -- both horizons are without hours
    have zero := (ofSeries_eq_error_iff.1 cut).1
    have zero' := (ofSeries_eq_error_iff.1 (same.symm.trans cut)).1
    exact zero.trans zero'.symm
  | ok days =>
    obtain ⟨_, made⟩ := ofSeries_eq_ok_iff.1 cut
    obtain ⟨_, made'⟩ := ofSeries_eq_ok_iff.1 (same.symm.trans cut)
    exact congrArg horizon (made.trans made'.symm)

/-- A series that fills a day has a price. -/
theorem size_pos_of_windows_ne_nil {α : Type} {s : PriceSeries α} {h : Nat} {positive : 0 < h}
    (filled : windows h positive s.values ≠ []) : 0 < s.size := by
  rw [← List.length_pos_iff, length_windows] at filled
  exact Nat.lt_of_lt_of_le filled (Nat.div_le_self _ _)

end DayProfiles

namespace Planner

/-- The days that a sweep goes over: those of a column at the planner's horizon. -/
def sweptDays (p : Planner) (table : PriceTable Float) (name : String) :
    Except (Fault Float) (DayProfiles Float) := do
  DayProfiles.ofSeries (← table.series name) p.horizon

/-- The days that are grouped: those of the column that a name stands for, at the horizon that an
override may change. -/
def groupedDays (p : Planner) (table : PriceTable Float) (name : String) (horizon? : Option Nat) :
    Except (Fault Float) (DayProfiles Float) := do
  let column ← ColumnChoice.resolve table.columns name
  DayProfiles.ofSeries (← table.series column) (horizon?.getD p.horizon)

/-- The count at the knee of days. -/
def knee (p : Planner) (days : DayProfiles Float) : Except (Fault Float) (ChosenCount Float) :=
  result (p.sweep.run days p.clusterer)

/-- The count at the knee of days that are read, as it is handed to loading. -/
def kneeCount (p : Planner) (days : Except (Fault Float) (DayProfiles Float)) :
    Except StudyFailure (Option Nat) :=
  StudyConfig.plainly do
    let chosen ← p.knee (← days)
    return some chosen.count

/-- The prices of days in `k` groups. -/
def groupedPrices (p : Planner) (horizon k : Nat) (days : DayProfiles Float) :
    Except (Fault Float) (PriceSet Float) := do
  let r ← result (RepresentativeDays.ofDays days k p.seed p.clusterer)
  PriceSet.ofDays none horizon k [(none, r)]

theorem kneeCount_eq_ok_iff {p : Planner} {days : Except (Fault Float) (DayProfiles Float)}
    {k : Option Nat} :
    p.kneeCount days = .ok k ↔
      ∃ d chosen, days = .ok d ∧ p.knee d = .ok chosen ∧ some chosen.count = k := by
  unfold kneeCount StudyConfig.plainly
  rcases days with fault | d
  · simp [bind, Except.bind, Except.mapError]
  · rcases found : p.knee d with fault | chosen
    · simp [bind, Except.bind, Except.mapError, found]
    · simp [bind, Except.bind, Except.mapError, found, pure, Except.pure]

theorem chooseCount_eq (p : Planner) (table : PriceTable Float) (name : String) :
    (table.series name >>= p.chooseCount) = p.sweptDays table name >>= p.knee := by
  unfold sweptDays chooseCount knee
  rw [bind_assoc]

theorem result_lift {β : Type} (x : Except (Fault Float) β) :
    result (liftM x : ExceptT (Fault Float) (StateM Unit) β) = x := rfl

/-- Where there is nothing to remember, the steps of a step have results of their own. -/
theorem result_bind {β γ : Type} (x : ExceptT (Fault Float) (StateM Unit) β)
    (f : β → ExceptT (Fault Float) (StateM Unit) γ) :
    result (x >>= f) = result x >>= fun b => result (f b) := by
  unfold result
  simp only [ExceptT.run_bind, StateT.run_bind]
  rcases x.run.run () with ⟨_ | b, own⟩
  · rfl
  · rfl

/-- Loading one column is grouping its days and putting the result together. -/
theorem load_single_eq (p : Planner) (table : PriceTable Float) (name : String) (k : Nat)
    (horizon? : Option Nat) :
    p.load table (.single name) (some k) horizon? =
      match Loader.fault? table (some k) (horizon?.getD p.horizon) with
      | some fault => .error fault
      | none => p.groupedDays table name horizon? >>=
          p.groupedPrices (horizon?.getD p.horizon) k := by
  unfold load Loader.load
  cases hfault : Loader.fault? table (some k) (horizon?.getD p.horizon) with
  | some fault =>
    have hfault : Loader.fault? table (some k) (horizon?.getD p.loader.horizon) = some fault :=
      hfault
    simp only [hfault]
    rfl
  | none =>
    have hfault : Loader.fault? table (some k) (horizon?.getD p.loader.horizon) = none := hfault
    simp only [hfault, Loader.groupedColumn, Loader.grouped, RepresentativeDays.ofSeries,
      groupedDays, result_bind, result_lift, bind_assoc]
    rfl

theorem groupedDays_of_ne_empty {p : Planner} {table : PriceTable Float} {name : String}
    {horizon? : Option Nat} (named : name ≠ "") :
    p.groupedDays table name horizon? =
      table.series name >>= fun s => DayProfiles.ofSeries s (horizon?.getD p.horizon) := by
  have column : (ColumnChoice.resolve table.columns name : Except (Fault Float) String) =
      .ok name := if_neg (by simpa using named)
  unfold groupedDays
  rw [column]
  rfl

/-- The two ways of reading give the same days for every table exactly when the name is not empty
and the override changes nothing. -/
theorem groupedDays_eq_sweptDays_iff {p : Planner} {name : String} {horizon? : Option Nat} :
    (∀ table, p.groupedDays table name horizon? = p.sweptDays table name) ↔
      name ≠ "" ∧ horizon?.getD p.horizon = p.horizon := by
  constructor
  · intro same
    -- tables without rows tell the two apart already
    have named : name ≠ "" := by
      rintro rfl
      have different := same ⟨["price"], []⟩
      have swept : p.sweptDays ⟨["price"], []⟩ "" = .error (.unknownOption "price column" "") := rfl
      have grouped : p.groupedDays ⟨["price"], []⟩ "" horizon? =
        DayProfiles.ofSeries ⟨"price", [], []⟩ (horizon?.getD p.horizon) := rfl
      rw [swept, grouped] at different
      -- days are never refused for the name of a column
      cases (DayProfiles.ofSeries_eq_error_iff.1 different).2
    refine ⟨named, ?_⟩
    have series : (⟨[name], []⟩ : PriceTable Float).series name = .ok ⟨name, [], []⟩ := by
      simp [PriceTable.series, PriceSeries.ofRows, PriceTable.timestamps, PriceTable.column,
        PriceSeries.firstBackwards?, List.finIdxOf?]
    have different := same ⟨[name], []⟩
    unfold sweptDays at different
    rw [groupedDays_of_ne_empty named, series] at different
    exact DayProfiles.horizon_unique (s := ⟨name, [], []⟩) different
  · rintro ⟨named, horizon⟩ table
    rw [groupedDays_of_ne_empty named, horizon]
    rfl

/-- A count that has been chosen for the days that are grouped can be loaded. -/
theorem exists_load_of_knee {p : Planner} {table : PriceTable Float} {name : String}
    {horizon? : Option Nat} {days : DayProfiles Float} {chosen : ChosenCount Float}
    (grouped : p.groupedDays table name horizon? = .ok days) (found : p.knee days = .ok chosen) :
    ∃ prices, p.load table (.single name) (some chosen.count) horizon? = .ok prices := by
  obtain ⟨column, -, read⟩ := bind_eq_ok_iff.1 grouped
  obtain ⟨s, series, cut⟩ := bind_eq_ok_iff.1 read
  obtain ⟨positive, rfl⟩ := DayProfiles.ofSeries_eq_ok_iff.1 cut
  -- the sweep has grouped these days with the chosen count, so they can be grouped with it again
  obtain ⟨own, swept⟩ := outcome_eq_ok_iff.1 found
  obtain ⟨_, q, _, fitted⟩ := CountSweep.exists_yields_of_run swept
  have clusterable := (KMeans.of_yields_fit fitted).1
  obtain ⟨q, ⟨stream, own⟩, again⟩ := KMeans.exists_yields_clusterer_iff
    (Random.SeedStream.ofSeed p.seed, ()) |>.2 clusterable
  have made : result (RepresentativeDays.ofDays _ chosen.count p.seed p.clusterer) = .ok _ :=
    outcome_eq_ok_iff.2 ⟨own, RepresentativeDays.yields_ofDays_iff.2 ⟨q, stream, again, rfl⟩⟩
  have covers := RepresentativeDays.covers_of_isLabelled clusterable (KMeans.of_yields_fit again).2
  rw [RepresentativeDays.featureCount_windows clusterable] at covers
  obtain ⟨prices, putTogether⟩ : ∃ prices, PriceSet.ofDays none (horizon?.getD p.horizon)
      chosen.count [(none, .ofPartition q)] = .ok prices :=
    PriceSet.exists_ofDays_iff.2 (by simpa using covers)
  have noFault : Loader.fault? table (some chosen.count) (horizon?.getD p.horizon) = none := by
    refine Loader.fault?_eq_none_iff.2 ⟨positive, ?_, ?_⟩
    · simpa using clusterable.some_cluster.ne'
    · rw [← PriceTable.size_of_series_eq_ok series]
      exact DayProfiles.size_pos_of_windows_ne_nil clusterable.ne_nil
  refine ⟨prices, ?_⟩
  rw [load_single_eq, noFault, grouped]
  show (result _ >>= _) = _
  rw [made]
  exact putTogether

end Planner

/-! ## §3. The count of a study -/

namespace StudyConfig

theorem clusterCount_eq {c : StudyConfig} {name : String}
    (chooses : c.source.chooseClusters = true) (one : c.source.columns = .single name)
    (p : Planner) (table : PriceTable Float) :
    c.clusterCount p table = p.kneeCount (p.sweptDays table name) := by
  unfold clusterCount Planner.kneeCount
  rw [if_pos chooses, one, ← bind_assoc, ← Planner.chooseCount_eq, bind_assoc]

/-- **A chosen count fits the days that are grouped, where these are the days of the sweep.** A
study of one column takes the count at the knee of the days that the sweep reads, and groups the
days that loading reads. For all tables these are the same exactly when the column is named and no
override changes the horizon. Where they are the same, the count is the one at the knee of the days
that are grouped, and it can be loaded. -/
theorem chosen_count_fits {c : StudyConfig} {name : String}
    (chooses : c.source.chooseClusters = true) (one : c.source.columns = .single name)
    (p : Planner) :
    let horizon? := c.source.horizonOverride
    (∀ table, c.clusterCount p table = p.kneeCount (p.sweptDays table name)) ∧
    (∀ table k, Loader.fault? table (some k) (horizon?.getD p.horizon) = none →
      p.load table c.source.columns (some k) horizon? =
        p.groupedDays table name horizon? >>= p.groupedPrices (horizon?.getD p.horizon) k) ∧
    ((∀ table, p.groupedDays table name horizon? = p.sweptDays table name) ↔
      name ≠ "" ∧ horizon?.getD p.horizon = p.horizon) ∧
    ∀ table, p.groupedDays table name horizon? = p.sweptDays table name →
      c.clusterCount p table = p.kneeCount (p.groupedDays table name horizon?) ∧
      ∀ k, c.clusterCount p table = .ok k →
        ∃ prices, p.load table c.source.columns k horizon? = .ok prices := by
  intro horizon?
  have counted := clusterCount_eq chooses one p
  refine ⟨counted, fun table k noFault => ?_, Planner.groupedDays_eq_sweptDays_iff,
    fun table same => ⟨by rw [counted, same], fun k chosen => ?_⟩⟩
  · rw [one, Planner.load_single_eq, noFault]
  · rw [counted, ← same, Planner.kneeCount_eq_ok_iff] at chosen
    obtain ⟨days, found, read, knee, rfl⟩ := chosen
    rw [one]
    exact Planner.exists_load_of_knee read knee

/-- A study whose days have an hour and whose sweep goes over one to four groups. -/
def ofHours (name : String) (horizon? : Option Nat) : StudyConfig :=
  { seed := 0, horizon := 1
    source :=
      { path := "prices.csv", scenario := none, columns := .single name, clusters := none
        chooseClusters := true, horizonOverride := horizon? }
    clustering := ⟨some 1, some 5, 1, 1⟩
    unit := .standard, ramping := .standard, times := .standard, cashFlow := .standard
    goal := "NPV", solve := true }

/-- The planner of such a study. -/
def hourPlanner : Planner := ⟨0, 1, ⟨some 1, some 5, 1, 1⟩⟩

/-- Two cheap and two dear hours. -/
def cheapAndDear : PriceTable Float :=
  ⟨["price"], [0, 0, 10, 10].map fun price => ⟨"", none, "base", #v[price]⟩⟩

/-- Its hours fall into two groups, and an empty name stands for its column. -/
theorem readings_cheapAndDear :
    hourPlanner.sweptDays cheapAndDear "price" = .ok ⟨1, [[0], [0], [10], [10]]⟩ ∧
    hourPlanner.groupedDays cheapAndDear "" none = .ok ⟨1, [[0], [0], [10], [10]]⟩ ∧
    hourPlanner.groupedDays cheapAndDear "price" (some 4) = .ok ⟨4, [[0, 0, 10, 10]]⟩ := by
  decide +kernel

theorem kneeCount_cheapAndDear :
    hourPlanner.kneeCount (.ok ⟨1, [[0], [0], [10], [10]]⟩) = .ok (some 2) := by
  have knee : (hourPlanner.knee ⟨1, [[0], [0], [10], [10]]⟩).map (·.count) = .ok 2 := by
    decide +kernel
  obtain ⟨chosen, found, count⟩ := map_eq_ok_iff.1 knee
  exact Planner.kneeCount_eq_ok_iff.2 ⟨_, chosen, rfl, found, congrArg some count⟩

/-- Without an override and with its name, the column is grouped by the count that was chosen. -/
theorem chosen_count_fits_two_groups :
    let c := ofHours "price" none
    c.planner = (.ok hourPlanner : Except (Fault Float) Planner) ∧
    c.source.chooseClusters = true ∧ c.source.columns = .single "price" ∧
    c.clusterCount hourPlanner cheapAndDear = .ok (some 2) ∧
    ∃ prices, hourPlanner.load cheapAndDear (.single "price") (some 2) none = .ok prices := by
  intro c
  have one : c.source.columns = .single "price" := rfl
  obtain ⟨counted, -, reads, fits⟩ := chosen_count_fits (c := c) rfl one hourPlanner
  have chosen : c.clusterCount hourPlanner cheapAndDear = .ok (some 2) := by
    rw [counted, readings_cheapAndDear.1, kneeCount_cheapAndDear]
  have same := reads.2 ⟨by decide, rfl⟩ cheapAndDear
  exact ⟨rfl, rfl, one, chosen, (fits cheapAndDear same).2 (some 2) chosen⟩

/-- With an override the chosen count may be too large for the days that are grouped, and with an
empty name there is no count, although the days that would be grouped have one. -/
theorem chosen_count_misfits :
    (let c := ofHours "price" (some 4)
     c.clusterCount hourPlanner cheapAndDear = .ok (some 2) ∧
     hourPlanner.load cheapAndDear c.source.columns (some 2) c.source.horizonOverride =
       .error (.dataShape (.moreClustersThanSamples 2 1))) ∧
    (let c := ofHours "" none
     hourPlanner.kneeCount (hourPlanner.groupedDays cheapAndDear "" c.source.horizonOverride) =
       .ok (some 2) ∧
     c.clusterCount hourPlanner cheapAndDear =
       .error (.plain (.unknownOption "price column" ""))) := by
  obtain ⟨swept, first, overridden⟩ := readings_cheapAndDear
  refine ⟨⟨?_, ?_⟩, ?_, rfl⟩
  · rw [clusterCount_eq rfl rfl, swept, kneeCount_cheapAndDear]
  · show hourPlanner.load cheapAndDear (.single "price") (some 2) (some 4) = _
    have noFault : Loader.fault? cheapAndDear (some 2) ((some 4).getD hourPlanner.horizon) = none :=
      rfl
    rw [Planner.load_single_eq, noFault, overridden]
    rfl
  · show hourPlanner.kneeCount (hourPlanner.groupedDays cheapAndDear "" none) = _
    rw [first, kneeCount_cheapAndDear]

end StudyConfig

end PlantEconomics

import PlantEconomics.Proofs.Dispatch.Building
import PlantEconomics.Proofs.Market.PriceMaps

/-!
# What loading gives

The four layouts load one or several columns, each in full or by its representative days. Here a
single column is a list of one column without a year, so that each pair of layouts is one.

When loading succeeds, the result is complete: every period has one price and every day one weight.
Prices are read off the table or off the representative days of the column of their year, whatever
the clusterer made of them: a clusterer that leaves out a day or an hour makes loading fail.
-/

namespace PlantEconomics

variable {α σ : Type}

/-! ## §1. Columns -/

namespace ColumnChoice

/-- The columns that a choice picks among names, each with its year, and the list of the years. -/
inductive Picks (α : Type) (names : List String) :
    ColumnChoice → Option (List Int) → List (Option Int × String) → Prop
  | single {name column : String}
      (found : (resolve names name : Except (Fault α) String) = .ok column) :
      Picks α names (.single name) none [(none, column)]
  | years {labels : List String} {years : List (Int × String)}
      (read : (readYears labels : Except (Fault α) _) = .ok years) :
      Picks α names (.years labels) (some (years.map (·.1)))
        (years.map fun p => (some p.1, p.2))

/-- Nothing is found to be repeated only in a list without repetition. -/
theorem nodup_of_repeated_eq_nil {ys : List Int} (h : repeated [] [] ys = []) : ys.Nodup := by
  -- what was found once stays found
  have kept : ∀ (ys seen found : List Int), found ≠ [] → repeated seen found ys ≠ [] := by
    intro ys
    induction ys with
    | nil => intro seen found hfound; simpa [repeated] using hfound
    | cons y ys ih =>
      intro seen found hfound
      unfold repeated
      split
      · split
        · exact ih seen found hfound
        · exact ih seen (y :: found) (List.cons_ne_nil _ _)
      · exact ih (y :: seen) found hfound
  -- so nothing was found on the way, and every year was new when it came
  have begun : ∀ (ys seen : List Int), repeated seen [] ys = [] →
      ys.Nodup ∧ ∀ y ∈ ys, y ∉ seen := by
    intro ys
    induction ys with
    | nil => intro seen _; simp
    | cons y ys ih =>
      intro seen hnil
      unfold repeated at hnil
      by_cases hy : y ∈ seen
      · simp only [List.contains_eq_mem, hy, decide_true, if_true] at hnil
        exact absurd hnil (kept ys seen [y] (List.cons_ne_nil _ _))
      · simp only [List.contains_eq_mem, hy, decide_false, Bool.false_eq_true, if_false] at hnil
        obtain ⟨distinct, unseen⟩ := ih (y :: seen) hnil
        refine ⟨List.nodup_cons.2 ⟨fun hmem => ?_, distinct⟩, ?_⟩
        · exact unseen y hmem List.mem_cons_self
        · refine List.forall_mem_cons.2 ⟨hy, fun z hz hseen => ?_⟩
          exact unseen z hz (List.mem_cons_of_mem _ hseen)
  exact (begun ys [] h).1

theorem repeated_eq_nil_of_nodup {ys : List Int} (h : ys.Nodup) : repeated [] [] ys = [] := by
  have begun : ∀ (ys seen : List Int), ys.Nodup → (∀ y ∈ ys, y ∉ seen) →
      repeated seen [] ys = [] := by
    intro ys
    induction ys with
    | nil => intro seen _ _; rfl
    | cons y ys ih =>
      intro seen distinct unseen
      obtain ⟨new, distinct⟩ := List.nodup_cons.1 distinct
      obtain ⟨first, rest⟩ := List.forall_mem_cons.1 unseen
      unfold repeated
      simp only [List.contains_eq_mem, first, decide_false, Bool.false_eq_true, if_false]
      refine ih (y :: seen) distinct fun z hz => ?_
      rw [List.mem_cons, not_or]
      exact ⟨fun same => new (same ▸ hz), rest z hz⟩
  exact begun ys [] h (by simp)

/-- Labels are accepted when there is one, each is a year, and no year comes twice. -/
theorem readYears_eq_ok_iff {labels : List String} {years : List (Int × String)} :
    (readYears labels : Except (Fault α) _) = .ok years ↔
      labels ≠ [] ∧ labels.mapM (readYear (α := α)) = .ok years ∧ (years.map (·.1)).Nodup := by
  unfold readYears
  cases labels with
  | nil => simp [throw, throwThe, MonadExceptOf.throw, bind, Except.bind]
  | cons label labels =>
    simp only [List.isEmpty_cons, Bool.false_eq_true, if_false]
    constructor
    · intro h
      obtain ⟨read, hread, h⟩ := bind_eq_ok_iff.1 h
      cases hrep : repeated [] [] (read.map (·.1)) with
      | nil =>
        rw [hrep] at h
        obtain rfl := pure_eq_ok_iff.1 h
        exact ⟨List.cons_ne_nil _ _, hread, nodup_of_repeated_eq_nil hrep⟩
      | cons y ys =>
        rw [hrep] at h
        exact absurd h (by simp [throw, throwThe, MonadExceptOf.throw])
    · rintro ⟨-, hread, distinct⟩
      refine bind_eq_ok_iff.2 ⟨years, hread, ?_⟩
      rw [repeated_eq_nil_of_nodup distinct]
      rfl

/-- The year of a label is what its trimmed text reads. -/
theorem readYear_eq_ok {label : String} {y : Int × String}
    (h : (readYear label : Except (Fault α) _) = .ok y) :
    Digits.readInt? (Text.trim label) = some y.1 ∧ y.2 = label := by
  unfold readYear at h
  split at h
  · next year hyear =>
    split at h
    · obtain rfl := Except.ok.inj h
      exact ⟨hyear, rfl⟩
    · exact absurd h (by simp)
  · exact absurd h (by simp)

namespace Picks

variable {names : List String} {choice : ColumnChoice} {years : Option (List Int)}
  {columns : List (Option Int × String)}

theorem heads (h : choice.Picks α names years columns) :
    columns.map (·.1) = IndexSets.choices years := by
  cases h with
  | single => rfl
  | years => simp [Function.comp_def]

theorem ne_nil (h : choice.Picks α names years columns) : columns ≠ [] := by
  cases h with
  | single => exact List.cons_ne_nil _ _
  | years read =>
    obtain ⟨some_label, read, -⟩ := readYears_eq_ok_iff.1 read
    have length := (mapM_eq_ok_iff.1 read).length_eq
    rw [← List.length_pos_iff] at some_label ⊢
    rw [List.length_map, ← length]
    exact some_label

theorem distinct (h : choice.Picks α names years columns) : ∀ ys ∈ years, ys.Nodup := by
  cases h with
  | single => simp
  | years read =>
    rintro _ ⟨⟩
    exact (readYears_eq_ok_iff.1 read).2.2

end Picks

end ColumnChoice

/-- A series of a table holds the values of the first column of its name. -/
theorem PriceTable.of_series_eq_ok {table : PriceTable α} {name : String} {s : PriceSeries α}
    (h : table.series name = .ok s) :
    ∃ i, table.columns.finIdxOf? name = some i ∧ s.values = table.column i := by
  unfold series at h
  cases hi : table.columns.finIdxOf? name with
  | none => simp [hi] at h
  | some i =>
    refine ⟨i, rfl, ?_⟩
    simp only [hi, PriceSeries.ofRows] at h
    split at h
    · exact absurd h (by simp)
    · split at h
      · exact absurd h (by simp)
      · rw [← Except.ok.inj h]

theorem PriceTable.size_of_series_eq_ok {table : PriceTable α} {name : String} {s : PriceSeries α}
    (h : table.series name = .ok s) : s.size = table.size := by
  obtain ⟨i, -, hvalues⟩ := of_series_eq_ok h
  rw [PriceSeries.size, hvalues, column, List.length_map, size]

/-! ## §2. Two layouts in the place of four -/

namespace Loader

variable [Scalar α]

omit [Scalar α] in
theorem fault?_eq_none_iff {table : PriceTable α} {k : Option Nat} {horizon : Nat} :
    fault? table k horizon = none ↔ 0 < horizon ∧ k ≠ some 0 ∧ 0 < table.size := by
  unfold fault? PriceTable.size
  by_cases hh : horizon = 0
  · simp [hh]
  · by_cases hk : k = some 0
    · simp [hh, hk]
    · simp [hh, hk, Nat.pos_of_ne_zero hh, List.length_pos_iff]

/-- The values of a picked column. -/
def valuesOf (table : PriceTable α) (c : Option Int × String) :
    Except (Fault α) (Option Int × List α) := do
  let s ← table.series c.2
  return (c.1, s.values)

/-- The representative days of a picked column. -/
def daysOf (table : PriceTable α) (horizon n : Nat) (seed : UInt64) (fit : Clusterer α σ)
    (c : Option Int × String) :
    ExceptT (Fault α) (StateM σ) (Option Int × RepresentativeDays α) := do
  let r ← grouped table c.2 horizon n seed fit
  return (c.1, r)

omit [Scalar α] in
theorem valuesOf_eq_ok_iff {table : PriceTable α} {c : Option Int × String}
    {y : Option Int × List α} :
    valuesOf table c = .ok y ↔ ∃ s, table.series c.2 = .ok s ∧ (c.1, s.values) = y := by
  unfold valuesOf
  simp only [bind_eq_ok_iff, pure_eq_ok_iff]

omit [Scalar α] in
theorem heads_of_valuesOf {table : PriceTable α} {columns : List (Option Int × String)}
    {values : List (Option Int × List α)} (run : columns.mapM (valuesOf table) = .ok values) :
    values.map (·.1) = columns.map (·.1) := by
  refine map_eq_of_mapM_eq_ok run fun c _ y hy => ?_
  obtain ⟨s, -, rfl⟩ := valuesOf_eq_ok_iff.1 hy
  rfl

omit [Scalar α] in
theorem lengths_of_valuesOf {table : PriceTable α} {columns : List (Option Int × String)}
    {values : List (Option Int × List α)} (run : columns.mapM (valuesOf table) = .ok values) :
    ∀ y ∈ values, y.2.length = table.size := by
  intro y hy
  obtain ⟨c, -, hc⟩ := exists_mem_of_mem_mapM_eq_ok run hy
  obtain ⟨s, hs, rfl⟩ := valuesOf_eq_ok_iff.1 hc
  exact PriceTable.size_of_series_eq_ok hs

theorem heads_of_yields_daysOf {table : PriceTable α} {horizon n : Nat} {seed : UInt64}
    {fit : Clusterer α σ} {columns : List (Option Int × String)}
    {days : List (Option Int × RepresentativeDays α)} {own own' : σ}
    (h : Yields (columns.mapM (daysOf table horizon n seed fit)) own days own') :
    days.map (·.1) = columns.map (·.1) := by
  refine map_eq_of_yields_mapM h fun c _ s y s' hy => ?_
  obtain ⟨r, t, -, hr⟩ := yields_bind_iff.1 hy
  obtain ⟨rfl, -⟩ := yields_pure_iff.1 hr
  rfl

theorem yields_load {l : Loader} {table : PriceTable α} {choice : ColumnChoice}
    {k horizon? : Option Nat} {fit : Clusterer α σ} {own own' : σ} {p : PriceSet α}
    (h : Yields (l.load table choice k horizon? fit) own p own') :
    fault? table k (horizon?.getD l.horizon) = none ∧
      ∃ years columns, choice.Picks α table.columns years columns ∧
        match k with
        | none => own = own' ∧ ∃ values, columns.mapM (valuesOf table) = .ok values ∧
            PriceSet.ofColumns years table.size values = p
        | some n => ∃ days,
            Yields (columns.mapM (daysOf table (horizon?.getD l.horizon) n l.seed fit)) own days
              own' ∧
            PriceSet.ofDays years (horizon?.getD l.horizon) n days = .ok p := by
  unfold load at h
  cases hfault : fault? table k (horizon?.getD l.horizon) with
  | some fault =>
    simp only [hfault] at h
    exact absurd h not_yields_throw
  | none =>
    simp only [hfault] at h
    refine ⟨rfl, ?_⟩
    -- the four layouts: a single column is a list of one column without a year
    cases choice with
    | single name =>
      cases k with
      | none =>
        obtain ⟨run, rfl⟩ := yields_lift_iff.1 h
        simp only [wholeColumn, bind_eq_ok_iff, pure_eq_ok_iff] at run
        obtain ⟨column, found, s, hs, rfl⟩ := run
        refine ⟨none, _, .single found, rfl, [(none, s.values)], ?_, ?_⟩
        · simp [valuesOf, hs]
        · rw [PriceTable.size_of_series_eq_ok hs]
      | some n =>
        simp only [groupedColumn, yields_bind_iff, yields_lift_iff] at h
        obtain ⟨column, _, ⟨found, rfl⟩, r, _, hr, hp, rfl⟩ := h
        refine ⟨none, _, .single found, [(none, r)], ?_, hp⟩
        simp only [List.mapM_cons, List.mapM_nil, daysOf, yields_bind_iff, yields_pure_iff]
        exact ⟨_, _, ⟨r, _, hr, rfl, rfl⟩, _, _, ⟨rfl, rfl⟩, rfl, rfl⟩
    | years labels =>
      cases k with
      | none =>
        simp only [yields_bind_iff, yields_lift_iff] at h
        obtain ⟨years, _, ⟨read, rfl⟩, hp, rfl⟩ := h
        simp only [wholeYears, bind_eq_ok_iff, pure_eq_ok_iff] at hp
        obtain ⟨values, run, rfl⟩ := hp
        refine ⟨_, _, .years read, rfl, values, ?_, rfl⟩
        rw [List.mapM_map]
        exact run
      | some n =>
        simp only [yields_bind_iff, yields_lift_iff] at h
        obtain ⟨years, _, ⟨read, rfl⟩, h⟩ := h
        simp only [groupedYears, yields_bind_iff, yields_lift_iff] at h
        obtain ⟨days, _, run, hp, rfl⟩ := h
        refine ⟨_, _, .years read, days, ?_, hp⟩
        rw [List.mapM_map]
        exact run

/-- Conversely, what the picked columns give can be loaded. -/
theorem yields_load_of_picks {l : Loader} {table : PriceTable α} {choice : ColumnChoice}
    {k horizon? : Option Nat} {fit : Clusterer α σ} {own own' : σ} {p : PriceSet α}
    {years : Option (List Int)} {columns : List (Option Int × String)}
    (noFault : fault? table k (horizon?.getD l.horizon) = none)
    (picks : choice.Picks α table.columns years columns)
    (laidOut : match k with
      | none => own = own' ∧ ∃ values, columns.mapM (valuesOf table) = .ok values ∧
          PriceSet.ofColumns years table.size values = p
      | some n => ∃ days,
          Yields (columns.mapM (daysOf table (horizon?.getD l.horizon) n l.seed fit)) own days
            own' ∧
          PriceSet.ofDays years (horizon?.getD l.horizon) n days = .ok p) :
    Yields (l.load table choice k horizon? fit) own p own' := by
  unfold load
  simp only [noFault]
  cases picks with
  | @single name column found =>
    cases k with
    | none =>
      obtain ⟨rfl, values, run, rfl⟩ := laidOut
      refine yields_lift_iff.2 ⟨?_, rfl⟩
      simp only [List.mapM_cons, List.mapM_nil, bind_eq_ok_iff, pure_eq_ok_iff,
        valuesOf_eq_ok_iff] at run
      obtain ⟨_, ⟨s, hs, rfl⟩, _, rfl, rfl⟩ := run
      simp only [wholeColumn, bind_eq_ok_iff, pure_eq_ok_iff]
      exact ⟨column, found, s, hs, by rw [PriceTable.size_of_series_eq_ok hs]⟩
    | some n =>
      obtain ⟨days, run, hp⟩ := laidOut
      simp only [List.mapM_cons, List.mapM_nil, daysOf, yields_bind_iff, yields_pure_iff] at run
      obtain ⟨_, _, ⟨r, t, hr, rfl, rfl⟩, _, _, ⟨rfl, rfl⟩, rfl, rfl⟩ := run
      simp only [groupedColumn, yields_bind_iff, yields_lift_iff]
      exact ⟨column, own, ⟨found, rfl⟩, r, _, hr, hp, rfl⟩
  | @years labels years read =>
    cases k with
    | none =>
      obtain ⟨rfl, values, run, rfl⟩ := laidOut
      rw [List.mapM_map] at run
      refine yields_bind_iff.2 ⟨years, own, yields_lift_iff.2 ⟨read, rfl⟩, ?_⟩
      refine yields_lift_iff.2 ⟨?_, rfl⟩
      simp only [wholeYears, bind_eq_ok_iff, pure_eq_ok_iff]
      exact ⟨values, run, rfl⟩
    | some n =>
      obtain ⟨days, run, hp⟩ := laidOut
      rw [List.mapM_map] at run
      refine yields_bind_iff.2 ⟨years, own, yields_lift_iff.2 ⟨read, rfl⟩, ?_⟩
      simp only [groupedYears, yields_bind_iff, yields_lift_iff]
      exact ⟨days, own', run, hp, rfl⟩

end Loader

/-! ## §3. What the prices are read off -/

namespace PriceSet

/-- Whether every price is the value of a row: the row that its hour numbers, in the column of its
year. -/
def ReadsRows (p : PriceSet α) (table : PriceTable α) (columns : List (Option Int × String)) :
    Prop :=
  ∀ key v, p.price? key = some v → key.day = none ∧
    ∃ label i row, (key.year, label) ∈ columns ∧ table.columns.finIdxOf? label = some i ∧
      1 ≤ key.hour ∧ table.rows[key.hour - 1]? = some row ∧ v = row.prices.get i

/-- Whether every price and every weight is that of a representative day of its year. -/
structure ReadsDays (p : PriceSet α) (days : List (Option Int × RepresentativeDays α)) : Prop where
  prices : ∀ key v, p.price? key = some v →
    ∃ day r, key.day = some day ∧ (key.year, r) ∈ days ∧ r.price? day key.hour = some v
  weights : ∀ d w, p.weight? d = some w → ∃ r, (d.year, r) ∈ days ∧ r.weight? d.day = some w

theorem Complete.mem_periods_of_price? {p : PriceSet α} (h : p.Complete) {k : PeriodKey} {v : α}
    (hv : p.price? k = some v) : k ∈ p.sets.periods := by
  rw [← h.priced, Std.TreeMap.mem_iff_isSome_getElem?]
  exact Option.isSome_iff_exists.2 ⟨v, hv⟩

theorem Complete.mem_dayKeys_of_weight? {p : PriceSet α} (h : p.Complete) {d : DayKey} {w : Nat}
    (hw : p.weight? d = some w) : d ∈ p.sets.dayKeys := by
  rw [← h.weighted, Std.TreeMap.mem_iff_isSome_getElem?]
  exact Option.isSome_iff_exists.2 ⟨w, hw⟩

theorem readsRows_ofColumns {table : PriceTable α} {years : Option (List Int)}
    {columns : List (Option Int × String)} {values : List (Option Int × List α)}
    (run : columns.mapM (Loader.valuesOf table) = .ok values)
    (heads : columns.map (·.1) = IndexSets.choices years) (distinct : ∀ ys ∈ years, ys.Nodup) :
    (ofColumns years table.size values).Complete ∧
      (ofColumns years table.size values).ReadsRows table columns := by
  have heads := (Loader.heads_of_valuesOf run).trans heads
  have lengths := Loader.lengths_of_valuesOf run
  have complete := complete_ofColumns heads lengths distinct
  refine ⟨complete, fun key v hv => ?_⟩
  obtain ⟨hyear, hday, hhour⟩ := IndexSets.mem_periods.1 (complete.mem_periods_of_price? hv)
  rw [ofColumns, ← heads] at hyear
  obtain ⟨y, hy, yearOf⟩ := List.mem_map.1 hyear
  have noDay : key.day = none := by simpa [ofColumns] using hday
  obtain ⟨pos, hle⟩ := mem_upTo.1 hhour
  obtain ⟨c, hc, hvalues⟩ := exists_mem_of_mem_mapM_eq_ok run hy
  obtain ⟨s, hs, rfl⟩ := Loader.valuesOf_eq_ok_iff.1 hvalues
  obtain ⟨i, hi, column⟩ := PriceTable.of_series_eq_ok hs
  -- the row that the hour numbers has the value that was inserted
  have hlt : key.hour - 1 < table.rows.length := by
    rw [← PriceTable.size]
    omega
  have hrow : table.rows[key.hour - 1]? = some table.rows[key.hour - 1] :=
    List.getElem?_eq_getElem hlt
  have hvalue : s.values[key.hour - 1]? = some table.rows[key.hour - 1].prices[i] := by
    rw [column, PriceTable.column, List.getElem?_map, hrow, Option.map_some]
  have inserted := price?_ofColumns heads lengths distinct hy hvalue
  have same : (⟨c.1, none, key.hour - 1 + 1⟩ : PeriodKey) = key := by
    rw [Nat.sub_add_cancel pos, ← noDay, yearOf]
  rw [same, hv] at inserted
  refine ⟨noDay, c.2, i, _, ?_, hi, pos, hrow, Option.some.inj inserted⟩
  rw [← yearOf]
  exact hc

theorem readsDays_ofDays {years : Option (List Int)} {horizon n : Nat}
    {days : List (Option Int × RepresentativeDays α)} {p : PriceSet α}
    (run : ofDays years horizon n days = .ok p)
    (heads : days.map (·.1) = IndexSets.choices years) (distinct : ∀ ys ∈ years, ys.Nodup) :
    p.Complete ∧ p.ReadsDays days := by
  have complete := complete_ofDays run heads distinct
  have sets := sets_of_ofDays_eq_ok run
  have column : ∀ year ∈ IndexSets.choices p.sets.years, ∃ r, (year, r) ∈ days := by
    intro year hyear
    rw [sets, ← heads] at hyear
    obtain ⟨c, hc, rfl⟩ := List.mem_map.1 hyear
    exact ⟨c.2, hc⟩
  refine ⟨complete, fun key v hv => ?_, fun d w hw => ?_⟩
  · obtain ⟨hyear, hday, hhour⟩ := IndexSets.mem_periods.1 (complete.mem_periods_of_price? hv)
    obtain ⟨r, hr⟩ := column key.year hyear
    rw [sets] at hday hhour
    obtain ⟨day, hday, dayOf⟩ := List.mem_map.1 hday
    obtain ⟨v', hv', hp⟩ := (read_ofDays run heads distinct hr hday).2 key.hour hhour
    have same : (⟨key.year, some day, key.hour⟩ : PeriodKey) = key := by rw [dayOf]
    rw [same, hv] at hp
    obtain rfl := Option.some.inj hp
    exact ⟨day, r, dayOf.symm, hr, hv'⟩
  · obtain ⟨ds, hds, hday, hyear⟩ := IndexSets.mem_dayKeys.1 (complete.mem_dayKeys_of_weight? hw)
    obtain ⟨r, hr⟩ := column d.year hyear
    rw [sets] at hds
    obtain rfl := Option.some.inj hds
    obtain ⟨w', hw', hp⟩ := (read_ofDays run heads distinct hr hday).1
    obtain rfl := Option.some.inj (hp.symm.trans hw)
    exact ⟨r, hr, hw'⟩

end PriceSet

/-! ## §4. Loading -/

/-- The keys and prices of a model of whole columns are those that were inserted. -/
theorem DispatchModel.priced_ofColumns {years : Option (List Int)} {hours : Nat}
    {columns : List (Option Int × List α)} (heads : columns.map (·.1) = IndexSets.choices years)
    (lengths : ∀ c ∈ columns, c.2.length = hours) (distinct : ∀ ys ∈ years, ys.Nodup) :
    priced (PriceSet.ofColumns years hours columns)
        (PriceSet.ofColumns years hours columns).sets.periods =
      .ok (columns.flatMap fun c => PriceSet.hourly c.1 c.2) := by
  have keys := PriceSet.ofColumns_keys heads lengths
  have complete := PriceSet.complete_ofColumns heads lengths distinct
  refine priced_eq_ok_iff.2 ⟨keys, fun k hk => ?_⟩
  exact (getElem?_insertAll_iff (keys ▸ complete.distinct)).2 hk

/-- A complete price set lacks no price when a model of it is built. -/
theorem DispatchModel.build_of_complete [Scalar α] {p : PriceSet α} (complete : p.Complete)
    (some_period : p.sets.periods ≠ []) (fleet : Fleet α) (weighted : Bool)
    (valid : fleet.validate = .ok ()) :
    ∃ m, build p fleet weighted = .ok m ∧ m.periods.map (·.key) = p.sets.periods ∧
      m.size = (IndexSets.choices p.sets.years).length * (IndexSets.choices p.sets.days).length *
        p.sets.hours.length := by
  have found : ∃ keys, priced p p.sets.periods = .ok keys := by
    unfold priced
    refine exists_mapM_eq_ok fun k hk => ?_
    have inside := (complete.priced k).2 hk
    rw [Std.TreeMap.mem_iff_isSome_getElem?, Option.isSome_iff_exists] at inside
    obtain ⟨v, hv⟩ := inside
    exact ⟨(k, v), by simp [PriceSet.price?, hv]⟩
  obtain ⟨keys, hkeys⟩ := found
  have listed : (built p fleet weighted keys).periods.map (·.key) = p.sets.periods := by
    rw [built_periods_map_key]
    exact (priced_eq_ok_iff.1 hkeys).1
  refine ⟨_, build_eq_ok_iff.2 ⟨valid, some_period, keys, hkeys, rfl⟩, listed, ?_⟩
  rw [← IndexSets.length_periods, ← listed, List.length_map]
  rfl

/-- The prices of some hours have a period. -/
theorem PriceSet.periods_hourly_ne_nil {values : List α} (some_value : values ≠ []) :
    (PriceSet.ofColumns none values.length [(none, values)]).sets.periods ≠ [] := by
  refine IndexSets.periods_ne_nil (List.cons_ne_nil _ _) (List.cons_ne_nil _ _) ?_
  exact PriceSet.upTo_ne_nil (List.length_pos_iff.2 some_value)

theorem DispatchModel.priced_hourly (values : List α) :
    priced (PriceSet.ofColumns none values.length [(none, values)])
        (PriceSet.ofColumns none values.length [(none, values)]).sets.periods =
      .ok (PriceSet.hourly none values) := by
  have keys := @priced_ofColumns α none values.length [(none, values)] rfl (by simp) (by simp)
  rwa [List.flatMap_singleton] at keys

/-- For the prices of some hours every valid fleet has a model. -/
theorem DispatchModel.build_hourly [Scalar α] {values : List α} (some_value : values ≠ [])
    {fleet : Fleet α} (valid : fleet.validate = .ok ()) (weighted : Bool) :
    build (PriceSet.ofColumns none values.length [(none, values)]) fleet weighted =
      .ok (built (PriceSet.ofColumns none values.length [(none, values)]) fleet weighted
        (PriceSet.hourly none values)) :=
  build_eq_ok_iff.2
    ⟨valid, PriceSet.periods_hourly_ne_nil some_value, _, priced_hourly values, rfl⟩

namespace Loader

variable [Scalar α]

/-- **Loading is complete and faithful.** Of whatever is loaded, every period has exactly one price
and every day one weight; each price is the one its key names, read off the rows of the table or off
the representative days of the column of its year; and any valid fleet has a model of it, with one
period for each year, day and hour. -/
theorem load_faithful {l : Loader} {table : PriceTable α} {choice : ColumnChoice}
    {k horizon? : Option Nat} {fit : Clusterer α σ} {own own' : σ} {p : PriceSet α}
    (h : Yields (l.load table choice k horizon? fit) own p own') :
    p.Complete ∧
    (∃ columns, choice.Picks α table.columns p.sets.years columns ∧
      match k with
      | none => own = own' ∧ p.sets.hours = PriceSet.upTo table.size ∧ p.sets.days = none ∧
          p.ReadsRows table columns
      | some n => p.sets.hours = PriceSet.upTo (horizon?.getD l.horizon) ∧
          p.sets.days = some (PriceSet.upTo n) ∧
          ∃ days, Yields (columns.mapM (daysOf table (horizon?.getD l.horizon) n l.seed fit)) own
              days own' ∧
            p.ReadsDays days) ∧
    ∀ (fleet : Fleet α) (weighted : Bool), fleet.validate = .ok () →
      ∃ m, DispatchModel.build p fleet weighted = .ok m ∧
        m.periods.map (·.key) = p.sets.periods ∧
        m.size = (IndexSets.choices p.sets.years).length * (IndexSets.choices p.sets.days).length *
          p.sets.hours.length := by
  obtain ⟨noFault, years, columns, picks, laidOut⟩ := yields_load h
  obtain ⟨some_hour, some_cluster, some_row⟩ := fault?_eq_none_iff.1 noFault
  have some_year : IndexSets.choices years ≠ [] := by
    rw [← picks.heads]
    exact mt List.map_eq_nil_iff.1 picks.ne_nil
  cases k with
  | none =>
    obtain ⟨rfl, values, run, rfl⟩ := laidOut
    obtain ⟨complete, reads⟩ := PriceSet.readsRows_ofColumns run picks.heads picks.distinct
    have some_period := IndexSets.periods_ne_nil
      (s := (PriceSet.ofColumns years table.size values).sets) some_year (List.cons_ne_nil _ _)
      (PriceSet.upTo_ne_nil some_row)
    exact ⟨complete, ⟨columns, picks, rfl, rfl, rfl, reads⟩,
      DispatchModel.build_of_complete complete some_period⟩
  | some n =>
    obtain ⟨days, run, ofDays⟩ := laidOut
    have sameHeads : days.map (·.1) = columns.map (·.1) := by
      refine map_eq_of_yields_mapM run fun c _ s y s' hy => ?_
      obtain ⟨r, t, -, hr⟩ := yields_bind_iff.1 hy
      obtain ⟨rfl, -⟩ := yields_pure_iff.1 hr
      rfl
    obtain ⟨complete, reads⟩ :=
      PriceSet.readsDays_ofDays ofDays (sameHeads.trans picks.heads) picks.distinct
    have sets := PriceSet.sets_of_ofDays_eq_ok ofDays
    have some_day : 0 < n := Nat.pos_of_ne_zero fun hn => some_cluster (by rw [hn])
    have some_period : p.sets.periods ≠ [] := by
      rw [sets]
      refine IndexSets.periods_ne_nil some_year ?_ (PriceSet.upTo_ne_nil some_hour)
      exact mt List.map_eq_nil_iff.1 (PriceSet.upTo_ne_nil some_day)
    refine ⟨complete, ⟨columns, ?_, ?_, ?_, days, run, reads⟩,
      DispatchModel.build_of_complete complete some_period⟩
    · rw [sets]
      exact picks
    · rw [sets]
    · rw [sets]

/-- Two years of one representative day each; a label may carry a sign. -/
theorem load_faithful_two_years :
    let table : PriceTable Float :=
      ⟨["2022", "+2023"], [⟨"", none, "base", #v[30, 40]⟩, ⟨"", none, "base", #v[35, 45]⟩]⟩
    let fit : Clusterer Float Nat := fun _ _ => do
      modify fun own => (own.1, own.2 + 1)
      return ⟨[[30, 35]], [0], 0⟩
    ∃ p, Yields ((⟨2, 20⟩ : Loader).load table (.years ["2022", "+2023"]) (some 1) none fit) 0 p 2 ∧
      p.sets.years = some [2022, 2023] ∧ p.Complete := by
  intro table fit
  obtain ⟨p, run, years⟩ : ∃ p, Yields ((⟨2, 20⟩ : Loader).load table (.years ["2022", "+2023"])
      (some 1) none fit) 0 p 2 ∧ p.sets.years = some [2022, 2023] := ⟨_, by rfl, by rfl⟩
  exact ⟨p, run, years, (load_faithful run).1⟩

end Loader

end PlantEconomics

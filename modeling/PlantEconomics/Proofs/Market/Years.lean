import PlantEconomics.Proofs.Market.RepresentativeDays
import PlantEconomics.Proofs.Market.TimeOrder

/-!
# Years are loaded independently

Loading several years goes through their columns one after the other, and the clusterer's own state
is all that one column leaves to the next. A clusterer that makes nothing of that state therefore
treats every column as if it were loaded alone: the whole loads exactly when each column does, and
a year of it is what the column alone gives.

  * `PriceSet.HasYear`: what it means that a year of a price set is another price set;
  * `PriceSet.exists_ofDays_iff`: representative days can be put together column by column;
  * `Loader.load_years_iff_singles` puts it together.
-/

namespace PlantEconomics

variable {α σ : Type}

/-! ## §1. Clusterers without a memory -/

/-- Whether what a clusterer gives, and what it leaves of the stream, is a function of the samples,
the count and the stream. -/
def Clusterer.IsPure (fit : Clusterer α σ) : Prop :=
  ∃ act : List (List α) → Nat → Random.SeedStream →
      Except (Fault α) (Partition α) × Random.SeedStream,
    ∀ samples k stream own, ∃ own', (fit samples k).run.run (stream, own) =
      ((act samples k stream).1, (act samples k stream).2, own')

variable [Scalar α]

theorem Clusterer.IsPure.ignoresState_ofDays {fit : Clusterer α σ} (pure : fit.IsPure)
    (days : DayProfiles α) (k : Nat) (seed : UInt64) :
    IgnoresState (RepresentativeDays.ofDays days k seed fit) := by
  intro own other r h
  obtain ⟨own', h⟩ := outcome_eq_ok_iff.1 h
  obtain ⟨p, stream, call, rfl⟩ := RepresentativeDays.yields_ofDays_iff.1 h
  obtain ⟨act, acts⟩ := pure
  obtain ⟨own₁, acted⟩ := acts days.days k (Random.SeedStream.ofSeed seed) own
  obtain ⟨other', again⟩ := acts days.days k (Random.SeedStream.ofSeed seed) other
  -- both calls give what the function gives, and the first one gave the partition
  obtain ⟨result, left⟩ := Prod.mk.inj (acted.symm.trans call)
  obtain ⟨left, -⟩ := Prod.mk.inj left
  rw [result, left] at again
  exact outcome_eq_ok_iff.2
    ⟨other', RepresentativeDays.yields_ofDays_iff.2 ⟨p, stream, again, rfl⟩⟩

theorem Clusterer.IsPure.ignoresState_grouped {fit : Clusterer α σ} (pure : fit.IsPure)
    (table : PriceTable α) (column : String) (horizon k : Nat) (seed : UInt64) :
    IgnoresState (Loader.grouped table column horizon k seed fit) := by
  unfold Loader.grouped
  refine (ignoresState_lift _).bind fun s => ?_
  unfold RepresentativeDays.ofSeries
  exact (ignoresState_lift _).bind fun days => pure.ignoresState_ofDays days k seed

theorem Clusterer.IsPure.ignoresState_daysOf {fit : Clusterer α σ} (pure : fit.IsPure)
    (table : PriceTable α) (horizon k : Nat) (seed : UInt64) (c : Option Int × String) :
    IgnoresState (Loader.daysOf table horizon k seed fit c) := by
  unfold Loader.daysOf
  exact (pure.ignoresState_grouped table c.2 horizon k seed).bind fun r => ignoresState_pure _

/-! ## §2. Columns of a price set -/

/-- Whether there is a weight for every day, and a price for every hour of it. -/
def RepresentativeDays.Covers {α : Type} (r : RepresentativeDays α) (n horizon : Nat) : Prop :=
  ∀ day ∈ PriceSet.upTo n, (∃ w, r.weight? day = some w) ∧
    ∀ hour ∈ PriceSet.upTo horizon, ∃ v, r.price? day hour = some v

namespace PriceSet

omit [Scalar α]

theorem Complete.price?_eq_none {p : PriceSet α} (h : p.Complete) {year : Option Int}
    {day : Option Nat} {hour : Nat} (hyear : year ∉ IndexSets.choices p.sets.years) :
    p.price? ⟨year, day, hour⟩ = none := by
  refine Option.eq_none_iff_forall_ne_some.2 fun v hv => ?_
  exact hyear (IndexSets.mem_periods.1 (h.mem_periods_of_price? hv)).1

theorem Complete.weight?_eq_none {p : PriceSet α} (h : p.Complete) {year : Option Int} {day : Nat}
    (hyear : year ∉ IndexSets.choices p.sets.years) : p.weight? ⟨year, day⟩ = none := by
  refine Option.eq_none_iff_forall_ne_some.2 fun w hw => ?_
  obtain ⟨_, -, -, listed⟩ := IndexSets.mem_dayKeys.1 (h.mem_dayKeys_of_weight? hw)
  exact hyear listed

/-- Whether a year of the price set is all of another one. -/
structure HasYear (p : PriceSet α) (year : Option Int) (q : PriceSet α) : Prop where
  hours : p.sets.hours = q.sets.hours
  days : p.sets.days = q.sets.days
  prices : ∀ day hour, p.price? ⟨year, day, hour⟩ = q.price? ⟨none, day, hour⟩
  weights : ∀ day, p.weight? ⟨year, day⟩ = q.weight? ⟨none, day⟩

/-- Complete price sets agree if they have the same years, whatever stands in them. -/
theorem Complete.same_of_hasYear {p p' : PriceSet α} (complete : p.Complete)
    (complete' : p'.Complete)
    (years : ∀ year, (∃ q, p.HasYear year q ∧ p'.HasYear year q) ∨
      year ∉ IndexSets.choices p.sets.years ∧ year ∉ IndexSets.choices p'.sets.years) :
    (∀ key, p'.price? key = p.price? key) ∧ ∀ d, p'.weight? d = p.weight? d := by
  constructor
  · rintro ⟨year, day, hour⟩
    rcases years year with ⟨q, one, another⟩ | ⟨missing, missing'⟩
    · rw [one.prices, another.prices]
    · rw [complete.price?_eq_none missing, complete'.price?_eq_none missing']
  · rintro ⟨year, day⟩
    rcases years year with ⟨q, one, another⟩ | ⟨missing, missing'⟩
    · rw [one.weights, another.weights]
    · rw [complete.weight?_eq_none missing, complete'.weight?_eq_none missing']

section Columns

variable {years : Option (List Int)} {hours : Nat} {columns : List (Option Int × List α)}

/-- The prices of a column are its values, under the hours alone. -/
theorem price?_ofColumns_iff (heads : columns.map (·.1) = IndexSets.choices years)
    (lengths : ∀ c ∈ columns, c.2.length = hours) (distinct : ∀ ys ∈ years, ys.Nodup)
    {c : Option Int × List α} (hc : c ∈ columns) {day : Option Nat} {hour : Nat} {v : α} :
    (ofColumns years hours columns).price? ⟨c.1, day, hour⟩ = some v ↔
      day = none ∧ 1 ≤ hour ∧ c.2[hour - 1]? = some v := by
  have complete := complete_ofColumns heads lengths distinct
  constructor
  · intro hv
    obtain ⟨-, hday, hhour⟩ := IndexSets.mem_periods.1 (complete.mem_periods_of_price? hv)
    obtain rfl : day = none := by simpa [ofColumns] using hday
    obtain ⟨first, last⟩ := mem_upTo.1 hhour
    have last : hour ≤ hours := last
    have inside : hour - 1 < c.2.length := by
      rw [lengths c hc]
      omega
    have inserted := price?_ofColumns heads lengths distinct hc (List.getElem?_eq_getElem inside)
    rw [Nat.sub_add_cancel first, hv] at inserted
    rw [List.getElem?_eq_getElem inside]
    exact ⟨rfl, first, inserted.symm⟩
  · rintro ⟨rfl, first, hv⟩
    have inserted := price?_ofColumns heads lengths distinct hc hv
    rwa [Nat.sub_add_cancel first] at inserted

theorem weight?_ofColumns (d : DayKey) : (ofColumns years hours columns).weight? d = none := by
  show (∅ : Std.TreeMap DayKey Nat)[d]? = none
  exact Std.TreeMap.getElem?_emptyc

/-- A year of whole columns is what its column gives alone. -/
theorem hasYear_ofColumns (heads : columns.map (·.1) = IndexSets.choices years)
    (lengths : ∀ c ∈ columns, c.2.length = hours) (distinct : ∀ ys ∈ years, ys.Nodup)
    {year : Option Int} {values : List α} (hc : (year, values) ∈ columns) :
    (ofColumns years hours columns).HasYear year (ofColumns none hours [(none, values)]) := by
  have alone : ∀ c ∈ [((none : Option Int), values)], c.2.length = hours := by
    simpa using lengths _ hc
  refine ⟨rfl, rfl, fun day hour => ?_, fun day => ?_⟩
  · refine Option.ext fun v => ?_
    rw [price?_ofColumns_iff heads lengths distinct hc,
      price?_ofColumns_iff rfl alone (by simp) (List.mem_singleton_self _)]
  · rw [weight?_ofColumns, weight?_ofColumns]

end Columns

section Days

variable {years : Option (List Int)} {horizon n : Nat}
  {columns : List (Option Int × RepresentativeDays α)} {p : PriceSet α}

theorem price?_ofDays_iff (run : ofDays years horizon n columns = .ok p)
    (heads : columns.map (·.1) = IndexSets.choices years) (distinct : ∀ ys ∈ years, ys.Nodup)
    {c : Option Int × RepresentativeDays α} (hc : c ∈ columns) {day : Option Nat} {hour : Nat}
    {v : α} :
    p.price? ⟨c.1, day, hour⟩ = some v ↔
      hour ∈ upTo horizon ∧ ∃ d ∈ upTo n, day = some d ∧ c.2.price? d hour = some v := by
  have complete := complete_ofDays run heads distinct
  have sets := sets_of_ofDays_eq_ok run
  constructor
  · intro hv
    obtain ⟨-, hday, hhour⟩ := IndexSets.mem_periods.1 (complete.mem_periods_of_price? hv)
    rw [sets] at hday hhour
    obtain ⟨d, hd, rfl⟩ := List.mem_map.1 hday
    obtain ⟨v', hv', inserted⟩ := (read_ofDays run heads distinct hc hd).2 hour hhour
    obtain rfl := Option.some.inj (inserted.symm.trans hv)
    exact ⟨hhour, d, hd, rfl, hv'⟩
  · rintro ⟨hhour, d, hd, rfl, hv⟩
    obtain ⟨v', hv', inserted⟩ := (read_ofDays run heads distinct hc hd).2 hour hhour
    obtain rfl := Option.some.inj (hv'.symm.trans hv)
    exact inserted

theorem weight?_ofDays_iff (run : ofDays years horizon n columns = .ok p)
    (heads : columns.map (·.1) = IndexSets.choices years) (distinct : ∀ ys ∈ years, ys.Nodup)
    {c : Option Int × RepresentativeDays α} (hc : c ∈ columns) {day w : Nat} :
    p.weight? ⟨c.1, day⟩ = some w ↔ day ∈ upTo n ∧ c.2.weight? day = some w := by
  have complete := complete_ofDays run heads distinct
  have sets := sets_of_ofDays_eq_ok run
  constructor
  · intro hw
    obtain ⟨ds, hds, hday, -⟩ := IndexSets.mem_dayKeys.1 (complete.mem_dayKeys_of_weight? hw)
    rw [sets] at hds
    obtain rfl := Option.some.inj hds
    obtain ⟨w', hw', inserted⟩ := (read_ofDays run heads distinct hc hday).1
    obtain rfl := Option.some.inj (inserted.symm.trans hw)
    exact ⟨hday, hw'⟩
  · rintro ⟨hday, hw⟩
    obtain ⟨w', hw', inserted⟩ := (read_ofDays run heads distinct hc hday).1
    obtain rfl := Option.some.inj (hw'.symm.trans hw)
    exact inserted

/-- A year of representative days is what its days give alone. -/
theorem hasYear_ofDays (run : ofDays years horizon n columns = .ok p)
    (heads : columns.map (·.1) = IndexSets.choices years) (distinct : ∀ ys ∈ years, ys.Nodup)
    {year : Option Int} {r : RepresentativeDays α} (hc : (year, r) ∈ columns) {q : PriceSet α}
    (alone : ofDays none horizon n [(none, r)] = .ok q) : p.HasYear year q := by
  have sets := sets_of_ofDays_eq_ok run
  have setsAlone := sets_of_ofDays_eq_ok alone
  refine ⟨by rw [sets, setsAlone], by rw [sets, setsAlone], fun day hour => ?_, fun day => ?_⟩
  · refine Option.ext fun v => ?_
    rw [price?_ofDays_iff run heads distinct hc,
      price?_ofDays_iff alone rfl (by simp) (List.mem_singleton_self _)]
  · refine Option.ext fun w => ?_
    rw [weight?_ofDays_iff run heads distinct hc,
      weight?_ofDays_iff alone rfl (by simp) (List.mem_singleton_self _)]

theorem exists_dayEntries_iff {r : RepresentativeDays α} {year : Option Int} {hs : List Nat}
    {day : Nat} :
    (∃ e, dayEntries r year hs day = .ok e) ↔
      (∃ w, r.weight? day = some w) ∧ ∀ hour ∈ hs, ∃ v, r.price? day hour = some v := by
  constructor
  · rintro ⟨e, he⟩
    obtain ⟨-, weight, prices⟩ := of_dayEntries_eq_ok he
    refine ⟨⟨_, weight⟩, fun hour hhour => ?_⟩
    obtain ⟨kv, -, hkv⟩ := exists_mem_of_mapM_eq_ok prices hhour
    exact ⟨kv.2, (dayPrice_eq_ok_iff.1 hkv).2⟩
  · rintro ⟨⟨w, hw⟩, covered⟩
    obtain ⟨prices, hprices⟩ : ∃ prices, hs.mapM (dayPrice r year day) = .ok prices := by
      refine exists_mapM_eq_ok fun hour hhour => ?_
      obtain ⟨v, hv⟩ := covered hour hhour
      exact ⟨(⟨year, some day, hour⟩, v), dayPrice_eq_ok_iff.2 ⟨rfl, hv⟩⟩
    unfold dayEntries
    rw [hw, hprices]
    exact ⟨_, rfl⟩

/-- Representative days are put together exactly when no column lacks a day or an hour. -/
theorem exists_ofDays_iff :
    (∃ p, ofDays years horizon n columns = .ok p) ↔ ∀ c ∈ columns, c.2.Covers n horizon := by
  simp only [ofDays_eq_ok_iff]
  constructor
  · rintro ⟨_, entries, filled, -⟩ c hc day hday
    obtain ⟨es, -, hes⟩ := exists_mem_of_mapM_eq_ok filled hc
    obtain ⟨e, -, he⟩ := exists_mem_of_mapM_eq_ok hes hday
    exact exists_dayEntries_iff.1 ⟨e, he⟩
  · intro covered
    obtain ⟨entries, filled⟩ : ∃ entries, entriesOfDays horizon n columns = .ok entries := by
      refine exists_mapM_eq_ok fun c hc => exists_mapM_eq_ok fun day hday => ?_
      exact exists_dayEntries_iff.2 (covered c hc day hday)
    exact ⟨_, entries, filled, rfl⟩

end Days

end PriceSet

/-! ## §3. Years of labels -/

namespace ColumnChoice

omit [Scalar α]

/-- A label that names a year stands for the column of its own name. -/
theorem resolve_of_readYear {names : List String} {label : String} {y : Int × String}
    (h : (readYear label : Except (Fault α) _) = .ok y) :
    (resolve names label : Except (Fault α) String) = .ok label := by
  have some_text : label.isEmpty = false := by
    by_contra empty
    rw [Bool.not_eq_false, String.isEmpty_iff] at empty
    subst empty
    have named := (readYear_eq_ok h).1
    have nothing : Digits.readInt? (Text.trim "") = none := by decide
    exact absurd (nothing.symm.trans named) (by simp)
  unfold resolve
  rw [some_text]
  rfl

/-- So does every accepted label. -/
theorem resolve_of_mem {names labels : List String} {years : List (Int × String)}
    (read : (readYears labels : Except (Fault α) _) = .ok years) {y : Int × String}
    (hy : y ∈ years) : (resolve names y.2 : Except (Fault α) String) = .ok y.2 := by
  obtain ⟨-, read, -⟩ := readYears_eq_ok_iff.1 read
  obtain ⟨label, -, hlabel⟩ := exists_mem_of_mem_mapM_eq_ok read hy
  obtain ⟨-, same⟩ := readYear_eq_ok hlabel
  rw [same]
  exact resolve_of_readYear hlabel

/-- Accepted labels are accepted in any order, and name the same years. -/
theorem readYears_of_perm {labels labels' : List String} {years : List (Int × String)}
    (same : labels'.Perm labels) (h : (readYears labels : Except (Fault α) _) = .ok years) :
    ∃ years', (readYears labels' : Except (Fault α) _) = .ok years' ∧ years'.Perm years := by
  obtain ⟨some_label, read, distinct⟩ := readYears_eq_ok_iff.1 h
  -- a label is read by itself, so the years of the labels are a map of them
  let year (label : String) : Int × String := ((Digits.readInt? (Text.trim label)).getD 0, label)
  have each : ∀ label y, (readYear label : Except (Fault α) _) = .ok y → y = year label := by
    intro label y hy
    obtain ⟨named, rfl⟩ := readYear_eq_ok hy
    simp [year, named]
  have listed : years = labels.map year := by
    simpa using map_eq_of_mapM_eq_ok (g := id) read fun label _ y hy => each label y hy
  obtain ⟨years', read'⟩ : ∃ years', labels'.mapM (readYear (α := α)) = .ok years' := by
    refine exists_mapM_eq_ok fun label hlabel => ?_
    obtain ⟨y, -, hy⟩ := exists_mem_of_mapM_eq_ok read (same.mem_iff.1 hlabel)
    exact ⟨y, hy⟩
  have listed' : years' = labels'.map year := by
    simpa using map_eq_of_mapM_eq_ok (g := id) read' fun label _ y hy => each label y hy
  have perm : years'.Perm years := by
    rw [listed, listed']
    exact same.map year
  refine ⟨years', readYears_eq_ok_iff.2 ⟨?_, read', ?_⟩, perm⟩
  · rintro rfl
    exact some_label (List.nil_perm.1 same)
  · exact (perm.map (·.1)).nodup_iff.2 distinct

end ColumnChoice

/-! ## §4. Loading -/

namespace Loader

variable {l : Loader} {table : PriceTable α} {k horizon? : Option Nat} {fit : Clusterer α σ}

/-- Whether a column gives what the layout asks for: its values, or representative days that lack
nothing. -/
def ColumnLoads (table : PriceTable α) (k : Option Nat) (horizon : Nat) (seed : UInt64)
    (fit : Clusterer α σ) (own : σ) (column : String) : Prop :=
  match k with
  | none => ∃ s, table.series column = .ok s
  | some n => ∃ r, outcome (grouped table column horizon n seed fit) own = .ok r ∧
      r.Covers n horizon

theorem outcome_daysOf_eq_ok_iff {horizon n : Nat} {seed : UInt64} {own : σ}
    {c : Option Int × String} {d : Option Int × RepresentativeDays α} :
    outcome (daysOf table horizon n seed fit c) own = .ok d ↔
      d.1 = c.1 ∧ outcome (grouped table c.2 horizon n seed fit) own = .ok d.2 := by
  unfold daysOf
  simp only [outcome_eq_ok_iff, yields_bind_iff, yields_pure_iff]
  constructor
  · rintro ⟨_, r, own', hr, rfl, rfl⟩
    exact ⟨rfl, own', hr⟩
  · rintro ⟨head, own', hr⟩
    exact ⟨own', d.2, own', hr, Prod.ext head.symm rfl, rfl⟩

/-- What a load gives, with every column on its own. -/
theorem outcome_load_eq_ok_iff (pure : fit.IsPure) {choice : ColumnChoice} {p : PriceSet α}
    (own other : σ) :
    outcome (l.load table choice k horizon? fit) own = .ok p ↔
      fault? table k (horizon?.getD l.horizon) = none ∧
        ∃ years columns, choice.Picks α table.columns years columns ∧
          match k with
          | none => ∃ values, columns.mapM (valuesOf table) = .ok values ∧
              PriceSet.ofColumns years table.size values = p
          | some n => ∃ days,
              columns.mapM (fun c =>
                outcome (daysOf table (horizon?.getD l.horizon) n l.seed fit c) other) =
                .ok days ∧
              PriceSet.ofDays years (horizon?.getD l.horizon) n days = .ok p := by
  rw [outcome_eq_ok_iff]
  constructor
  · rintro ⟨own', h⟩
    obtain ⟨noFault, years, columns, picks, laidOut⟩ := yields_load h
    refine ⟨noFault, years, columns, picks, ?_⟩
    cases k with
    | none => exact laidOut.2
    | some n =>
      obtain ⟨days, run, ofDays⟩ := laidOut
      refine ⟨days, ?_, ofDays⟩
      rw [← outcome_mapM_eq_ok_iff (fun c _ => pure.ignoresState_daysOf table _ n l.seed c) own]
      exact outcome_eq_ok_iff.2 ⟨own', run⟩
  · rintro ⟨noFault, years, columns, picks, laidOut⟩
    cases k with
    | none => exact ⟨own, yields_load_of_picks noFault picks ⟨rfl, laidOut⟩⟩
    | some n =>
      obtain ⟨days, run, ofDays⟩ := laidOut
      rw [← outcome_mapM_eq_ok_iff (fun c _ => pure.ignoresState_daysOf table _ n l.seed c) own]
        at run
      obtain ⟨own', run⟩ := outcome_eq_ok_iff.1 run
      exact ⟨own', yields_load_of_picks noFault picks ⟨days, run, ofDays⟩⟩

omit [Scalar α] in
/-- The values of columns can be read when each column can. -/
theorem exists_valuesOf_iff {columns : List (Option Int × String)} :
    (∃ values, columns.mapM (valuesOf table) = .ok values) ↔
      ∀ c ∈ columns, ∃ s, table.series c.2 = .ok s := by
  constructor
  · rintro ⟨values, run⟩ c hc
    obtain ⟨y, -, hy⟩ := exists_mem_of_mapM_eq_ok run hc
    obtain ⟨s, hs, -⟩ := valuesOf_eq_ok_iff.1 hy
    exact ⟨s, hs⟩
  · intro loads
    refine exists_mapM_eq_ok fun c hc => ?_
    obtain ⟨s, hs⟩ := loads c hc
    exact ⟨_, valuesOf_eq_ok_iff.2 ⟨s, hs, rfl⟩⟩

/-- Columns can be grouped and put together when each of them gives days that lack nothing. -/
theorem exists_daysOf_iff {years : Option (List Int)} {columns : List (Option Int × String)}
    {horizon n : Nat} {seed : UInt64} {own : σ} :
    (∃ days, columns.mapM (fun c => outcome (daysOf table horizon n seed fit c) own) = .ok days ∧
      ∃ p, PriceSet.ofDays years horizon n days = .ok p) ↔
    ∀ c ∈ columns, ∃ r, outcome (grouped table c.2 horizon n seed fit) own = .ok r ∧
      r.Covers n horizon := by
  simp only [PriceSet.exists_ofDays_iff]
  constructor
  · rintro ⟨days, run, covered⟩ c hc
    obtain ⟨d, hd, hcall⟩ := exists_mem_of_mapM_eq_ok run hc
    exact ⟨d.2, (outcome_daysOf_eq_ok_iff.1 hcall).2, covered d hd⟩
  · intro loads
    obtain ⟨days, run⟩ : ∃ days, columns.mapM (fun c =>
        outcome (daysOf table horizon n seed fit c) own) = .ok days := by
      refine exists_mapM_eq_ok fun c hc => ?_
      obtain ⟨r, hr, -⟩ := loads c hc
      exact ⟨(c.1, r), outcome_daysOf_eq_ok_iff.2 ⟨rfl, hr⟩⟩
    refine ⟨days, run, fun d hd => ?_⟩
    -- what was made is what some column gives
    obtain ⟨c, hc, hcall⟩ := exists_mem_of_mem_mapM_eq_ok run hd
    obtain ⟨r, hr, covers⟩ := loads c hc
    obtain rfl := Except.ok.inj (hr.symm.trans (outcome_daysOf_eq_ok_iff.1 hcall).2)
    exact covers

/-- A load succeeds when each of the picked columns gives what is asked for. -/
theorem exists_load_iff (pure : fit.IsPure) {choice : ColumnChoice} (own other : σ) :
    (∃ p, outcome (l.load table choice k horizon? fit) own = .ok p) ↔
      fault? table k (horizon?.getD l.horizon) = none ∧
        ∃ years columns, choice.Picks α table.columns years columns ∧ ∀ c ∈ columns,
          ColumnLoads table k (horizon?.getD l.horizon) l.seed fit other c.2 := by
  simp only [outcome_load_eq_ok_iff pure own other]
  cases k with
  | none =>
    constructor
    · rintro ⟨_, noFault, years, columns, picks, values, run, rfl⟩
      exact ⟨noFault, years, columns, picks, exists_valuesOf_iff.1 ⟨values, run⟩⟩
    · rintro ⟨noFault, years, columns, picks, loads⟩
      obtain ⟨values, run⟩ := exists_valuesOf_iff.2 loads
      exact ⟨_, noFault, years, columns, picks, values, run, rfl⟩
  | some n =>
    constructor
    · rintro ⟨p, noFault, years, columns, picks, days, run, ofDays⟩
      exact ⟨noFault, years, columns, picks, exists_daysOf_iff.1 ⟨days, run, p, ofDays⟩⟩
    · rintro ⟨noFault, years, columns, picks, loads⟩
      obtain ⟨days, run, p, ofDays⟩ := exists_daysOf_iff.2 loads
      exact ⟨p, noFault, years, columns, picks, days, run, ofDays⟩

/-- A picked year of a load is what its column gives alone. -/
theorem hasYear_of_load (pure : fit.IsPure) {labels : List String} {years : List (Int × String)}
    (read : (ColumnChoice.readYears labels : Except (Fault α) _) = .ok years) {year : Int}
    {label : String} (named : (year, label) ∈ years) {own other : σ} {p q : PriceSet α}
    (hp : outcome (l.load table (.years labels) k horizon? fit) own = .ok p)
    (hq : outcome (l.load table (.single label) k horizon? fit) other = .ok q) :
    p.HasYear (some year) q := by
  obtain ⟨-, _, _, picks, laidOut⟩ := (outcome_load_eq_ok_iff pure own own).1 hp
  obtain ⟨-, _, _, alone, laidAlone⟩ := (outcome_load_eq_ok_iff pure other own).1 hq
  have heads := picks.heads
  have distinct := picks.distinct
  cases picks with
  | @years _ _ read' =>
    cases alone with
    | @single _ column found =>
      obtain rfl := Except.ok.inj (read'.symm.trans read)
      obtain rfl := Except.ok.inj (found.symm.trans (ColumnChoice.resolve_of_mem read named))
      have listed := List.mem_map_of_mem (f := fun y : Int × String => (some y.1, y.2)) named
      cases k with
      | none =>
        obtain ⟨values, run, rfl⟩ := laidOut
        obtain ⟨y, hy, hval⟩ := exists_mem_of_mapM_eq_ok run listed
        obtain ⟨s, hs, rfl⟩ := valuesOf_eq_ok_iff.1 hval
        simp only [List.mapM_cons, List.mapM_nil, bind_eq_ok_iff, pure_eq_ok_iff,
          valuesOf_eq_ok_iff] at laidAlone
        obtain ⟨_, ⟨_, ⟨s', hs', rfl⟩, _, rfl, rfl⟩, rfl⟩ := laidAlone
        obtain rfl := Except.ok.inj (hs'.symm.trans hs)
        exact PriceSet.hasYear_ofColumns ((heads_of_valuesOf run).trans heads)
          (lengths_of_valuesOf run) distinct hy
      | some n =>
        obtain ⟨days, run, ofDays⟩ := laidOut
        have sameHeads : days.map (·.1) = _ :=
          map_eq_of_mapM_eq_ok run fun c _ d hd => (outcome_daysOf_eq_ok_iff.1 hd).1
        obtain ⟨⟨_, r⟩, hd, hcall⟩ := exists_mem_of_mapM_eq_ok run listed
        obtain ⟨rfl, hr⟩ := outcome_daysOf_eq_ok_iff.1 hcall
        simp only [List.mapM_cons, List.mapM_nil, bind_eq_ok_iff, pure_eq_ok_iff,
          outcome_daysOf_eq_ok_iff] at laidAlone
        obtain ⟨_, ⟨⟨_, r'⟩, ⟨rfl, hr'⟩, _, rfl, rfl⟩, ofDay⟩ := laidAlone
        obtain rfl := Except.ok.inj (hr'.symm.trans hr)
        exact PriceSet.hasYear_ofDays ofDays (sameHeads.trans heads) distinct hd ofDay

/-- Several years load exactly when each of them loads alone. -/
theorem exists_load_years_iff (pure : fit.IsPure) {labels : List String}
    {years : List (Int × String)}
    (read : (ColumnChoice.readYears labels : Except (Fault α) _) = .ok years) (own other : σ) :
    (∃ p, outcome (l.load table (.years labels) k horizon? fit) own = .ok p) ↔
      ∀ label ∈ labels, ∃ q,
        outcome (l.load table (.single label) k horizon? fit) other = .ok q := by
  obtain ⟨some_label, readEach, -⟩ := ColumnChoice.readYears_eq_ok_iff.1 read
  simp only [exists_load_iff pure _ other]
  constructor
  · rintro ⟨noFault, _, _, picks, loads⟩ label hlabel
    cases picks with
    | @years _ _ read' =>
      obtain rfl := Except.ok.inj (read'.symm.trans read)
      obtain ⟨y, hy, hread⟩ := exists_mem_of_mapM_eq_ok readEach hlabel
      have named : y.2 = label := (ColumnChoice.readYear_eq_ok hread).2
      refine ⟨noFault, _, _, .single (ColumnChoice.resolve_of_readYear hread), ?_⟩
      intro c hc
      obtain rfl := List.mem_singleton.1 hc
      have loaded := loads (some y.1, y.2) (List.mem_map_of_mem hy)
      rw [named] at loaded
      exact loaded
  · intro alone
    obtain ⟨first, hfirst⟩ := List.exists_mem_of_ne_nil _ some_label
    refine ⟨(alone first hfirst).1, _, _, .years read, fun c hc => ?_⟩
    obtain ⟨y, hy, rfl⟩ := List.mem_map.1 hc
    obtain ⟨label, hlabel, hread⟩ := exists_mem_of_mem_mapM_eq_ok readEach hy
    have named : y.2 = label := (ColumnChoice.readYear_eq_ok hread).2
    obtain ⟨-, _, _, picks, loads⟩ := alone label hlabel
    cases picks with
    | @single _ column found =>
      obtain rfl := Except.ok.inj (found.symm.trans (ColumnChoice.resolve_of_readYear hread))
      show ColumnLoads table k _ l.seed fit other y.2
      rw [named]
      exact loads _ (List.mem_singleton_self _)

/-- The years of a load are those that the labels name. -/
theorem years_of_load {labels : List String} {years : List (Int × String)}
    (read : (ColumnChoice.readYears labels : Except (Fault α) _) = .ok years) {own : σ}
    {p : PriceSet α} (hp : outcome (l.load table (.years labels) k horizon? fit) own = .ok p) :
    p.Complete ∧ p.sets.years = some (years.map (·.1)) := by
  obtain ⟨own', run⟩ := outcome_eq_ok_iff.1 hp
  obtain ⟨complete, hours, -, -, sets⟩ := sets_of_yields_load run
  have picks : (ColumnChoice.years labels).Picks α table.columns (some (years.map (·.1))) _ :=
    .years read
  rw [sets, picks.years_eq]
  exact ⟨complete, rfl⟩

/-- Loads of the same years in another order agree in all prices and weights. -/
theorem same_of_perm (pure : fit.IsPure) {labels labels' : List String}
    {years years' : List (Int × String)} (same : years'.Perm years)
    (read : (ColumnChoice.readYears labels : Except (Fault α) _) = .ok years)
    (read' : (ColumnChoice.readYears labels' : Except (Fault α) _) = .ok years') {own own' : σ}
    {p p' : PriceSet α}
    (hp : outcome (l.load table (.years labels) k horizon? fit) own = .ok p)
    (hp' : outcome (l.load table (.years labels') k horizon? fit) own' = .ok p') :
    (∀ key, p'.price? key = p.price? key) ∧ ∀ d, p'.weight? d = p.weight? d := by
  obtain ⟨complete, years_p⟩ := years_of_load read hp
  obtain ⟨complete', years_p'⟩ := years_of_load read' hp'
  -- a year of the labels has in both what its column gives alone, and any other year has nothing
  have common : ∀ y ∈ years, ∃ q, p.HasYear (some y.1) q ∧ p'.HasYear (some y.1) q := by
    intro y hy
    obtain ⟨-, readEach, -⟩ := ColumnChoice.readYears_eq_ok_iff.1 read
    obtain ⟨label, hlabel, hread⟩ := exists_mem_of_mem_mapM_eq_ok readEach hy
    obtain rfl : y.2 = label := (ColumnChoice.readYear_eq_ok hread).2
    obtain ⟨q, hq⟩ := (exists_load_years_iff pure read own own).1 ⟨p, hp⟩ y.2 hlabel
    exact ⟨q, hasYear_of_load pure read hy hp hq,
      hasYear_of_load pure read' (same.mem_iff.2 hy) hp' hq⟩
  refine complete.same_of_hasYear complete' fun year => ?_
  rw [years_p, years_p']
  by_cases named : year ∈ IndexSets.choices (some (years.map (·.1)))
  · rw [IndexSets.choices_some, List.map_map] at named
    obtain ⟨y, hy, rfl⟩ := List.mem_map.1 named
    exact .inl (common y hy)
  · have sameYears : (IndexSets.choices (some (years'.map (·.1)))).Perm
        (IndexSets.choices (some (years.map (·.1)))) := by
      rw [IndexSets.choices_some, IndexSets.choices_some]
      exact (same.map _).map _
    exact .inr ⟨named, mt sameYears.mem_iff.1 named⟩

/-- **Loading years is loading each of them alone.** For a clusterer without a memory, years load
exactly when each column does; every year of the result is what its column gives alone; and the
labels in another order give the same prices and weights. -/
theorem load_years_iff_singles (pure : fit.IsPure) {labels : List String}
    {years : List (Int × String)}
    (read : (ColumnChoice.readYears labels : Except (Fault α) _) = .ok years) (own other : σ) :
    ((∃ p, outcome (l.load table (.years labels) k horizon? fit) own = .ok p) ↔
      ∀ label ∈ labels, ∃ q,
        outcome (l.load table (.single label) k horizon? fit) other = .ok q) ∧
    ∀ p, outcome (l.load table (.years labels) k horizon? fit) own = .ok p →
      (∀ year label q, (year, label) ∈ years →
        outcome (l.load table (.single label) k horizon? fit) other = .ok q →
        p.HasYear (some year) q) ∧
      ∀ labels', labels'.Perm labels →
        ∃ p', outcome (l.load table (.years labels') k horizon? fit) other = .ok p' ∧
          (∀ key, p'.price? key = p.price? key) ∧ ∀ d, p'.weight? d = p.weight? d := by
  refine ⟨exists_load_years_iff pure read own other, fun p hp => ⟨?_, ?_⟩⟩
  · intro year label q named hq
    exact hasYear_of_load pure read named hp hq
  · intro labels' perm
    obtain ⟨years', read', same⟩ := ColumnChoice.readYears_of_perm perm read
    have alone := (exists_load_years_iff pure read own other).1 ⟨p, hp⟩
    obtain ⟨p', hp'⟩ := (exists_load_years_iff pure read' other other).2 fun label hlabel =>
      alone label (perm.mem_iff.1 hlabel)
    exact ⟨p', hp', same_of_perm pure same read read' hp hp'⟩

/-- Two years of one representative day each. -/
theorem load_years_iff_singles_two_years :
    let table : PriceTable Float :=
      ⟨["2022", "+2023"], [⟨"", none, "base", #v[30, 40]⟩, ⟨"", none, "base", #v[35, 45]⟩]⟩
    let fit : Clusterer Float Unit := fun _ _ => return ⟨[[30, 35]], [0], 0⟩
    ∃ p q, outcome ((⟨2, 20⟩ : Loader).load table (.years ["2022", "+2023"]) (some 1) none fit) () =
        .ok p ∧
      outcome ((⟨2, 20⟩ : Loader).load table (.single "+2023") (some 1) none fit) () = .ok q ∧
      p.HasYear (some 2023) q := by
  intro table fit
  have pure : fit.IsPure :=
    ⟨fun _ _ stream => (.ok ⟨[[30, 35]], [0], 0⟩, stream), fun _ _ _ own => ⟨own, rfl⟩⟩
  have read : (ColumnChoice.readYears ["2022", "+2023"] : Except (Fault Float) _) =
      .ok [(2022, "2022"), (2023, "+2023")] := by rfl
  obtain ⟨p, hp⟩ : ∃ p, outcome ((⟨2, 20⟩ : Loader).load table (.years ["2022", "+2023"]) (some 1)
      none fit) () = .ok p := ⟨_, by rfl⟩
  obtain ⟨q, hq⟩ : ∃ q, outcome ((⟨2, 20⟩ : Loader).load table (.single "+2023") (some 1) none
      fit) () = .ok q := ⟨_, by rfl⟩
  exact ⟨p, q, hp, hq, ((load_years_iff_singles pure read () ()).2 p hp).1 2023 "+2023" q
    (by simp) hq⟩

end Loader

end PlantEconomics

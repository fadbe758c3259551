import Mathlib.Data.List.Nodup
import PlantEconomics.Market.Loading
import PlantEconomics.Proofs.Outcome

/-!
# Prices under the keys of a model

The loops that fill the maps of a price set go through years, days and hours in the order in which
`IndexSets.periods` lists them. So the keys they insert are the periods, and since the sets have no
repeated element, no price takes the place of another.

  * `getElem?_insertAll_iff` reads a map off the list of what was inserted;
  * `IndexSets.nodup_periods` and `IndexSets.length_periods` count the periods;
  * `PriceSet.Complete` is what all layouts have in common: every period has one price, every day
    one weight, and nothing is left over.
-/

namespace PlantEconomics

/-! ## §1. The order of keys -/

theorem eq_of_compareOn {β γ : Type} [Ord γ] [Std.LawfulEqOrd γ] {f : β → γ} {a b : β}
    (h : compareOn f a b = .eq) : f a = f b :=
  Std.LawfulEqOrd.eq_of_compare h

instance : Std.TransOrd PeriodKey :=
  inferInstanceAs (Std.TransCmp (compareLex (compareOn PeriodKey.year)
    (compareLex (compareOn PeriodKey.day) (compareOn PeriodKey.hour))))

instance : Std.TransOrd DayKey :=
  inferInstanceAs (Std.TransCmp (compareLex (compareOn DayKey.year) (compareOn DayKey.day)))

/-- Keys that compare equal agree in all their parts. -/
instance : Std.LawfulEqOrd PeriodKey where
  compare_self := Std.ReflCmp.compare_self
  eq_of_compare {a b} h := by
    obtain ⟨year, rest⟩ := Ordering.then_eq_eq.1 h
    obtain ⟨day, hour⟩ := Ordering.then_eq_eq.1 rest
    cases a
    cases b
    cases eq_of_compareOn year
    cases eq_of_compareOn day
    cases eq_of_compareOn hour
    rfl

instance : Std.LawfulEqOrd DayKey where
  compare_self := Std.ReflCmp.compare_self
  eq_of_compare {a b} h := by
    obtain ⟨year, day⟩ := Ordering.then_eq_eq.1 h
    cases a
    cases b
    cases eq_of_compareOn year
    cases eq_of_compareOn day
    rfl

/-! ## §2. Inserting a list -/

section InsertAll

variable {κ β : Type} [Ord κ] [Std.TransOrd κ] [Std.LawfulEqOrd κ]

open PriceSet in
/-- Under different keys nothing is replaced, so each value stays under its key. -/
theorem getElem?_insertAll_iff {kvs : List (κ × β)} (distinct : (kvs.map (·.1)).Nodup) {k : κ}
    {v : β} : (insertAll (∅ : Std.TreeMap κ β) kvs)[k]? = some v ↔ (k, v) ∈ kvs := by
  -- what was there before stays unless its key comes again
  have begun : ∀ (m : Std.TreeMap κ β), (insertAll m kvs)[k]? = some v ↔
      (k, v) ∈ kvs ∨ (k ∉ kvs.map (·.1) ∧ m[k]? = some v) := by
    induction kvs with
    | nil => intro m; simp [insertAll]
    | cons kv kvs ih =>
      intro m
      obtain ⟨new, distinct⟩ := List.nodup_cons.1 distinct
      show (insertAll (m.insert kv.1 kv.2) kvs)[k]? = some v ↔ _
      rw [ih distinct, Std.TreeMap.getElem?_insert]
      -- a key that was inserted first is not among the later ones, and any other key is not touched
      by_cases hk : kv.1 = k
      · subst hk
        have later : (kv.1, v) ∉ kvs := fun h => new (List.mem_map_of_mem (f := (·.1)) h)
        have head : (kv.1, v) = kv ↔ kv.2 = v := by
          rw [Prod.ext_iff]
          simp [eq_comm]
        simp [later, new, head]
      · have other : (k, v) ≠ kv := fun h => hk (by rw [← h])
        simp [hk, other, Ne.symm hk]
  rw [begun ∅]
  simp

open PriceSet in
theorem mem_insertAll_iff {kvs : List (κ × β)} (distinct : (kvs.map (·.1)).Nodup) {k : κ} :
    k ∈ insertAll (∅ : Std.TreeMap κ β) kvs ↔ k ∈ kvs.map (·.1) := by
  rw [Std.TreeMap.mem_iff_isSome_getElem?, Option.isSome_iff_exists]
  simp [getElem?_insertAll_iff distinct]

end InsertAll

/-! ## §3. Periods -/

/-- Lists that are put one after the other have no repeated element when each of them has none and
its elements tell which of the lists they come from. -/
theorem nodup_flatMap_of_tag {β γ : Type} {l : List β} {f : β → List γ} (tag : γ → β)
    (distinct : l.Nodup) (each : ∀ b ∈ l, (f b).Nodup) (tagged : ∀ b ∈ l, ∀ c ∈ f b, tag c = b) :
    (l.flatMap f).Nodup := by
  refine List.nodup_flatMap.2 ⟨each, ?_⟩
  refine List.Pairwise.imp_of_mem ?_ distinct
  intro a b ha hb different c hca hcb
  exact different ((tagged a ha c hca).symm.trans (tagged b hb c hcb))

namespace IndexSets

/-- Whether no hour, no day and no year is listed twice. -/
structure Distinct (s : IndexSets) : Prop where
  hours : s.hours.Nodup
  days : ∀ ds ∈ s.days, ds.Nodup
  years : ∀ ys ∈ s.years, ys.Nodup

/-- The days of all years, when days are modelled. -/
def dayKeys (s : IndexSets) : List DayKey :=
  match s.days with
  | some ds => (choices s.years).flatMap fun year => ds.map fun day => ⟨year, day⟩
  | none => []

theorem mem_dayKeys {s : IndexSets} {d : DayKey} :
    d ∈ s.dayKeys ↔ ∃ ds, s.days = some ds ∧ d.day ∈ ds ∧ d.year ∈ choices s.years := by
  unfold dayKeys
  cases s.days with
  | none => simp
  | some ds =>
    simp only [List.mem_flatMap, List.mem_map, Option.some.injEq, exists_eq_left']
    constructor
    · rintro ⟨year, hyear, day, hday, rfl⟩
      exact ⟨hday, hyear⟩
    · rintro ⟨hday, hyear⟩
      exact ⟨d.year, hyear, d.day, hday, rfl⟩

theorem nodup_choices {β : Type} {o : Option (List β)} (h : ∀ xs ∈ o, xs.Nodup) :
    (choices o).Nodup := by
  cases o with
  | none => exact List.nodup_singleton none
  | some xs => exact (h xs rfl).map fun a b hab => Option.some.inj hab

theorem mem_periods {s : IndexSets} {k : PeriodKey} :
    k ∈ s.periods ↔ k.year ∈ choices s.years ∧ k.day ∈ choices s.days ∧ k.hour ∈ s.hours := by
  simp only [periods, List.mem_flatMap, List.mem_map]
  constructor
  · rintro ⟨year, hyear, day, hday, hour, hhour, rfl⟩
    exact ⟨hyear, hday, hhour⟩
  · rintro ⟨hyear, hday, hhour⟩
    exact ⟨k.year, hyear, k.day, hday, k.hour, hhour, rfl⟩

theorem nodup_periods {s : IndexSets} (h : s.Distinct) : s.periods.Nodup := by
  unfold periods
  -- the outer lists differ in the year, the inner ones in the day, and their elements in the hour
  refine nodup_flatMap_of_tag PeriodKey.year (nodup_choices h.years) ?_ ?_
  · intro year _
    refine nodup_flatMap_of_tag PeriodKey.day (nodup_choices h.days) ?_ ?_
    · intro day _
      exact h.hours.map fun a b hab => (PeriodKey.mk.inj hab).2.2
    · intro day _ k hk
      obtain ⟨hour, -, rfl⟩ := List.mem_map.1 hk
      rfl
  · intro year _ k hk
    obtain ⟨day, -, hk⟩ := List.mem_flatMap.1 hk
    obtain ⟨hour, -, rfl⟩ := List.mem_map.1 hk
    rfl

theorem nodup_dayKeys {s : IndexSets} (h : s.Distinct) : s.dayKeys.Nodup := by
  unfold dayKeys
  cases hd : s.days with
  | none => exact List.nodup_nil
  | some ds =>
    refine nodup_flatMap_of_tag DayKey.year (nodup_choices h.years) ?_ ?_
    · intro year _
      exact (h.days ds hd).map fun a b hab => (DayKey.mk.inj hab).2
    · intro year _ k hk
      obtain ⟨day, -, rfl⟩ := List.mem_map.1 hk
      rfl

theorem length_periods (s : IndexSets) :
    s.periods.length = (choices s.years).length * (choices s.days).length * s.hours.length := by
  simp [periods, List.length_flatMap, Nat.mul_assoc]

theorem periods_ne_nil {s : IndexSets} (years : choices s.years ≠ []) (days : choices s.days ≠ [])
    (hours : s.hours ≠ []) : s.periods ≠ [] := by
  rw [← List.length_pos_iff] at years days hours ⊢
  rw [length_periods]
  exact Nat.mul_pos (Nat.mul_pos years days) hours

end IndexSets

/-! ## §4. Filling the maps -/

namespace PriceSet

variable {α : Type}

/-- Whether every period has exactly one price and every day exactly one weight, and nothing is
left over. -/
structure Complete (p : PriceSet α) : Prop where
  distinct : p.sets.periods.Nodup
  priced : ∀ k, k ∈ p.prices ↔ k ∈ p.sets.periods
  weighted : ∀ d, d ∈ p.weights ↔ d ∈ p.sets.dayKeys

theorem nodup_upTo (n : Nat) : (upTo n).Nodup := List.nodup_range'

theorem mem_upTo {n i : Nat} : i ∈ upTo n ↔ 1 ≤ i ∧ i ≤ n := by
  unfold upTo
  rw [List.mem_range'_1]
  omega

theorem upTo_ne_nil {n : Nat} (h : 0 < n) : upTo n ≠ [] :=
  List.ne_nil_of_mem (mem_upTo.2 ⟨Nat.le_refl 1, h⟩)

theorem map_fst_hourly (year : Option Int) (values : List α) :
    (hourly year values).map (·.1) = (upTo values.length).map fun h => ⟨year, none, h⟩ := by
  refine List.ext_getElem? fun i => ?_
  simp only [hourly, upTo, List.getElem?_map, List.getElem?_mapIdx]
  by_cases hi : i < values.length
  · simp [hi, Nat.add_comm]
  · simp [hi]

section Columns

variable {years : Option (List Int)} {hours : Nat} {columns : List (Option Int × List α)}

/-- Whole columns are inserted under the periods, in their order. -/
theorem ofColumns_keys (heads : columns.map (·.1) = IndexSets.choices years)
    (lengths : ∀ c ∈ columns, c.2.length = hours) :
    (columns.flatMap fun c => hourly c.1 c.2).map (·.1) =
      (ofColumns years hours columns).sets.periods := by
  unfold ofColumns IndexSets.periods
  rw [List.map_flatMap, ← heads, List.flatMap_map]
  refine List.flatMap_congr fun c hc => ?_
  rw [map_fst_hourly, lengths c hc]
  simp

theorem complete_ofColumns (heads : columns.map (·.1) = IndexSets.choices years)
    (lengths : ∀ c ∈ columns, c.2.length = hours) (distinct : ∀ ys ∈ years, ys.Nodup) :
    (ofColumns years hours columns).Complete := by
  have periods := IndexSets.nodup_periods (s := (ofColumns years hours columns).sets)
    ⟨nodup_upTo hours, by simp [ofColumns], distinct⟩
  have keys := ofColumns_keys heads lengths
  refine ⟨periods, fun k => ?_, fun d => ?_⟩
  · rw [← keys]
    exact mem_insertAll_iff (keys ▸ periods)
  · simp [ofColumns, IndexSets.dayKeys]

/-- The price of an hour is the value of its row. -/
theorem price?_ofColumns (heads : columns.map (·.1) = IndexSets.choices years)
    (lengths : ∀ c ∈ columns, c.2.length = hours) (distinct : ∀ ys ∈ years, ys.Nodup)
    {c : Option Int × List α} (hc : c ∈ columns) {t : Nat} {v : α} (hv : c.2[t]? = some v) :
    (ofColumns years hours columns).price? ⟨c.1, none, t + 1⟩ = some v := by
  have complete := complete_ofColumns heads lengths distinct
  have keys := ofColumns_keys heads lengths
  refine (getElem?_insertAll_iff (keys ▸ complete.distinct)).2 ?_
  refine List.mem_flatMap.2 ⟨c, hc, List.mem_of_getElem? (i := t) ?_⟩
  rw [hourly, List.getElem?_mapIdx, hv]
  rfl

end Columns

section Days

variable {years : Option (List Int)} {horizon n : Nat}
  {columns : List (Option Int × RepresentativeDays α)} {p : PriceSet α}

theorem dayPrice_eq_ok_iff {r : RepresentativeDays α} {year : Option Int} {day hour : Nat}
    {e : PeriodKey × α} :
    dayPrice r year day hour = .ok e ↔
      e.1 = ⟨year, some day, hour⟩ ∧ r.price? day hour = some e.2 := by
  unfold dayPrice
  obtain ⟨k, v⟩ := e
  cases r.price? day hour <;> simp [eq_comm]

/-- The entries of a day: its weight, and under the keys of its hours the prices. -/
theorem of_dayEntries_eq_ok {r : RepresentativeDays α} {year : Option Int} {hours : List Nat}
    {day : Nat} {e : (DayKey × Nat) × List (PeriodKey × α)}
    (h : dayEntries r year hours day = .ok e) :
    e.1.1 = ⟨year, day⟩ ∧ r.weight? day = some e.1.2 ∧
      hours.mapM (dayPrice r year day) = .ok e.2 := by
  unfold dayEntries at h
  cases hw : r.weight? day with
  | none => simp [hw] at h
  | some w =>
    simp only [hw, bind_eq_ok_iff, pure_eq_ok_iff] at h
    obtain ⟨prices, hprices, rfl⟩ := h
    exact ⟨rfl, rfl, hprices⟩

theorem dayEntries_keys {r : RepresentativeDays α} {year : Option Int} {hours : List Nat}
    {day : Nat} {e : (DayKey × Nat) × List (PeriodKey × α)}
    (h : dayEntries r year hours day = .ok e) :
    e.2.map (·.1) = hours.map fun hour => ⟨year, some day, hour⟩ := by
  obtain ⟨-, -, prices⟩ := of_dayEntries_eq_ok h
  refine map_eq_of_mapM_eq_ok prices fun hour _ e he => ?_
  exact (dayPrice_eq_ok_iff.1 he).1

/-- The entries of all days of all columns. -/
def entriesOfDays (horizon n : Nat) (columns : List (Option Int × RepresentativeDays α)) :
    Except (Fault α) (List (List ((DayKey × Nat) × List (PeriodKey × α)))) :=
  columns.mapM fun c => (upTo n).mapM (dayEntries c.2 c.1 (upTo horizon))

/-- The price set that entries fill. -/
def ofEntries (years : Option (List Int)) (horizon n : Nat)
    (entries : List ((DayKey × Nat) × List (PeriodKey × α))) : PriceSet α :=
  { sets := { hours := upTo horizon, days := some (upTo n), years }
    prices := insertAll ∅ (entries.flatMap (·.2))
    weights := insertAll ∅ (entries.map (·.1)) }

theorem ofDays_eq_ok_iff :
    ofDays years horizon n columns = .ok p ↔
      ∃ entries, entriesOfDays horizon n columns = .ok entries ∧
        ofEntries years horizon n entries.flatten = p := by
  unfold ofDays
  simp only [bind_eq_ok_iff, pure_eq_ok_iff]
  rfl

theorem sets_of_ofDays_eq_ok (run : ofDays years horizon n columns = .ok p) :
    p.sets = { hours := upTo horizon, days := some (upTo n), years } := by
  obtain ⟨entries, -, rfl⟩ := ofDays_eq_ok_iff.1 run
  rfl

variable {entries : List (List ((DayKey × Nat) × List (PeriodKey × α)))}

/-- Prices of representative days are inserted under the periods, in their order. -/
theorem ofEntries_keys (run : entriesOfDays horizon n columns = .ok entries)
    (heads : columns.map (·.1) = IndexSets.choices years) :
    (entries.flatten.flatMap (·.2)).map (·.1) =
      (ofEntries years horizon n entries.flatten).sets.periods := by
  have column : entries.map (fun es => es.flatMap fun e => e.2.map (·.1)) =
      columns.map fun c => (upTo n).flatMap fun day =>
        (upTo horizon).map fun hour => ⟨c.1, some day, hour⟩ := by
    refine map_eq_of_mapM_eq_ok run fun c _ es hes => ?_
    rw [List.flatMap_def, List.flatMap_def,
      map_eq_of_mapM_eq_ok hes fun day _ e he => dayEntries_keys he]
  have both : (entries.flatten.flatMap (·.2)).map (·.1) =
      (entries.map fun es => es.flatMap fun e => e.2.map (·.1)).flatten := by
    rw [List.map_flatMap, List.flatMap_def, List.map_flatten, List.flatten_flatten, List.map_map]
    rfl
  -- now both sides go through the columns, and the days and hours of each
  rw [both, column, ofEntries, IndexSets.periods, ← heads, List.flatMap_map, List.flatMap_def]
  simp [List.flatMap_map]

/-- Weights are inserted under the days of all years, in their order. -/
theorem ofEntries_dayKeys (run : entriesOfDays horizon n columns = .ok entries)
    (heads : columns.map (·.1) = IndexSets.choices years) :
    (entries.flatten.map (·.1)).map (·.1) =
      (ofEntries years horizon n entries.flatten).sets.dayKeys := by
  have column : entries.map (fun es => es.map fun e => e.1.1) =
      columns.map fun c => (upTo n).map fun day => (⟨c.1, day⟩ : DayKey) := by
    refine map_eq_of_mapM_eq_ok run fun c _ es hes => ?_
    exact map_eq_of_mapM_eq_ok hes fun day _ e he => (of_dayEntries_eq_ok he).1
  have both : (entries.flatten.map (·.1)).map (·.1) =
      (entries.map fun es => es.map fun e => e.1.1).flatten := by
    simp [List.map_flatten, Function.comp_def]
  rw [both, column]
  show _ = (IndexSets.choices years).flatMap fun year =>
    (upTo n).map fun day => (⟨year, day⟩ : DayKey)
  rw [← heads, List.flatMap_map, List.flatMap_def]

theorem distinct_ofEntries (distinct : ∀ ys ∈ years, ys.Nodup) (horizon n : Nat)
    (es : List ((DayKey × Nat) × List (PeriodKey × α))) :
    (ofEntries years horizon n es).sets.Distinct where
  hours := nodup_upTo horizon
  days := by
    rintro _ ⟨⟩
    exact nodup_upTo n
  years := distinct

theorem complete_ofDays (run : ofDays years horizon n columns = .ok p)
    (heads : columns.map (·.1) = IndexSets.choices years) (distinct : ∀ ys ∈ years, ys.Nodup) :
    p.Complete := by
  obtain ⟨entries, filled, rfl⟩ := ofDays_eq_ok_iff.1 run
  have periods := IndexSets.nodup_periods (distinct_ofEntries distinct horizon n entries.flatten)
  have days := IndexSets.nodup_dayKeys (distinct_ofEntries distinct horizon n entries.flatten)
  have keys := ofEntries_keys filled heads
  have dayKeys := ofEntries_dayKeys filled heads
  refine ⟨periods, fun k => ?_, fun d => ?_⟩
  · rw [← keys]
    exact mem_insertAll_iff (keys ▸ periods)
  · rw [← dayKeys]
    exact mem_insertAll_iff (dayKeys ▸ days)

/-- The weight of a day and the price of an hour of it are those of the representative day. -/
theorem read_ofDays (run : ofDays years horizon n columns = .ok p)
    (heads : columns.map (·.1) = IndexSets.choices years) (distinct : ∀ ys ∈ years, ys.Nodup)
    {c : Option Int × RepresentativeDays α} (hc : c ∈ columns) {day : Nat} (hday : day ∈ upTo n) :
    (∃ w, c.2.weight? day = some w ∧ p.weight? ⟨c.1, day⟩ = some w) ∧
      ∀ hour ∈ upTo horizon, ∃ v, c.2.price? day hour = some v ∧
        p.price? ⟨c.1, some day, hour⟩ = some v := by
  obtain ⟨entries, filled, rfl⟩ := ofDays_eq_ok_iff.1 run
  have periods := IndexSets.nodup_periods (distinct_ofEntries distinct horizon n entries.flatten)
  have days := IndexSets.nodup_dayKeys (distinct_ofEntries distinct horizon n entries.flatten)
  rw [← ofEntries_keys filled heads] at periods
  rw [← ofEntries_dayKeys filled heads] at days
  -- the entry of the column and the day, which was inserted under keys that differ from all others
  obtain ⟨es, hes, hcolumn⟩ := exists_mem_of_mapM_eq_ok filled hc
  obtain ⟨e, he, hentry⟩ := exists_mem_of_mapM_eq_ok hcolumn hday
  have listed : e ∈ entries.flatten := List.mem_flatten.2 ⟨es, hes, he⟩
  obtain ⟨key, weight, prices⟩ := of_dayEntries_eq_ok hentry
  constructor
  · refine ⟨e.1.2, weight, (getElem?_insertAll_iff days).2 ?_⟩
    rw [← key]
    exact List.mem_map_of_mem listed
  · intro hour hhour
    obtain ⟨kv, hkv, hprice⟩ := exists_mem_of_mapM_eq_ok prices hhour
    obtain ⟨hkey, hv⟩ := dayPrice_eq_ok_iff.1 hprice
    refine ⟨kv.2, hv, (getElem?_insertAll_iff periods).2 ?_⟩
    rw [← hkey]
    exact List.mem_flatMap.2 ⟨e, listed, hkv⟩

end Days

end PriceSet

end PlantEconomics

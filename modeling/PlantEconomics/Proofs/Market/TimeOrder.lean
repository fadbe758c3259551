import PlantEconomics.Proofs.Market.Loading

/-!
# The order of periods

Keys are ordered by year, then day, then hour, and so is the map of prices. The periods of a model
are listed in the order of its index sets. Both orders are one when each set is increasing; the
hours and days of loaded prices always are, but years keep the order of their labels.

  * `IndexSets.pairwise_periods`: increasing sets list the periods in the order of time;
  * `Loader.sets_of_yields_load`: the index sets of loaded prices;
  * `Loader.periods_in_time_order_iff`: when their periods are in the order of time.
-/

namespace PlantEconomics

/-! ## §1. Keys -/

/-- Whether a period is earlier than another one. -/
def PeriodKey.Before (a b : PeriodKey) : Prop := compare a b = .lt

theorem PeriodKey.before_iff {a b : PeriodKey} :
    a.Before b ↔ compare a.year b.year = .lt ∨
      a.year = b.year ∧ (compare a.day b.day = .lt ∨ a.day = b.day ∧ a.hour < b.hour) := by
  unfold Before
  show (compareOn (·.year) a b).then ((compareOn (·.day) a b).then (compareOn (·.hour) a b)) = .lt ↔
    _
  rw [Ordering.then_eq_lt, Ordering.then_eq_lt]
  simp only [compareOn, Std.LawfulEqOrd.compare_eq_iff_eq, Nat.compare_eq_lt]

theorem PeriodKey.Before.asymm {a b : PeriodKey} (h : a.Before b) : ¬b.Before a := by
  intro back
  unfold Before at h back
  exact Std.OrientedCmp.not_lt_of_lt h back

theorem PeriodKey.Before.ne {a b : PeriodKey} (h : a.Before b) : a ≠ b := by
  rintro rfl
  exact h.asymm h

/-- Two lists of the same keys in the order of time are one. -/
theorem PeriodKey.eq_of_perm_of_before {ks ls : List PeriodKey} (hks : ks.Pairwise Before)
    (hls : ls.Pairwise Before) (same : ks.Perm ls) : ks = ls :=
  List.Perm.eq_of_pairwise (fun _ _ _ _ before after => absurd after before.asymm) hks hls same

/-! ## §2. Index sets -/

namespace IndexSets

/-- Whether hours, days and years are increasing. -/
structure Increasing (s : IndexSets) : Prop where
  hours : s.hours.Pairwise (· < ·)
  days : ∀ ds ∈ s.days, ds.Pairwise (· < ·)
  years : ∀ ys ∈ s.years, ys.Pairwise (· < ·)

/-- The choices for a part are in order when its values are. -/
theorem pairwise_choices_iff {β : Type} [Ord β] {o : Option (List β)} :
    (choices o).Pairwise (fun a b => compare a b = .lt) ↔
      ∀ xs ∈ o, xs.Pairwise fun a b => compare a b = .lt := by
  cases o with
  | none => simp
  | some xs =>
    rw [choices_some, List.pairwise_map]
    simp only [Option.mem_def, Option.some.injEq, forall_eq']
    exact Iff.rfl

/-- **Increasing sets list the periods in the order of time.** -/
theorem pairwise_periods {s : IndexSets} (h : s.Increasing) : s.periods.Pairwise (·.Before ·) := by
  have years : (choices s.years).Pairwise fun a b => compare a b = .lt := by
    rw [pairwise_choices_iff]
    intro ys hys
    exact (h.years ys hys).imp Int.compare_eq_lt.2
  have days : (choices s.days).Pairwise fun a b => compare a b = .lt := by
    rw [pairwise_choices_iff]
    intro ds hds
    exact (h.days ds hds).imp Nat.compare_eq_lt.2
  unfold periods
  -- periods of different years differ in the year, those of one year in the day or the hour
  refine List.pairwise_flatMap.2 ⟨fun year _ => ?_, years.imp fun {a b} earlier k hk l hl => ?_⟩
  · refine List.pairwise_flatMap.2 ⟨fun day _ => ?_, days.imp fun {a b} earlier k hk l hl => ?_⟩
    · rw [List.pairwise_map]
      refine h.hours.imp fun {a b} earlier => ?_
      exact PeriodKey.before_iff.2 (.inr ⟨rfl, .inr ⟨rfl, earlier⟩⟩)
    · obtain ⟨_, -, rfl⟩ := List.mem_map.1 hk
      obtain ⟨_, -, rfl⟩ := List.mem_map.1 hl
      exact PeriodKey.before_iff.2 (.inr ⟨rfl, .inl earlier⟩)
  · obtain ⟨_, -, hk⟩ := List.mem_flatMap.1 hk
    obtain ⟨_, -, rfl⟩ := List.mem_map.1 hk
    obtain ⟨_, -, hl⟩ := List.mem_flatMap.1 hl
    obtain ⟨_, -, rfl⟩ := List.mem_map.1 hl
    exact PeriodKey.before_iff.2 (.inl earlier)

/-- Conversely, periods in the order of time are listed from increasing years, if a year has any
periods. -/
theorem pairwise_years_of_periods {s : IndexSets} (days : choices s.days ≠ [])
    (hours : s.hours ≠ []) (h : s.periods.Pairwise (·.Before ·)) :
    ∀ ys ∈ s.years, ys.Pairwise (· < ·) := by
  obtain ⟨day, hday⟩ := List.exists_mem_of_ne_nil _ days
  obtain ⟨hour, hhour⟩ := List.exists_mem_of_ne_nil _ hours
  intro ys hys
  unfold periods at h
  rw [Option.mem_def.1 hys, choices_some, List.flatMap_map, List.pairwise_flatMap] at h
  -- compare a period of the one year with that of the same day and hour of the other
  refine h.2.imp fun {a b} apart => ?_
  have listed (year : Option Int) : (⟨year, day, hour⟩ : PeriodKey) ∈
      (choices s.days).flatMap fun day => s.hours.map fun hour => ⟨year, day, hour⟩ :=
    List.mem_flatMap.2 ⟨day, hday, List.mem_map.2 ⟨hour, hhour, rfl⟩⟩
  rcases PeriodKey.before_iff.1 (apart _ (listed (some a)) _ (listed (some b))) with
    earlier | ⟨-, earlier | ⟨-, earlier⟩⟩
  · exact Int.compare_eq_lt.1 earlier
  · rw [Std.ReflOrd.compare_self] at earlier
    exact absurd earlier (by decide)
  · exact absurd earlier (Nat.lt_irrefl hour)

end IndexSets

/-! ## §3. The map of prices -/

theorem PriceSet.pairwise_keys {α : Type} (p : PriceSet α) : p.prices.keys.Pairwise (·.Before ·) :=
  Std.TreeMap.ordered_keys

/-- A complete map has the keys of the periods, in the order of time. -/
theorem PriceSet.Complete.keys_perm {α : Type} {p : PriceSet α} (h : p.Complete) :
    p.prices.keys.Perm p.sets.periods := by
  have distinct : p.prices.keys.Nodup := p.pairwise_keys.imp PeriodKey.Before.ne
  refine (List.perm_ext_iff_of_nodup distinct h.distinct).2 fun k => ?_
  rw [Std.TreeMap.mem_keys, h.priced]

/-- The periods are in the order of time exactly when they are listed as the map lists them. -/
theorem PriceSet.Complete.keys_eq_iff {α : Type} {p : PriceSet α} (h : p.Complete) :
    p.prices.keys = p.sets.periods ↔ p.sets.periods.Pairwise (·.Before ·) := by
  constructor
  · intro same
    rw [← same]
    exact p.pairwise_keys
  · intro sorted
    exact PeriodKey.eq_of_perm_of_before p.pairwise_keys sorted h.keys_perm

/-! ## §4. Loaded prices -/

namespace ColumnChoice

/-- The years that the labels of a choice name, in their order. -/
def yearsNamed : ColumnChoice → Option (List Int)
  | .single _ => none
  | .years labels => some (labels.filterMap fun label => Digits.readInt? (Text.trim label))

/-- The years that are picked are those that the labels name. -/
theorem Picks.years_eq {α : Type} {names : List String} {choice : ColumnChoice}
    {years : Option (List Int)} {columns : List (Option Int × String)}
    (h : choice.Picks α names years columns) : years = choice.yearsNamed := by
  cases h with
  | single => rfl
  | @years labels years read =>
    obtain ⟨-, read, -⟩ := readYears_eq_ok_iff.1 read
    have named : labels.map (fun label => Digits.readInt? (Text.trim label)) =
        years.map fun y => some y.1 :=
      (map_eq_of_mapM_eq_ok read fun label _ y hy => (readYear_eq_ok hy).1.symm).symm
    have reads : labels.filterMap (fun label => Digits.readInt? (Text.trim label)) =
        years.map (·.1) := by
      calc labels.filterMap (fun label => Digits.readInt? (Text.trim label))
          = (labels.map fun label => Digits.readInt? (Text.trim label)).filterMap id := by
            rw [List.filterMap_map, Function.id_comp]
        _ = (years.map fun y => some y.1).filterMap id := by rw [named]
        _ = years.map (·.1) := by
            rw [List.filterMap_map, Function.id_comp, List.filterMap_eq_map']
    rw [yearsNamed, reads]

end ColumnChoice

theorem PriceSet.pairwise_upTo (n : Nat) : (upTo n).Pairwise (· < ·) := List.pairwise_lt_range'

namespace Loader

variable {α σ : Type} [Scalar α]

/-- The hours and days of loaded prices are counted up, and the years are those of the labels. -/
theorem sets_of_yields_load {l : Loader} {table : PriceTable α} {choice : ColumnChoice}
    {k horizon? : Option Nat} {fit : Clusterer α σ} {own own' : σ} {p : PriceSet α}
    (h : Yields (l.load table choice k horizon? fit) own p own') :
    p.Complete ∧ ∃ hours, 0 < hours ∧ k ≠ some 0 ∧
      p.sets = ⟨PriceSet.upTo hours, k.map PriceSet.upTo, choice.yearsNamed⟩ := by
  obtain ⟨noFault, years, columns, picks, laidOut⟩ := yields_load h
  obtain ⟨some_hour, some_cluster, some_row⟩ := fault?_eq_none_iff.1 noFault
  rw [← picks.years_eq]
  cases k with
  | none =>
    obtain ⟨-, values, run, rfl⟩ := laidOut
    obtain ⟨complete, -⟩ := PriceSet.readsRows_ofColumns run picks.heads picks.distinct
    exact ⟨complete, _, some_row, some_cluster, rfl⟩
  | some n =>
    obtain ⟨days, run, ofDays⟩ := laidOut
    have heads := (heads_of_yields_daysOf run).trans picks.heads
    obtain ⟨complete, -⟩ := PriceSet.readsDays_ofDays ofDays heads picks.distinct
    exact ⟨complete, _, some_hour, some_cluster, PriceSet.sets_of_ofDays_eq_ok ofDays⟩

/-- **Loaded periods are in the order of time exactly when the labels name ascending years.** The
map of prices has the same keys in the order of time either way, so only then is it listed as the
periods are. -/
theorem periods_in_time_order_iff {l : Loader} {table : PriceTable α} {choice : ColumnChoice}
    {k horizon? : Option Nat} {fit : Clusterer α σ} {own own' : σ} {p : PriceSet α}
    (h : Yields (l.load table choice k horizon? fit) own p own') :
    (p.sets.periods.Pairwise (·.Before ·) ↔ ∀ ys ∈ choice.yearsNamed, ys.Pairwise (· < ·)) ∧
    (p.prices.keys = p.sets.periods ↔ ∀ ys ∈ choice.yearsNamed, ys.Pairwise (· < ·)) ∧
    p.prices.keys.Pairwise (·.Before ·) ∧ p.prices.keys.Perm p.sets.periods := by
  obtain ⟨complete, hours, some_hour, some_cluster, sets⟩ := sets_of_yields_load h
  have inOrder : p.sets.periods.Pairwise (·.Before ·) ↔
      ∀ ys ∈ choice.yearsNamed, ys.Pairwise (· < ·) := by
    rw [sets]
    constructor
    · refine IndexSets.pairwise_years_of_periods ?_ (PriceSet.upTo_ne_nil some_hour)
      cases k with
      | none => exact List.cons_ne_nil _ _
      | some n =>
        have some_day : 0 < n := Nat.pos_of_ne_zero fun hn => some_cluster (by rw [hn])
        exact mt List.map_eq_nil_iff.1 (PriceSet.upTo_ne_nil some_day)
    · intro ascending
      refine IndexSets.pairwise_periods ⟨PriceSet.pairwise_upTo hours, ?_, ascending⟩
      cases k with
      | none => simp
      | some n => simpa using PriceSet.pairwise_upTo n
  exact ⟨inOrder, complete.keys_eq_iff.trans inOrder, p.pairwise_keys, complete.keys_perm⟩

/-- Two years whose labels ascend: the map lists its keys as the periods are listed. -/
theorem periods_in_time_order_two_years :
    let table : PriceTable Float := ⟨["2022", "2023"], [⟨"", none, "base", #v[30, 40]⟩]⟩
    let fit : Clusterer Float Unit := fun _ _ => return ⟨[], [], 0⟩
    ∃ p, Yields ((⟨24, 20⟩ : Loader).load table (.years ["2022", "2023"]) none none fit) () p () ∧
      p.prices.keys = p.sets.periods := by
  intro table fit
  obtain ⟨p, run⟩ : ∃ p, Yields ((⟨24, 20⟩ : Loader).load table (.years ["2022", "2023"]) none none
      fit) () p () := ⟨_, by rfl⟩
  have named : (ColumnChoice.years ["2022", "2023"]).yearsNamed = some [2022, 2023] := rfl
  have ascending : ∀ ys ∈ (ColumnChoice.years ["2022", "2023"]).yearsNamed,
      ys.Pairwise (· < ·) := by
    rw [named]
    simp
  exact ⟨p, run, (periods_in_time_order_iff run).2.1.2 ascending⟩

/-- With the labels the other way round, the hour of 2023 is listed before that of 2022. -/
theorem descending_years_not_in_time_order :
    let table : PriceTable Float := ⟨["2022", "2023"], [⟨"", none, "base", #v[30, 40]⟩]⟩
    let fit : Clusterer Float Unit := fun _ _ => return ⟨[], [], 0⟩
    ∃ p, Yields ((⟨24, 20⟩ : Loader).load table (.years ["2023", "2022"]) none none fit) () p () ∧
      ¬p.sets.periods.Pairwise (·.Before ·) ∧ p.prices.keys ≠ p.sets.periods := by
  intro table fit
  obtain ⟨p, run, years, days, hours⟩ : ∃ p, Yields ((⟨24, 20⟩ : Loader).load table
      (.years ["2023", "2022"]) none none fit) () p () ∧ p.sets.years = some [2023, 2022] ∧
      p.sets.days = none ∧ p.sets.hours = [1] := ⟨_, by rfl, by rfl, by rfl, by rfl⟩
  have unordered : ¬p.sets.periods.Pairwise (·.Before ·) := by
    intro inOrder
    have ascending := IndexSets.pairwise_years_of_periods (by simp [days]) (by simp [hours]) inOrder
    exact absurd (ascending _ years) (by decide)
  obtain ⟨complete, -⟩ := sets_of_yields_load run
  exact ⟨p, run, unordered, mt complete.keys_eq_iff.1 unordered⟩

end Loader

end PlantEconomics

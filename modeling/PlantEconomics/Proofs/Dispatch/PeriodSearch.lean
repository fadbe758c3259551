import Mathlib.Tactic.Ring
import PlantEconomics.Proofs.Dispatch.Feasibility
import PlantEconomics.Proofs.Market.TimeOrder

/-!
# Finding a period

The periods of a model are listed year by year, day by day and hour by hour, and a period is sought
by halves. The search asks for keys in their order, and an order in which a missing part comes first
is just the order of the list when hours, days and years are increasing. So every key of the list is
found, in the place that its parts give by counting, and no other key is.

  * `Bisection.place?_eq_some_iff`: what the search by halves finds in an ordered list;
  * `IndexSets.getElem?_periods_place`: the place of a period counted from those of its parts;
  * `DispatchModel.counts_iff`: how often a period counts;
  * `DispatchModel.period?_eq_some_iff`: what the search gives when periods are in the order of time;
  * `DispatchModel.period_found_at_place`: the periods of a model and the search for one.
-/

namespace PlantEconomics

/-! ## §1. Bisection -/

namespace Bisection

variable {β : Type} {order : β → Ordering} {xs : List β}

/-- The search ends in a place of the stretch when all places behind it, and none up to it, lie
behind what is sought. -/
theorem lastPlace_eq {first size : Nat} (within : first + size ≤ xs.length) {i : Nat}
    (lower : first ≤ i) (upper : i < first + size)
    (upTo : ∀ j (hj : j < xs.length), j ≤ i → order xs[j] ≠ .gt)
    (behind : ∀ j (hj : j < xs.length), i < j → order xs[j] = .gt) :
    lastPlace order xs first size within = i := by
  -- by the halving; the place sought stays within the stretch
  fun_induction lastPlace order xs first size within with
  | case1 first size within several cut ih =>
    -- the element at the cut lies behind what is sought, so the place is in front of the cut
    have front : i < first + size / 2 := by
      by_contra late
      exact upTo _ _ (Nat.not_lt.1 late) cut
    exact ih lower (by omega)
  | case2 first size within several cut ih =>
    have back : first + size / 2 ≤ i := by
      by_contra early
      exact cut (behind _ _ (Nat.not_le.1 early))
    exact ih back (by omega)
  | case3 first size within single => omega

/-- What is found is what was sought, also in a list that is in no order. -/
theorem order_of_place?_eq_some {i : Nat} (h : place? order xs = some i) :
    ∃ x, xs[i]? = some x ∧ order x = .eq := by
  unfold place? at h
  dsimp only at h
  split at h
  · next x found =>
    split at h
    · next same =>
      obtain rfl := Option.some.inj h
      exact ⟨x, found, same⟩
    · cases h
  · cases h

/-- Whether what comes behind an element that does not lie before what is sought lies behind it. -/
def Ordered (order : β → Ordering) (xs : List β) : Prop :=
  xs.Pairwise fun a b => order a ≠ .lt → order b = .gt

/-- **In an ordered list the search finds the place of what is sought.** -/
theorem place?_eq_some_iff (ordered : Ordered order xs) {i : Nat} :
    place? order xs = some i ↔ ∃ x, xs[i]? = some x ∧ order x = .eq := by
  constructor
  · exact order_of_place?_eq_some
  · rintro ⟨x, found, same⟩
    obtain ⟨hi, rfl⟩ := List.getElem?_eq_some_iff.1 found
    have pairs := List.pairwise_iff_getElem.1 ordered
    have upTo : ∀ j (hj : j < xs.length), j ≤ i → order xs[j] ≠ .gt := by
      intro j hj early late
      rcases Nat.lt_or_eq_of_le early with early | rfl
      · -- then the element sought would lie behind itself
        have beyond := pairs j i hj hi early (by rw [late]; decide)
        rw [same] at beyond
        cases beyond
      · rw [same] at late
        cases late
    have behind : ∀ j (hj : j < xs.length), i < j → order xs[j] = .gt := by
      intro j hj later
      exact pairs i j hi hj later (by rw [same]; decide)
    have place : lastPlace order xs 0 xs.length (Nat.le_of_eq (Nat.zero_add _)) = i :=
      lastPlace_eq _ (Nat.zero_le i) (by omega) upTo behind
    unfold place?
    simp only [place, List.getElem?_eq_getElem hi, same, if_pos]

end Bisection

/-! ## §2. Places of periods -/

namespace IndexSets

/-- The place of a period: all periods of the years before its own, then those of the days before
its own, then the hours before its own. -/
def place (s : IndexSets) (k : PeriodKey) : Nat :=
  ((choices s.years).idxOf k.year * (choices s.days).length + (choices s.days).idxOf k.day) *
    s.hours.length + s.hours.idxOf k.hour

/-- The place of a period is where it is listed. -/
theorem getElem?_periods_place {s : IndexSets} {k : PeriodKey} (h : k ∈ s.periods) :
    s.periods[s.place k]? = some k := by
  obtain ⟨year, day, hour⟩ := mem_periods.1 h
  have inDay : s.hours.idxOf k.hour < s.hours.length := List.idxOf_lt_length_of_mem hour
  have inYear : (choices s.days).idxOf k.day < (choices s.days).length :=
    List.idxOf_lt_length_of_mem day
  have hoursOfYear : s.hours.length * (choices s.days).idxOf k.day + s.hours.idxOf k.hour <
      s.hours.length * (choices s.days).length := by
    calc s.hours.length * (choices s.days).idxOf k.day + s.hours.idxOf k.hour
        < s.hours.length * ((choices s.days).idxOf k.day + 1) := by
          rw [Nat.mul_succ]
          exact Nat.add_lt_add_left inDay _
      _ ≤ s.hours.length * (choices s.days).length := Nat.mul_le_mul_left _ inYear
  have split : s.place k =
      s.hours.length * (choices s.days).length * (choices s.years).idxOf k.year +
        (s.hours.length * (choices s.days).idxOf k.day + s.hours.idxOf k.hour) := by
    unfold place
    ring
  -- a year has as many periods as hours and days together, so division finds year, day and hour
  obtain ⟨yearAt, inner⟩ := div_mod_of_place hoursOfYear ((choices s.years).idxOf k.year)
  obtain ⟨dayAt, hourAt⟩ := div_mod_of_place inDay ((choices s.days).idxOf k.day)
  have width : ∀ year ∈ choices s.years, ((choices s.days).flatMap fun day =>
      s.hours.map fun hour => (⟨year, day, hour⟩ : PeriodKey)).length =
        s.hours.length * (choices s.days).length := by
    intro year _
    simp [List.length_flatMap, Nat.mul_comm]
  unfold periods
  rw [split, getElem?_flatMap_of_length (by omega) width, yearAt, inner, List.getElem?_idxOf year,
    Option.bind_some, getElem?_flatMap_of_length (by omega) (fun _ _ => List.length_map _), dayAt,
    hourAt, List.getElem?_idxOf day, Option.bind_some, List.getElem?_map, List.getElem?_idxOf hour]
  rfl

end IndexSets

/-! ## §3. Weights -/

/-- How often a period counts: as often as its day occurs if days are weighted and this one is, and
once otherwise. -/
inductive PriceSet.Counts {α : Type} [Scalar α] (prices : PriceSet α) :
    Bool → PeriodKey → α → Prop
  | once {k : PeriodKey} : prices.Counts false k 1
  | asItsDay {k : PeriodKey} {d : DayKey} {w : Nat} (day : k.dayKey? = some d)
      (weight : prices.weight? d = some w) : prices.Counts true k (Scalar.ofNat w)
  | withoutDay {k : PeriodKey} (noDay : k.dayKey? = none) : prices.Counts true k 1
  | withoutWeight {k : PeriodKey} {d : DayKey} (day : k.dayKey? = some d)
      (noWeight : prices.weight? d = none) : prices.Counts true k 1

namespace DispatchModel

variable {α : Type} [Scalar α]

/-- The weight of a period is the only one by which it counts. -/
theorem counts_iff {prices : PriceSet α} {weighted : Bool} {k : PeriodKey} {x : α} :
    prices.Counts weighted k x ↔ x = weightOf prices weighted k := by
  constructor
  · intro counts
    cases counts with
    | once => rfl
    | asItsDay day weight => simp [weightOf, PriceSet.periodWeight, day, weight]
    | withoutDay noDay => simp [weightOf, PriceSet.periodWeight, noDay]
    | withoutWeight day noWeight => simp [weightOf, PriceSet.periodWeight, day, noWeight]
  · rintro rfl
    cases weighted with
    | false => exact .once
    | true =>
      show prices.Counts true k (prices.periodWeight k)
      unfold PriceSet.periodWeight
      cases day : k.dayKey? with
      | none => exact .withoutDay day
      | some d =>
        rw [Option.bind_some]
        cases weight : prices.weight? d with
        | none => exact .withoutWeight day weight
        | some w => exact .asItsDay day weight

/-! ## §4. The periods of a model -/

omit [Scalar α] in
/-- Periods in the order of time are in order for the search, whichever key is sought. -/
theorem ordered_of_pairwise_before {ps : List (Period α)}
    (h : (ps.map (·.key)).Pairwise (·.Before ·)) (k : PeriodKey) :
    Bisection.Ordered (fun p => compare p.key k) ps := by
  refine (List.pairwise_map.1 h).imp fun {p q} earlier notBefore => ?_
  have later : compare q.key p.key = .gt := Std.OrientedCmp.gt_iff_lt.2 earlier
  exact Std.TransCmp.gt_of_gt_of_isGE later (Ordering.isGE_iff_ne_lt.2 notBefore)

omit [Scalar α] in
/-- In a model whose periods are in the order of time, exactly the place of the period of a key is
found. -/
theorem place?_eq_some_iff {m : DispatchModel α}
    (h : (m.periods.map (·.key)).Pairwise (·.Before ·)) {k : PeriodKey} {i : Nat} :
    m.place? k = some i ↔ (m.periods.map (·.key))[i]? = some k := by
  unfold place?
  rw [Bisection.place?_eq_some_iff (ordered_of_pairwise_before h k), List.getElem?_map,
    Option.map_eq_some_iff]
  simp only [Std.compare_eq_iff_eq]

omit [Scalar α] in
/-- What the search gives is the period of the key, and every key of a period has one. -/
theorem period?_eq_some_iff {m : DispatchModel α}
    (h : (m.periods.map (·.key)).Pairwise (·.Before ·)) {k : PeriodKey} {p : Period α} :
    m.period? k = some p ↔ p ∈ m.periods ∧ p.key = k := by
  unfold period?
  rw [Option.bind_eq_some_iff]
  constructor
  · rintro ⟨i, found, there⟩
    rw [place?_eq_some_iff h, List.getElem?_map, there] at found
    exact ⟨List.mem_of_getElem? there, Option.some.inj found⟩
  · rintro ⟨member, key⟩
    obtain ⟨i, there⟩ := List.mem_iff_getElem?.1 member
    refine ⟨i, (place?_eq_some_iff h).2 ?_, there⟩
    rw [List.getElem?_map, there, Option.map_some, key]

omit [Scalar α] in
theorem period?_eq_none_iff {m : DispatchModel α}
    (h : (m.periods.map (·.key)).Pairwise (·.Before ·)) {k : PeriodKey} :
    m.period? k = none ↔ k ∉ m.periods.map (·.key) := by
  rw [Option.eq_none_iff_forall_ne_some, List.mem_map]
  simp only [ne_eq, period?_eq_some_iff h, not_exists]

/-- Every period that is built has the price of its key and counts as its key does. -/
theorem price_and_weight_of_mem_built {prices : PriceSet α} {fleet : Fleet α} {weighted : Bool}
    {keys : List (PeriodKey × α)} (priced : ∀ k ∈ keys, prices.price? k.1 = some k.2)
    {p : Period α} (hp : p ∈ (built prices fleet weighted keys).periods) :
    prices.price? p.key = some p.price ∧ prices.Counts weighted p.key p.weight := by
  obtain ⟨t, ht⟩ := List.mem_iff_getElem?.1 hp
  rw [built_periods_getElem?] at ht
  obtain ⟨k, hk, rfl⟩ := Option.map_eq_some_iff.1 ht
  exact ⟨priced k (List.mem_of_getElem? hk), counts_iff.2 rfl⟩

/-- **The periods of a model are its keys in the order of time, and each is found in its place.**
What is sought is any key, also one that lacks a part that the model has or has a part that it
lacks. -/
theorem period_found_at_place {prices : PriceSet α} {fleet : Fleet α} {weighted : Bool}
    {m : DispatchModel α} (increasing : prices.sets.Increasing)
    (made : build prices fleet weighted = .ok m) :
    prices.sets.periods.Pairwise (·.Before ·) ∧
    m.periods.map (·.key) = prices.sets.periods ∧
    (∀ p ∈ m.periods, prices.price? p.key = some p.price ∧ prices.Counts weighted p.key p.weight) ∧
    ∀ k, (k ∉ prices.sets.periods → m.period? k = none) ∧
      (k ∈ prices.sets.periods → ∃ p, m.period? k = some p ∧ p.key = k ∧
        m.periods[prices.sets.place k]? = some p ∧
        ∀ j q, m.periods[j]? = some q → q.key = k → j = prices.sets.place k ∧ q = p) := by
  obtain ⟨-, -, keys, hkeys, rfl⟩ := build_eq_ok_iff.1 made
  obtain ⟨names, priced⟩ := priced_eq_ok_iff.1 hkeys
  have sorted := IndexSets.pairwise_periods increasing
  have listed : (built prices fleet weighted keys).periods.map (·.key) = prices.sets.periods := by
    rw [built_periods_map_key, names]
  have inOrder := listed ▸ sorted
  refine ⟨sorted, listed, fun p => price_and_weight_of_mem_built priced, fun k =>
    ⟨fun absent => ?_, fun present => ?_⟩⟩
  · rw [period?_eq_none_iff inOrder, listed]
    exact absent
  · have there : ((built prices fleet weighted keys).periods.map (·.key))[prices.sets.place k]? =
        some k := by
      rw [listed]
      exact IndexSets.getElem?_periods_place present
    have found := (place?_eq_some_iff inOrder).2 there
    rw [List.getElem?_map] at there
    obtain ⟨p, hp, key⟩ := Option.map_eq_some_iff.1 there
    refine ⟨p, (period?_eq_some_iff inOrder).2 ⟨List.mem_of_getElem? hp, key⟩, key, hp,
      fun j q hq hk => ?_⟩
    -- the search gives one place, so a period of the key elsewhere would be the same one
    have alsoThere : ((built prices fleet weighted keys).periods.map (·.key))[j]? = some k := by
      rw [List.getElem?_map, hq, Option.map_some, hk]
    obtain rfl : prices.sets.place k = j :=
      Option.some.inj (found.symm.trans ((place?_eq_some_iff inOrder).2 alsoThere))
    exact ⟨rfl, Option.some.inj (hq.symm.trans hp)⟩

/-- Two years of two days of two hours, the second day of the first year standing for three days:
its first hour is the third period, and an hour without a year is not found. -/
theorem period_found_at_place_two_years :
    let sets : IndexSets := ⟨[1, 2], some [1, 2], some [2022, 2023]⟩
    let prices : PriceSet ℝ :=
      ⟨sets, PriceSet.insertAll ∅ (sets.periods.map fun k => (k, 30)),
        PriceSet.insertAll ∅ [(⟨some 2022, 2⟩, 3)]⟩
    ∃ m, build prices (Fleet.empty.withUnit .standard) true = .ok m ∧
      (∃ p, m.period? ⟨some 2022, some 2, 1⟩ = some p ∧ m.periods[2]? = some p ∧ p.price = 30 ∧
        p.weight = 3) ∧
      m.period? ⟨none, some 2, 1⟩ = none := by
  intro sets prices
  have distinct : ((sets.periods.map fun k => (k, (30 : ℝ))).map (·.1)).Nodup := by
    rw [List.map_map]
    show (sets.periods.map id).Nodup
    rw [List.map_id]
    decide
  have priced : priced prices sets.periods = .ok (sets.periods.map fun k => (k, 30)) := by
    refine priced_eq_ok_iff.2 ⟨rfl, fun k hk => ?_⟩
    exact (getElem?_insertAll_iff distinct).2 hk
  have made : build prices (Fleet.empty.withUnit .standard) true = .ok _ :=
    build_eq_ok_iff.2 ⟨Stages.validate_one_standard, by decide, _, priced, rfl⟩
  have increasing : prices.sets.Increasing := by
    constructor
    · show [1, 2].Pairwise (· < ·)
      decide
    · rintro _ ⟨⟩
      decide
    · rintro _ ⟨⟩
      decide
  obtain ⟨-, -, each, searched⟩ := period_found_at_place increasing made
  obtain ⟨p, found, key, there, -⟩ := (searched ⟨some 2022, some 2, 1⟩).2 (by decide)
  obtain ⟨price, counts⟩ := each p (List.mem_of_getElem? there)
  refine ⟨_, made, ⟨p, found, there, ?_, ?_⟩, (searched ⟨none, some 2, 1⟩).1 (by decide)⟩
  · have listed := (getElem?_insertAll_iff distinct).1 price
    obtain ⟨k, -, same⟩ := List.mem_map.1 listed
    exact (Prod.ext_iff.1 same).2.symm
  · have weight : prices.weight? ⟨some 2022, 2⟩ = some 3 :=
      (getElem?_insertAll_iff (by decide)).2 (List.mem_singleton_self _)
    have counted : prices.Counts true p.key (Scalar.ofNat 3) := by
      rw [key]
      exact .asItsDay rfl weight
    rw [counts_iff.1 counts, ← counts_iff.1 counted]
    rfl

end DispatchModel

end PlantEconomics

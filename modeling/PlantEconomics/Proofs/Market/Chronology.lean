import Mathlib.Order.Lattice.Nat
import PlantEconomics.Market.Series
import PlantEconomics.Proofs.Calendar.Moments

/-!
# Rows in the order of time

The rows of a series are looked at one by one, and each known moment is compared with the latest one
known before it only. That is enough: as long as no moment ran backwards, the latest known moment is
also the greatest, so whatever is earlier than some moment before it is earlier than that one. What
earlier means for the fields of the moments is said by `DateTime.isBefore_iff_lex`.

  * `PriceSeries.firstBackwards?_eq_some_iff`: the row that ends the look through the rows;
  * `PriceSeries.accepts_rows_in_time_order`: which rows are a series, and what is said of others.
-/

namespace PlantEconomics

namespace PriceSeries

/-! ## §1. Rows that run backwards -/

/-- Whether known moments never run backwards. -/
def InTimeOrder (ts : List (Option DateTime)) : Prop :=
  ∀ (i j : Nat) (t u : DateTime), i < j → ts[i]? = some (some t) → ts[j]? = some (some u) →
    t.rank ≤ u.rank

/-- Whether the moment in a place is earlier than one in a place before it. -/
def BackAt (ts : List (Option DateTime)) (j : Nat) : Prop :=
  ∃ i t u, i < j ∧ ts[i]? = some (some t) ∧ ts[j]? = some (some u) ∧ u.isBefore t

theorem inTimeOrder_iff {ts : List (Option DateTime)} : InTimeOrder ts ↔ ∀ j, ¬BackAt ts j := by
  constructor
  · rintro ordered j ⟨i, t, u, hij, ht, hu, back⟩
    exact absurd (DateTime.isBefore_iff.1 back) (Int.not_lt.2 (ordered i j t u hij ht hu))
  · intro none i j t u hij ht hu
    by_contra back
    exact none j ⟨i, t, u, hij, ht, hu, DateTime.isBefore_iff.2 (Int.not_le.1 back)⟩

/-- Rows that are left out do not disturb the order of the others. -/
theorem InTimeOrder.sublist {ts us : List (Option DateTime)} (ordered : InTimeOrder ts)
    (fewer : us.Sublist ts) : InTimeOrder us := by
  have pairs (l : List (Option DateTime)) :
      InTimeOrder l ↔ l.Pairwise fun a b => ∀ t ∈ a, ∀ u ∈ b, t.rank ≤ u.rank := by
    rw [List.pairwise_iff_getElem]
    constructor
    · intro h i j hi hj hij t ht u hu
      refine h i j t u hij ?_ ?_
      · rw [List.getElem?_eq_getElem hi, Option.mem_def.1 ht]
      · rw [List.getElem?_eq_getElem hj, Option.mem_def.1 hu]
    · intro h i j t u hij ht hu
      obtain ⟨hi, ht⟩ := List.getElem?_eq_some_iff.1 ht
      obtain ⟨hj, hu⟩ := List.getElem?_eq_some_iff.1 hu
      exact h i j hi hj hij t ht u hu
  exact (pairs us).2 (((pairs ts).1 ordered).sublist fewer)

/-- A place is behind the list. -/
theorem not_backAt_of_le {ts : List (Option DateTime)} {j : Nat} (h : ts.length ≤ j) :
    ¬BackAt ts j := by
  rintro ⟨_, _, _, -, -, known, -⟩
  rw [List.getElem?_eq_none h] at known
  cases known

/-- A row without a moment in front of all others only moves their places. -/
theorem backAt_none_cons_iff {ts : List (Option DateTime)} {k : Nat} :
    BackAt (none :: ts) (k + 1) ↔ BackAt ts k := by
  constructor
  · rintro ⟨i, t, u, hi, ht, hu, back⟩
    cases i with
    | zero => cases ht
    | succ i => exact ⟨i, t, u, Nat.lt_of_succ_lt_succ hi, ht, hu, back⟩
  · rintro ⟨i, t, u, hi, ht, hu, back⟩
    exact ⟨i + 1, t, u, Nat.succ_lt_succ hi, ht, hu, back⟩

/-- A row without a moment may as well be left out. -/
theorem backAt_cons_none_cons_iff {latest : Option DateTime} {ts : List (Option DateTime)}
    {k : Nat} : BackAt (latest :: none :: ts) (k + 2) ↔ BackAt (latest :: ts) (k + 1) := by
  constructor
  · rintro ⟨i, t, u, hi, ht, hu, back⟩
    match i with
    | 0 => exact ⟨0, t, u, Nat.succ_pos k, ht, hu, back⟩
    | 1 => cases ht
    | i + 2 => exact ⟨i + 1, t, u, Nat.lt_of_succ_lt_succ hi, ht, hu, back⟩
  · rintro ⟨i, t, u, hi, ht, hu, back⟩
    match i with
    | 0 => exact ⟨0, t, u, Nat.succ_pos _, ht, hu, back⟩
    | i + 1 => exact ⟨i + 2, t, u, Nat.succ_lt_succ hi, ht, hu, back⟩

/-- A moment that does not run backwards takes the place of the one before it. -/
theorem backAt_cons_some_cons_iff {latest : Option DateTime} {t : DateTime}
    {ts : List (Option DateTime)} {k : Nat} (forward : ∀ u ∈ latest, ¬t.isBefore u) :
    BackAt (latest :: some t :: ts) (k + 2) ↔ BackAt (some t :: ts) (k + 1) := by
  constructor
  · rintro ⟨i, u, x, hi, hu, hx, back⟩
    match i with
    | 0 =>
      -- earlier than the moment before `t`, so earlier than `t`
      have known : latest = some u := Option.some.inj hu
      have later : ¬t.isBefore u := forward u known
      rw [DateTime.isBefore_iff] at later back
      exact ⟨0, t, x, Nat.succ_pos k, rfl, hx, DateTime.isBefore_iff.2 (by omega)⟩
    | i + 1 => exact ⟨i, u, x, Nat.lt_of_succ_lt_succ hi, hu, hx, back⟩
  · rintro ⟨i, u, x, hi, hu, hx, back⟩
    exact ⟨i + 1, u, x, Nat.succ_lt_succ hi, hu, hx, back⟩

/-! ## §2. The look through the rows -/

theorem firstBackwards?_some_cons (latest : Option DateTime) (row : Nat) (t : DateTime)
    (ts : List (Option DateTime)) :
    firstBackwards? latest row (some t :: ts) =
      if ∃ u ∈ latest, t.isBefore u then some row else firstBackwards? (some t) (row + 1) ts := by
  cases latest with
  | none => simp [firstBackwards?]
  | some u => simp [firstBackwards?]

/-- When the first place is not of a kind, the first place of the kind is found among those behind
it. -/
theorem exists_first_succ_iff {P Q : Nat → Prop} (zero : ¬P 0) (succ : ∀ k, P (k + 1) ↔ Q k)
    {row r : Nat} :
    (∃ k, r = row + k ∧ P k ∧ ∀ k' < k, ¬P k') ↔
      ∃ k, r = row + 1 + k ∧ Q k ∧ ∀ k' < k, ¬Q k' := by
  constructor
  · rintro ⟨k, rfl, holds, before⟩
    cases k with
    | zero => exact absurd holds zero
    | succ k =>
      refine ⟨k, by omega, (succ k).1 holds, fun k' hk' holds' => ?_⟩
      exact before (k' + 1) (Nat.succ_lt_succ hk') ((succ k').2 holds')
  · rintro ⟨k, rfl, holds, before⟩
    refine ⟨k + 1, by omega, (succ k).2 holds, fun k' hk' holds' => ?_⟩
    cases k' with
    | zero => exact zero holds'
    | succ k' => exact before k' (Nat.lt_of_succ_lt_succ hk') ((succ k').1 holds')

/-- The look through the rows ends at the first one that runs backwards, the latest moment known in
front of them being counted in. -/
theorem firstBackwards?_eq_some_iff {latest : Option DateTime} {row r : Nat}
    {ts : List (Option DateTime)} :
    firstBackwards? latest row ts = some r ↔
      ∃ k, r = row + k ∧ BackAt (latest :: ts) (k + 1) ∧
        ∀ k' < k, ¬BackAt (latest :: ts) (k' + 1) := by
  -- along the rows; the latest known moment stands for all moments in front of the row
  induction ts generalizing latest row with
  | nil =>
    constructor
    · intro found
      cases found
    · rintro ⟨k, -, back, -⟩
      exact absurd back (not_backAt_of_le (by simp))
  | cons moment ts ih =>
    cases moment with
    | none =>
      show firstBackwards? latest (row + 1) ts = some r ↔ _
      rw [ih]
      -- the row itself has no moment to run backwards, and the latest one stays
      refine (exists_first_succ_iff ?_ fun k => backAt_cons_none_cons_iff).symm
      rintro ⟨_, _, _, -, -, known, -⟩
      cases known
    | some t =>
      rw [firstBackwards?_some_cons]
      split
      · next back =>
        -- the row runs backwards, and none of this look was in front of it
        obtain ⟨u, known, back⟩ := back
        have first : BackAt (latest :: some t :: ts) 1 :=
          ⟨0, u, t, Nat.one_pos, congrArg some known, rfl, back⟩
        constructor
        · intro found
          obtain rfl := Option.some.inj found
          exact ⟨0, rfl, first, fun k' hk' => absurd hk' (Nat.not_lt_zero k')⟩
        · rintro ⟨k, rfl, -, before⟩
          cases k with
          | zero => rfl
          | succ k => exact absurd first (before 0 (Nat.succ_pos k))
      · next forward =>
        have forward : ∀ u ∈ latest, ¬t.isBefore u := fun u hu back => forward ⟨u, hu, back⟩
        rw [ih]
        -- the moment of the row is the latest one for the rows behind it
        refine (exists_first_succ_iff ?_ fun k => backAt_cons_some_cons_iff forward).symm
        rintro ⟨i, u, x, hi, hu, hx, back⟩
        obtain rfl : i = 0 := by omega
        obtain rfl : t = x := Option.some.inj (Option.some.inj hx)
        exact forward u (Option.some.inj hu) back

/-! ## §3. Series -/

/-- Whether a row, counted from one, has a moment that is earlier than one before it. -/
def RunsBack (ts : List (Option DateTime)) (row : Nat) : Prop := ∃ j, row = j + 1 ∧ BackAt ts j

/-- From the first row on, the look ends at the least row that runs backwards. -/
theorem firstBackwards?_start_iff {ts : List (Option DateTime)} {row : Nat} :
    firstBackwards? none 1 ts = some row ↔ IsLeast {r | RunsBack ts r} row := by
  rw [firstBackwards?_eq_some_iff]
  simp only [backAt_none_cons_iff]
  constructor
  · rintro ⟨k, rfl, back, before⟩
    refine ⟨⟨k, Nat.add_comm 1 k, back⟩, ?_⟩
    rintro _ ⟨j, rfl, other⟩
    have later : ¬j < k := fun earlier => before j earlier other
    omega
  · rintro ⟨⟨k, rfl, back⟩, least⟩
    refine ⟨k, Nat.add_comm k 1, back, fun j earlier other => ?_⟩
    have later : k + 1 ≤ j + 1 := least ⟨j, rfl, other⟩
    omega

theorem firstBackwards?_eq_none_iff {ts : List (Option DateTime)} :
    firstBackwards? none 1 ts = none ↔ InTimeOrder ts := by
  rw [inTimeOrder_iff]
  constructor
  · -- if some row ran backwards, the least such row would have been found
    intro none j back
    obtain ⟨row, least⟩ : ∃ row, IsLeast {r | RunsBack ts r} row :=
      ⟨_, Nat.sInf_mem ⟨j + 1, j, rfl, back⟩, fun _ h => Nat.sInf_le h⟩
    rw [firstBackwards?_start_iff.2 least] at none
    cases none
  · intro forward
    by_contra found
    obtain ⟨row, found⟩ := Option.ne_none_iff_exists'.1 found
    obtain ⟨⟨j, -, back⟩, -⟩ := firstBackwards?_start_iff.1 found
    exact forward j back

variable {α : Type} {name : String} {ts : List (Option DateTime)} {values : List α}

theorem ofRows_eq_ok_iff {s : PriceSeries α} :
    ofRows name ts values = .ok s ↔
      (ts.length = values.length ∧ InTimeOrder ts) ∧ s = ⟨name, ts, values⟩ := by
  unfold ofRows
  rw [← firstBackwards?_eq_none_iff]
  split
  · next different => simp [different]
  · next same =>
    rw [not_not] at same
    cases firstBackwards? none 1 ts with
    | none => simp [same, eq_comm]
    | some row => simp

/-- **Rows are a series exactly when they are in the order of time.** There has to be a moment, known
or not, for each value, and of two known moments the one behind is not the earlier one, however many
rows without a moment lie between them. The series then is what it was given. If the numbers differ,
that is the fault; otherwise the fault names the least row, counted from one, whose moment is earlier
than one before it. -/
theorem accepts_rows_in_time_order (name : String) (ts : List (Option DateTime))
    (values : List α) :
    (∀ s, ofRows name ts values = .ok s ↔
      (ts.length = values.length ∧ InTimeOrder ts) ∧ s = ⟨name, ts, values⟩) ∧
    (ts.length ≠ values.length → ofRows name ts values =
      .error (.dataShape (.timestampCount name ts.length values.length))) ∧
    (ts.length = values.length → ¬InTimeOrder ts → ∃ row, IsLeast {r | RunsBack ts r} row ∧
      ofRows name ts values = .error (.dataShape (.notChronological name row))) := by
  refine ⟨fun s => ofRows_eq_ok_iff, fun different => ?_, fun same unordered => ?_⟩
  · unfold ofRows
    rw [if_pos different]
  · obtain ⟨row, found⟩ := Option.ne_none_iff_exists'.1
      (fun none => unordered (firstBackwards?_eq_none_iff.1 none))
    refine ⟨row, firstBackwards?_start_iff.1 found, ?_⟩
    unfold ofRows
    rw [if_neg (not_not.2 same), found]

/-- Rows without a moment may stand between two equal ones. A moment that runs backwards behind such a
row is found, and the still earlier one behind it is not the one that is named. -/
theorem accepts_rows_in_time_order_gaps :
    let hour (h : Nat) : Option DateTime := some ⟨2023, 1, 1, h, 0, 0⟩
    let prices : List Nat := [10, 20, 30, 40]
    ofRows "price" [hour 1, none, none, hour 1] prices =
        .ok ⟨"price", [hour 1, none, none, hour 1], prices⟩ ∧
      ofRows "price" [hour 3, none, hour 2, hour 1] prices =
        .error (.dataShape (.notChronological "price" 3)) ∧
      ofRows "price" [hour 3] prices = .error (.dataShape (.timestampCount "price" 1 4)) := by
  intro hour prices
  refine ⟨?_, ?_, ?_⟩
  · have ordered : InTimeOrder [hour 1, none, none, hour 1] := firstBackwards?_eq_none_iff.1 rfl
    exact ((accepts_rows_in_time_order _ _ prices).1 _).2 ⟨⟨rfl, ordered⟩, rfl⟩
  · have unordered : ¬InTimeOrder [hour 3, none, hour 2, hour 1] := by
      intro ordered
      exact absurd (ordered 0 2 _ _ (by decide) rfl rfl) (by decide)
    obtain ⟨row, least, refused⟩ := (accepts_rows_in_time_order "price" _ prices).2.2 rfl unordered
    have third : IsLeast {r | RunsBack [hour 3, none, hour 2, hour 1] r} 3 :=
      firstBackwards?_start_iff.1 rfl
    rw [refused, least.unique third]
  · exact (accepts_rows_in_time_order "price" [hour 3] prices).2.1 (by decide)

end PriceSeries

end PlantEconomics

import PlantEconomics.Proofs.Exact
import PlantEconomics.Proofs.Mixture.AlphaTable

/-!
# Charge shares

In exact arithmetic the shares of the ions of a sign add up to one, or are all zero if there are no
such ions. So an interaction, which is a sum of table values weighted by shares, lies between the
least and the greatest of them and zero. Shares are parts of a whole, so they stay as they are when
all fractions are multiplied by the same number, and the interactions stay with them.

  * `Electrolyte.totalOf_chargeShares`: the shares of a sign add up to one or to zero;
  * `Electrolyte.Composed.between`: interactions lie between bounds of the table;
  * `Electrolyte.mixingTerms_scale`: what multiples of a composition have;
  * `Electrolyte.mixingTerms_balanced` puts them together.
-/

namespace PlantEconomics

/-! ## §1. Bounds of a table -/

/-- The least of a list and one value more is at most each of them. -/
theorem foldr_min_le {β : Type} [LinearOrder β] (b : β) (l : List β) :
    l.foldr min b ≤ b ∧ ∀ v ∈ l, l.foldr min b ≤ v := by
  induction l with
  | nil => simp
  | cons x l ih =>
    rw [List.foldr_cons, List.forall_mem_cons]
    exact ⟨(min_le_right _ _).trans ih.1, min_le_left _ _,
      fun v hv => (min_le_right _ _).trans (ih.2 v hv)⟩

namespace AlphaTable

section Values

variable {α : Type}

/-- The parameters that lookups can find. -/
def values (t : AlphaTable α) : List α := t.entries.filterMap fun p => t.at? p.1.1 p.1.2

theorem mem_values_of_at? {t : AlphaTable α} {i j : String} {v : α} (h : t.at? i j = some v) :
    v ∈ t.values := by
  obtain ⟨before, after, split, -⟩ := List.lookup_eq_some_iff.1 h
  exact List.mem_filterMap.2 ⟨((i, j), v), by simp [split], h⟩

end Values

variable {α : Type} [Field α] [LinearOrder α]

/-- The least of zero and the parameters. -/
def least (t : AlphaTable α) : α := t.values.foldr min 0

/-- The greatest of zero and the parameters. -/
def greatest (t : AlphaTable α) : α := t.values.foldr max 0

theorem least_nonpos (t : AlphaTable α) : t.least ≤ 0 := (foldr_min_le 0 t.values).1

-- the greatest is the least in the order turned round
theorem greatest_nonneg (t : AlphaTable α) : 0 ≤ t.greatest :=
  (@foldr_min_le αᵒᵈ _ 0 t.values).1

/-- What is looked up lies between the bounds. -/
theorem get_between {t : AlphaTable α} {i j : String} {v : α} (h : t.get i j = .ok v) :
    t.least ≤ v ∧ v ≤ t.greatest := by
  have inside {i j : String} (h : t.at? i j = some v) : t.least ≤ v ∧ v ≤ t.greatest :=
    ⟨(foldr_min_le 0 t.values).2 v (mem_values_of_at? h),
      (@foldr_min_le αᵒᵈ _ 0 t.values).2 v (mem_values_of_at? h)⟩
  rcases get_eq_ok_iff.1 h with ⟨-, zero⟩ | ⟨-, found⟩
  · rw [← zero]
    exact ⟨t.least_nonpos, t.greatest_nonneg⟩
  · rcases Option.or_eq_some_iff.1 found with direct | ⟨-, reverse⟩
    · exact inside direct
    · exact inside reverse

end AlphaTable

namespace Electrolyte

/-! ## §2. Weighted sums -/

section Weight

variable {α : Type} [Field α] {kind : SpeciesKind}

/-- The weight that the species of a kind have together. -/
def weightOf (kind : SpeciesKind) (shares : List (Species × α)) : α :=
  ((shares.filter fun p => p.1.kind = kind).map (·.2)).sum

theorem weightOf_cons (p : Species × α) (shares : List (Species × α)) :
    weightOf kind (p :: shares) =
      if p.1.kind = kind then p.2 + weightOf kind shares else weightOf kind shares := by
  unfold weightOf
  by_cases h : p.1.kind = kind
  · simp [h]
  · simp [h]

theorem weightOf_perm {l l' : List (Species × α)} (h : l.Perm l') :
    weightOf kind l = weightOf kind l' :=
  ((h.filter _).map _).sum_eq

/-- The weight of a kind when weights are changed by kinds. -/
theorem weightOf_map (f : SpeciesKind → α → α) (shares : List (Species × α)) :
    weightOf kind (shares.map fun p => (p.1, f p.1.kind p.2)) =
      ((shares.filter fun p => p.1.kind = kind).map fun p => f kind p.2).sum := by
  rw [weightOf, List.filter_map, List.map_map]
  congr 1
  refine List.map_congr_left fun p hp => ?_
  have hp : p.1.kind = kind := by simpa using (List.mem_filter.1 hp).2
  show f p.1.kind p.2 = f kind p.2
  rw [hp]

end Weight

variable {α : Type} [Field α] [LinearOrder α] {e : Electrolyte α} {kind : SpeciesKind}

theorem totalOf_eq_weightOf (e : Electrolyte α) (x : List α) :
    e.totalOf kind x = weightOf kind (e.species.zip x) := by
  simp [totalOf, weightOf, beq_eq_decide]

section Between

variable [IsStrictOrderedRing α] {lo hi : α}

/-- A weighted sum of values between two bounds lies between the bounds times the weight. -/
theorem weightedFrom_between {f : String → Except (Fault α) α}
    (inside : ∀ n v, f n = .ok v → lo ≤ v ∧ v ≤ hi) {shares : List (Species × α)}
    (nonneg : ∀ p ∈ shares, 0 ≤ p.2) {acc r : α} (run : weightedFrom kind f acc shares = .ok r) :
    acc + weightOf kind shares * lo ≤ r ∧ r ≤ acc + weightOf kind shares * hi := by
  induction shares generalizing acc with
  | nil =>
    obtain rfl := Except.ok.inj (show Except.ok acc = .ok r from run)
    simp [weightOf]
  | cons p shares ih =>
    obtain ⟨s, y⟩ := p
    obtain ⟨first, rest⟩ := List.forall_mem_cons.1 nonneg
    rw [weightedFrom_cons] at run
    rw [weightOf_cons]
    by_cases h : s.kind = kind
    · rw [if_pos h] at run ⊢
      obtain ⟨v, hv, run⟩ := bind_eq_ok_iff.1 run
      obtain ⟨above, below⟩ := inside _ v hv
      -- the sum behind the first term starts from it
      obtain ⟨low, high⟩ := ih rest run
      have least := mul_le_mul_of_nonneg_left above first
      have greatest := mul_le_mul_of_nonneg_left below first
      constructor
      · calc acc + (y + weightOf kind shares) * lo
            = acc + y * lo + weightOf kind shares * lo := by ring
          _ ≤ acc + y * v + weightOf kind shares * lo := by gcongr
          _ ≤ r := low
      · calc r ≤ acc + y * v + weightOf kind shares * hi := high
          _ ≤ acc + y * hi + weightOf kind shares * hi := by gcongr
          _ = acc + (y + weightOf kind shares) * hi := by ring
    · rw [if_neg h] at run ⊢
      exact ih rest run

/-- **Interactions lie between bounds of the table**, when no share is negative and those of a
kind are at most a whole. -/
theorem Composed.between {t : AlphaTable α} {g : List (Species × α) → Except (Fault α) α}
    (h : Composed t g) {shares : List (Species × α)} (nonneg : ∀ p ∈ shares, 0 ≤ p.2)
    (part : ∀ kind, weightOf kind shares ≤ 1) {a : α} (run : g shares = .ok a) :
    t.least ≤ a ∧ a ≤ t.greatest := by
  induction h with
  | lookup i j => exact AlphaTable.get_between run
  | nothing =>
    obtain rfl := Except.ok.inj run
    exact ⟨t.least_nonpos, t.greatest_nonneg⟩
  | mean kind f lookups =>
    have inside : ∀ n v, f n = .ok v → t.least ≤ v ∧ v ≤ t.greatest := by
      intro n v hv
      obtain ⟨i, j, found⟩ := lookups n v hv
      exact AlphaTable.get_between found
    obtain ⟨low, high⟩ := weightedFrom_between inside nonneg run
    -- the bounds have zero between them, so a part of a whole moves them inwards
    rw [zero_add] at low high
    exact ⟨(le_mul_of_le_one_left t.least_nonpos (part kind)).trans low,
      high.trans (mul_le_of_le_one_left t.greatest_nonneg (part kind))⟩
  | behind salt rest _ ih =>
    obtain ⟨s, -, run⟩ := bind_eq_ok_iff.1 run
    exact ih s run

end Between

/-! ## §3. Shares -/

theorem share_eq (v sum : α) : share v sum = if 0 < sum then v / sum else 0 := rfl

/-- The share of an amount of a species of the kind, by the amounts of all. -/
def shareOf (e : Electrolyte α) (x : List α) : SpeciesKind → α → α
  | .molecule, _ => 0
  | .cation, v => share v (e.totalOf .cation x)
  | .anion, v => share v (e.totalOf .anion x)

theorem shareOf_ion (ion : kind ≠ .molecule) (x : List α) (v : α) :
    e.shareOf x kind v = share v (e.totalOf kind x) := by
  cases kind with
  | molecule => exact absurd rfl ion
  | cation => rfl
  | anion => rfl

theorem chargeShares_eq (e : Electrolyte α) (x : List α) :
    e.chargeShares x = List.zipWith (fun s v => e.shareOf x s.kind v) e.species x := by
  unfold chargeShares
  dsimp only
  congr 1
  funext s v
  cases s.kind <;> rfl

/-- The species with their shares are the species with their amounts, each amount made a share. -/
theorem zip_chargeShares (e : Electrolyte α) (x : List α) :
    e.species.zip (e.chargeShares x) =
      (e.species.zip x).map fun p => (p.1, e.shareOf x p.1.kind p.2) := by
  rw [chargeShares_eq]
  generalize e.shareOf x = f
  induction e.species generalizing x with
  | nil => rfl
  | cons s species ih =>
    cases x with
    | nil => rfl
    | cons v x => simp [ih]

theorem totalOf_chargeShares_eq_sum (e : Electrolyte α) (kind : SpeciesKind) (x : List α) :
    e.totalOf kind (e.chargeShares x) =
      (((e.species.zip x).filter fun p => p.1.kind = kind).map fun p =>
        e.shareOf x kind p.2).sum := by
  rw [totalOf_eq_weightOf, zip_chargeShares, weightOf_map]

/-- **The shares of a sign add up** to one if there are such ions, and to zero otherwise. -/
theorem totalOf_chargeShares (ion : kind ≠ .molecule) (x : List α) :
    e.totalOf kind (e.chargeShares x) = if 0 < e.totalOf kind x then 1 else 0 := by
  rw [totalOf_chargeShares_eq_sum]
  simp only [shareOf_ion ion, share_eq]
  by_cases present : 0 < e.totalOf kind x
  · have whole : (((e.species.zip x).filter fun p => p.1.kind = kind).map (·.2)).sum =
        e.totalOf kind x := (totalOf_eq_weightOf e x).symm
    simp only [if_pos present, div_eq_mul_inv, List.sum_map_mul_right]
    rw [whole, mul_inv_cancel₀ present.ne']
  · simp [present]

section Ordered

variable [IsStrictOrderedRing α]

/-- The shares of a kind are at most a whole. -/
theorem totalOf_chargeShares_le (x : List α) : e.totalOf kind (e.chargeShares x) ≤ 1 := by
  by_cases molecule : kind = .molecule
  · rw [totalOf_chargeShares_eq_sum, molecule]
    simp [shareOf]
  · rw [totalOf_chargeShares molecule]
    split
    · exact le_rfl
    · exact zero_le_one

theorem chargeWeighted_nonneg {fractions : List α} (nonneg : ∀ v ∈ fractions, 0 ≤ v) :
    ∀ v ∈ List.zipWith chargeWeighted e.species fractions, 0 ≤ v := by
  intro v hv
  obtain ⟨i, hi, rfl⟩ := List.mem_iff_getElem.1 hv
  rw [List.getElem_zipWith]
  exact mul_nonneg (nonneg _ (List.getElem_mem _)) (Nat.cast_nonneg _)

theorem shareOf_nonneg {x : List α} {v : α} (nonneg : 0 ≤ v) : 0 ≤ e.shareOf x kind v := by
  have part (sum : α) : 0 ≤ share v sum := by
    rw [share_eq]
    split
    · next present => exact div_nonneg nonneg present.le
    · exact le_rfl
  cases kind with
  | molecule => exact le_rfl
  | cation => exact part _
  | anion => exact part _

/-! ## §4. Multiples -/

omit [IsStrictOrderedRing α] in
theorem totalOf_map_mul (e : Electrolyte α) (kind : SpeciesKind) (c : α) (x : List α) :
    e.totalOf kind (x.map (c * ·)) = c * e.totalOf kind x := by
  rw [totalOf_eq_weightOf, totalOf_eq_weightOf, List.zip_map_right]
  show weightOf kind ((e.species.zip x).map fun p => (p.1, c * p.2)) = _
  rw [weightOf_map fun _ v => c * v, List.sum_map_mul_left]
  rfl

/-- The share of a multiple in the same multiple of the amounts is the share. -/
theorem shareOf_map_mul {c : α} (positive : 0 < c) (x : List α) (v : α) :
    e.shareOf (x.map (c * ·)) kind (c * v) = e.shareOf x kind v := by
  by_cases molecule : kind = .molecule
  · rw [molecule]
    rfl
  · rw [shareOf_ion molecule, shareOf_ion molecule, totalOf_map_mul, share_eq, share_eq]
    simp only [mul_pos_iff_of_pos_left positive, mul_div_mul_left _ _ positive.ne']

theorem chargeShares_map_mul {c : α} (positive : 0 < c) (x : List α) :
    e.chargeShares (x.map (c * ·)) = e.chargeShares x := by
  rw [chargeShares_eq, chargeShares_eq, List.zipWith_map_right]
  simp only [shareOf_map_mul positive]

/-- **What multiples of a composition have**: the same multiple of the charge-weighted fractions,
and the same shares and interactions. -/
theorem mixingTerms_scale {fractions : List α} {terms : MixingTerms α}
    (run : e.mixingTerms fractions = .ok terms) {c : α} (positive : 0 < c) :
    e.mixingTerms (fractions.map (c * ·)) = .ok { terms with x := terms.x.map (c * ·) } := by
  obtain ⟨count, hx, hy, rows⟩ := mixingTerms_eq_ok_iff.1 run
  refine mixingTerms_eq_ok_iff.2 ⟨by simpa using count, ?_, ?_, rows⟩
  · have weighted (s : Species) (v : α) : chargeWeighted s (c * v) = c * chargeWeighted s v :=
      mul_assoc _ _ _
    show terms.x.map (c * ·) = List.zipWith chargeWeighted e.species (fractions.map (c * ·))
    rw [hx, List.zipWith_map_right, List.map_zipWith]
    simp only [weighted]
  · show terms.y = e.chargeShares (terms.x.map (c * ·))
    rw [chargeShares_map_mul positive, hy]

/-! ## §5. Mixing terms -/

/-- What holds of the mixing terms of a composition without negative fractions. -/
structure Balanced (e : Electrolyte α) (terms : MixingTerms α) : Prop where
  /-- Every species has a share. -/
  count : terms.y.length = e.species.length
  /-- The shares of the ions of a sign add up to one if there is any. -/
  present : ∀ kind, kind ≠ .molecule → 0 < e.totalOf kind terms.x →
    e.totalOf kind terms.y = 1
  /-- Otherwise they are all zero. -/
  absent : ∀ kind, kind ≠ .molecule → ¬0 < e.totalOf kind terms.x →
    ∀ p ∈ e.species.zip terms.y, p.1.kind = kind → p.2 = 0
  /-- Molecules have no share. -/
  molecules : ∀ p ∈ e.species.zip terms.y, p.1.kind = .molecule → p.2 = 0
  /-- A molecule and an ion interact alike in both orders. -/
  symmetric : ∀ (i j : Nat) (s s' : Species), e.species[i]? = some s → e.species[j]? = some s' →
    s.kind = .molecule → s'.kind ≠ .molecule →
    ∃ a, terms.between? i j = some a ∧ terms.between? j i = some a
  /-- Ions of one sign do not interact. -/
  like_ions : ∀ (i j : Nat) (s s' : Species), e.species[i]? = some s → e.species[j]? = some s' →
    s.kind = s'.kind → s.kind ≠ .molecule → terms.between? i j = some 0
  /-- Every interaction is between the least and the greatest of zero and the parameters. -/
  bounded : ∀ (i j : Nat) (a : α), terms.between? i j = some a →
    e.alpha.least ≤ a ∧ a ≤ e.alpha.greatest

/-- **Shares are parts of a whole and interactions are means.** Without negative fractions the
shares of a sign add up to one or are all zero, and interactions lie within the table. Multiples of
a composition have the same shares and interactions. -/
theorem mixingTerms_balanced {fractions : List α} {terms : MixingTerms α}
    (nonneg : ∀ v ∈ fractions, 0 ≤ v) (run : e.mixingTerms fractions = .ok terms) :
    e.Balanced terms ∧ ∀ c, 0 < c →
      e.mixingTerms (fractions.map (c * ·)) = .ok { terms with x := terms.x.map (c * ·) } := by
  refine ⟨?_, fun c positive => mixingTerms_scale run positive⟩
  obtain ⟨count, hx, hy, -⟩ := mixingTerms_eq_ok_iff.1 run
  have amounts : ∀ v ∈ terms.x, 0 ≤ v := hx ▸ chargeWeighted_nonneg nonneg
  have shares : ∀ p ∈ e.species.zip terms.y,
      ∃ v, 0 ≤ v ∧ p.2 = e.shareOf terms.x p.1.kind v := by
    intro p hp
    rw [hy, zip_chargeShares] at hp
    obtain ⟨q, hq, rfl⟩ := List.mem_map.1 hp
    exact ⟨q.2, amounts _ (List.of_mem_zip hq).2, rfl⟩
  exact
    { count := by rw [hy, hx, length_shares count]
      present := fun kind ion some_ion => by rw [hy, totalOf_chargeShares ion, if_pos some_ion]
      absent := fun kind ion no_ion p hp hkind => by
        obtain ⟨v, -, share⟩ := shares p hp
        rw [share, hkind, shareOf_ion ion, share_eq, if_neg no_ion]
      molecules := fun p hp molecule => by
        obtain ⟨v, -, share⟩ := shares p hp
        rw [share, molecule]
        rfl
      symmetric := fun i j s s' hs hs' molecule ion => by
        obtain ⟨a, ha, value⟩ := exists_between run hs hs'
        obtain ⟨a', ha', value'⟩ := exists_between run hs' hs
        rw [interaction_comm molecule ion, value'] at value
        obtain rfl := Except.ok.inj value
        exact ⟨a', ha, ha'⟩
      like_ions := fun i j s s' hs hs' same ion => by
        obtain ⟨a, ha, value⟩ := exists_between run hs hs'
        rw [interaction_like_ions same ion] at value
        obtain rfl := Except.ok.inj value
        exact ha
      bounded := fun i j a ha => by
        obtain ⟨s, s', -, -, value⟩ := exists_species_of_between run ha
        obtain ⟨g, composed, interaction⟩ := e.exists_composed s s'
        refine composed.between (fun p hp => ?_) (fun kind => ?_)
          ((interaction e.species terms.y).symm.trans value)
        · obtain ⟨v, hv, share⟩ := shares p hp
          rw [share]
          exact shareOf_nonneg hv
        · rw [← totalOf_eq_weightOf, hy]
          exact totalOf_chargeShares_le _ }

end Ordered

/-- Water with the ions of calcium chloride and salt. -/
def seaWater : Electrolyte ℚ where
  species := [⟨"H2O", 0⟩, ⟨"Ca++", 2⟩, ⟨"Na+", 1⟩, ⟨"Cl-", -1⟩]
  apparent := [⟨"CaCl2", ["Ca++", "Cl-"]⟩, ⟨"NaCl", ["Na+", "Cl-"]⟩]
  alpha := .ofCalls [("H2O", "CaCl2", 1 / 5), ("NaCl", "H2O", 3 / 10), ("CaCl2", "NaCl", 1 / 10)]

/-- Calcium counts twice, so both cations have half of the share, and chloride has all of it. -/
theorem mixingTerms_balanced_seaWater :
    let terms : MixingTerms ℚ :=
      ⟨[1 / 2, 1 / 5, 1 / 5, 2 / 5], [0, 1 / 2, 1 / 2, 1], [[0, 1 / 5, 3 / 10, 1 / 4],
        [1 / 5, 0, 0, 1 / 20], [3 / 10, 0, 0, 1 / 20], [1 / 4, 0, 0, 0]]⟩
    seaWater.mixingTerms [1 / 2, 1 / 10, 1 / 5, 2 / 5] = .ok terms ∧ seaWater.Balanced terms ∧
      seaWater.mixingTerms [1, 1 / 5, 2 / 5, 4 / 5] =
        .ok { terms with x := [1, 2 / 5, 2 / 5, 4 / 5] } := by
  intro terms
  have nonneg : ∀ v ∈ ([1 / 2, 1 / 10, 1 / 5, 2 / 5] : List ℚ), 0 ≤ v := by decide +kernel
  have run : seaWater.mixingTerms [1 / 2, 1 / 10, 1 / 5, 2 / 5] = .ok terms := by decide +kernel
  obtain ⟨balanced, multiples⟩ := mixingTerms_balanced nonneg run
  have doubled : ([1 / 2, 1 / 10, 1 / 5, 2 / 5] : List ℚ).map (2 * ·) =
      [1, 1 / 5, 2 / 5, 4 / 5] := by decide +kernel
  have doubled' : terms.x.map (2 * ·) = [1, 2 / 5, 2 / 5, 4 / 5] := by decide +kernel
  have twice := multiples 2 two_pos
  rw [doubled, doubled'] at twice
  exact ⟨run, balanced, twice⟩

end Electrolyte

end PlantEconomics

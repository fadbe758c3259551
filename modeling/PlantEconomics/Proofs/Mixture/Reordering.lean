import PlantEconomics.Proofs.Mixture.Shares

/-!
# The order of the species

Species are told apart by their names and take their weights along, so in exact arithmetic their
order matters for nothing but the order of the results. Sums over the species are sums in another
order, which are given when the first are and have the same value; salts and parameters are found
by names.

  * `Electrolyte.Composed.perm`: interactions do not depend on the order of the species;
  * `Electrolyte.mixingTerms_reordered`: from an order to another;
  * `Electrolyte.mixingTerms_equivariant` is about accepted electrolytes.
-/

namespace PlantEconomics

/-! ## §1. Lists of values -/

section Lists

variable {β γ δ : Type} {n : Nat}

theorem zipWith_ofFn (f : β → γ → δ) (xs : Fin n → β) (ys : Fin n → γ) :
    List.zipWith f (List.ofFn xs) (List.ofFn ys) = List.ofFn fun i => f (xs i) (ys i) := by
  refine List.ext_getElem (by simp) fun i _ _ => ?_
  simp

theorem zip_ofFn (xs : Fin n → β) (ys : Fin n → γ) :
    (List.ofFn xs).zip (List.ofFn ys) = List.ofFn fun i => (xs i, ys i) :=
  zipWith_ofFn Prod.mk xs ys

/-- What goes together with the values of a function is the values of a function. -/
theorem forall₂_ofFn_iff {R : β → γ → Prop} {xs : Fin n → β} {ys : List γ} :
    List.Forall₂ R (List.ofFn xs) ys ↔ ∃ f : Fin n → γ, ys = List.ofFn f ∧ ∀ i, R (xs i) (f i) := by
  constructor
  · intro h
    obtain rfl : n = ys.length := by simpa using h.length_eq
    refine ⟨ys.get, (List.ofFn_get ys).symm, fun i => ?_⟩
    simpa using h.get (by simp) i.isLt
  · rintro ⟨f, rfl, each⟩
    rw [List.forall₂_iff_get]
    exact ⟨by simp, fun i _ _ => by simpa using each _⟩

end Lists

namespace Electrolyte

variable {α : Type} [Field α] [LinearOrder α]

/-! ## §2. Sums in another order -/

/-- A weighted sum is the same in every order. -/
theorem weightedFrom_perm {kind : SpeciesKind} {f : String → Except (Fault α) α}
    {l l' : List (Species × α)} (h : l.Perm l') {acc r : α}
    (run : weightedFrom kind f acc l = .ok r) : weightedFrom kind f acc l' = .ok r := by
  induction h generalizing acc with
  | nil => exact run
  | cons p _ ih =>
    obtain ⟨s, y⟩ := p
    rw [weightedFrom_cons] at run ⊢
    split at run
    · next same =>
      obtain ⟨v, hv, run⟩ := bind_eq_ok_iff.1 run
      rw [if_pos same]
      exact bind_eq_ok_iff.2 ⟨v, hv, ih run⟩
    · next other =>
      rw [if_neg other]
      exact ih run
  | swap p q l =>
    obtain ⟨s, y⟩ := p
    obtain ⟨s', y'⟩ := q
    simp only [weightedFrom_cons] at run ⊢
    by_cases h : s.kind = kind
    · by_cases h' : s'.kind = kind
      · -- the only case in which two terms change places
        simp only [h, h', if_true, bind_eq_ok_iff] at run ⊢
        obtain ⟨v', hv', v, hv, run⟩ := run
        exact ⟨v, hv, v', hv', by rwa [add_right_comm]⟩
      · simpa only [h, h', if_true, if_false] using run
    · simpa only [h, if_false] using run
  | trans _ _ ih ih' => exact ih' (ih run)

/-- **Interactions do not depend on the order of the species.** -/
theorem Composed.perm {t : AlphaTable α} {g : List (Species × α) → Except (Fault α) α}
    (h : Composed t g) {l l' : List (Species × α)} (order : l.Perm l') {a : α}
    (run : g l = .ok a) : g l' = .ok a := by
  induction h with
  | lookup i j => exact run
  | nothing => exact run
  | mean kind f _ => exact weightedFrom_perm order run
  | behind salt rest _ ih =>
    obtain ⟨s, hs, run⟩ := bind_eq_ok_iff.1 run
    exact bind_eq_ok_iff.2 ⟨s, hs, ih s run⟩

/-! ## §3. Electrolytes in an order -/

variable {n : Nat} {apparent : List ApparentSpecies} {alpha : AlphaTable α}

theorem totalOf_comp_perm (species : Fin n → Species) (x : Fin n → α) (kind : SpeciesKind)
    (p : Equiv.Perm (Fin n)) :
    totalOf ⟨List.ofFn (species ∘ p), apparent, alpha⟩ kind (List.ofFn (x ∘ p)) =
      totalOf ⟨List.ofFn species, apparent, alpha⟩ kind (List.ofFn x) := by
  rw [totalOf_eq_weightOf, totalOf_eq_weightOf, zip_ofFn, zip_ofFn]
  exact weightOf_perm (p.ofFn_comp_perm fun i => (species i, x i))

theorem shareOf_comp_perm (species : Fin n → Species) (x : Fin n → α) (kind : SpeciesKind) (v : α)
    (p : Equiv.Perm (Fin n)) :
    shareOf ⟨List.ofFn (species ∘ p), apparent, alpha⟩ (List.ofFn (x ∘ p)) kind v =
      shareOf ⟨List.ofFn species, apparent, alpha⟩ (List.ofFn x) kind v := by
  by_cases molecule : kind = .molecule
  · rw [molecule]
    rfl
  · rw [shareOf_ion molecule, shareOf_ion molecule, totalOf_comp_perm]

theorem interaction_comp_perm {species : Fin n → Species} {y : Fin n → α} {s s' : Species} {a : α}
    (run : interaction ⟨List.ofFn species, apparent, alpha⟩ (List.ofFn y) s s' = .ok a)
    (p : Equiv.Perm (Fin n)) :
    interaction ⟨List.ofFn (species ∘ p), apparent, alpha⟩ (List.ofFn (y ∘ p)) s s' = .ok a := by
  obtain ⟨g, composed, interaction⟩ :=
    exists_composed (⟨List.ofFn species, apparent, alpha⟩ : Electrolyte α) s s'
  have before := interaction (List.ofFn species) (List.ofFn y)
  have after := interaction (List.ofFn (species ∘ p)) (List.ofFn (y ∘ p))
  rw [zip_ofFn] at before after
  rw [before] at run
  rw [after]
  exact composed.perm (p.ofFn_comp_perm fun i => (species i, y i)).symm run

/-- Mixing terms from functions of the species. -/
def termsOf (x y : Fin n → α) (a : Fin n → Fin n → α) : MixingTerms α :=
  ⟨List.ofFn x, List.ofFn y, List.ofFn fun i => List.ofFn (a i)⟩

/-- **What mixing terms are**, species by species. -/
theorem mixingTerms_ofFn_eq_ok_iff {species : Fin n → Species} {fractions : Fin n → α}
    {terms : MixingTerms α} :
    mixingTerms ⟨List.ofFn species, apparent, alpha⟩ (List.ofFn fractions) = .ok terms ↔
      ∃ x y a, terms = termsOf x y a ∧
        (∀ i, x i = chargeWeighted (species i) (fractions i)) ∧
        (∀ i, y i = shareOf ⟨List.ofFn species, apparent, alpha⟩ (List.ofFn x)
          (species i).kind (x i)) ∧
        ∀ i j, interaction ⟨List.ofFn species, apparent, alpha⟩ (List.ofFn y)
          (species i) (species j) = .ok (a i j) := by
  obtain ⟨x, y, matrix⟩ := terms
  rw [mixingTerms_eq_ok_iff]
  constructor
  · rintro ⟨-, hx, hy, rows⟩
    rw [zipWith_ofFn] at hx
    rw [hx, chargeShares_eq, zipWith_ofFn] at hy
    obtain ⟨row, hrow, each⟩ := forall₂_ofFn_iff.1 rows
    choose a ha value using fun i => forall₂_ofFn_iff.1 (each i)
    refine ⟨_, _, a, ?_, fun _ => rfl, fun _ => rfl, fun i j => ?_⟩
    · simp only [termsOf, MixingTerms.mk.injEq]
      exact ⟨hx, hy, hrow.trans (congrArg List.ofFn (funext ha))⟩
    · rw [← hy]
      exact value i j
  · rintro ⟨x, y, a, same, hx, hy, value⟩
    obtain ⟨rfl, rfl, rfl⟩ := MixingTerms.mk.inj same
    refine ⟨by simp, ?_, ?_, ?_⟩
    · rw [zipWith_ofFn]
      exact congrArg List.ofFn (funext hx)
    · rw [chargeShares_eq, zipWith_ofFn]
      exact congrArg List.ofFn (funext hy)
    · exact forall₂_ofFn_iff.2 ⟨_, rfl, fun i => forall₂_ofFn_iff.2 ⟨_, rfl, value i⟩⟩

/-- **From an order to another.** Mixing terms that are given in one order are given in every other,
each at the place of its species. -/
theorem mixingTerms_reordered {species : Fin n → Species} {fractions : Fin n → α}
    {terms : MixingTerms α}
    (run : mixingTerms ⟨List.ofFn species, apparent, alpha⟩ (List.ofFn fractions) = .ok terms)
    (p : Equiv.Perm (Fin n)) :
    ∃ x y a, terms = termsOf x y a ∧
      mixingTerms ⟨List.ofFn (species ∘ p), apparent, alpha⟩ (List.ofFn (fractions ∘ p)) =
        .ok (termsOf (x ∘ p) (y ∘ p) fun i j => a (p i) (p j)) := by
  obtain ⟨x, y, a, rfl, hx, hy, value⟩ := mixingTerms_ofFn_eq_ok_iff.1 run
  refine ⟨x, y, a, rfl, mixingTerms_ofFn_eq_ok_iff.2 ⟨_, _, _, rfl, fun i => hx (p i), fun i => ?_,
    fun i j => interaction_comp_perm (value (p i) (p j)) p⟩⟩
  rw [shareOf_comp_perm]
  exact hy (p i)

omit [Field α] [LinearOrder α] in
theorem ofParts_comp_perm {species : Fin n → Species}
    {e : Electrolyte α} (accepted : ofParts (List.ofFn species) apparent alpha = .ok e)
    (p : Equiv.Perm (Fin n)) :
    ofParts (List.ofFn (species ∘ p)) apparent alpha =
      .ok ⟨List.ofFn (species ∘ p), apparent, alpha⟩ := by
  obtain ⟨distinct, ions, -⟩ := ofParts_eq_ok_iff.1 accepted
  have order := p.ofFn_comp_perm species
  refine ofParts_eq_ok_iff.2 ⟨(order.map _).nodup_iff.2 distinct, fun a ha d hd => ?_, rfl⟩
  obtain ⟨s, hs, name⟩ := ions a ha d hd
  exact ⟨s, order.mem_iff.2 hs, name⟩

/-- **The order of the species does not matter.** With the species of an accepted electrolyte in
another order the electrolyte is accepted, mixing terms are given for the same compositions, and
they are the same but for their places. -/
theorem mixingTerms_equivariant {species : Fin n → Species} {e : Electrolyte α}
    (accepted : ofParts (List.ofFn species) apparent alpha = .ok e) (p : Equiv.Perm (Fin n)) :
    ∃ e', ofParts (List.ofFn (species ∘ p)) apparent alpha = .ok e' ∧
      ∀ fractions : Fin n → α,
        ((∃ terms, e'.mixingTerms (List.ofFn (fractions ∘ p)) = .ok terms) ↔
          ∃ terms, e.mixingTerms (List.ofFn fractions) = .ok terms) ∧
        ∀ terms, e.mixingTerms (List.ofFn fractions) = .ok terms →
          ∃ x y a, terms = termsOf x y a ∧
            e'.mixingTerms (List.ofFn (fractions ∘ p)) =
              .ok (termsOf (x ∘ p) (y ∘ p) fun i j => a (p i) (p j)) := by
  refine ⟨_, ofParts_comp_perm accepted p, fun fractions => ?_⟩
  obtain ⟨-, -, rfl⟩ := ofParts_eq_ok_iff.1 accepted
  refine ⟨⟨fun ⟨terms, run⟩ => ?_, fun ⟨terms, run⟩ => ?_⟩, fun terms run => ?_⟩
  · -- back by the inverse
    obtain ⟨x, y, a, -, back⟩ := mixingTerms_reordered run p.symm
    have species' : (species ∘ p) ∘ p.symm = species := by
      funext i
      simp
    have fractions' : (fractions ∘ p) ∘ p.symm = fractions := by
      funext i
      simp
    rw [species', fractions'] at back
    exact ⟨_, back⟩
  · obtain ⟨x, y, a, -, there⟩ := mixingTerms_reordered run p
    exact ⟨_, there⟩
  · exact mixingTerms_reordered run p

/-- The species of sea water, water first. -/
def waterFirst : Fin 4 → Species := ![⟨"H2O", 0⟩, ⟨"Ca++", 2⟩, ⟨"Na+", 1⟩, ⟨"Cl-", -1⟩]

/-- Water changes places with chloride. -/
theorem mixingTerms_equivariant_seaWater :
    let p := Equiv.swap (0 : Fin 4) 3
    let terms : MixingTerms ℚ :=
      ⟨[1 / 2, 1 / 5, 1 / 5, 2 / 5], [0, 1 / 2, 1 / 2, 1], [[0, 1 / 5, 3 / 10, 1 / 4],
        [1 / 5, 0, 0, 1 / 20], [3 / 10, 0, 0, 1 / 20], [1 / 4, 0, 0, 0]]⟩
    let terms' : MixingTerms ℚ :=
      ⟨[2 / 5, 1 / 5, 1 / 5, 1 / 2], [1, 1 / 2, 1 / 2, 0], [[0, 0, 0, 1 / 4],
        [1 / 20, 0, 0, 1 / 5], [1 / 20, 0, 0, 3 / 10], [1 / 4, 1 / 5, 3 / 10, 0]]⟩
    ofParts (List.ofFn waterFirst) seaWater.apparent seaWater.alpha = .ok seaWater ∧
      seaWater.mixingTerms [1 / 2, 1 / 10, 1 / 5, 2 / 5] = .ok terms ∧
      ∃ e', ofParts (List.ofFn (waterFirst ∘ p)) seaWater.apparent seaWater.alpha = .ok e' ∧
        e'.mixingTerms [2 / 5, 1 / 10, 1 / 5, 1 / 2] = .ok terms' ∧
        ∃ x y a, terms = termsOf x y a ∧
          terms' = termsOf (x ∘ p) (y ∘ p) fun i j => a (p i) (p j) := by
  intro p terms terms'
  have accepted : ofParts (List.ofFn waterFirst) seaWater.apparent seaWater.alpha =
      .ok seaWater := by rfl
  have run : seaWater.mixingTerms [1 / 2, 1 / 10, 1 / 5, 2 / 5] = .ok terms := by decide +kernel
  obtain ⟨e', accepted', same⟩ := mixingTerms_equivariant accepted p
  obtain ⟨x, y, a, places, places'⟩ := (same ![1 / 2, 1 / 10, 1 / 5, 2 / 5]).2 terms run
  have run' : mixingTerms ⟨List.ofFn (waterFirst ∘ p), seaWater.apparent, seaWater.alpha⟩
      [2 / 5, 1 / 10, 1 / 5, 1 / 2] = .ok terms' := by decide +kernel
  obtain ⟨-, -, rfl⟩ := ofParts_eq_ok_iff.1 accepted'
  exact ⟨accepted, run, _, accepted', run', x, y, a, places,
    Except.ok.inj (run'.symm.trans places')⟩

end Electrolyte

end PlantEconomics

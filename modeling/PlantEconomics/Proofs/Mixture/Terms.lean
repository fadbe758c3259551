import PlantEconomics.Mixture.Electrolyte
import PlantEconomics.Proofs.Outcome

/-!
# What an electrolyte and its mixing terms are

An electrolyte is accepted when no name is declared twice and every ion of an apparent species is a
species. Mixing terms are given when there are as many fractions as species and every two species
have an interaction. Nine cases of kinds come down to four ways in which an interaction comes about,
and what holds of all interactions is shown for these.

  * `Electrolyte.ofParts_eq_ok_iff`: what is accepted;
  * `Electrolyte.exists_weighted_eq_ok_iff`: when a weighted sum is given;
  * `Electrolyte.exists_composed`: how interactions come about;
  * `Electrolyte.mixingTerms_eq_ok_iff`: what mixing terms are;
  * `Electrolyte.exists_between`: the entries of the matrix.
-/

namespace PlantEconomics

namespace Electrolyte

variable {α : Type}

/-! ## §1. What is accepted -/

theorem firstRepeated?_eq_none_iff {seen names : List String} :
    firstRepeated? seen names = none ↔ names.Nodup ∧ ∀ n ∈ names, n ∉ seen := by
  induction names generalizing seen with
  | nil => simp [firstRepeated?]
  | cons n names ih =>
    rw [firstRepeated?, List.nodup_cons, List.forall_mem_cons]
    by_cases met : n ∈ seen
    · simp [met]
    · rw [if_neg (by simpa using met), ih]
      -- the names met so far have grown by the first
      constructor
      · rintro ⟨distinct, new⟩
        exact ⟨⟨fun again => new n again List.mem_cons_self, distinct⟩, met,
          fun n' hn' before => new n' hn' (List.mem_cons_of_mem _ before)⟩
      · rintro ⟨⟨once, distinct⟩, -, new⟩
        refine ⟨distinct, fun n' hn' before => ?_⟩
        rcases List.mem_cons.1 before with rfl | before
        · exact once hn'
        · exact new n' hn' before

theorem unknownIon?_eq_none_iff {species : List Species} {a : ApparentSpecies} :
    unknownIon? species a = none ↔ ∀ d ∈ a.ions, ∃ s ∈ species, s.name = d := by
  simp [unknownIon?]

/-- **What is accepted**: distinct names, and ions that are species. -/
theorem ofParts_eq_ok_iff {species : List Species} {apparent : List ApparentSpecies}
    {alpha : AlphaTable α} {e : Electrolyte α} :
    ofParts species apparent alpha = .ok e ↔
      (species.map (·.name)).Nodup ∧
      (∀ a ∈ apparent, ∀ d ∈ a.ions, ∃ s ∈ species, s.name = d) ∧
      ⟨species, apparent, alpha⟩ = e := by
  have names : firstRepeated? [] (species.map (·.name)) = none ↔
      (species.map (·.name)).Nodup := by
    simp [firstRepeated?_eq_none_iff]
  have ions : (apparent.findSome? fun a => (unknownIon? species a).map fun ion => (a.name, ion)) =
      none ↔ ∀ a ∈ apparent, ∀ d ∈ a.ions, ∃ s ∈ species, s.name = d := by
    simp [List.findSome?_eq_none_iff, unknownIon?_eq_none_iff]
  rw [← names, ← ions]
  unfold ofParts
  split
  · next repeated => simp [repeated]
  · next distinct =>
    split
    · next unknown => simp [unknown]
    · next known => simp [distinct, known]

variable [Scalar α] {e : Electrolyte α} {kind : SpeciesKind} {f : String → Except (Fault α) α}

/-! ## §2. Weighted sums -/

theorem weightedFrom_cons (acc : α) (s : Species) (y : α) (rest : List (Species × α)) :
    weightedFrom kind f acc ((s, y) :: rest) =
      if s.kind = kind then f s.name >>= fun v => weightedFrom kind f (acc + y * v) rest
      else weightedFrom kind f acc rest := by
  rw [weightedFrom]
  by_cases h : s.kind = kind
  · simp [h]
  · simp [h]

/-- A weighted sum is given when all its values are. -/
theorem exists_weightedFrom_eq_ok_iff {acc : α} {l : List (Species × α)} :
    (∃ r, weightedFrom kind f acc l = .ok r) ↔
      ∀ p ∈ l, p.1.kind = kind → ∃ v, f p.1.name = .ok v := by
  induction l generalizing acc with
  | nil => simp [weightedFrom]
  | cons p l ih =>
    obtain ⟨s, y⟩ := p
    rw [weightedFrom_cons, List.forall_mem_cons]
    by_cases h : s.kind = kind
    · rw [if_pos h]
      constructor
      · rintro ⟨r, run⟩
        obtain ⟨v, first, rest⟩ := bind_eq_ok_iff.1 run
        exact ⟨fun _ => ⟨v, first⟩, ih.1 ⟨r, rest⟩⟩
      · rintro ⟨first, rest⟩
        obtain ⟨v, first⟩ := first h
        obtain ⟨r, rest⟩ := (@ih (acc + y * v)).2 rest
        exact ⟨r, bind_eq_ok_iff.2 ⟨v, first, rest⟩⟩
    · rw [if_neg h, ih]
      exact ⟨fun rest => ⟨fun same => absurd same h, rest⟩, And.right⟩

/-- With a weight for each species it is given when the values of all species of the kind are. -/
theorem exists_weighted_eq_ok_iff {y : List α} (same : y.length = e.species.length) :
    (∃ r, e.weighted y kind f = .ok r) ↔
      ∀ s ∈ e.species, s.kind = kind → ∃ v, f s.name = .ok v := by
  have species : (e.species.zip y).map Prod.fst = e.species :=
    List.map_fst_zip (Nat.le_of_eq same.symm)
  rw [weighted, exists_weightedFrom_eq_ok_iff]
  conv_rhs => rw [← species]
  simp only [List.forall_mem_map]

/-! ## §3. Interactions by kinds -/

section Kinds

variable {y : List α} {i j : Species}

theorem interaction_molecules (hi : i.kind = .molecule) (hj : j.kind = .molecule) :
    e.interaction y i j = e.alpha.get i.name j.name := by
  simp [interaction, hi, hj]

theorem interaction_cation_molecule (hi : i.kind = .cation) (hj : j.kind = .molecule) :
    e.interaction y i j =
      e.weighted y .anion fun k => e.salt i.name k >>= fun s => e.alpha.get s j.name := by
  simp [interaction, hi, hj]

theorem interaction_anion_molecule (hi : i.kind = .anion) (hj : j.kind = .molecule) :
    e.interaction y i j =
      e.weighted y .cation fun k => e.salt k i.name >>= fun s => e.alpha.get s j.name := by
  simp [interaction, hi, hj]

theorem interaction_cation_anion (hi : i.kind = .cation) (hj : j.kind = .anion) :
    e.interaction y i j = e.salt i.name j.name >>= fun pair =>
      e.weighted y .cation fun k => e.salt k j.name >>= fun s => e.alpha.get pair s := by
  simp [interaction, hi, hj]

theorem interaction_anion_cation (hi : i.kind = .anion) (hj : j.kind = .cation) :
    e.interaction y i j = e.salt j.name i.name >>= fun pair =>
      e.weighted y .anion fun k => e.salt j.name k >>= fun s => e.alpha.get pair s := by
  simp [interaction, hi, hj]

/-- Ions of one sign do not interact. -/
theorem interaction_like_ions (same : i.kind = j.kind) (ion : i.kind ≠ .molecule) :
    e.interaction y i j = .ok 0 := by
  cases hi : i.kind with
  | molecule => exact absurd hi ion
  | cation => simp [interaction, hi, ← same]
  | anion => simp [interaction, hi, ← same]

/-- A molecule and an ion interact alike in both orders. -/
theorem interaction_comm (molecule : i.kind = .molecule) (ion : j.kind ≠ .molecule) :
    e.interaction y i j = e.interaction y j i := by
  cases hj : j.kind with
  | molecule => exact absurd hj ion
  | cation => simp [interaction, molecule, hj]
  | anion => simp [interaction, molecule, hj]

end Kinds

/-! ## §4. How interactions come about -/

/-- How the interaction of two species comes from the species with their shares: it is looked up
in the table, or it is nothing, or it is a weighted sum of what is looked up. A salt may have to be
found first. -/
inductive Composed (t : AlphaTable α) : (List (Species × α) → Except (Fault α) α) → Prop where
  | lookup (i j : String) : Composed t fun _ => t.get i j
  | nothing : Composed t fun _ => .ok 0
  | mean (kind : SpeciesKind) (f : String → Except (Fault α) α)
      (lookups : ∀ n v, f n = .ok v → ∃ i j, t.get i j = .ok v) :
      Composed t fun shares => weightedFrom kind f 0 shares
  | behind (salt : Except (Fault α) String)
      (rest : String → List (Species × α) → Except (Fault α) α)
      (each : ∀ s, Composed t (rest s)) :
      Composed t fun shares => salt >>= fun s => rest s shares

/-- **Every interaction is composed**, and in the same way whatever the other species are. -/
theorem exists_composed (e : Electrolyte α) (i j : Species) :
    ∃ g, Composed e.alpha g ∧ ∀ (species : List Species) (y : List α),
      ({ e with species := species } : Electrolyte α).interaction y i j = g (species.zip y) := by
  -- a sum over the ions of a sign, each of which forms a salt
  have mean (kind : SpeciesKind) (salt : String → Except (Fault α) String)
      (look : String → Except (Fault α) α)
      (lookups : ∀ s v, look s = .ok v → ∃ i j, e.alpha.get i j = .ok v) :
      Composed e.alpha fun shares => weightedFrom kind (fun k => salt k >>= look) 0 shares := by
    refine .mean kind _ fun n v hv => ?_
    obtain ⟨s, -, hs⟩ := bind_eq_ok_iff.1 hv
    exact lookups s v hs
  cases hi : i.kind <;> cases hj : j.kind
  case molecule.molecule =>
    exact ⟨_, .lookup i.name j.name, fun _ _ => interaction_molecules hi hj⟩
  case cation.molecule =>
    exact ⟨_, mean .anion (e.salt i.name) (e.alpha.get · j.name) fun _ _ h => ⟨_, _, h⟩,
      fun _ _ => interaction_cation_molecule hi hj⟩
  case anion.molecule =>
    exact ⟨_, mean .cation (e.salt · i.name) (e.alpha.get · j.name) fun _ _ h => ⟨_, _, h⟩,
      fun _ _ => interaction_anion_molecule hi hj⟩
  case molecule.cation =>
    exact ⟨_, mean .anion (e.salt j.name) (e.alpha.get · i.name) fun _ _ h => ⟨_, _, h⟩,
      fun _ _ => (interaction_comm hi (by simp [hj])).trans (interaction_cation_molecule hj hi)⟩
  case molecule.anion =>
    exact ⟨_, mean .cation (e.salt · j.name) (e.alpha.get · i.name) fun _ _ h => ⟨_, _, h⟩,
      fun _ _ => (interaction_comm hi (by simp [hj])).trans (interaction_anion_molecule hj hi)⟩
  case cation.anion =>
    exact ⟨_, .behind (e.salt i.name j.name) _ fun pair =>
      mean .cation (e.salt · j.name) (e.alpha.get pair) fun _ _ h => ⟨_, _, h⟩,
      fun _ _ => interaction_cation_anion hi hj⟩
  case anion.cation =>
    exact ⟨_, .behind (e.salt j.name i.name) _ fun pair =>
      mean .anion (e.salt j.name) (e.alpha.get pair) fun _ _ h => ⟨_, _, h⟩,
      fun _ _ => interaction_anion_cation hi hj⟩
  case cation.cation =>
    exact ⟨_, .nothing, fun _ _ => interaction_like_ions (hi.trans hj.symm) (by simp [hi])⟩
  case anion.anion =>
    exact ⟨_, .nothing, fun _ _ => interaction_like_ions (hi.trans hj.symm) (by simp [hi])⟩

/-! ## §5. Mixing terms -/

/-- With a fraction for each species there is a share for each. -/
theorem length_shares {fractions : List α} (count : fractions.length = e.species.length) :
    (e.chargeShares (List.zipWith chargeWeighted e.species fractions)).length =
      e.species.length := by
  simp [chargeShares, count]

/-- **What mixing terms are.** -/
theorem mixingTerms_eq_ok_iff {fractions : List α} {terms : MixingTerms α} :
    e.mixingTerms fractions = .ok terms ↔
      fractions.length = e.species.length ∧
      terms.x = List.zipWith chargeWeighted e.species fractions ∧
      terms.y = e.chargeShares terms.x ∧
      List.Forall₂ (fun i row => List.Forall₂ (fun j a => e.interaction terms.y i j = .ok a)
        e.species row) e.species terms.alpha := by
  have rows (y : List α) (alpha : List (List α)) :
      (e.species.mapM fun i => e.species.mapM fun j => e.interaction y i j) = .ok alpha ↔
        List.Forall₂ (fun i row => List.Forall₂ (fun j a => e.interaction y i j = .ok a)
          e.species row) e.species alpha := by
    simp only [mapM_eq_ok_iff]
  obtain ⟨x, y, alpha⟩ := terms
  unfold mixingTerms
  by_cases same : fractions.length = e.species.length
  · rw [if_neg (not_not_intro same)]
    simp only [bind_eq_ok_iff, pure_eq_ok_iff, rows, MixingTerms.mk.injEq]
    constructor
    · rintro ⟨_, each, rfl, rfl, rfl⟩
      exact ⟨same, rfl, rfl, each⟩
    · rintro ⟨-, rfl, rfl, each⟩
      exact ⟨alpha, each, rfl, rfl, rfl⟩
  · rw [if_pos same]
    simp only [same, false_and, iff_false]
    intro run
    cases run

end Electrolyte

/-! ## §6. Entries of the matrix -/

/-- What goes together stands in the same place. -/
theorem exists_getElem?_of_forall₂ {β γ : Type} {R : β → γ → Prop} {xs : List β} {ys : List γ}
    (h : List.Forall₂ R xs ys) {i : Nat} {x : β} (hx : xs[i]? = some x) :
    ∃ y, ys[i]? = some y ∧ R x y := by
  obtain ⟨hi, rfl⟩ := List.getElem?_eq_some_iff.1 hx
  have hi' : i < ys.length := h.length_eq ▸ hi
  exact ⟨ys[i], List.getElem?_eq_getElem hi', h.get hi hi'⟩

/-- The interaction of two species, by their places. -/
def MixingTerms.between? {α : Type} (terms : MixingTerms α) (i j : Nat) : Option α :=
  terms.alpha[i]?.bind fun row => row[j]?

namespace Electrolyte

variable {α : Type} [Scalar α] {e : Electrolyte α} {fractions : List α} {terms : MixingTerms α}

/-- There is an entry for every two species, and it is their interaction. -/
theorem exists_between (run : e.mixingTerms fractions = .ok terms) {i j : Nat} {s s' : Species}
    (hs : e.species[i]? = some s) (hs' : e.species[j]? = some s') :
    ∃ a, terms.between? i j = some a ∧ e.interaction terms.y s s' = .ok a := by
  obtain ⟨-, -, -, rows⟩ := mixingTerms_eq_ok_iff.1 run
  obtain ⟨row, hrow, each⟩ := exists_getElem?_of_forall₂ rows hs
  obtain ⟨a, ha, value⟩ := exists_getElem?_of_forall₂ each hs'
  exact ⟨a, Option.bind_eq_some_iff.2 ⟨row, hrow, ha⟩, value⟩

/-- There are no other entries. -/
theorem exists_species_of_between (run : e.mixingTerms fractions = .ok terms) {i j : Nat} {a : α}
    (ha : terms.between? i j = some a) :
    ∃ s s', e.species[i]? = some s ∧ e.species[j]? = some s' ∧
      e.interaction terms.y s s' = .ok a := by
  obtain ⟨-, -, -, rows⟩ := mixingTerms_eq_ok_iff.1 run
  obtain ⟨row, hrow, ha⟩ := Option.bind_eq_some_iff.1 ha
  obtain ⟨s, hs, each⟩ := exists_getElem?_of_forall₂ rows.flip hrow
  obtain ⟨s', hs', value⟩ := exists_getElem?_of_forall₂ each.flip ha
  exact ⟨s, s', hs, hs', value⟩

end Electrolyte

end PlantEconomics

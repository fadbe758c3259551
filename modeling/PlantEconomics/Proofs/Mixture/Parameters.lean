import Mathlib.Data.List.Nodup
import PlantEconomics.Proofs.Mixture.AlphaTable

/-!
# Electrolytes with all parameters

The matrix of interactions looks up every parameter that an electrolyte could need, also for ions
that a composition does not have: a share of zero takes no part in the sum, but its parameter is
looked up. So whether mixing terms are given, and the fault if they are not, is the same for all
compositions, and can be told from the species, the apparent species and the table.

  * `Electrolyte.Parameterized`: which parameters are needed;
  * `Electrolyte.faultOf?_mixingTerms`: the fault does not depend on the composition;
  * `Electrolyte.exists_mixingTerms_eq_ok_iff`: the parameters suffice, and all are needed;
  * `Electrolyte.parameterized_whatever_composition` puts the two together.
-/

namespace PlantEconomics

namespace Electrolyte

variable {α : Type} {e : Electrolyte α}

/-! ## §1. Parameters -/

/-- Whether two ions form a salt: an apparent species holds both, or they make water. -/
def Pairs (e : Electrolyte α) (cation anion : String) : Prop :=
  (∃ a ∈ e.apparent, cation ∈ a.ions ∧ anion ∈ a.ions) ∨ cation = "H+" ∧ anion = "OH-"

theorem exists_salt_eq_ok_iff {cation anion : String} :
    (∃ s, e.salt cation anion = .ok s) ↔ e.Pairs cation anion := by
  unfold salt Pairs
  cases found : e.apparent.find? fun a => a.ions.contains cation && a.ions.contains anion with
  | none =>
    rw [List.find?_eq_none] at found
    have none_holds : ¬∃ a ∈ e.apparent, cation ∈ a.ions ∧ anion ∈ a.ions := by
      rintro ⟨a, ha, both⟩
      exact found a ha (by simpa using both)
    simp only [none_holds, false_or]
    split
    · next water => simp [water]
    · next other => simp [other]
  | some a =>
    have both := List.find?_some found
    simp only [Bool.and_eq_true, List.contains_iff_mem] at both
    simp only [Except.ok.injEq, exists_eq', true_iff]
    exact .inl ⟨a, List.mem_of_find?_eq_some found, both⟩

/-- All parameters that an electrolyte could need. -/
structure Parameterized (e : Electrolyte α) : Prop where
  /-- Every two molecules have a parameter. -/
  molecules : ∀ m ∈ e.species, ∀ m' ∈ e.species, m.kind = .molecule → m'.kind = .molecule →
    m ≠ m' → e.alpha.Lists m.name m'.name
  /-- Every cation forms a salt with every anion. -/
  salts : ∀ c ∈ e.species, ∀ a ∈ e.species, c.kind = .cation → a.kind = .anion →
    e.Pairs c.name a.name
  /-- Every salt has a parameter with every molecule of another name. -/
  dissolved : ∀ c ∈ e.species, ∀ a ∈ e.species, ∀ m ∈ e.species, c.kind = .cation →
    a.kind = .anion → m.kind = .molecule → ∀ s, e.salt c.name a.name = .ok s → s ≠ m.name →
    e.alpha.Lists s m.name
  /-- Every two salts of different names that share an ion have a parameter. -/
  mixed : ∀ c ∈ e.species, ∀ a ∈ e.species, ∀ c' ∈ e.species, ∀ a' ∈ e.species,
    c.kind = .cation → a.kind = .anion → c'.kind = .cation → a'.kind = .anion →
    c = c' ∨ a = a' → ∀ s s', e.salt c.name a.name = .ok s → e.salt c'.name a'.name = .ok s' →
    s ≠ s' → e.alpha.Lists s s'

variable [Scalar α]

/-! ## §2. Faults -/

/-- What a weighted sum fails with does not depend on the weights. -/
theorem faultOf?_weightedFrom {kind : SpeciesKind} {f : String → Except (Fault α) α}
    {l l' : List (Species × α)} (same : l.map Prod.fst = l'.map Prod.fst) (acc acc' : α) :
    faultOf? (weightedFrom kind f acc l) = faultOf? (weightedFrom kind f acc' l') := by
  -- the two sums so far differ, but only what is looked up can fail
  induction l generalizing acc acc' l' with
  | nil =>
    obtain rfl := List.map_eq_nil_iff.1 same.symm
    rfl
  | cons p l ih =>
    obtain ⟨p', l', rfl, first, rest⟩ := List.map_eq_cons_iff.1 same.symm
    obtain ⟨s, y⟩ := p
    obtain ⟨s', y'⟩ := p'
    obtain rfl : s' = s := first
    rw [weightedFrom_cons, weightedFrom_cons]
    split
    · exact faultOf?_bind_congr rfl fun _ _ _ _ => ih rest.symm _ _
    · exact ih rest.symm _ _

theorem Composed.faultOf?_eq {t : AlphaTable α} {g : List (Species × α) → Except (Fault α) α}
    (h : Composed t g) {l l' : List (Species × α)} (same : l.map Prod.fst = l'.map Prod.fst) :
    faultOf? (g l) = faultOf? (g l') := by
  induction h with
  | lookup i j => rfl
  | nothing => rfl
  | mean kind f _ => exact faultOf?_weightedFrom same 0 0
  | behind salt rest _ ih =>
    cases salt with
    | error fault => rfl
    | ok s => exact ih s

/-- What an interaction fails with does not depend on the shares. -/
theorem faultOf?_interaction {y y' : List α} (hy : y.length = e.species.length)
    (hy' : y'.length = e.species.length) (i j : Species) :
    faultOf? (e.interaction y i j) = faultOf? (e.interaction y' i j) := by
  obtain ⟨g, composed, interaction⟩ := e.exists_composed i j
  rw [interaction e.species y, interaction e.species y']
  refine composed.faultOf?_eq ?_
  rw [List.map_fst_zip (Nat.le_of_eq hy.symm), List.map_fst_zip (Nat.le_of_eq hy'.symm)]

/-- **The fault does not depend on the composition.** -/
theorem faultOf?_mixingTerms {fractions fractions' : List α}
    (count : fractions.length = e.species.length) (count' : fractions'.length = e.species.length) :
    faultOf? (e.mixingTerms fractions) = faultOf? (e.mixingTerms fractions') := by
  unfold mixingTerms
  rw [if_neg (not_not_intro count), if_neg (not_not_intro count')]
  refine faultOf?_bind_congr ?_ fun _ _ _ _ => rfl
  refine faultOf?_mapM_congr fun i _ => faultOf?_mapM_congr fun j _ => ?_
  exact faultOf?_interaction (length_shares count) (length_shares count') i j

/-! ## §3. Success -/

omit [Scalar α] in
theorem exists_bind_salt_iff {cation anion : String} {look : String → Except (Fault α) α} :
    (∃ v, (e.salt cation anion >>= look) = .ok v) ↔
      e.Pairs cation anion ∧ ∀ s, e.salt cation anion = .ok s → ∃ v, look s = .ok v := by
  rw [← exists_salt_eq_ok_iff]
  cases e.salt cation anion with
  | error fault => simp
  | ok s => simp

section Given

variable {y : List α} (hy : y.length = e.species.length) {i j : Species}

include hy

theorem exists_cation_molecule_iff (hi : i.kind = .cation) (hj : j.kind = .molecule) :
    (∃ a, e.interaction y i j = .ok a) ↔ ∀ k ∈ e.species, k.kind = .anion →
      e.Pairs i.name k.name ∧
      ∀ s, e.salt i.name k.name = .ok s → s = j.name ∨ e.alpha.Lists s j.name := by
  rw [interaction_cation_molecule hi hj, exists_weighted_eq_ok_iff hy]
  simp only [exists_bind_salt_iff, AlphaTable.exists_get_eq_ok_iff]

theorem exists_anion_molecule_iff (hi : i.kind = .anion) (hj : j.kind = .molecule) :
    (∃ a, e.interaction y i j = .ok a) ↔ ∀ k ∈ e.species, k.kind = .cation →
      e.Pairs k.name i.name ∧
      ∀ s, e.salt k.name i.name = .ok s → s = j.name ∨ e.alpha.Lists s j.name := by
  rw [interaction_anion_molecule hi hj, exists_weighted_eq_ok_iff hy]
  simp only [exists_bind_salt_iff, AlphaTable.exists_get_eq_ok_iff]

theorem exists_cation_anion_iff (hi : i.kind = .cation) (hj : j.kind = .anion) :
    (∃ a, e.interaction y i j = .ok a) ↔ e.Pairs i.name j.name ∧
      ∀ pair, e.salt i.name j.name = .ok pair → ∀ k ∈ e.species, k.kind = .cation →
        e.Pairs k.name j.name ∧
        ∀ s, e.salt k.name j.name = .ok s → pair = s ∨ e.alpha.Lists pair s := by
  rw [interaction_cation_anion hi hj, exists_bind_salt_iff]
  simp only [exists_weighted_eq_ok_iff hy, exists_bind_salt_iff, AlphaTable.exists_get_eq_ok_iff]

theorem exists_anion_cation_iff (hi : i.kind = .anion) (hj : j.kind = .cation) :
    (∃ a, e.interaction y i j = .ok a) ↔ e.Pairs j.name i.name ∧
      ∀ pair, e.salt j.name i.name = .ok pair → ∀ k ∈ e.species, k.kind = .anion →
        e.Pairs j.name k.name ∧
        ∀ s, e.salt j.name k.name = .ok s → pair = s ∨ e.alpha.Lists pair s := by
  rw [interaction_anion_cation hi hj, exists_bind_salt_iff]
  simp only [exists_weighted_eq_ok_iff hy, exists_bind_salt_iff, AlphaTable.exists_get_eq_ok_iff]

/-- With all parameters every interaction is given. -/
theorem Parameterized.exists_interaction (p : e.Parameterized) (mi : i ∈ e.species)
    (mj : j ∈ e.species) : ∃ a, e.interaction y i j = .ok a := by
  -- a molecule and an ion in either order
  have ion_molecule {i j : Species} (mi : i ∈ e.species) (mj : j ∈ e.species)
      (ion : i.kind ≠ .molecule) (hj : j.kind = .molecule) :
      ∃ a, e.interaction y i j = .ok a := by
    cases hi : i.kind with
    | molecule => exact absurd hi ion
    | cation =>
      refine (exists_cation_molecule_iff hy hi hj).2 fun k mk hk =>
        ⟨p.salts i mi k mk hi hk, fun s hs => or_iff_not_imp_left.2 ?_⟩
      exact p.dissolved i mi k mk j mj hi hk hj s hs
    | anion =>
      refine (exists_anion_molecule_iff hy hi hj).2 fun k mk hk =>
        ⟨p.salts k mk i mi hk hi, fun s hs => or_iff_not_imp_left.2 ?_⟩
      exact p.dissolved k mk i mi j mj hk hi hj s hs
  cases hi : i.kind <;> cases hj : j.kind
  case molecule.molecule =>
    rw [interaction_molecules hi hj, AlphaTable.exists_get_eq_ok_iff]
    by_cases same : i = j
    · exact .inl (congrArg Species.name same)
    · exact .inr (p.molecules i mi j mj hi hj same)
  case cation.anion =>
    refine (exists_cation_anion_iff hy hi hj).2 ⟨p.salts i mi j mj hi hj, fun pair hpair k mk hk =>
      ⟨p.salts k mk j mj hk hj, fun s hs => or_iff_not_imp_left.2 ?_⟩⟩
    exact p.mixed i mi j mj k mk j mj hi hj hk hj (.inr rfl) pair s hpair hs
  case anion.cation =>
    refine (exists_anion_cation_iff hy hi hj).2 ⟨p.salts j mj i mi hj hi, fun pair hpair k mk hk =>
      ⟨p.salts j mj k mk hj hk, fun s hs => or_iff_not_imp_left.2 ?_⟩⟩
    exact p.mixed j mj i mi j mj k mk hj hi hj hk (.inl rfl) pair s hpair hs
  case cation.cation => exact ⟨0, interaction_like_ions (hi.trans hj.symm) (by simp [hi])⟩
  case anion.anion => exact ⟨0, interaction_like_ions (hi.trans hj.symm) (by simp [hi])⟩
  case cation.molecule => exact ion_molecule mi mj (by simp [hi]) hj
  case anion.molecule => exact ion_molecule mi mj (by simp [hi]) hj
  all_goals
    rw [interaction_comm hi (by simp [hj])]
    exact ion_molecule mj mi (by simp [hj]) hi

/-- Every interaction is given with all parameters only. -/
theorem parameterized_of_interactions (distinct : (e.species.map (·.name)).Nodup)
    (given : ∀ i ∈ e.species, ∀ j ∈ e.species, ∃ a, e.interaction y i j = .ok a) :
    e.Parameterized where
  molecules m mm m' mm' hm hm' different := by
    have found := given m mm m' mm'
    rw [interaction_molecules hm hm', AlphaTable.exists_get_eq_ok_iff] at found
    exact found.resolve_left fun same => different (List.inj_on_of_nodup_map distinct mm mm' same)
  salts c mc a ma hc ha := ((exists_cation_anion_iff hy hc ha).1 (given c mc a ma)).1
  dissolved c mc a ma m mm hc ha hm s hs other :=
    (((exists_cation_molecule_iff hy hc hm).1 (given c mc m mm) a ma ha).2 s hs).resolve_left other
  mixed c mc a ma c' mc' a' ma' hc ha hc' ha' shared s s' hs hs' different := by
    -- a shared cation is met in the sums over anions, and a shared anion in those over cations
    rcases shared with rfl | rfl
    · exact (((exists_anion_cation_iff hy ha hc).1 (given a ma c mc)).2 s hs a' ma' ha').2 s' hs'
        |>.resolve_left different
    · exact (((exists_cation_anion_iff hy hc ha).1 (given c mc a ma)).2 s hs c' mc' hc').2 s' hs'
        |>.resolve_left different

end Given

/-- **Mixing terms are given exactly when all parameters are there.** -/
theorem exists_mixingTerms_eq_ok_iff (distinct : (e.species.map (·.name)).Nodup)
    {fractions : List α} (count : fractions.length = e.species.length) :
    (∃ terms, e.mixingTerms fractions = .ok terms) ↔ e.Parameterized := by
  have shares := length_shares count
  constructor
  · rintro ⟨terms, run⟩
    obtain ⟨-, hx, hy, -⟩ := mixingTerms_eq_ok_iff.1 run
    rw [hx] at hy
    refine parameterized_of_interactions (hy ▸ shares) distinct fun i mi j mj => ?_
    obtain ⟨n, hi⟩ := List.mem_iff_getElem?.1 mi
    obtain ⟨m, hj⟩ := List.mem_iff_getElem?.1 mj
    obtain ⟨a, -, ha⟩ := exists_between run hi hj
    exact ⟨a, ha⟩
  · intro p
    obtain ⟨alpha, rows⟩ := exists_mapM_eq_ok fun i mi =>
      exists_mapM_eq_ok fun j mj => p.exists_interaction shares (i := i) (j := j) mi mj
    simp only [mapM_eq_ok_iff] at rows
    exact ⟨⟨_, _, alpha⟩, mixingTerms_eq_ok_iff.2 ⟨count, rfl, rfl, rows⟩⟩

/-! ## §4. All compositions -/

/-- **Whether all parameters are there does not depend on the composition.** On two compositions
with a fraction for each species, of any values, mixing terms are given on both or fail on both with
the same fault, and they are given exactly when all parameters are there. -/
theorem parameterized_whatever_composition {species : List Species}
    {apparent : List ApparentSpecies} {alpha : AlphaTable α}
    (accepted : ofParts species apparent alpha = .ok e) {fractions fractions' : List α}
    (count : fractions.length = species.length) (count' : fractions'.length = species.length) :
    ((∃ terms terms', e.mixingTerms fractions = .ok terms ∧
        e.mixingTerms fractions' = .ok terms') ∨
      ∃ fault, e.mixingTerms fractions = .error fault ∧
        e.mixingTerms fractions' = .error fault) ∧
    ((∃ terms, e.mixingTerms fractions = .ok terms) ↔ e.Parameterized) := by
  obtain ⟨distinct, -, rfl⟩ := ofParts_eq_ok_iff.1 accepted
  refine ⟨?_, exists_mixingTerms_eq_ok_iff distinct count⟩
  have alike := faultOf?_mixingTerms (e := ⟨species, apparent, alpha⟩) count count'
  cases first : mixingTerms ⟨species, apparent, alpha⟩ fractions with
  | ok terms =>
    rw [first] at alike
    obtain ⟨terms', second⟩ := faultOf?_eq_none_iff.1 alike.symm
    exact .inl ⟨terms, terms', rfl, second⟩
  | error fault =>
    rw [first] at alike
    exact .inr ⟨fault, rfl, faultOf?_eq_some_iff.1 alike.symm⟩

/-- Water with the ions of two salts. -/
def brineSpecies : List Species := [⟨"H2O", 0⟩, ⟨"Na+", 1⟩, ⟨"K+", 1⟩, ⟨"Cl-", -1⟩]

/-- The two salts. -/
def brineSalts : List ApparentSpecies := [⟨"NaCl", ["Na+", "Cl-"]⟩, ⟨"KCl", ["K+", "Cl-"]⟩]

/-- The parameters of water with the salts, without that of the salts with each other. -/
def waterSalts : AlphaTable Float :=
  .ofCalls [("H2O", "NaCl", 0.2), ("KCl", "H2O", 0.3)]

/-- With the parameter of the two salts mixing terms are given for fractions that are no numbers as
for pure water. Without it there are none, even for pure water. -/
theorem parameterized_whatever_composition_brine :
    (∃ terms, mixingTerms ⟨brineSpecies, brineSalts, waterSalts.insert "NaCl" "KCl" 0.1⟩
      [-1, 0 / 0, 1 / 0, 0] = .ok terms) ∧
    mixingTerms ⟨brineSpecies, brineSalts, waterSalts⟩ [-1, 0 / 0, 1 / 0, 0] =
      .error (.configuration (.noAlpha "NaCl" "KCl")) ∧
    ¬Parameterized ⟨brineSpecies, brineSalts, waterSalts⟩ := by
  -- pure water is computed, and the other composition follows
  have pure : mixingTerms ⟨brineSpecies, brineSalts, waterSalts.insert "NaCl" "KCl" 0.1⟩
      [1, 0, 0, 0] = .ok ⟨[1, 0, 0, 0], [0, 0, 0, 0],
        [[0, 0, 0, 0], [0, 0, 0, 0], [0, 0, 0, 0], [0, 0, 0, 0]]⟩ := by decide +kernel
  have poor : mixingTerms ⟨brineSpecies, brineSalts, waterSalts⟩ [1, 0, 0, 0] =
      .error (.configuration (.noAlpha "NaCl" "KCl")) := by decide +kernel
  have rich : ofParts brineSpecies brineSalts (waterSalts.insert "NaCl" "KCl" 0.1) = .ok _ := rfl
  have bare : ofParts brineSpecies brineSalts waterSalts = .ok _ := rfl
  have four : ([1, 0, 0, 0] : List Float).length = brineSpecies.length := rfl
  have four' : ([-1, 0 / 0, 1 / 0, 0] : List Float).length = brineSpecies.length := rfl
  refine ⟨?_, ?_, ?_⟩
  · obtain ⟨_, terms, -, run⟩ | ⟨fault, run, -⟩ :=
      (parameterized_whatever_composition rich four four').1
    · exact ⟨terms, run⟩
    · exact absurd (pure.symm.trans run) nofun
  · obtain ⟨_, _, run, -⟩ | ⟨fault, run, run'⟩ :=
      (parameterized_whatever_composition bare four four').1
    · exact absurd (poor.symm.trans run) nofun
    · rw [run', ← run, poor]
  · rw [← (parameterized_whatever_composition bare four four').2]
    rintro ⟨terms, run⟩
    exact absurd (poor.symm.trans run) nofun

end Electrolyte

end PlantEconomics

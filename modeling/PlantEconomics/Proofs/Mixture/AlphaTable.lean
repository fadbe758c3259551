import Mathlib.Data.List.Induction
import PlantEconomics.Proofs.Mixture.Terms

/-!
# Tables of interactions

A table keeps the order in which the two names of a parameter were given. A lookup tries its own
order first and then the other, so a parameter that was given in one order is found in both. Where
the two orders have been given different parameters each lookup finds its own, and the interactions
of the two molecules differ.

  * `AlphaTable.at?_ofCalls`: a table holds what was given last for a pair in its order;
  * `AlphaTable.exists_get_eq_ok_iff`: which lookups succeed;
  * `AlphaTable.toOption_get_comm_iff`: when both orders find the same;
  * `AlphaTable.symmetric_iff_agreed` is about histories and mixing terms.
-/

namespace PlantEconomics

namespace AlphaTable

variable {α : Type} {t : AlphaTable α} {i j : String}

/-! ## §1. Histories -/

theorem at?_insert (t : AlphaTable α) (i j k l : String) (v : α) :
    (t.insert i j v).at? k l = if i = k ∧ j = l then some v else t.at? k l := by
  show List.lookup (k, l) (((i, j), v) :: t.entries) = _
  by_cases same : (k, l) = (i, j)
  · obtain ⟨rfl, rfl⟩ := Prod.mk.inj same
    simp
  · have other : ¬(i = k ∧ j = l) := fun ⟨hk, hl⟩ => same (Prod.ext hk.symm hl.symm)
    rw [List.lookup_cons, beq_false_of_ne same, if_neg other]
    rfl

/-- The table that is made by entering parameters one after the other. -/
def ofCalls (calls : List (String × String × α)) : AlphaTable α :=
  calls.foldl (fun t c => t.insert c.1 c.2.1 c.2.2) empty

/-- The parameter that was entered last for a pair in this order. -/
def lastGiven (calls : List (String × String × α)) (i j : String) : Option α :=
  ((calls.filter fun c => c.1 = i ∧ c.2.1 = j).getLast?).map (·.2.2)

/-- **A table holds what was given last** for a pair in its order. -/
theorem at?_ofCalls (calls : List (String × String × α)) (i j : String) :
    (ofCalls calls).at? i j = lastGiven calls i j := by
  -- the last call decides, so the calls are taken off from the end
  induction calls using List.reverseRecOn with
  | nil => rfl
  | append_singleton calls c ih =>
    have entered : ofCalls (calls ++ [c]) = (ofCalls calls).insert c.1 c.2.1 c.2.2 := by
      simp [ofCalls]
    rw [entered, at?_insert, ih]
    unfold lastGiven
    rw [List.filter_append, List.filter_singleton]
    by_cases same : c.1 = i ∧ c.2.1 = j
    · simp [same]
    · simp [same]

/-! ## §2. Lookups -/

/-- Whether there is a parameter for two names, in some order. -/
def Lists (t : AlphaTable α) (i j : String) : Prop := ∃ v, t.at? i j = some v ∨ t.at? j i = some v

variable [Scalar α]

theorem toOption_get (t : AlphaTable α) (i j : String) :
    (t.get i j).toOption = if i = j then some 0 else (t.at? i j).or (t.at? j i) := by
  unfold get
  by_cases same : i = j
  · rw [if_pos same, if_pos same]
    rfl
  · rw [if_neg same, if_neg same]
    cases (t.at? i j).or (t.at? j i) with
    | none => rfl
    | some v => rfl

theorem get_eq_ok_iff {v : α} :
    t.get i j = .ok v ↔
      (i = j ∧ 0 = v) ∨ (i ≠ j ∧ (t.at? i j).or (t.at? j i) = some v) := by
  unfold get
  by_cases same : i = j
  · simp [same]
  · rw [if_neg same]
    cases (t.at? i j).or (t.at? j i) with
    | none => simp [same]
    | some w => simp [same]

/-- **A lookup succeeds** for a name with itself and for names with a parameter in some order. -/
theorem exists_get_eq_ok_iff : (∃ v, t.get i j = .ok v) ↔ i = j ∨ t.Lists i j := by
  unfold Lists
  by_cases same : i = j
  · simp [get_eq_ok_iff, same]
  · simp only [get_eq_ok_iff, same, false_and, false_or, ne_eq, not_false_eq_true, true_and]
    cases t.at? i j with
    | none => simp
    | some v => simp

/-- **Both orders find the same** unless they hold different parameters. -/
theorem toOption_get_comm_iff :
    (t.get i j).toOption = (t.get j i).toOption ↔
      ∀ v ∈ t.at? i j, ∀ w ∈ t.at? j i, v = w := by
  rw [toOption_get, toOption_get]
  by_cases same : i = j
  · subst same
    simp +contextual
  · rw [if_neg same, if_neg (Ne.symm same)]
    cases t.at? i j with
    | none => simp
    | some v =>
      cases t.at? j i with
      | none => simp
      | some w => simp

/-! ## §3. Symmetry -/

/-- Whether what was given last for a pair in one order, if anything, is what was given last in the
other, if anything. -/
def Agreed (calls : List (String × String × α)) (i j : String) : Prop :=
  ∀ v ∈ lastGiven calls i j, ∀ w ∈ lastGiven calls j i, v = w

instance [DecidableEq α] (calls : List (String × String × α)) (i j : String) :
    Decidable (Agreed calls i j) :=
  inferInstanceAs (Decidable (∀ v ∈ lastGiven calls i j, ∀ w ∈ lastGiven calls j i, v = w))

/-- **Interactions are symmetric where the orders agree**, and nowhere else. -/
theorem symmetric_iff_agreed (calls : List (String × String × α)) :
    (∀ i j, ((ofCalls calls).get i j).toOption = ((ofCalls calls).get j i).toOption ↔
      Agreed calls i j) ∧
    ∀ (e : Electrolyte α) (fractions : List α) (terms : MixingTerms α),
      e.alpha = ofCalls calls → e.mixingTerms fractions = .ok terms →
      ∀ (i j : Nat) (s s' : Species), e.species[i]? = some s → e.species[j]? = some s' →
        s.kind = .molecule → s'.kind = .molecule →
        (terms.between? i j = terms.between? j i ↔ Agreed calls s.name s'.name) := by
  have lookups (i j : String) :
      ((ofCalls calls).get i j).toOption = ((ofCalls calls).get j i).toOption ↔
        Agreed calls i j := by
    rw [toOption_get_comm_iff, at?_ofCalls, at?_ofCalls]
    exact Iff.rfl
  refine ⟨lookups, fun e fractions terms table run i j s s' hs hs' molecule molecule' => ?_⟩
  -- an entry of two molecules is a lookup
  have entry {i j : Nat} {s s' : Species} (hs : e.species[i]? = some s)
      (hs' : e.species[j]? = some s') (molecule : s.kind = .molecule)
      (molecule' : s'.kind = .molecule) :
      terms.between? i j = ((ofCalls calls).get s.name s'.name).toOption := by
    obtain ⟨a, ha, value⟩ := Electrolyte.exists_between run hs hs'
    rw [Electrolyte.interaction_molecules molecule molecule', table] at value
    rw [ha, value]
    rfl
  rw [entry hs hs' molecule molecule', entry hs' hs molecule' molecule]
  exact lookups s.name s'.name

/-- Water and methanol, once in each order and with different parameters, and ethanol, with the
same parameter in both. -/
def solvents : List (String × String × Float) :=
  [("H2O", "MeOH", 0.25), ("EtOH", "H2O", 0.5), ("MeOH", "H2O", 0.5), ("H2O", "EtOH", 0.125),
    ("EtOH", "MeOH", 0.375), ("H2O", "EtOH", 0.5)]

/-- The three of them as an electrolyte without ions. -/
def solution : Electrolyte Float :=
  ⟨[⟨"H2O", 0⟩, ⟨"MeOH", 0⟩, ⟨"EtOH", 0⟩], [], ofCalls solvents⟩

/-- Of the three the matrix is symmetric but for water and methanol. -/
theorem symmetric_iff_agreed_solvents :
    ∃ terms, solution.mixingTerms [0.5, 0.25, 0.25] = .ok terms ∧
      terms.between? 0 2 = terms.between? 2 0 ∧ terms.between? 1 2 = terms.between? 2 1 ∧
      terms.between? 0 1 ≠ terms.between? 1 0 := by
  have run : solution.mixingTerms [0.5, 0.25, 0.25] = .ok
      ⟨[0.5, 0.25, 0.25], [0, 0, 0], [[0, 0.25, 0.5], [0.5, 0, 0.375], [0.5, 0.375, 0]]⟩ := by
    decide +kernel
  have entries := (symmetric_iff_agreed solvents).2 _ _ _ rfl run
  refine ⟨_, run, ?_, ?_, ?_⟩
  · exact (entries 0 2 ⟨"H2O", 0⟩ ⟨"EtOH", 0⟩ rfl rfl rfl rfl).2 (by decide +kernel)
  · exact (entries 1 2 ⟨"MeOH", 0⟩ ⟨"EtOH", 0⟩ rfl rfl rfl rfl).2 (by decide +kernel)
  · exact mt (entries 0 1 ⟨"H2O", 0⟩ ⟨"MeOH", 0⟩ rfl rfl rfl rfl).1 (by decide +kernel)

/-- What was entered in both orders is found as it was entered. -/
theorem not_symmetric_of_both_orders :
    ¬∀ (calls : List (String × String × Float)) (i j : String),
      ((ofCalls calls).get i j).toOption = ((ofCalls calls).get j i).toOption := by
  intro symmetric
  exact absurd (symmetric solvents "H2O" "MeOH") (by decide +kernel)

end AlphaTable

end PlantEconomics

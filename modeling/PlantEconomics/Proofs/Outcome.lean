import Mathlib.Data.List.Forall2

/-!
# Computations that may fail

What it means that a computation in steps succeeded: every step did, and the results fit
together. The first part is about computations without state; the second is about those that
thread a state through their steps, also through steps that fail. In the third the state has no
part in the results, so that steps that follow each other succeed as each of them does alone.
-/

namespace PlantEconomics

/-! ## §1. Without state -/

section Except

variable {ε β γ : Type}

@[simp] theorem bind_eq_ok_iff {x : Except ε β} {f : β → Except ε γ} {c : γ} :
    (x >>= f) = .ok c ↔ ∃ b, x = .ok b ∧ f b = .ok c := by
  cases x with
  | error e => simp [bind, Except.bind]
  | ok b => simp [bind, Except.bind]

/-- Two steps fail when the first does or the second does on its result. -/
theorem bind_eq_error_iff {x : Except ε β} {f : β → Except ε γ} {e : ε} :
    (x >>= f) = .error e ↔ x = .error e ∨ ∃ b, x = .ok b ∧ f b = .error e := by
  cases x with
  | error e' => simp [bind, Except.bind]
  | ok b => simp [bind, Except.bind]

/-- What comes behind a step only has to agree where the step succeeds. -/
theorem bind_congr_of_ok {x : Except ε β} {f g : β → Except ε γ}
    (h : ∀ b, x = .ok b → f b = g b) : (x >>= f) = (x >>= g) := by
  cases x with
  | error e => rfl
  | ok b => exact h b rfl

@[simp] theorem pure_eq_ok_iff {b c : β} : (pure b : Except ε β) = .ok c ↔ b = c := by
  simp [pure, Except.pure]

@[simp] theorem map_eq_ok_iff {x : Except ε β} {f : β → γ} {c : γ} :
    x.map f = .ok c ↔ ∃ b, x = .ok b ∧ f b = c := by
  cases x with
  | error e => simp [Except.map]
  | ok b => simp [Except.map]

/-- A list of computations succeeds when each of them does. -/
theorem mapM_eq_ok_iff {f : β → Except ε γ} {xs : List β} {ys : List γ} :
    xs.mapM f = .ok ys ↔ List.Forall₂ (fun x y => f x = .ok y) xs ys := by
  induction xs generalizing ys with
  | nil => cases ys <;> simp
  | cons x xs ih =>
    rw [List.mapM_cons, List.forall₂_cons_left_iff]
    simp only [bind_eq_ok_iff, pure_eq_ok_iff, ih]
    constructor
    · rintro ⟨y, hy, rest, hrest, rfl⟩
      exact ⟨y, rest, hy, hrest, rfl⟩
    · rintro ⟨y, rest, hy, hrest, rfl⟩
      exact ⟨y, hy, rest, hrest, rfl⟩

/-- What is the same for elements that go together is the same for their lists. -/
theorem map_eq_of_forall₂ {δ : Type} {R : β → γ → Prop} {xs : List β} {ys : List γ}
    (h : List.Forall₂ R xs ys) {f : β → δ} {g : γ → δ} (each : ∀ x y, R x y → g y = f x) :
    ys.map g = xs.map f := by
  induction h with
  | nil => rfl
  | cons first _ ih => rw [List.map_cons, List.map_cons, each _ _ first, ih]

/-- What each step makes of its result is what the list of results is made of. -/
theorem map_eq_of_mapM_eq_ok {δ : Type} {f : β → Except ε γ} {g : γ → δ} {h : β → δ} {xs : List β}
    {ys : List γ} (run : xs.mapM f = .ok ys) (each : ∀ x ∈ xs, ∀ y, f x = .ok y → g y = h x) :
    ys.map g = xs.map h := by
  rw [mapM_eq_ok_iff] at run
  induction run with
  | nil => rfl
  | cons hxy _ ih =>
    obtain ⟨first, rest⟩ := List.forall_mem_cons.1 each
    rw [List.map_cons, List.map_cons, first _ hxy, ih rest]

/-- Every element of the list has its result in the list of results. -/
theorem exists_mem_of_mapM_eq_ok {f : β → Except ε γ} {xs : List β} {ys : List γ}
    (run : xs.mapM f = .ok ys) {x : β} (hx : x ∈ xs) : ∃ y ∈ ys, f x = .ok y := by
  rw [mapM_eq_ok_iff] at run
  induction run with
  | nil => exact absurd hx List.not_mem_nil
  | cons hxy _ ih =>
    rcases List.mem_cons.1 hx with rfl | hx
    · exact ⟨_, List.mem_cons_self, hxy⟩
    · obtain ⟨y, hy, hfy⟩ := ih hx
      exact ⟨y, List.mem_cons_of_mem _ hy, hfy⟩

/-- Every result is that of an element. -/
theorem exists_mem_of_mem_mapM_eq_ok {f : β → Except ε γ} {xs : List β} {ys : List γ}
    (run : xs.mapM f = .ok ys) {y : γ} (hy : y ∈ ys) : ∃ x ∈ xs, f x = .ok y := by
  rw [mapM_eq_ok_iff] at run
  induction run with
  | nil => exact absurd hy List.not_mem_nil
  | cons hxy _ ih =>
    rcases List.mem_cons.1 hy with rfl | hy
    · exact ⟨_, List.mem_cons_self, hxy⟩
    · obtain ⟨x, hx, hfx⟩ := ih hy
      exact ⟨x, List.mem_cons_of_mem _ hx, hfx⟩

/-- A list of computations succeeds when there is a result for every element. -/
theorem exists_mapM_eq_ok {f : β → Except ε γ} {xs : List β} (h : ∀ x ∈ xs, ∃ y, f x = .ok y) :
    ∃ ys, xs.mapM f = .ok ys := by
  induction xs with
  | nil => exact ⟨[], rfl⟩
  | cons x xs ih =>
    obtain ⟨⟨y, hy⟩, rest⟩ := List.forall_mem_cons.1 h
    obtain ⟨ys, hys⟩ := ih rest
    exact ⟨y :: ys, by simp [hy, hys]⟩

/-- A list of computations fails with the fault of one of them. -/
theorem exists_mem_of_mapM_eq_error {f : β → Except ε γ} {xs : List β} {e : ε}
    (run : xs.mapM f = .error e) : ∃ x ∈ xs, f x = .error e := by
  induction xs with
  | nil => exact absurd run (by simp [pure, Except.pure])
  | cons x xs ih =>
    rw [List.mapM_cons, bind_eq_error_iff] at run
    rcases run with first | ⟨y, -, rest⟩
    · exact ⟨x, List.mem_cons_self, first⟩
    · rcases bind_eq_error_iff.1 rest with rest | ⟨ys, -, impossible⟩
      · obtain ⟨x', hx', later⟩ := ih rest
        exact ⟨x', List.mem_cons_of_mem _ hx', later⟩
      · exact absurd impossible (by simp [pure, Except.pure])

/-- The fault of a computation, if it fails. -/
def faultOf? : Except ε β → Option ε
  | .ok _ => none
  | .error e => some e

theorem faultOf?_eq_none_iff {x : Except ε β} : faultOf? x = none ↔ ∃ b, x = .ok b := by
  cases x <;> simp [faultOf?]

theorem faultOf?_eq_some_iff {x : Except ε β} {e : ε} : faultOf? x = some e ↔ x = .error e := by
  cases x <;> simp [faultOf?]

/-- Two steps fail alike when the first steps do, and the second steps do on all their results. -/
theorem faultOf?_bind_congr {β' γ' : Type} {x : Except ε β} {x' : Except ε β'}
    {f : β → Except ε γ} {f' : β' → Except ε γ'} (first : faultOf? x = faultOf? x')
    (second : ∀ b b', x = .ok b → x' = .ok b' → faultOf? (f b) = faultOf? (f' b')) :
    faultOf? (x >>= f) = faultOf? (x' >>= f') := by
  cases x with
  | error e =>
    rw [faultOf?_eq_some_iff.1 first.symm]
    rfl
  | ok b =>
    obtain ⟨b', rfl⟩ := faultOf?_eq_none_iff.1 first.symm
    exact second b b' rfl rfl

/-- Lists of computations fail alike when each of them does. -/
theorem faultOf?_mapM_congr {f f' : β → Except ε γ} {xs : List β}
    (each : ∀ x ∈ xs, faultOf? (f x) = faultOf? (f' x)) :
    faultOf? (xs.mapM f) = faultOf? (xs.mapM f') := by
  induction xs with
  | nil => rfl
  | cons x xs ih =>
    obtain ⟨first, rest⟩ := List.forall_mem_cons.1 each
    rw [List.mapM_cons, List.mapM_cons]
    exact faultOf?_bind_congr first fun _ _ _ _ => faultOf?_bind_congr (ih rest) fun _ _ _ _ => rfl

/-- A list of checks passes when each of them does. -/
theorem forM_eq_ok_iff {f : β → Except ε Unit} {xs : List β} :
    xs.forM f = .ok () ↔ ∀ x ∈ xs, f x = .ok () := by
  induction xs with
  | nil => simp [pure, Except.pure]
  | cons x xs ih =>
    show (f x >>= fun _ => xs.forM f) = .ok () ↔ _
    rw [bind_eq_ok_iff, List.forall_mem_cons]
    constructor
    · rintro ⟨_, hx, hrest⟩
      exact ⟨hx, ih.1 hrest⟩
    · rintro ⟨hx, hrest⟩
      exact ⟨⟨⟩, hx, ih.2 hrest⟩

/-- A list of checks fails with the fault of one of them. -/
theorem exists_mem_of_forM_eq_error {f : β → Except ε Unit} {xs : List β} {e : ε}
    (run : xs.forM f = .error e) : ∃ x ∈ xs, f x = .error e := by
  induction xs with
  | nil => exact absurd run (by simp [pure, Except.pure])
  | cons x xs ih =>
    rcases bind_eq_error_iff.1 (show (f x >>= fun _ => xs.forM f) = .error e from run) with
      first | ⟨_, -, rest⟩
    · exact ⟨x, List.mem_cons_self, first⟩
    · obtain ⟨x', hx', later⟩ := ih rest
      exact ⟨x', List.mem_cons_of_mem _ hx', later⟩

/-- A vector of computations that succeeds holds the result of each. -/
theorem eq_ok_of_ofFnM_eq_ok {n : Nat} {f : Fin n → Except ε β} {v : Vector β n}
    (run : Vector.ofFnM f = .ok v) (i : Fin n) : f i = .ok v[i] := by
  induction n with
  | zero => exact i.elim0
  | succ n ih =>
    rw [Vector.ofFnM_succ] at run
    simp only [bind_eq_ok_iff, pure_eq_ok_iff] at run
    obtain ⟨front, hfront, b, hb, rfl⟩ := run
    cases i using Fin.lastCases with
    | last => simpa using hb
    | cast i => simpa using ih hfront i

/-- A vector of computations fails with the fault of the first one that fails. -/
theorem exists_first_of_ofFnM_eq_error {n : Nat} {f : Fin n → Except ε β} {e : ε}
    (run : Vector.ofFnM f = .error e) :
    ∃ i, f i = .error e ∧ ∀ j < i, ∃ b, f j = .ok b := by
  induction n with
  | zero =>
    rw [Vector.ofFnM_zero] at run
    cases run
  | succ n ih =>
    rw [Vector.ofFnM_succ, bind_eq_error_iff] at run
    rcases run with early | ⟨front, hfront, late⟩
    · obtain ⟨i, hi, before⟩ := ih early
      refine ⟨i.castSucc, hi, fun j earlier => ?_⟩
      exact before (j.castLT (by omega)) (by simpa [Fin.lt_def] using earlier)
    · rcases bind_eq_error_iff.1 late with late | ⟨b, -, impossible⟩
      · refine ⟨Fin.last n, late, fun j earlier => ?_⟩
        exact ⟨_, eq_ok_of_ofFnM_eq_ok hfront (j.castLT (by simpa [Fin.lt_def] using earlier))⟩
      · cases impossible

end Except

/-! ## §2. With a state -/

section State

variable {ε σ β γ : Type}

/-- The computation succeeds from a state, with a result and a state after it. -/
def Yields (x : ExceptT ε (StateM σ) β) (s : σ) (b : β) (s' : σ) : Prop :=
  (x.run.run s).run = (.ok b, s')

theorem yields_pure_iff {b c : β} {s s' : σ} :
    Yields (pure b : ExceptT ε (StateM σ) β) s c s' ↔ b = c ∧ s = s' := by
  show ((.ok b, s) : Except ε β × σ) = (.ok c, s') ↔ _
  simp

theorem not_yields_throw {e : ε} {b : β} {s s' : σ} :
    ¬Yields (throw e : ExceptT ε (StateM σ) β) s b s' := by
  show ¬((.error e, s) : Except ε β × σ) = (.ok b, s')
  simp

theorem yields_get_iff {b s s' : σ} :
    Yields (get : ExceptT ε (StateM σ) σ) s b s' ↔ s = b ∧ s = s' := by
  show ((.ok s, s) : Except ε σ × σ) = (.ok b, s') ↔ _
  simp

theorem yields_set_iff {t s s' : σ} {u : PUnit} :
    Yields (set t : ExceptT ε (StateM σ) PUnit) s u s' ↔ t = s' := by
  show ((.ok ⟨⟩, t) : Except ε PUnit × σ) = (.ok u, s') ↔ _
  simp

theorem yields_modify_iff {f : σ → σ} {s s' : σ} {u : PUnit} :
    Yields (modify f : ExceptT ε (StateM σ) PUnit) s u s' ↔ f s = s' := by
  show ((.ok ⟨⟩, f s) : Except ε PUnit × σ) = (.ok u, s') ↔ _
  simp

/-- A computation without state succeeds as it does alone and keeps the state. -/
theorem yields_lift_iff {x : Except ε β} {b : β} {s s' : σ} :
    Yields (liftM x : ExceptT ε (StateM σ) β) s b s' ↔ x = .ok b ∧ s = s' := by
  show ((x, s) : Except ε β × σ) = (.ok b, s') ↔ _
  simp

/-- After a failure the rest is not run, and the state is the one that the failure left. -/
theorem run_bind_eq (x : ExceptT ε (StateM σ) β) (f : β → ExceptT ε (StateM σ) γ) (s : σ) :
    ((x >>= f).run.run s).run =
      match (x.run.run s).run with
      | (.ok b, t) => ((f b).run.run t).run
      | (.error e, t) => (.error e, t) := by
  show ((match (x.run.run s).run.1 with
    | .ok b => (f b).run
    | .error e => pure (.error e) : StateM σ (Except ε γ)).run (x.run.run s).run.2).run = _
  rcases (x.run.run s).run with ⟨_ | b, t⟩ <;> rfl

theorem yields_bind_iff {x : ExceptT ε (StateM σ) β} {f : β → ExceptT ε (StateM σ) γ} {c : γ}
    {s s' : σ} :
    Yields (x >>= f) s c s' ↔ ∃ b t, Yields x s b t ∧ Yields (f b) t c s' := by
  unfold Yields
  rw [run_bind_eq]
  rcases (x.run.run s).run with ⟨_ | b, t⟩ <;> simp

/-- Leaving out the result leaves success and the state as they are. -/
theorem run_discard_eq (x : ExceptT ε (StateM σ) β) (s : σ) :
    ((discard x).run.run s).run =
      match (x.run.run s).run with
      | (.ok _, t) => (.ok ⟨⟩, t)
      | (.error e, t) => (.error e, t) := by
  show ((match (x.run.run s).run.1 with
    | .ok _ => pure (.ok ⟨⟩)
    | .error e => pure (.error e) : StateM σ (Except ε PUnit)).run (x.run.run s).run.2).run = _
  rcases (x.run.run s).run with ⟨_ | b, t⟩ <;> rfl

theorem yields_discard_iff {x : ExceptT ε (StateM σ) β} {s s' : σ} {u : PUnit} :
    Yields (discard x) s u s' ↔ ∃ b, Yields x s b s' := by
  unfold Yields
  rw [run_discard_eq]
  rcases (x.run.run s).run with ⟨_ | b, t⟩ <;> simp

/-- What each step makes of its result is what the list of results is made of. -/
theorem map_eq_of_yields_mapM {δ : Type} {f : β → ExceptT ε (StateM σ) γ} {g : γ → δ} {h : β → δ}
    {xs : List β} {ys : List γ} {s s' : σ} (run : Yields (xs.mapM f) s ys s')
    (each : ∀ x ∈ xs, ∀ s y s', Yields (f x) s y s' → g y = h x) : ys.map g = xs.map h := by
  induction xs generalizing ys s with
  | nil =>
    obtain ⟨rfl, -⟩ := yields_pure_iff.1 run
    rfl
  | cons x xs ih =>
    obtain ⟨first, rest⟩ := List.forall_mem_cons.1 each
    rw [List.mapM_cons, yields_bind_iff] at run
    -- the rest runs from the state that the first step left
    obtain ⟨y, t, hy, run⟩ := run
    obtain ⟨ys', t', hys, run⟩ := yields_bind_iff.1 run
    obtain ⟨rfl, rfl⟩ := yields_pure_iff.1 run
    rw [List.map_cons, List.map_cons, first _ _ _ hy, ih hys rest]

/-- The computation fails from a state, with a fault and a state after it. -/
def Fails (x : ExceptT ε (StateM σ) β) (s : σ) (e : ε) (s' : σ) : Prop :=
  (x.run.run s).run = (.error e, s')

theorem not_fails_pure {b : β} {e : ε} {s s' : σ} :
    ¬Fails (pure b : ExceptT ε (StateM σ) β) s e s' := by
  show ¬((.ok b, s) : Except ε β × σ) = (.error e, s')
  simp

theorem not_fails_get {e : ε} {s s' : σ} : ¬Fails (get : ExceptT ε (StateM σ) σ) s e s' := by
  show ¬((.ok s, s) : Except ε σ × σ) = (.error e, s')
  simp

theorem not_fails_modify {f : σ → σ} {e : ε} {s s' : σ} :
    ¬Fails (modify f : ExceptT ε (StateM σ) PUnit) s e s' := by
  show ¬((.ok ⟨⟩, f s) : Except ε PUnit × σ) = (.error e, s')
  simp

/-- What succeeds from a state does not fail from it. -/
theorem Yields.not_fails {x : ExceptT ε (StateM σ) β} {s s' t : σ} {b : β} {e : ε}
    (h : Yields x s b s') : ¬Fails x s e t := by
  intro fails
  unfold Fails at fails
  rw [show (x.run.run s).run = (.ok b, s') from h] at fails
  cases fails

theorem fails_throw_iff {e e' : ε} {s s' : σ} :
    Fails (throw e : ExceptT ε (StateM σ) β) s e' s' ↔ e = e' ∧ s = s' := by
  show ((.error e, s) : Except ε β × σ) = (.error e', s') ↔ _
  simp

/-- A computation without state fails as it does alone and keeps the state. -/
theorem fails_lift_iff {x : Except ε β} {e : ε} {s s' : σ} :
    Fails (liftM x : ExceptT ε (StateM σ) β) s e s' ↔ x = .error e ∧ s = s' := by
  show ((x, s) : Except ε β × σ) = (.error e, s') ↔ _
  simp

/-- Two steps fail when the first does or the second does on what the first left. -/
theorem fails_bind_iff {x : ExceptT ε (StateM σ) β} {f : β → ExceptT ε (StateM σ) γ} {e : ε}
    {s s' : σ} :
    Fails (x >>= f) s e s' ↔ Fails x s e s' ∨ ∃ b t, Yields x s b t ∧ Fails (f b) t e s' := by
  unfold Fails Yields
  rw [run_bind_eq]
  rcases (x.run.run s).run with ⟨_ | b, t⟩ <;> simp

end State

/-! ## §3. Without regard to the state -/

section IgnoresState

variable {ε σ β γ : Type}

/-- What a computation gives from a state, whatever state it leaves. -/
def outcome (x : ExceptT ε (StateM σ) β) (s : σ) : Except ε β := (x.run.run s).run.1

theorem outcome_eq_ok_iff {x : ExceptT ε (StateM σ) β} {s : σ} {b : β} :
    outcome x s = .ok b ↔ ∃ s', Yields x s b s' := by
  unfold outcome Yields
  constructor
  · intro h
    exact ⟨_, Prod.ext h rfl⟩
  · rintro ⟨s', h⟩
    rw [h]

/-- Whether success and its result do not depend on the state that a computation starts from. -/
def IgnoresState (x : ExceptT ε (StateM σ) β) : Prop :=
  ∀ s t b, outcome x s = .ok b → outcome x t = .ok b

theorem ignoresState_lift (x : Except ε β) :
    IgnoresState (liftM x : ExceptT ε (StateM σ) β) := by
  intro s t b h
  exact h

theorem ignoresState_pure (b : β) : IgnoresState (pure b : ExceptT ε (StateM σ) β) := by
  intro s t c h
  exact h

theorem IgnoresState.bind {x : ExceptT ε (StateM σ) β} {f : β → ExceptT ε (StateM σ) γ}
    (hx : IgnoresState x) (hf : ∀ b, IgnoresState (f b)) : IgnoresState (x >>= f) := by
  intro s t c h
  obtain ⟨s', h⟩ := outcome_eq_ok_iff.1 h
  obtain ⟨b, s₁, first, rest⟩ := yields_bind_iff.1 h
  obtain ⟨t₁, first⟩ := outcome_eq_ok_iff.1 (hx s t b (outcome_eq_ok_iff.2 ⟨s₁, first⟩))
  obtain ⟨t', rest⟩ := outcome_eq_ok_iff.1 (hf b s₁ t₁ c (outcome_eq_ok_iff.2 ⟨s', rest⟩))
  exact outcome_eq_ok_iff.2 ⟨t', yields_bind_iff.2 ⟨b, t₁, first, rest⟩⟩

/-- Steps that ignore the state give, one after the other, what each of them gives alone. -/
theorem outcome_mapM_eq_ok_iff {f : β → ExceptT ε (StateM σ) γ} {xs : List β}
    (each : ∀ x ∈ xs, IgnoresState (f x)) {ys : List γ} (s t : σ) :
    outcome (xs.mapM f) s = .ok ys ↔ xs.mapM (fun x => outcome (f x) t) = .ok ys := by
  rw [outcome_eq_ok_iff]
  induction xs generalizing ys s with
  | nil => simp [yields_pure_iff]
  | cons x xs ih =>
    obtain ⟨first, rest⟩ := List.forall_mem_cons.1 each
    rw [List.mapM_cons, List.mapM_cons]
    simp only [yields_bind_iff, yields_pure_iff, bind_eq_ok_iff, pure_eq_ok_iff]
    constructor
    · rintro ⟨_, y, s₁, hy, ys', s₂, hys, rfl, rfl⟩
      exact ⟨y, first s t y (outcome_eq_ok_iff.2 ⟨s₁, hy⟩), ys', (ih rest s₁).1 ⟨s₂, hys⟩, rfl⟩
    · rintro ⟨y, hy, ys', hys, rfl⟩
      obtain ⟨s₁, hy⟩ := outcome_eq_ok_iff.1 (first t s y hy)
      obtain ⟨s₂, hys⟩ := (ih rest s₁).2 hys
      exact ⟨s₂, y, s₁, hy, ys', s₂, hys, rfl, rfl⟩

end IgnoresState

end PlantEconomics

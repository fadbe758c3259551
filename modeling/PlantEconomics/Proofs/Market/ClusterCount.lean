import PlantEconomics.Market.ClusterCount
import PlantEconomics.Proofs.Clustering.Knee.Scan
import PlantEconomics.Proofs.Outcome

/-!
# What a sweep over counts does

A sweep asks the clusterer for one count after the other, always for the same days, and threads one
state through the calls: the stream of seeds, which starts anew from the seed of the sweep, and the
clusterer's own state. It ends with the first call that fails. To say so about every clusterer, the
clusterer is made to keep a list of its calls; a sweep cannot tell the difference.

The knee is never the last point of a curve, so the count that is chosen is at most the end of the
sweep less two. So the chosen count is close to the end in one way only.

  * `Swept`: calls, result and state of a sweep, and `exists_swept` that every sweep is so;
  * `Swept.threaded`, `Swept.counts`, `Swept.of_ok`, `Swept.of_failed`: what that means for the calls;
  * `sweep_calls` puts it together.
-/

namespace PlantEconomics

namespace CountSweep

variable {α σ : Type}

/-! ## §1. Calls -/

/-- A call of a clusterer: samples, count and state that it was given, and what it made of them. -/
structure Call (α σ : Type) where
  samples : List (List α)
  count : Nat
  before : Random.SeedStream × σ
  result : Except (Fault α) (Partition α)
  after : Random.SeedStream × σ

/-- Whether a call succeeded. -/
def Call.Succeeds (c : Call α σ) : Prop := ∃ p, c.result = .ok p

/-- Whether a call gave a point of the curve: its count and the inertia of its partition. -/
def Call.Gives (c : Call α σ) (point : Nat × α) : Prop :=
  ∃ p, c.result = .ok p ∧ point = (c.count, p.inertia)

/-- A clusterer that keeps a list of its calls beside its own state. -/
def recorded (fit : Clusterer α σ) : Clusterer α (σ × List (Call α σ)) := fun samples k =>
  ExceptT.mk fun (stream, own, calls) =>
    let (result, stream', own') := ((fit samples k).run.run (stream, own)).run
    pure (result, stream', own',
      calls ++ [⟨samples, k, (stream, own), result, (stream', own')⟩])

/-- Whether calls follow each other on the same samples, each one from the state that the one before
left. -/
def Threaded (fit : Clusterer α σ) (samples : List (List α)) :
    Random.SeedStream × σ → List (Call α σ) → Random.SeedStream × σ → Prop
  | s, [], s' => s = s'
  | s, c :: calls, s' => c.samples = samples ∧ c.before = s ∧
      ((fit samples c.count).run.run s).run = (c.result, c.after) ∧
      Threaded fit samples c.after calls s'

/-! ## §2. A sweep -/

/-- The calls of a sweep over `n` counts from `k` on, with its result and the state it leaves. -/
inductive Swept (fit : Clusterer α σ) (samples : List (List α)) :
    Nat → Nat → Random.SeedStream × σ → List (Call α σ) →
      Except (Fault α) (List (Nat × α)) → Random.SeedStream × σ → Prop
  | done (k s) : Swept fit samples k 0 s [] (.ok []) s
  | failed {k n s fault s'} (last : Fails (fit samples k) s fault s') :
      Swept fit samples k (n + 1) s [⟨samples, k, s, .error fault, s'⟩] (.error fault) s'
  | further {k n s p t calls result s'} (first : Yields (fit samples k) s p t)
      (rest : Swept fit samples (k + 1) n t calls result s') :
      Swept fit samples k (n + 1) s (⟨samples, k, s, .ok p, t⟩ :: calls)
        (result.map ((k, p.inertia) :: ·)) s'

theorem run_recorded {fit : Clusterer α σ} {samples : List (List α)} {k : Nat}
    {s t : Random.SeedStream × σ} {result : Except (Fault α) (Partition α)}
    (h : ((fit samples k).run.run s).run = (result, t)) (earlier : List (Call α σ)) :
    ((recorded fit samples k).run.run (s.1, s.2, earlier)).run =
      (result, t.1, t.2, earlier ++ [⟨samples, k, s, result, t⟩]) := by
  show (match ((fit samples k).run.run s).run with
    | (result, stream', own') => (result, stream', own',
        earlier ++ [(⟨samples, k, s, result, (stream', own')⟩ : Call α σ)])) = _
  rw [h]

/-- The first call of a sweep ends it or is followed by the others. -/
theorem run_curveFrom_succ (fit : Clusterer α σ) (samples : List (List α)) (k n : Nat)
    (s : Random.SeedStream × σ) :
    ((curveFrom fit samples k (n + 1)).run.run s).run =
      match ((fit samples k).run.run s).run with
      | (.ok p, t) =>
        (((curveFrom fit samples (k + 1) n).run.run t).run.1.map ((k, p.inertia) :: ·),
          ((curveFrom fit samples (k + 1) n).run.run t).run.2)
      | (.error fault, t) => (.error fault, t) := by
  rw [curveFrom, run_bind_eq]
  rcases ((fit samples k).run.run s).run with ⟨fault | p, t⟩
  · rfl
  · dsimp only
    rw [run_bind_eq]
    rcases ((curveFrom fit samples (k + 1) n).run.run t).run with ⟨fault | rest, t'⟩
    · rfl
    · rfl

/-- **Every sweep makes its calls so**, and keeping a list of them changes nothing else. -/
theorem exists_swept (fit : Clusterer α σ) (samples : List (List α)) (k n : Nat)
    (s : Random.SeedStream × σ) :
    ∃ calls result s', Swept fit samples k n s calls result s' ∧
      ((curveFrom fit samples k n).run.run s).run = (result, s') ∧
      ∀ earlier, ((curveFrom (recorded fit) samples k n).run.run (s.1, s.2, earlier)).run =
        (result, s'.1, s'.2, earlier ++ calls) := by
  -- on the counts left; the calls made before them stay in front of theirs
  induction n generalizing k s with
  | zero => exact ⟨[], .ok [], s, .done k s, rfl, fun earlier => by rw [List.append_nil]; rfl⟩
  | succ n ih =>
    rcases hfirst : ((fit samples k).run.run s).run with ⟨fault | p, t⟩
    · refine ⟨_, _, t, .failed hfirst, ?_, fun earlier => ?_⟩
      · rw [run_curveFrom_succ, hfirst]
      · rw [run_curveFrom_succ, run_recorded hfirst]
    · obtain ⟨calls, result, s', swept, plain, logged⟩ := ih (k + 1) t
      refine ⟨_, _, s', .further hfirst swept, ?_, fun earlier => ?_⟩
      · rw [run_curveFrom_succ, hfirst]
        dsimp only
        rw [plain]
      · rw [run_curveFrom_succ, run_recorded hfirst]
        dsimp only
        rw [logged, List.append_assoc]
        rfl

namespace Swept

variable {fit : Clusterer α σ} {samples : List (List α)} {k n : Nat}
  {s s' : Random.SeedStream × σ} {calls : List (Call α σ)}
  {result : Except (Fault α) (List (Nat × α))}

theorem threaded (h : Swept fit samples k n s calls result s') :
    Threaded fit samples s calls s' := by
  induction h with
  | done => rfl
  | failed last => exact ⟨rfl, rfl, last, rfl⟩
  | further first _ ih => exact ⟨rfl, rfl, first, ih⟩

/-- The counts are those from `k` on, without a gap. -/
theorem counts (h : Swept fit samples k n s calls result s') :
    calls.map (·.count) = List.range' k calls.length := by
  induction h with
  | done => rfl
  | failed => rfl
  | further _ _ ih => rw [List.map_cons, ih, List.length_cons, List.range'_succ]

/-- A curve has a point for each call, and no count has been left out. -/
theorem of_ok (h : Swept fit samples k n s calls result s') {curve : List (Nat × α)}
    (ok : result = .ok curve) :
    calls.map (·.count) = List.range' k n ∧ List.Forall₂ Call.Gives calls curve := by
  induction h generalizing curve with
  | done =>
    cases ok
    exact ⟨rfl, .nil⟩
  | failed => cases ok
  | further _ _ ih =>
    obtain ⟨rest, made, rfl⟩ := map_eq_ok_iff.1 ok
    obtain ⟨counts, points⟩ := ih made
    exact ⟨by rw [List.map_cons, counts, List.range'_succ], .cons ⟨_, rfl, rfl⟩ points⟩

/-- So the curve is over the counts. -/
theorem curve_counts (h : Swept fit samples k n s calls result s') {curve : List (Nat × α)}
    (ok : result = .ok curve) : curve.map (·.1) = List.range' k n := by
  obtain ⟨counts, points⟩ := h.of_ok ok
  rw [← counts]
  refine map_eq_of_forall₂ points fun c point gives => ?_
  obtain ⟨p, -, rfl⟩ := gives
  rfl

/-- Where there is a curve, the samples have been grouped with every count. -/
theorem exists_yields (h : Swept fit samples k n s calls result s') {curve : List (Nat × α)}
    (ok : result = .ok curve) {count : Nat} (hcount : count ∈ List.range' k n) :
    ∃ t p t', Yields (fit samples count) t p t' := by
  induction h generalizing curve with
  | done => exact absurd hcount List.not_mem_nil
  | failed => cases ok
  | further first _ ih =>
    obtain ⟨rest, made, -⟩ := map_eq_ok_iff.1 ok
    rw [List.range'_succ, List.mem_cons] at hcount
    rcases hcount with rfl | later
    · exact ⟨_, _, _, first⟩
    · exact ih made later

/-- If all calls succeed, there is a curve. -/
theorem exists_curve (h : Swept fit samples k n s calls result s')
    (all : ∀ c ∈ calls, c.Succeeds) : ∃ curve, result = .ok curve := by
  induction h with
  | done => exact ⟨[], rfl⟩
  | failed =>
    obtain ⟨p, succeeds⟩ := all _ List.mem_cons_self
    cases succeeds
  | further _ _ ih =>
    obtain ⟨rest, made⟩ := ih fun c hc => all c (List.mem_cons_of_mem _ hc)
    exact ⟨_, by rw [made]; rfl⟩

/-- A call that fails is the last one, all others have succeeded, and its fault is the result. -/
theorem of_failed (h : Swept fit samples k n s calls result s') {front back : List (Call α σ)}
    {c : Call α σ} {fault : Fault α} (split : calls = front ++ c :: back)
    (failed : c.result = .error fault) :
    back = [] ∧ (∀ c ∈ front, c.Succeeds) ∧ result = .error fault := by
  -- the call is the first of the sweep or one of the others
  induction h generalizing front with
  | done => simp at split
  | failed =>
    cases front with
    | nil =>
      obtain ⟨rfl, rfl⟩ := List.cons.inj split
      cases failed
      exact ⟨rfl, by simp, rfl⟩
    | cons _ front => simp at split
  | @further k n s p t calls result s' _ _ ih =>
    cases front with
    | nil =>
      obtain ⟨rfl, -⟩ := List.cons.inj split
      cases failed
    | cons first front =>
      obtain ⟨rfl, later⟩ := List.cons.inj split
      obtain ⟨last, all, made⟩ := ih later
      exact ⟨last, List.forall_mem_cons.2 ⟨⟨p, rfl⟩, all⟩, by rw [made]; rfl⟩

end Swept

/-! ## §3. The choice -/

section Choice

variable [Scalar α]

/-- The position of the knee of a curve. -/
def knee? (curve : List (Nat × α)) : Option Nat :=
  KneeRule.falling.index? (curve.map fun p => Scalar.ofNat p.1) (curve.map (·.2))

/-- The last point of a curve is never its knee. -/
theorem succ_lt_of_knee? {curve : List (Nat × α)} {i : Nat} (h : knee? curve = some i) :
    i + 1 < curve.length := by
  have inside := KneeRule.succ_lt_of_index? rfl h
  rwa [List.length_map] at inside

theorem choose_eq_bind (s : CountSweep) (curve : List (Nat × α)) :
    s.choose curve = match (knee? curve).bind fun i => curve[i]? with
      | none => .error (.noElbow s.least s.upper)
      | some (count, _) => .ok ⟨curve, count, s.upper ≤ count + 2⟩ := rfl

/-- On a curve over the counts of a sweep, the knee tells the count by its place. -/
theorem choose_eq {s : CountSweep} {curve : List (Nat × α)}
    (counts : curve.map (·.1) = List.range' s.least (s.upper - s.least)) :
    s.choose curve = match knee? curve with
      | none => .error (.noElbow s.least s.upper)
      | some i => .ok ⟨curve, s.least + i, s.upper ≤ s.least + i + 2⟩ := by
  rw [choose_eq_bind]
  cases h : knee? curve with
  | none => rfl
  | some i =>
    have inside : i < curve.length := Nat.lt_of_succ_lt (succ_lt_of_knee? h)
    have count : curve[i].1 = s.least + i := by
      have there := List.getElem_of_eq counts (show i < (curve.map (·.1)).length by simpa)
      rwa [List.getElem_map, List.getElem_range', Nat.one_mul] at there
    rw [Option.bind_some, List.getElem?_eq_getElem inside]
    show (.ok ⟨curve, curve[i].1, s.upper ≤ curve[i].1 + 2⟩ : Except (Fault α) (ChosenCount α)) = _
    rw [count]

/-- A chosen count is one of the sweep, neither the last one nor behind it. -/
theorem bounds_of_choose {s : CountSweep} {curve : List (Nat × α)}
    (counts : curve.map (·.1) = List.range' s.least (s.upper - s.least)) {c : ChosenCount α}
    (h : s.choose curve = .ok c) :
    c.curve = curve ∧ s.least ≤ c.count ∧ c.count + 2 ≤ s.upper ∧
      (c.nearUpper = true ↔ c.count + 2 = s.upper) := by
  have number : curve.length = s.upper - s.least := by
    simpa using congrArg List.length counts
  rw [choose_eq counts] at h
  cases hknee : knee? curve with
  | none =>
    rw [hknee] at h
    cases h
  | some i =>
    have inside := succ_lt_of_knee? hknee
    rw [hknee] at h
    cases h
    have most : s.least + i + 2 ≤ s.upper := by omega
    refine ⟨rfl, Nat.le_add_right _ _, most, ?_⟩
    rw [decide_eq_true_iff]
    exact ⟨fun near => Nat.le_antisymm most near, fun same => Nat.le_of_eq same.symm⟩

/-! ## §4. Days -/

variable {s : CountSweep} {days : DayProfiles α} {fit : Clusterer α σ} {own : σ}

theorem run_of_fault {fault : Fault α} (h : s.fault? days.size = some fault) :
    s.run days fit = throw fault := by
  unfold run
  simp only [h]
  rfl

theorem run_of_swept (h : s.fault? (α := α) days.size = none)
    {result : Except (Fault α) (List (Nat × α))} {after : Random.SeedStream × σ}
    (swept : ((curveFrom fit days.days s.least (s.upper - s.least)).run.run
      (Random.SeedStream.ofSeed s.seed, own)).run = (result, after)) :
    ((s.run days fit).run.run own).run = (result >>= s.choose, after.2) := by
  unfold run
  simp only [h]
  -- the state of the calls is not that of the run, which takes over only the clusterer's part
  let sweep := (curveFrom fit days.days s.least (s.upper - s.least)).run.run
    (Random.SeedStream.ofSeed s.seed, own)
  have made : sweep = (result, after) := swept
  show ((do
    set sweep.2.2
    let curve ← liftM sweep.1
    liftM (s.choose curve) : ExceptT (Fault α) (StateM σ) (ChosenCount α)).run.run own).run = _
  rw [made]
  cases result with
  | error fault => rfl
  | ok curve => rfl

/-- The days have been grouped with the count that is chosen. -/
theorem exists_yields_of_run {own' : σ} {c : ChosenCount α}
    (h : Yields (s.run days fit) own c own') : ∃ t p t', Yields (fit days.days c.count) t p t' := by
  cases hfault : s.fault? (α := α) days.size with
  | some fault =>
    rw [run_of_fault hfault] at h
    exact absurd h not_yields_throw
  | none =>
    obtain ⟨calls, result, after, swept, plain, -⟩ := exists_swept fit days.days s.least
      (s.upper - s.least) (Random.SeedStream.ofSeed s.seed, own)
    have chosen := congrArg Prod.fst ((run_of_swept hfault plain).symm.trans h)
    obtain ⟨curve, rfl, choice⟩ := bind_eq_ok_iff.1 chosen
    obtain ⟨-, least, most, -⟩ := bounds_of_choose (swept.curve_counts rfl) choice
    refine swept.exists_yields rfl (List.mem_range'_1.2 ⟨least, ?_⟩)
    omega

/-- **A sweep asks for every count once, in their order, and never chooses the last one.** Keeping a
list of the calls changes nothing else. The calls follow each other on the days, from the stream of
the seed on, each from what the one before left. A sweep that cannot run makes none. A chosen count
means that every count has been asked for, and its curve is what the calls gave; it is a count of the
sweep, at most the end less two, and close to the end exactly when it is that. A call that fails is
the last one, and its fault is the result. When all calls succeed, the knee of the curve decides. -/
theorem sweep_calls (s : CountSweep) (days : DayProfiles α) (fit : Clusterer α σ) (own : σ) :
    ∃ calls result stream' own',
      ((s.run days (recorded fit)).run.run (own, [])).run = (result, own', calls) ∧
      ((s.run days fit).run.run own).run = (result, own') ∧
      Threaded fit days.days (Random.SeedStream.ofSeed s.seed, own) calls (stream', own') ∧
      (∀ fault, s.fault? days.size = some fault → calls = [] ∧ result = .error fault) ∧
      (∀ c, result = .ok c →
        s.fault? (α := α) days.size = none ∧
        calls.map (·.count) = List.range' s.least (s.upper - s.least) ∧
        List.Forall₂ Call.Gives calls c.curve ∧
        s.least ≤ c.count ∧ c.count + 2 ≤ s.upper ∧
        (c.nearUpper = true ↔ c.count + 2 = s.upper)) ∧
      (s.fault? (α := α) days.size = none →
        (∀ front c back fault, calls = front ++ c :: back → c.result = .error fault →
          back = [] ∧ (∀ c ∈ front, c.Succeeds) ∧
          calls.map (·.count) = List.range' s.least calls.length ∧ result = .error fault) ∧
        ((∀ c ∈ calls, c.Succeeds) →
          ∃ curve, List.Forall₂ Call.Gives calls curve ∧
            calls.map (·.count) = List.range' s.least (s.upper - s.least) ∧
            result = match knee? curve with
              | none => .error (.noElbow s.least s.upper)
              | some i => .ok ⟨curve, s.least + i, s.upper ≤ s.least + i + 2⟩)) := by
  cases hfault : s.fault? (α := α) days.size with
  | some fault =>
    refine ⟨[], .error fault, Random.SeedStream.ofSeed s.seed, own, ?_, ?_, rfl, ?_, ?_, ?_⟩
    · rw [run_of_fault hfault]
      rfl
    · rw [run_of_fault hfault]
      rfl
    · rintro _ ⟨⟩
      exact ⟨rfl, rfl⟩
    · rintro c ⟨⟩
    · rintro ⟨⟩
  | none =>
    obtain ⟨calls, result, after, swept, plain, logged⟩ := exists_swept fit days.days s.least
      (s.upper - s.least) (Random.SeedStream.ofSeed s.seed, own)
    refine ⟨calls, result >>= s.choose, after.1, after.2, run_of_swept hfault (logged []),
      run_of_swept hfault plain, swept.threaded, by rintro _ ⟨⟩, fun c chosen => ?_,
      fun _ => ⟨fun front c back fault split failed => ?_, fun all => ?_⟩⟩
    · obtain ⟨curve, rfl, choice⟩ := bind_eq_ok_iff.1 chosen
      obtain ⟨counts, points⟩ := swept.of_ok rfl
      obtain ⟨rfl, bounds⟩ := bounds_of_choose (swept.curve_counts rfl) choice
      exact ⟨rfl, counts, points, bounds⟩
    · obtain ⟨last, others, rfl⟩ := swept.of_failed split failed
      exact ⟨last, others, swept.counts, rfl⟩
    · obtain ⟨curve, rfl⟩ := swept.exists_curve all
      obtain ⟨counts, points⟩ := swept.of_ok rfl
      exact ⟨curve, points, counts, choose_eq (swept.curve_counts rfl)⟩

end Choice

/-- A clusterer whose inertias fall steeply from one to two clusters, and which refuses some
count. -/
def steep (refused : Nat) : Clusterer Float Unit := fun _ k =>
  if k = refused then throw (.clustering (.refused "count"))
  else pure ⟨[], [], if k = 1 then 100 else if k = 2 then 10 else 9⟩

/-- Of one to four clusters two are chosen; when three are refused, four are not asked for. -/
theorem sweep_calls_steep :
    let s : CountSweep := ⟨1, 5, 0⟩
    let days : DayProfiles Float := ⟨1, [[0], [0], [10], [10]]⟩
    (∃ calls, ((s.run days (recorded (steep 7))).run.run ((), [])).run =
        (.ok ⟨[(1, 100), (2, 10), (3, 9), (4, 9)], 2, false⟩, (), calls) ∧
      calls.map (·.count) = [1, 2, 3, 4]) ∧
    ∃ calls, ((s.run days (recorded (steep 3))).run.run ((), [])).run =
        (.error (.clustering (.refused "count")), (), calls) ∧
      calls.map (·.count) = [1, 2, 3] := by
  intro s days
  constructor
  · obtain ⟨calls, result, _, _, logged, plain, -, -, chosen, -⟩ := sweep_calls s days (steep 7) ()
    have made : ((s.run days (steep 7)).run.run ()).run =
        (.ok ⟨[(1, 100), (2, 10), (3, 9), (4, 9)], 2, false⟩, ()) := by decide +kernel
    rw [made] at plain
    cases plain
    exact ⟨calls, logged, (chosen _ rfl).2.1⟩
  · obtain ⟨calls, result, _, _, logged, plain, -⟩ := sweep_calls s days (steep 3) ()
    have made : ((s.run days (steep 3)).run.run ()).run =
        (.error (.clustering (.refused "count")), ()) := by decide +kernel
    have counted : ((s.run days (recorded (steep 3))).run.run ((), [])).run.2.2.map (·.count) =
        [1, 2, 3] := by decide +kernel
    rw [made] at plain
    cases plain
    rw [logged] at counted
    exact ⟨calls, logged, counted⟩

end CountSweep

end PlantEconomics

import PlantEconomics.Mixture.VaporLiquid
import PlantEconomics.Proofs.Exact

/-!
# What smoothing does to the equilibrium temperature

The root in a smoothed extreme is the distance of two numbers made longer by a width, so it exceeds
the distance by the width at most. A smoothed maximum therefore lies above the hard one and a
smoothed minimum below, both by half of what the root exceeds the distance by. The equilibrium
temperature is a smoothed minimum of a smoothed maximum, unless the components take one of the two
bounds away or both, and the two widths add nothing to each other: the first only raises, the second
only lowers.

  * `smoothMax_between` and `smoothMin_between`: how far smoothed extremes are from the hard ones;
  * `Smoothing.equilibrium_eq` and `Smoothing.initialEquilibrium_eq`: the smoothed and the hard
    temperature are built alike, whatever the components are;
  * `Smoothing.equilibrium_near_initial`: how far they are from each other.
-/

namespace PlantEconomics

/-! ## §1. Smoothed extremes -/

section Smooth

theorem smoothGap_eq (a b width : ℝ) : smoothGap a b width = √((a - b) ^ 2 + width ^ 2) := by
  show √((a - b) * (a - b) + width * width) = _
  rw [← sq, ← sq]

/-- The root is no less than the distance. -/
theorem abs_sub_le_smoothGap (a b width : ℝ) : |a - b| ≤ smoothGap a b width := by
  rw [smoothGap_eq]
  exact Real.abs_le_sqrt (le_add_of_nonneg_right (sq_nonneg width))

/-- The root exceeds the distance by the width at most. -/
theorem smoothGap_le (a b width : ℝ) : smoothGap a b width ≤ |a - b| + |width| := by
  rw [smoothGap_eq]
  apply Real.sqrt_le_iff.2
  constructor
  · positivity
  · -- the square of the sum has twice the product in addition
    have product : 0 ≤ |a - b| * |width| := by positivity
    rw [add_sq, sq_abs, sq_abs]
    linarith

theorem smoothMax_eq (a b width : ℝ) :
    smoothMax a b width = max a b + (smoothGap a b width - |a - b|) / 2 := by
  have sum := max_add_min a b
  have difference := max_sub_min_eq_abs' a b
  show 0.5 * (a + b + smoothGap a b width) = _
  linarith

theorem smoothMin_eq (a b width : ℝ) :
    smoothMin a b width = min a b - (smoothGap a b width - |a - b|) / 2 := by
  have sum := max_add_min a b
  have difference := max_sub_min_eq_abs' a b
  show 0.5 * (a + b - smoothGap a b width) = _
  linarith

/-- **A smoothed maximum** is the hard one or above it, by half the width at most. -/
theorem smoothMax_between (a b width : ℝ) :
    max a b ≤ smoothMax a b width ∧ smoothMax a b width ≤ max a b + |width| / 2 := by
  have least := abs_sub_le_smoothGap a b width
  have greatest := smoothGap_le a b width
  rw [smoothMax_eq]
  constructor <;> linarith

/-- **A smoothed minimum** is the hard one or below it, by half the width at most. -/
theorem smoothMin_between (a b width : ℝ) :
    min a b - |width| / 2 ≤ smoothMin a b width ∧ smoothMin a b width ≤ min a b := by
  have least := abs_sub_le_smoothGap a b width
  have greatest := smoothGap_le a b width
  rw [smoothMin_eq]
  constructor <;> linarith

end Smooth

/-! ## §2. Equilibrium temperature -/

namespace Smoothing

/-- The temperature held above the bubble point with a hard maximum, unless some component is in the
vapour only. -/
def initialRaised (p : VaporLiquidPair) (t : FlashTemperatures ℝ) : ℝ :=
  if p.vaporOnly.isEmpty then max t.temperature t.bubble else t.temperature

variable (s : Smoothing ℝ) (p : VaporLiquidPair) (t : FlashTemperatures ℝ)

theorem initialEquilibrium_eq :
    initialEquilibrium p t =
      if p.liquidOnly.isEmpty then min (initialRaised p t) t.dew else initialRaised p t := by
  simp only [initialEquilibrium, initialRaised, Scalar.larger_eq_max, Scalar.smaller_eq_min]

/-- Without an upper bound the raised temperature is taken, also where there is no lower bound. -/
theorem equilibrium_eq :
    s.equilibrium p t =
      if p.liquidOnly.isEmpty then smoothMin (s.raised p t) t.dew s.upper else s.raised p t := by
  unfold equilibrium raised
  cases p.vaporOnly.isEmpty <;> rfl

theorem raised_between :
    initialRaised p t ≤ s.raised p t ∧ s.raised p t ≤ initialRaised p t + |s.lower| / 2 := by
  have width : 0 ≤ |s.lower| := abs_nonneg s.lower
  unfold raised initialRaised
  split
  · exact smoothMax_between t.temperature t.bubble s.lower
  · constructor <;> linarith

/-- Holding below the dew point lowers by half the second width at most, and keeps what the first
width has raised within half of it. -/
theorem equilibrium_between :
    initialEquilibrium p t - |s.upper| / 2 ≤ s.equilibrium p t ∧
      s.equilibrium p t ≤ initialEquilibrium p t + |s.lower| / 2 := by
  obtain ⟨above, near⟩ := s.raised_between p t
  rw [initialEquilibrium_eq, equilibrium_eq]
  split
  · obtain ⟨least, greatest⟩ := smoothMin_between (s.raised p t) t.dew s.upper
    -- taking the minimum with the dew point keeps the order and the distance
    have kept : min (initialRaised p t) t.dew ≤ min (s.raised p t) t.dew :=
      min_le_min_right t.dew above
    have width : 0 ≤ |s.lower| / 2 := by positivity
    have raised : min (s.raised p t) t.dew ≤ min (initialRaised p t) t.dew + |s.lower| / 2 := by
      rw [← min_add_add_right]
      exact min_le_min near (le_add_of_nonneg_right width)
    constructor <;> linarith
  · have width : 0 ≤ |s.upper| := abs_nonneg s.upper
    constructor <;> linarith

/-- **Smoothing moves the equilibrium temperature by little**, whatever components the phases have and
in whatever order the temperatures are: downwards by half the width of the minimum at most and
upwards by half the width of the maximum at most. So without widths the smoothed temperature is the
hard one. Where both bounds hold and are in order the temperature is at most the dew point, and at
least the bubble point but for half the width of the minimum. -/
theorem equilibrium_near_initial :
    (-(|s.upper| / 2) ≤ s.equilibrium p t - initialEquilibrium p t ∧
      s.equilibrium p t - initialEquilibrium p t ≤ |s.lower| / 2) ∧
    (s.lower = 0 → s.upper = 0 → s.equilibrium p t = initialEquilibrium p t) ∧
    (p.liquidOnly = [] → p.vaporOnly = [] → t.bubble ≤ t.dew →
      t.bubble - |s.upper| / 2 ≤ s.equilibrium p t ∧ s.equilibrium p t ≤ t.dew) := by
  obtain ⟨least, greatest⟩ := s.equilibrium_between p t
  refine ⟨⟨by linarith, by linarith⟩, ?_, ?_⟩
  · intro lower upper
    rw [lower, abs_zero] at greatest
    rw [upper, abs_zero] at least
    linarith
  · intro liquid vapor ordered
    have held : initialEquilibrium p t = min (max t.temperature t.bubble) t.dew := by
      simp [initialEquilibrium_eq, initialRaised, liquid, vapor]
    have bubble : t.bubble ≤ initialEquilibrium p t := by
      rw [held]
      exact le_min (le_max_right _ _) ordered
    have dew : s.equilibrium p t ≤ t.dew := by
      rw [equilibrium_eq, if_pos (by simp [liquid])]
      exact (smoothMin_between _ _ _).2.trans (min_le_right _ _)
    exact ⟨by linarith, dew⟩

/-- Benzene four degrees below its bubble point, with wide smoothing. The roots are those of 25 and
of 6.25, and the temperature is a quarter of a degree above the bubble point. -/
theorem equilibrium_near_initial_benzene :
    let p : VaporLiquidPair := ⟨"Liq", "Vap", ["benzene"], [], []⟩
    let t : FlashTemperatures ℝ := ⟨346, 350, 352.5⟩
    let s : Smoothing ℝ := ⟨3, 1.5⟩
    initialEquilibrium p t = 350 ∧ s.equilibrium p t = 350.25 ∧
      (t.bubble - |s.upper| / 2 ≤ s.equilibrium p t ∧ s.equilibrium p t ≤ t.dew) ∧
      (⟨0, 0⟩ : Smoothing ℝ).equilibrium p t = initialEquilibrium p t := by
  intro p t s
  refine ⟨?_, ?_, ?_, ?_⟩
  · simp [initialEquilibrium_eq, initialRaised, p, t]
    norm_num
  · have maximum : s.raised p t = 350.5 := by
      have root : √((346 - 350) ^ 2 + 3 ^ 2 : ℝ) = 5 := by
        rw [Real.sqrt_eq_iff_mul_self_eq_of_pos] <;> norm_num
      show smoothMax (346 : ℝ) 350 3 = _
      rw [smoothMax_eq, smoothGap_eq, root]
      norm_num
    have root : √((350.5 - 352.5) ^ 2 + 1.5 ^ 2 : ℝ) = 2.5 := by
      rw [Real.sqrt_eq_iff_mul_self_eq_of_pos] <;> norm_num
    show smoothMin (s.raised p t) (352.5 : ℝ) 1.5 = _
    rw [maximum, smoothMin_eq, smoothGap_eq, root]
    norm_num
  · exact (s.equilibrium_near_initial p t).2.2 rfl rfl (by norm_num [t])
  · exact (Smoothing.equilibrium_near_initial ⟨0, 0⟩ p t).2.1 rfl rfl

end Smoothing

end PlantEconomics

import PlantEconomics.Scalar
import PlantEconomics.Settings.Section

/-!
# Equilibrium temperature of a vapour and a liquid

A mixture boils between its bubble and its dew temperature. The equilibrium temperature is the
temperature held inside that interval, with smoothed versions of the maximum and the minimum so
that it stays differentiable where phases vanish. A component that only the liquid knows removes
the upper bound, and one that only the vapour knows removes the lower one.

  * `smoothMax` and `smoothMin` differ from the hard ones by at most half their width;
  * `VaporLiquidPair.ofPhases` sorts the components of a liquid and a vapour phase;
  * `Smoothing.equilibrium` is the equilibrium temperature, `initialEquilibrium` its hard version.
-/

namespace PlantEconomics

/-! ## §1. Phases and components -/

/-- The state of matter of a phase. -/
inductive PhaseType where
  | liquid
  | vapor
  | solid
deriving Repr, DecidableEq

instance : Vocabulary PhaseType where
  all := [.liquid, .vapor, .solid]
  word
    | .liquid => "liquid"
    | .vapor => "vapor"
    | .solid => "solid"

/-- A named phase. -/
structure Phase where
  name : String
  type : PhaseType
deriving Repr, DecidableEq

/-- Phases, components in the order of their declaration, and which component is in which
phase. -/
structure PhaseSet where
  phases : List Phase
  components : List String
  /-- Pairs of a phase and a component in it. -/
  members : List (String × String)
deriving Repr, DecidableEq

namespace PhaseSet

variable {α : Type}

/-- Phases without components. -/
def ofPhases (phases : List Phase) : PhaseSet := ⟨phases, [], []⟩

/-- The first phase of a name. -/
def phase (s : PhaseSet) (name : String) : Except (Fault α) Phase :=
  match s.phases.find? fun p => p.name == name with
  | some p => .ok p
  | none => .error (.unknownOption "phase" name)

/-- Whether a component is in a phase. -/
def holds (s : PhaseSet) (phase component : String) : Bool := s.members.contains (phase, component)

/-- Declare a component of some phases. A component is declared once, and the phases have to
exist. -/
def declare (s : PhaseSet) (component : String) (phases : List String) :
    Except (Fault α) PhaseSet := do
  if s.components.contains component then
    throw (.configuration (.repeatedComponent component))
  let found ← phases.mapM fun name => do
    let _ ← s.phase name
    return (name, component)
  return { s with
    components := s.components ++ [component]
    members := s.members ++ found }

end PhaseSet

/-- A liquid and a vapour phase, and the components that both or only one of them know. -/
structure VaporLiquidPair where
  liquid : String
  vapor : String
  both : List String
  liquidOnly : List String
  vaporOnly : List String
deriving Repr, DecidableEq

namespace VaporLiquidPair

/-- The components of a liquid and a vapour phase, sorted by the phases that know them. -/
def sorted (s : PhaseSet) (liquid vapor : String) : VaporLiquidPair :=
  let inLiquid (c : String) : Bool := s.holds liquid c
  let inVapor (c : String) : Bool := s.holds vapor c
  { liquid, vapor
    both := s.components.filter fun c => inLiquid c && inVapor c
    liquidOnly := s.components.filter fun c => inLiquid c && !inVapor c
    vaporOnly := s.components.filter fun c => !inLiquid c && inVapor c }

/-- The pair that two named phases make; one has to be a liquid and the other a vapour. -/
def ofPhases {α : Type} (s : PhaseSet) (first second : String) :
    Except (Fault α) VaporLiquidPair := do
  let a ← s.phase first
  let b ← s.phase second
  match a.type, b.type with
  | .liquid, .vapor => return sorted s first second
  | .vapor, .liquid => return sorted s second first
  | _, _ => throw (.configuration (.notVaporLiquid first second))

end VaporLiquidPair

/-! ## §2. Smoothed extremes -/

section Smooth

variable {α : Type} [Analytic α]

/-- The root of a squared difference and a squared width. -/
def smoothGap (a b width : α) : α := Analytic.sqrt ((a - b) * (a - b) + width * width)

/-- The larger of two numbers, smoothed over a width. -/
def smoothMax (a b width : α) : α := 0.5 * (a + b + smoothGap a b width)

/-- The smaller of two numbers, smoothed over a width. -/
def smoothMin (a b width : α) : α := 0.5 * (a + b - smoothGap a b width)

end Smooth

/-! ## §3. Equilibrium temperature -/

/-- The temperatures of a state. -/
structure FlashTemperatures (α : Type) where
  temperature : α
  bubble : α
  dew : α
deriving Repr, DecidableEq

/-- Widths of the smoothed maximum and of the smoothed minimum. -/
structure Smoothing (α : Type) where
  lower : α
  upper : α
deriving Repr, DecidableEq

namespace Smoothing

/-- A hundredth of a degree below, a two-thousandth above. -/
def standard {α : Type} [Scalar α] : Smoothing α := ⟨0.01, 0.0005⟩

/-- The widths that settings give, standard where they say nothing. -/
def ofSetting (v : Setting) : Setting.Read (Smoothing Float) := do
  let s ← v.asSection
  let d : Smoothing Float := standard
  return {
    lower := ← s.orElse "eps_1" 0 d.lower Setting.asNumber
    upper := ← s.orElse "eps_2" 1 d.upper Setting.asNumber }

/-- The equilibrium temperature with hard extremes. -/
def initialEquilibrium {α : Type} [Scalar α] (p : VaporLiquidPair) (t : FlashTemperatures α) :
    α :=
  let raised :=
    if p.vaporOnly.isEmpty then Scalar.larger t.temperature t.bubble else t.temperature
  if p.liquidOnly.isEmpty then Scalar.smaller raised t.dew else raised

variable {α : Type} [Analytic α]

/-- The temperature held above the bubble point, unless some component is in the vapour only. -/
def raised (s : Smoothing α) (p : VaporLiquidPair) (t : FlashTemperatures α) : α :=
  if p.vaporOnly.isEmpty then smoothMax t.temperature t.bubble s.lower else t.temperature

/-- The raised temperature held below the dew point, unless some component is in the liquid
only. -/
def equilibrium (s : Smoothing α) (p : VaporLiquidPair) (t : FlashTemperatures α) : α :=
  if p.liquidOnly.isEmpty then smoothMin (s.raised p t) t.dew s.upper
  else if p.vaporOnly.isEmpty then s.raised p t
  else t.temperature

end Smoothing

end PlantEconomics

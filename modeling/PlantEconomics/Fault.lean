import PlantEconomics.Csv
import PlantEconomics.Text.Quoted

/-!
# What can go wrong

A fault is a cause, not a text. The causes are grouped by what the user has to mend: a setting, the
shape of the data, an option outside its table, and so on. Causes that quote a number carry the
number itself, over the same scalars as the computation that met it, and `Fault.message` is the
only place where the wording is found.
-/

namespace PlantEconomics

/-! ## §1. Causes by kind -/

/-- A setting that the library refuses. `got` is the refused number. -/
inductive Misconfiguration (α : Type) where
  /-- Days need at least one hour. -/
  | zeroHorizon
  /-- The sweep over cluster counts starts below one. -/
  | zeroLeastCount
  /-- The sweep over cluster counts is too short to have an elbow. -/
  | narrowSweep (upper needed : Nat)
  | zeroClusters
  | zeroRestarts
  | noYearColumns
  | notAYear (label : String)
  | repeatedYears (years : List Int)
  | badField (unit field : String) (got : α)
  | noCapacity (unit : String)
  | leastAboveCapacity (unit : String) (least capacity : α)
  | familyDefined (family : String)
  | expressionDefined (name : String)
  | objectiveDefined (name : String)
  | badLimit (limit : String) (got : α)
  | zeroUpDownTime (up down : Nat)
  | unknownObjective (name : String) (known : List String)
  | zeroLifetime
  | badDiscountRate (got : α)
  | badTaxRate (got : α)
  | otherNotFinite
  | badArea (got : α)
  | badTubePressure (got : α)
  | badPumpInput (input : String) (got : α)
  | pumpOutsideCorrelation (gallonsPerMinute : α)
  | unsupportedMover (mover : String)
  | badCompressorWork (got : α)
  | badTurbineWork (got : α)
  | repeatedComponent (component : String)
  | notVaporLiquid (first second : String)
  | repeatedSpecies (species : String)
  | unknownIon (apparent ion : String)
  | noIonPair (cation anion : String)
  | noAlpha (first second : String)
deriving Repr, DecidableEq

/-- Data that does not have the shape the computation needs. -/
inductive Misshape where
  | timestampCount (series : String) (timestamps values : Nat)
  | notChronological (series : String) (row : Nat)
  | fewColumns (found : Nat)
  | notANumber (row : Nat) (column text : String)
  | noRows
  | noPriceColumns
  | emptySamples
  | moreClustersThanSamples (clusters samples : Nat)
  | noFeatures
  | raggedSamples
  | nonFiniteSamples
  | fewDays (clusters days : Nat)
  | noPeriods
  | unpriced (period : String)
  | moleFractionCount (expected found : Nat)
deriving Repr, DecidableEq

/-- A clustering that cannot be used. -/
inductive ClusteringCause where
  | noWeight (day : Nat)
  | noHour (day hour : Nat)
  /-- The clusterer gave up, in its own words. -/
  | refused (text : String)
deriving Repr, DecidableEq

/-- Why a program has no optimal point. -/
inductive SolverCause where
  | noObjective
  | infeasible
  | unbounded
deriving Repr, DecidableEq

/-- What can go wrong. -/
inductive Fault (α : Type) where
  | configuration (cause : Misconfiguration α)
  | dataShape (cause : Misshape)
  | unknownOption (parameter value : String)
  | noElbow (least upper : Nat)
  | clustering (cause : ClusteringCause)
  | csv (cause : Csv.Fault)
  | file (cause : Csv.FileFault)
  | solver (cause : SolverCause)
deriving Repr, DecidableEq

/-! ## §2. Wording -/

/-- The wording of a refused setting, with `text` writing its numbers. -/
def Misconfiguration.message {α : Type} (text : α → String) : Misconfiguration α → String
  | .zeroHorizon => "horizon_length must be > 0, but 0 is provided"
  | .zeroLeastCount => "kmin must be >= 1"
  | .narrowSweep upper needed => s!"kmax ({upper}) must be at least kmin + 3 ({needed})"
  | .zeroClusters => "n_clusters must be >= 1"
  | .zeroRestarts => "n_init and max_iter must be >= 1"
  | .noYearColumns => "year column list is empty"
  | .notAYear label => s!"column '{label}' is not a year label"
  | .repeatedYears years =>
    "year columns repeat [" ++ String.intercalate ", " (years.map toString) ++ "]"
  | .badField unit field got => s!"{unit}.{field} must be finite and >= 0, got {text got}"
  | .noCapacity unit => s!"{unit}.max_power must be > 0"
  | .leastAboveCapacity unit least capacity =>
    s!"{unit}.min_power ({text least}) exceeds max_power ({text capacity})"
  | .familyDefined family => s!"constraint family '{family}' is already defined"
  | .expressionDefined name => s!"expression '{name}' is already defined"
  | .objectiveDefined name => s!"objective '{name}' is already defined"
  | .badLimit limit got => s!"{limit} must be finite and >= 0, got {text got}"
  | .zeroUpDownTime up down =>
    s!"up_time and down_time must be >= 1, got UT={up} DT={down}"
  | .unknownObjective name known =>
    s!"objective '{name}' is not supported; expected one of " ++ Text.quoteList "[" "]" known
  | .zeroLifetime => "lifetime must be >= 1 year"
  | .badDiscountRate got => s!"discount_rate must be finite and > -1, got {text got}"
  | .badTaxRate got => s!"corp_tax must be within [0, 1], got {text got}"
  | .otherNotFinite => "other_costs and other_revenue must be finite"
  | .badArea got => s!"heat exchanger area must be > 0, got {text got}"
  | .badTubePressure got => s!"tube pressure must be >= 0, got {text got}"
  | .badPumpInput input got => s!"pump {input} must be > 0, got {text got}"
  | .pumpOutsideCorrelation gallonsPerMinute =>
    s!"flow {text gallonsPerMinute} gpm is outside the pump efficiency correlation"
  | .unsupportedMover mover => s!"{mover} costing is not supported"
  | .badCompressorWork got => s!"compressor work must be > 0, got {text got}"
  | .badTurbineWork got => s!"turbine work must be < 0, got {text got}"
  | .repeatedComponent component => s!"component '{component}' declared twice"
  | .notVaporLiquid first second =>
    s!"phase pair {first}-{second} was set to use the smooth VLE formulation, " ++
      "but it is not a vapor-liquid pair"
  | .repeatedSpecies species => s!"species '{species}' declared twice"
  | .unknownIon apparent ion =>
    s!"apparent species '{apparent}' dissociates into unknown species '{ion}'"
  | .noIonPair cation anion => s!"could not find ion pair for ({cation}, {anion})"
  | .noAlpha first second => s!"missing eNRTL alpha parameter for ({first}, {second})"

/-- The wording of a fault of shape. -/
def Misshape.message : Misshape → String
  | .timestampCount series timestamps values =>
    s!"series '{series}' has {timestamps} timestamps for {values} values"
  | .notChronological series row => s!"series '{series}' is not chronological at row {row}"
  | .fewColumns found =>
    "price table needs a time column, a scenario column and at least one price column; " ++
      s!"found {found} columns"
  | .notANumber row column text => s!"row {row}, column '{column}': '{text}' is not a number"
  | .noRows => "price table has no rows"
  | .noPriceColumns => "price table has no price columns"
  | .emptySamples => "cannot cluster an empty sample set"
  | .moreClustersThanSamples clusters samples =>
    s!"n_clusters={clusters} exceeds the number of samples ({samples})"
  | .noFeatures => "samples have no features"
  | .raggedSamples => "all samples must have the same length"
  | .nonFiniteSamples => "samples contain non-finite values"
  | .fewDays clusters days => s!"cannot fit up to {clusters} clusters on {days} days of data"
  | .noPeriods => "price parameters define no periods"
  | .unpriced period => s!"no price for period {period}"
  | .moleFractionCount expected found => s!"expected {expected} mole fractions, got {found}"

/-- The wording of an unusable clustering. -/
def ClusteringCause.message : ClusteringCause → String
  | .noWeight day => s!"no weight for representative day {day}"
  | .noHour day hour => s!"representative day {day} has no hour {hour}"
  | .refused text => text

/-- The wording of a missing optimum. -/
def SolverCause.message : SolverCause → String
  | .noObjective => "model has no objective"
  | .infeasible =>
    "LP relaxation failed: Infeasible: The problem contains contradictory constraints. " ++
      "No solution exists."
  | .unbounded =>
    "LP relaxation failed: Unbounded: The objective can be made infinitely large without " ++
      "violating any constraints."

namespace Fault

variable {α : Type}

/-- The name of the kind of a fault. -/
def kind : Fault α → String
  | .configuration _ => "Configuration"
  | .dataShape _ => "DataShape"
  | .unknownOption _ _ => "UnknownOption"
  | .noElbow _ _ => "NoElbow"
  | .clustering _ => "Clustering"
  | .csv _ => "Csv"
  | .file _ => "Io"
  | .solver _ => "Solver"

/-- The wording of a fault, with `text` writing its numbers. -/
def message (text : α → String) : Fault α → String
  | .configuration cause => "Configuration error: " ++ cause.message text
  | .dataShape cause => "Data shape error: " ++ cause.message
  | .unknownOption parameter value => s!"Unrecognized value '{value}' for {parameter}"
  | .noElbow least upper =>
    s!"No elbow found in inertia curve for k in [{least}, {upper}); pass n_clusters explicitly"
  | .clustering cause => "Clustering error: " ++ cause.message
  | .csv cause => "CSV error: " ++ cause.message
  | .file cause => "IO error: " ++ cause.message
  | .solver cause => "Solver error: " ++ cause.message

/-- The fault and the reason that it rests on, from the outside in. -/
def chain (text : α → String) (fault : Fault α) : List String :=
  fault.message text ::
    match fault with
    | .csv cause => [cause.message]
    | .file cause => [cause.message]
    | _ => []

end Fault

end PlantEconomics

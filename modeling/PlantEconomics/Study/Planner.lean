import PlantEconomics.Clustering.Lloyd
import PlantEconomics.Market.ClusterCount
import PlantEconomics.Market.Loading

/-!
# Planners

A planner is what all steps of a study share: the seed of the clusterings, the hours of a day and
the settings of k-means. Each step starts its stream of seeds anew, so that no step depends on
another one.
-/

namespace PlantEconomics

/-- How representative days are found. -/
structure ClusteringSettings where
  /-- First cluster count tried; there is a standard one. -/
  leastCount : Option Nat
  /-- End of the cluster counts tried; there is a standard one. -/
  upperCount : Option Nat
  restarts : Nat
  rounds : Nat
deriving Repr, DecidableEq

namespace ClusteringSettings

/-- Standard counts and the standard k-means. -/
def standard : ClusteringSettings := ⟨none, none, KMeans.standard.restarts, KMeans.standard.rounds⟩

end ClusteringSettings

/-- Seed, hours of a day and clustering settings. -/
structure Planner where
  seed : UInt64
  horizon : Nat
  clustering : ClusteringSettings
deriving DecidableEq

namespace Planner

variable {α : Type}

/-- The planner of some settings: a day has an hour, and k-means runs at least once for at least
one round. -/
def ofSettings (seed : UInt64) (horizon : Nat) (clustering : ClusteringSettings) :
    Except (Fault α) Planner :=
  if horizon = 0 then .error (.configuration .zeroHorizon)
  else if clustering.restarts = 0 ∨ clustering.rounds = 0 then
    .error (.configuration .zeroRestarts)
  else .ok { seed, horizon, clustering }

/-- The cluster counts to try. -/
def sweep (p : Planner) : CountSweep :=
  CountSweep.ofSettings p.clustering.leastCount p.clustering.upperCount p.seed

/-- How prices are loaded. -/
def loader (p : Planner) : Loader := ⟨p.horizon, p.seed⟩

/-- The k-means clusterer of the settings. -/
def clusterer (p : Planner) : Clusterer Float Unit :=
  KMeans.clusterer (KMeans.ofSettings p.clustering.restarts p.clustering.rounds)

/-- The result of a step that uses a clusterer without a state of its own. -/
def result {β : Type} (step : ExceptT (Fault Float) (StateM Unit) β) : Except (Fault Float) β :=
  (step.run.run ()).1

/-- The cluster count at the knee for a series. -/
def chooseCount (p : Planner) (s : PriceSeries Float) :
    Except (Fault Float) (ChosenCount Float) := do
  let days ← DayProfiles.ofSeries s p.horizon
  result (p.sweep.run days p.clusterer)

/-- The representative days of a series. -/
def representativeDays (p : Planner) (s : PriceSeries Float) (k : Nat) :
    Except (Fault Float) (RepresentativeDays Float) :=
  result (RepresentativeDays.ofSeries s p.horizon k p.seed p.clusterer)

/-- The prices of a table. -/
def load (p : Planner) (table : PriceTable Float) (choice : ColumnChoice)
    (k horizon? : Option Nat) : Except (Fault Float) (PriceSet Float) :=
  result (p.loader.load table choice k horizon? p.clusterer)

end Planner

end PlantEconomics

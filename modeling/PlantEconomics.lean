import PlantEconomics.Main
import PlantEconomics.Decimal.Scientific
import PlantEconomics.Equipment.Compressor
import PlantEconomics.Equipment.HeatExchanger
import PlantEconomics.Equipment.Pump
import PlantEconomics.Mixture.Electrolyte
import PlantEconomics.Mixture.VaporLiquid
import PlantEconomics.Study.FileTree
import PlantEconomics.Proofs.Exact
import PlantEconomics.Proofs.Program.Evaluation
import PlantEconomics.Proofs.Outcome
import PlantEconomics.Proofs.Program.Growth
import PlantEconomics.Proofs.Program.Ledger
import PlantEconomics.Proofs.Program.Relaxation
import PlantEconomics.Proofs.Program.Variables
import PlantEconomics.Proofs.Program.CanonicalForm
import PlantEconomics.Proofs.Program.DeclaredBounds
import PlantEconomics.Proofs.Program.Names
import PlantEconomics.Proofs.Dispatch.Building
import PlantEconomics.Proofs.Dispatch.Stages
import PlantEconomics.Proofs.Dispatch.Signals
import PlantEconomics.Proofs.Dispatch.Validity
import PlantEconomics.Proofs.Dispatch.Ramping
import PlantEconomics.Proofs.Dispatch.Settlement
import PlantEconomics.Proofs.Dispatch.Feasibility
import PlantEconomics.Proofs.Dispatch.StageOrder
import PlantEconomics.Proofs.Dispatch.Runs
import PlantEconomics.Proofs.Dispatch.OwnVariables
import PlantEconomics.Proofs.Dispatch.NetInflow
import PlantEconomics.Proofs.Dispatch.PresentValue
import PlantEconomics.Proofs.Dispatch.LeastTax
import PlantEconomics.Proofs.Market.PriceMaps
import PlantEconomics.Proofs.Market.Loading
import PlantEconomics.Proofs.Dispatch.Commitment
import PlantEconomics.Proofs.Dispatch.Transitions
import PlantEconomics.Proofs.Dispatch.MinimumTimes
import PlantEconomics.Proofs.Dispatch.Assembling
import PlantEconomics.Proofs.Market.TimeOrder
import PlantEconomics.Proofs.Market.KeyText
import PlantEconomics.Proofs.Dispatch.Names
import PlantEconomics.Proofs.Market.RepresentativeDays
import PlantEconomics.Proofs.Market.Years
import PlantEconomics.Proofs.Clustering.Means
import PlantEconomics.Proofs.Market.Days
import PlantEconomics.Proofs.Clustering.OnePass
import PlantEconomics.Proofs.Clustering.KMeans
import PlantEconomics.Proofs.Clustering.Inertia
import PlantEconomics.Proofs.Clustering.Restarts
import PlantEconomics.Proofs.Clustering.Lloyd
import PlantEconomics.Proofs.Market.ClusterCount
import PlantEconomics.Proofs.Study.ChosenCount
import PlantEconomics.Proofs.Machine
import PlantEconomics.Proofs.Market.Conservation
import PlantEconomics.Proofs.Clustering.Knee.Scan
import PlantEconomics.Proofs.Clustering.Knee.Scaling
import PlantEconomics.Proofs.Clustering.Knee.Flattening
import PlantEconomics.Proofs.Csv.Writing
import PlantEconomics.Proofs.Market.TableReading
import PlantEconomics.Proofs.Market.Columns
import PlantEconomics.Proofs.Program.Drafts
import PlantEconomics.Proofs.Dispatch.PeriodSearch
import PlantEconomics.Proofs.Market.Chronology
import PlantEconomics.Proofs.Market.Scenarios
import PlantEconomics.Proofs.Mixture.Terms
import PlantEconomics.Proofs.Mixture.AlphaTable
import PlantEconomics.Proofs.Mixture.Parameters
import PlantEconomics.Proofs.Mixture.Shares
import PlantEconomics.Proofs.Mixture.Reordering
import PlantEconomics.Proofs.Mixture.EquilibriumTemperature
import PlantEconomics.Proofs.PartialReal
import PlantEconomics.Proofs.Equipment.HeatExchanger
import PlantEconomics.Proofs.Equipment.Pump
import PlantEconomics.Proofs.Calendar.Moments
import PlantEconomics.Proofs.Calendar.Layouts

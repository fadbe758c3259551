import PlantEconomics.Decimal.Shortest
import PlantEconomics.Market.PriceTable.Reading
import PlantEconomics.Program.Simplex
import PlantEconomics.Settings.Document
import PlantEconomics.Settings.Environment
import PlantEconomics.Settings.Literal
import PlantEconomics.Study.Config

/-!
# Running a study

A study goes from settings to a summary: read the price table, choose the number of representative
days if the settings ask for it, load the prices, assemble the model and solve its relaxation. The
run is a function of the settings and of what files hold, and ends with a summary, with nothing when
the solver is switched off, or with a failure that has a report.

The settings come from a document and from the environment (`StudyConfig.ofSources`), and `runStudy`
is the whole way from there to the summary.
-/

namespace PlantEconomics

/-! ## §1. Failures -/

/-- Why a study has no result. -/
inductive StudyFailure where
  | settings (cause : SettingFault)
  | plain (fault : Fault Float)
  /-- The price table cannot be read. -/
  | table (path : String) (fault : Fault Float)
  /-- The number of representative days cannot be chosen for several columns at once. -/
  | severalColumns
  | solving (fault : Fault Float)
deriving Repr

/-- The path of the document of settings. -/
def settingsPath : String := "config/default.toml"

namespace StudyFailure

/-- What went wrong and why, from the outside in. -/
def chain : StudyFailure → List String
  | settings cause => ["loading " ++ settingsPath, cause.message]
  | plain fault => fault.chain Decimal.plain
  | table path fault => s!"reading price table {path}" :: fault.chain Decimal.plain
  | severalColumns => ["auto_clusters needs a single price column"]
  | solving fault => "solving LP relaxation" :: fault.chain Decimal.plain

/-- A cause behind a mark; its further lines are indented as far. -/
def indented (mark blank text : String) : String :=
  mark ++ String.intercalate ("\n" ++ blank) (text.splitOn "\n")

/-- Causes, numbered if there are several. -/
def causeLines : List String → List String
  | [] => []
  | [cause] => [indented "    " "    " cause]
  | causes => causes.mapIdx fun i cause =>
    let number := toString i
    indented ("".pushn ' ' (5 - number.length) ++ number ++ ": ") "       " cause

/-- The report of a failure: what went wrong, and the causes below it. -/
def report (f : StudyFailure) : String :=
  match f.chain with
  | [] => ""
  | [head] => head
  | head :: causes => head ++ "\n\nCaused by:\n" ++ String.intercalate "\n" (causeLines causes)

end StudyFailure

/-! ## §2. Summaries -/

/-- What a solved study tells. -/
structure StudySummary where
  goal : String
  objective : Float
  periods : Nat
  /-- Net inflow, net profit and tax, where the model has them. -/
  cashFlow : Option (Float × Float × Float)
deriving Repr

namespace StudySummary

/-- The amounts of a summary in the order of their names. -/
def amounts (s : StudySummary) : List (String × Float) :=
  let value := ("objective_value", s.objective)
  match s.cashFlow with
  | none => [value]
  | some (inflow, profit, tax) =>
    [("corp_tax", tax), ("net_cash_inflow", inflow), ("net_profit", profit), value]

/-- The entries of a summary in the order of their names, each with its literal. -/
def entries (s : StudySummary) : List (String × String) :=
  let named := s.amounts.map fun (name, x) => (name, Decimal.json x)
  let others := [("n_periods", toString s.periods), ("objective", Literal.quote s.goal)]
  (named ++ others).mergeSort fun a b => a.1 ≤ b.1

/-- A summary as a table, one entry on a line. -/
def text (s : StudySummary) : String :=
  let lines := s.entries.map fun (k, v) => "  " ++ Literal.quote k ++ ": " ++ v
  "\x7b\n" ++ String.intercalate ",\n" lines ++ "\n\x7d"

end StudySummary

/-! ## §3. The run -/

/-- What a path holds: bytes, or the reason why they cannot be read. -/
abbrev Files : Type := String → Except (Fault Float) (List UInt8)

namespace StudyConfig

/-- A result whose faults are failures by themselves. -/
def plainly {β : Type} (r : Except (Fault Float) β) : Except StudyFailure β :=
  r.mapError .plain

/-- The price table of a study, with the rows of its scenario. -/
def table (c : StudyConfig) (files : Files) : Except StudyFailure (PriceTable Float) := do
  let path := c.source.path
  let table ← (do PriceTable.ofDocument (← files path)).mapError (.table path)
  match c.source.scenario with
  | some scenario => plainly (table.ofScenario scenario)
  | none => return table

/-- The number of representative days of a study. -/
def clusterCount (c : StudyConfig) (p : Planner) (table : PriceTable Float) :
    Except StudyFailure (Option Nat) :=
  if c.source.chooseClusters then
    match c.source.columns with
    | .years _ => .error .severalColumns
    | .single name => plainly do
      let chosen ← p.chooseCount (← table.series name)
      return some chosen.count
  else .ok c.source.clusters

/-- The model of a study. -/
def model (c : StudyConfig) (files : Files) : Except StudyFailure (DispatchModel Float) := do
  let planner ← plainly c.planner
  let stages ← plainly c.stages
  let table ← c.table files
  let k ← c.clusterCount planner table
  let prices ← plainly (planner.load table c.source.columns k c.source.horizonOverride)
  plainly (stages.assemble prices (Fleet.empty.withUnit c.unit) c.goal)

/-- The summary of a model's relaxation. -/
def summarize (c : StudyConfig) (m : DispatchModel Float) : Except (Fault Float) StudySummary := do
  let o ← m.program.optimum Simplex.solve
  return {
    goal := c.goal
    objective := o.objective
    periods := m.size
    cashFlow := m.cashFlowVars?.map fun v =>
      (o.value v.netInflow, o.value v.netProfit, o.value v.tax) }

/-- Run a study. -/
def run (c : StudyConfig) (files : Files) : Except StudyFailure (Option StudySummary) := do
  let m ← c.model files
  if c.solve then some <$> (c.summarize m).mapError .solving else return none

end StudyConfig

/-- The settings of a document; without a document there are none. -/
def settingsOf : Option (List UInt8) → Except StudyFailure Setting
  | none => .ok (.table [])
  | some document =>
    match SettingsDocument.read? document with
    | some tree => .ok tree
    | none => .error (.settings .unreadable)

/-- The configuration that a document of settings gives with the environment laid over it. -/
def StudyConfig.ofSources (document : Option (List UInt8)) (named : List (String × String)) :
    Except StudyFailure StudyConfig := do
  let settings ← settingsOf document
  (StudyConfig.ofSetting (settings.overlay (Environment.tree named))).mapError .settings

/-- Run the study that a document of settings and the environment describe. -/
def runStudy (document : Option (List UInt8)) (named : List (String × String)) (files : Files) :
    Except StudyFailure (Option StudySummary) := do
  (← StudyConfig.ofSources document named).run files

end PlantEconomics

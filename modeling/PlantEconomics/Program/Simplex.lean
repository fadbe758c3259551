import PlantEconomics.Program.Relaxation
import PlantEconomics.Program.Basis

/-!
# The simplex method with bounds

Each row gets a *slack*, the variable that makes it an equation; its bounds say how the row
compares. At any time as many variables as there are rows are *basic*: their columns form a basis,
and the equations give their values. The *other* variables stand at one of their bounds or,
without bounds, at zero.

The start has the slacks basic and every variable at the bound that its cost prefers. Two phases
follow:

  * `restore` while basic variables are outside their bounds: one of them leaves for the bound that
    it misses, and the variable enters whose reduced cost keeps its sign the longest;
  * `improve` while a variable can move without loss: it does so until it meets its other bound, or
    a basic variable meets one of its own and leaves.

The second phase takes place only if the start is not preferred throughout. If the start is neither
preferred nor within bounds, `restore` works with costs that hold every variable at its bound, and
the true costs come back for `improve`.

Of several choices the one with the steepest edge is taken: what counts is the gain for the length
of the way in the space of all variables. Both phases are tolerant: what stops a way is found with
bounds that are wider by the `slip`, and of everything that is met before it the largest
coefficient decides, which keeps rounding small. A coefficient below the slip is none, and so is a
cost at a bound. A variable that stands at no bound is free to move even without a cost.

A number may turn out not to be one, where coefficients or bounds are infinite. Such a number
compares with nothing: it is outside no bounds and stops no way.
-/

namespace PlantEconomics

namespace Simplex

/-! ## §1. Problems and states -/

/-- What stays the same during a run. Slacks follow the variables of the program. -/
structure Problem where
  /-- The rows, each with its slack. -/
  rows : Array SparseVector
  /-- The columns of all variables. -/
  columns : Array SparseVector
  /-- Least values of variables and slacks. -/
  lower : FloatArray
  /-- Greatest values of variables and slacks. -/
  upper : FloatArray
  /-- What a unit of each variable costs. -/
  cost : FloatArray

/-- Where the column of a variable is: among the basic ones, or among the others. -/
inductive Place where
  | basic (row : Nat)
  | other (column : Nat)

/-- The basis, the variables in and outside it, the values of all variables, the reduced costs of
those outside, and the squared lengths of the edges along which rows and columns move. -/
structure State where
  basis : Basis
  /-- The basic variable of each row. -/
  basic : Array Var
  /-- The variable of each column outside the basis. -/
  others : Array Var
  /-- The place of each variable. -/
  places : Array Place
  values : FloatArray
  costs : FloatArray
  rowLengths : FloatArray
  /-- The lengths of columns; only `improve` needs them. -/
  columnLengths? : Option FloatArray

/-- How far a value may miss its bounds, and how small a cost or a coefficient counts as none. -/
def slip : Float := 1e-8

/-- More than any number. -/
def infinite : Float := 1.0 / 0.0

/-- Whether a number is infinite. -/
def isInfinite (x : Float) : Bool := x.abs == infinite

/-- Whether a number is a finite one. -/
def isFinite (x : Float) : Bool := x.abs < infinite

/-- Number of variables with slacks. -/
def Problem.width (p : Problem) : Nat := p.columns.size

/-- Number of rows. -/
def Problem.height (p : Problem) : Nat := p.rows.size

/-- Number of variables without slacks. -/
def Problem.breadth (p : Problem) : Nat := p.width - p.height

/-- The column of a variable. -/
def Problem.column (p : Problem) (v : Var) : SparseVector := p.columns.getD v .empty

/-- The basic variable of a row. -/
def State.basicOf (s : State) (r : Nat) : Var := s.basic.getD r 0

/-- The variable of a column. -/
def State.otherOf (s : State) (c : Nat) : Var := s.others.getD c 0

/-- The value of the basic variable of a row. -/
def State.basicValue (s : State) (r : Nat) : Float := s.values.get! (s.basicOf r)

/-- The value of the variable of a column. -/
def State.otherValue (s : State) (c : Nat) : Float := s.values.get! (s.otherOf c)

/-- Whether the variable of a column stands at its lower bound. -/
def State.atLower (p : Problem) (s : State) (c : Nat) : Bool :=
  s.otherValue c == p.lower.get! (s.otherOf c)

/-- Whether the variable of a column stands at its upper bound. -/
def State.atUpper (p : Problem) (s : State) (c : Nat) : Bool :=
  s.otherValue c == p.upper.get! (s.otherOf c)

/-- The combination of the basic columns that the column of a variable is. -/
def State.combination (p : Problem) (s : State) (c : Nat) : SparseVector :=
  (s.basis.solve (p.column (s.otherOf c))).toSparse

/-- The combination of the rows that leaves a single basic variable, that of row `r`. -/
def State.rowCombination (s : State) (r : Nat) : SparseVector :=
  (s.basis.solveRows (.single r 1)).toSparse

/-- The coefficients of the other variables, column by column, in a combination of the rows. -/
def State.combined (p : Problem) (s : State) (combination : SparseVector) : SpreadVector :=
  combination.foldl (fun sums r x =>
    (p.rows.getD r .empty).foldl (fun sums v a =>
      match s.places.getD v (.basic 0) with
      | .basic _ => sums
      | .other c => sums.add c (a * x)) sums) (.zeros s.others.size)

/-- What a unit of each other variable costs when the basic variables follow it. -/
def State.reducedCosts (p : Problem) (s : State) : FloatArray :=
  let prices := s.basis.solveRows
    (.ofTerms ((List.range s.basic.size).map fun r => (r, p.cost.get! (s.basicOf r))))
  tabulate s.others.size fun c =>
    let v := s.otherOf c
    p.cost.get! v - (p.column v).foldl (fun sum r a => sum + a * prices.number r) 0

/-- The state with the basis factored anew and the reduced costs worked out from the costs. -/
def State.priced (p : Problem) (s : State) : State :=
  let s :=
    if s.basis.changes.isEmpty then s
    else { s with basis := s.basis.refactored fun r => p.column (s.basicOf r) }
  { s with costs := s.reducedCosts p }

/-! ## §2. Steps -/

/-- The best of the indices below a limit that have a score; the first of equal ones. -/
@[inline] def best? (n : Nat) (score? : Nat → Option Float) : Option Nat :=
  (n.fold (fun i _ (best : Option Nat × Float) =>
    match score? i with
    | none => best
    | some x => if best.2 < x then (some i, x) else best) (none, -infinite)).1

/-- The place of a vector whose number is the largest in size of those that pass a test; the first
of equal ones. -/
@[inline] def largest? (v : SparseVector) (passes : Nat → Float → Bool) : Option (Nat × Float) :=
  v.foldl (fun best? i a =>
    if passes i a then
      match best? with
      | none => some (i, a)
      | some best => if best.2.abs < a.abs then some (i, a) else best?
    else best?) none

/-- The basic variable of a row and the variable of a column change places. -/
structure Exchange where
  row : Nat
  column : Nat
  /-- Where the variable that leaves comes to stand. -/
  bound : Float
  /-- The coefficient of the variable that enters in the row of the one that leaves. -/
  pivot : Float
  /-- The column that enters, as a combination of the basic ones. -/
  entering : SparseVector
  /-- The combination of the rows that leaves only the variable that leaves. -/
  leaving : SparseVector
  /-- The coefficients of all other variables in that combination. -/
  coefficients : SparseVector

/-- What a step does: the variable of a column goes to its other bound, or an exchange. -/
inductive Step where
  | flip (column : Nat) (bound : Float) (entering : SparseVector)
  | exchange (e : Exchange)

/-- The values when the variable of a column moves by a distance; its own is left. -/
def State.followed (s : State) (entering : SparseVector) (distance : Float) : FloatArray :=
  entering.foldl (fun values r a =>
    let v := s.basicOf r
    values.set! v (values.get! v - distance * a)) s.values

/-- The squared length of an edge after an exchange, from the one before, the coefficient that the
exchange meets, the product of both edges, and the length of the edge that is left. -/
def nextLength (length coefficient product pivot pivotLength : Float) : Float :=
  length + (-2 * coefficient * product / pivot +
    pivotLength * coefficient * coefficient / (pivot * pivot))

/-- The lengths of the rows after an exchange. -/
def State.nextRowLengths (s : State) (e : Exchange) : FloatArray :=
  let products := s.basis.solve e.leaving
  let length := e.leaving.squares
  e.entering.foldl (fun lengths i a =>
    lengths.set! i (if i = e.row then length / (e.pivot * e.pivot)
      else nextLength (lengths.get! i) a (products.number i) e.pivot length)) s.rowLengths

/-- The lengths of the columns after an exchange. -/
def State.nextColumnLengths (p : Problem) (s : State) (e : Exchange) (lengths : FloatArray) :
    FloatArray :=
  let products := s.combined p (s.basis.solveRows e.entering).toSparse
  let length := e.entering.squares + 1
  e.coefficients.foldl (fun lengths j a =>
    lengths.set! j (if j = e.column then length / (e.pivot * e.pivot)
      else nextLength (lengths.get! j) a (products.number j) e.pivot length)) lengths

/-- The reduced costs after an exchange. -/
def State.nextCosts (s : State) (e : Exchange) : FloatArray :=
  let k := s.costs.get! e.column / e.pivot
  e.coefficients.foldl (fun costs j a =>
    costs.set! j (if j = e.column then -k else costs.get! j - k * a)) s.costs

/-- The state after a step. -/
def State.take (p : Problem) (s : State) : Step → State
  | .flip c bound entering =>
    let values := s.followed entering (bound - s.otherValue c)
    { s with values := values.set! (s.otherOf c) bound }
  | .exchange e =>
    let v := s.basicOf e.row
    let w := s.otherOf e.column
    let distance := (s.basicValue e.row - e.bound) / e.pivot
    let target := s.otherValue e.column + distance
    let values := ((s.followed e.entering distance).set! v e.bound).set! w target
    let basic := s.basic.setIfInBounds e.row w
    { basis := s.basis.replace e.row e.pivot e.entering fun r => p.column (basic.getD r 0)
      basic
      others := s.others.setIfInBounds e.column v
      places := (s.places.setIfInBounds w (.basic e.row)).setIfInBounds v (.other e.column)
      values
      costs := s.nextCosts e
      rowLengths := s.nextRowLengths e
      columnLengths? := s.columnLengths?.map (s.nextColumnLengths p e) }

/-! ## §3. Back within bounds -/

/-- By how much the basic variable of a row misses its bounds, if by more than the slip. -/
def miss? (p : Problem) (s : State) (r : Nat) : Option Float :=
  let v := s.basicOf r
  let x := s.values.get! v
  if x < p.lower.get! v - slip then some (p.lower.get! v - x)
  else if p.upper.get! v + slip < x then some (x - p.upper.get! v)
  else none

/-- The row whose basic variable leaves. -/
def leavingRow? (p : Problem) (s : State) : Option Nat :=
  best? p.height fun r => (miss? p s r).map fun x => x * x / s.rowLengths.get! r

/-- The bound that a basic variable outside its bounds goes to. -/
def missedBound (p : Problem) (s : State) (r : Nat) : Float :=
  let v := s.basicOf r
  if s.values.get! v < p.lower.get! v then p.lower.get! v else p.upper.get! v

/-- Whether the variable of a column can move so that the basic variable of a row rises or falls
as wanted. -/
def canCarry (p : Problem) (s : State) (rises : Bool) (coefficient : Float) (c : Nat) : Bool :=
  if slip ≤ coefficient then if rises then !s.atLower p c else !s.atUpper p c
  else if coefficient ≤ -slip then if rises then !s.atUpper p c else !s.atLower p c
  else false

/-- The size of the reduced cost of a column; a cost of the wrong sign counts as none. -/
def costSize (p : Problem) (s : State) (c : Nat) : Float :=
  let d := s.costs.get! c
  if (s.atLower p c && d < 0) || (s.atUpper p c && 0 < d) then 0 else d.abs

/-- The column whose variable takes the place of the one that leaves, with its coefficient: of those
whose cost keeps its sign as long as any other does up to the slip, that with the largest
coefficient. -/
def enteringColumn? (p : Problem) (s : State) (rises : Bool) (coefficients : SparseVector) :
    Option (Nat × Float) :=
  let reach := coefficients.foldl (fun reach c a =>
    if canCarry p s rises a c then
      let way := (costSize p s c + slip) / a.abs
      if way < reach then way else reach
    else reach) infinite
  largest? coefficients fun c a =>
    canCarry p s rises a c && costSize p s c / a.abs ≤ reach

/-- Bring all basic variables back within their bounds, or find that this is impossible. -/
def restore (p : Problem) : Nat → State → Except SolverCause State
  | 0, _ => .error .infeasible
  | n + 1, s =>
    match leavingRow? p s with
    | none => .ok s
    | some row =>
      let bound := missedBound p s row
      let leaving := s.rowCombination row
      let coefficients := (s.combined p leaving).toSparse
      match enteringColumn? p s (s.basicValue row < bound) coefficients with
      | none => .error .infeasible
      | some (column, pivot) =>
        let entering := s.combination p column
        restore p n
          (s.take p (.exchange { row, column, bound, pivot, entering, leaving, coefficients }))

/-! ## §4. Down to the least cost -/

/-- The column whose variable moves with the greatest gain for its way. -/
def movingColumn? (p : Problem) (s : State) (lengths : FloatArray) : Option Nat :=
  best? s.others.size fun c =>
    let d := s.costs.get! c
    if (s.atLower p c && -slip < d) || (s.atUpper p c && d < slip) then none
    else some (d * d / lengths.get! c)

/-- Whether the basic variable of a row rises when the variable of a column does or does not. -/
def follows (rises : Bool) (coefficient : Float) : Bool :=
  if rises then coefficient < 0 else 0 < coefficient

/-- The bound that the basic variable of a row comes nearer to. -/
def nearing (p : Problem) (s : State) (rises : Bool) (r : Nat) (coefficient : Float) : Float :=
  let v := s.basicOf r
  if follows rises coefficient then p.upper.get! v else p.lower.get! v

/-- How far the basic variable of a row is from the bound that it comes nearer to. -/
def room (p : Problem) (s : State) (rises : Bool) (r : Nat) (coefficient : Float) : Float :=
  let v := s.basicOf r
  let x := s.values.get! v
  if follows rises coefficient then
    if x < p.upper.get! v then p.upper.get! v - x else 0
  else if p.lower.get! v < x then x - p.lower.get! v else 0

/-- The step of a moving variable: to its other bound, or until a basic variable leaves; of those
that would leave before any misses its bound by the slip, that with the largest coefficient.
Without a step there is no end to the way. -/
def stepOf? (p : Problem) (s : State) (c : Nat) : Option Step :=
  let rises := decide (s.costs.get! c < 0)
  let v := s.otherOf c
  let other := if rises then p.upper.get! v else p.lower.get! v
  let entering := s.combination p c
  let reach := entering.foldl (fun reach r a =>
    if a.abs < slip then reach
    else
      let way := (room p s rises r a + slip) / a.abs
      if way < reach then way else reach) (other - s.otherValue c).abs
  match largest? entering fun r a =>
    slip ≤ a.abs && room p s rises r a / a.abs ≤ reach with
  | some (row, pivot) =>
    let leaving := s.rowCombination row
    some (.exchange {
      row, column := c, bound := nearing p s rises row pivot, pivot, entering, leaving
      coefficients := (s.combined p leaving).toSparse })
  | none => if isInfinite other then none else some (.flip c other entering)

/-- Move variables until none can move without loss, or find that there is no end to it. -/
def improve (p : Problem) : Nat → State → Except SolverCause State
  | 0, s => .ok s
  | n + 1, s =>
    match s.columnLengths?.bind (movingColumn? p s) with
    | none => .ok s
    | some c =>
      match stepOf? p s c with
      | none => .error .unbounded
      | some step => improve p n (s.take p step)

/-! ## §5. Problems of linear programs -/

/-- A row of a problem: every row says that a sum is at most its limit, or is its limit. -/
structure LimitedRow where
  terms : List (Var × Float)
  isEquation : Bool
  limit : Float

/-- The row of a linear program; one that is bounded from below has all its signs turned. A limit
that is not finite leaves no number. -/
def LimitedRow.ofRow (r : LinearRow Float) : LimitedRow :=
  let limit := r.limit + (r.limit - r.limit)
  match r.sense with
  | .le => ⟨r.terms, false, limit⟩
  | .ge => ⟨r.terms.map fun t => (t.1, -t.2), false, -limit⟩
  | .eq => ⟨r.terms, true, limit⟩

/-- Whether a row without terms fails. -/
def LimitedRow.failsEmpty (r : LimitedRow) : Bool :=
  r.terms.isEmpty && !(if r.isEquation then r.limit == 0 else 0 ≤ r.limit)

/-- The problem of bounds, rows and costs. -/
def Problem.ofRows (bounds : List (Bounds Float)) (rows : List LimitedRow)
    (costs : List (Var × Float)) : Problem :=
  let n := bounds.length
  let m := rows.length
  let slacked := (rows.zipIdx.map fun (r, i) => (SparseVector.ofTerms r.terms).push (n + i) 1)
  let lower := bounds.map fun b => b.lower.getD (-infinite)
  let upper := bounds.map fun b => b.upper.getD infinite
  { rows := slacked.toArray
    columns := SparseVector.columnsOf (n + m) slacked.toArray
    lower := ⟨(lower ++ rows.map fun _ => 0).toArray⟩
    upper := ⟨(upper ++ rows.map fun r => if r.isEquation then 0 else infinite).toArray⟩
    cost := costs.foldl (fun a t => a.set! t.1 (a.get! t.1 + t.2)) (constantly (n + m) 0) }

/-! ## §6. Starting -/

/-- The value at which a variable starts: the bound that its cost prefers, or the bound that there
is. -/
def startValue (lower upper cost : Float) : Float :=
  if lower == upper then lower
  else if isInfinite lower && isInfinite upper then 0
  else if cost < 0 then if isFinite upper then upper else lower
  else if isFinite lower then lower
  else upper

/-- Whether a variable starts where its cost prefers it. -/
def startsPreferred (lower upper cost : Float) : Bool :=
  if lower == upper then true
  else if isInfinite lower && isInfinite upper then cost == 0
  else if 0 < cost then isFinite lower
  else if cost < 0 then isFinite upper
  else true

/-- A cost that holds a variable at its bound. -/
def holdingCost (lower upper value : Float) : Float :=
  if value == lower && value != upper then 1
  else if value == upper && value != lower then -1
  else 0

/-- Values in which the slacks take up what the rows leave. -/
def Problem.startValues (p : Problem) (limits : List Float) : FloatArray :=
  let values := tabulate p.breadth fun v =>
    startValue (p.lower.get! v) (p.upper.get! v) (p.cost.get! v)
  (p.rows.toList.zip limits).foldl (fun all (row, limit) =>
    all.push (limit - row.foldl (fun sum v a =>
      if v < p.breadth then sum + a * values.get! v else sum) 0)) values

/-- The state after both phases. -/
def Problem.run (p : Problem) (limits : List Float) : Except SolverCause State := do
  let n := p.breadth
  let steps := 50 * p.width + 1000
  let values := p.startValues limits
  let preferred := n.all fun v _ =>
    startsPreferred (p.lower.get! v) (p.upper.get! v) (p.cost.get! v)
  let inside := p.height.all fun r _ =>
    let x := values.get! (n + r)
    p.lower.get! (n + r) ≤ x && x ≤ p.upper.get! (n + r)
  let start : State :=
    { basis := .identity p.height
      basic := Array.range' n p.height
      others := Array.range n
      places := (Array.range p.width).map fun v => if v < n then .other v else .basic (v - n)
      values
      costs := tabulate n fun v =>
        if preferred || inside then p.cost.get! v
        else holdingCost (p.lower.get! v) (p.upper.get! v) (values.get! v)
      rowLengths := constantly p.height 1
      columnLengths? :=
        if preferred then none else some (tabulate n fun v => (p.column v).squares + 1) }
  let s ← if inside then pure start else restore p steps start
  if preferred then return s else improve p steps (s.priced p)

/-! ## §7. Solving -/

/-- Whether no value lies within bounds. -/
def crossed (b : Bounds Float) : Bool :=
  match b.lower, b.upper with
  | some l, some u => u < l
  | _, _ => false

/-- The simplex method as a linear solver. A goal to be made large is a cost to be made small. Rows
without terms hold or fail by themselves. Terms of variables that the program does not have are left
out. -/
def solve : LinearSolver Float := fun lp =>
  let known := List.filter fun (t : Var × Float) => t.1 < lp.bounds.length
  let rows := lp.rows.map fun r => .ofRow { r with terms := known r.terms }
  if lp.bounds.any crossed || rows.any (·.failsEmpty) then .error .infeasible
  else
    let rows := rows.filter fun r => !r.terms.isEmpty
    let costs := match lp.goal with
      | .minimize => lp.objective
      | .maximize => lp.objective.map fun t => (t.1, -t.2)
    let p := Problem.ofRows lp.bounds rows (known costs)
    (p.run (rows.map (·.limit))).map fun s =>
      (List.range p.breadth).map fun v => s.values.get! v

end Simplex

end PlantEconomics

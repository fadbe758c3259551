import PlantEconomics.Fault
import PlantEconomics.Powers
import PlantEconomics.Scalar

/-!
# Mixing terms of an electrolyte

The species of a liquid electrolyte are molecules and ions. Interactions are tabulated between
molecules and salts, a salt being an apparent species that dissociates into a cation and an anion.
An interaction of a single ion is the mean over the salts that the ion forms, each weighted by the
charge share of the counter-ion.

  * `AlphaTable.get` looks a pair up in either order;
  * `Electrolyte.salt` finds the salt of two ions;
  * `Electrolyte.mixingTerms` gives the charge-weighted fractions `x`, the charge shares `y` and the
    matrix of interactions.
-/

namespace PlantEconomics

/-! ## §1. Species -/

/-- A species with its charge; molecules have none. -/
structure Species where
  name : String
  charge : Int
deriving Repr, DecidableEq

/-- The three kinds of species. -/
inductive SpeciesKind where
  | molecule
  | cation
  | anion
deriving Repr, DecidableEq

/-- The kind that the charge tells. -/
def Species.kind (s : Species) : SpeciesKind :=
  if s.charge = 0 then .molecule else if 0 < s.charge then .cation else .anion

/-- How often a species counts: by the size of its charge, and molecules once. Charges are words of
32 bits; the size of the least word wraps round, and it counts once as well. -/
def Species.weight (s : Species) : Nat := (max (Int.bmod s.charge.natAbs (twoTo 32)) 1).toNat

/-- A species as it is put into the solution, and the ions it falls apart into. -/
structure ApparentSpecies where
  name : String
  ions : List String
deriving Repr, DecidableEq

/-! ## §2. Interactions -/

/-- Interaction parameters by ordered pairs of names, the latest entry first. -/
structure AlphaTable (α : Type) where
  entries : List ((String × String) × α)
deriving Repr, DecidableEq

namespace AlphaTable

variable {α : Type}

/-- The empty table. -/
def empty : AlphaTable α := ⟨[]⟩

/-- Enter a parameter; an earlier one of the same pair in the same order is hidden. -/
def insert (t : AlphaTable α) (i j : String) (value : α) : AlphaTable α :=
  ⟨((i, j), value) :: t.entries⟩

/-- The parameter entered for a pair in this order. -/
def at? (t : AlphaTable α) (i j : String) : Option α := t.entries.lookup (i, j)

/-- The parameter of two names, looked up in this order and then in the other; a name has no
interaction with itself. -/
def get [Scalar α] (t : AlphaTable α) (i j : String) : Except (Fault α) α :=
  if i = j then .ok 0
  else match (t.at? i j).or (t.at? j i) with
    | some v => .ok v
    | none => .error (.configuration (.noAlpha i j))

end AlphaTable

/-! ## §3. Electrolytes -/

/-- Species, apparent species and interaction parameters. -/
structure Electrolyte (α : Type) where
  species : List Species
  apparent : List ApparentSpecies
  alpha : AlphaTable α
deriving Repr, DecidableEq

/-- Charge-weighted fractions, charge shares, and interactions, in the order of the species. -/
structure MixingTerms (α : Type) where
  x : List α
  y : List α
  alpha : List (List α)
deriving Repr, DecidableEq

namespace Electrolyte

variable {α : Type}

/-- The first name that occurs again. -/
def firstRepeated? (seen : List String) : List String → Option String
  | [] => none
  | n :: rest => if seen.contains n then some n else firstRepeated? (n :: seen) rest

/-- The first ion of an apparent species that is no species. -/
def unknownIon? (species : List Species) (a : ApparentSpecies) : Option String :=
  a.ions.find? fun d => !species.any fun s => s.name == d

/-- The electrolyte of species with distinct names, and of apparent species that fall apart into
them. -/
def ofParts (species : List Species) (apparent : List ApparentSpecies) (alpha : AlphaTable α) :
    Except (Fault α) (Electrolyte α) :=
  match firstRepeated? [] (species.map (·.name)) with
  | some name => .error (.configuration (.repeatedSpecies name))
  | none =>
    match apparent.findSome? fun a => (unknownIon? species a).map fun ion => (a.name, ion) with
    | some (name, ion) => .error (.configuration (.unknownIon name ion))
    | none => .ok { species, apparent, alpha }

/-- The first apparent species that holds both ions. Water needs no declaration. -/
def salt (e : Electrolyte α) (cation anion : String) : Except (Fault α) String :=
  match e.apparent.find? fun a => a.ions.contains cation && a.ions.contains anion with
  | some a => .ok a.name
  | none =>
    if cation = "H+" ∧ anion = "OH-" then .ok "H2O"
    else .error (.configuration (.noIonPair cation anion))

variable [Scalar α]

/-! ## §4. Compositions -/

/-- A mole fraction weighted by the size of the charge. -/
def chargeWeighted (s : Species) (fraction : α) : α := fraction * Scalar.ofNat s.weight

/-- Sum of the entries that belong to species of a kind. -/
def totalOf (e : Electrolyte α) (kind : SpeciesKind) (x : List α) : α :=
  Scalar.total (((e.species.zip x).filter fun p => p.1.kind == kind).map (·.2))

/-- The part that a value is of a sum; of nothing every part is zero. -/
def share (v sum : α) : α := if 0 < sum then v / sum else 0

/-- The part that each ion has of all ions of its sign; molecules have none. -/
def chargeShares (e : Electrolyte α) (x : List α) : List α :=
  let cations := e.totalOf .cation x
  let anions := e.totalOf .anion x
  List.zipWith
    (fun s v =>
      match s.kind with
      | .molecule => 0
      | .cation => share v cations
      | .anion => share v anions)
    e.species x

/-! ## §5. The matrix of interactions -/

/-- Sum of `f` over the species of a kind, weighted by their shares and starting from `acc`. -/
def weightedFrom (kind : SpeciesKind) (f : String → Except (Fault α) α) (acc : α) :
    List (Species × α) → Except (Fault α) α
  | [] => .ok acc
  | (s, y) :: rest =>
    if s.kind == kind then do
      let v ← f s.name
      weightedFrom kind f (acc + y * v) rest
    else weightedFrom kind f acc rest

/-- Sum of `f` over the species of a kind, weighted by their shares. -/
def weighted (e : Electrolyte α) (y : List α) (kind : SpeciesKind)
    (f : String → Except (Fault α) α) : Except (Fault α) α :=
  weightedFrom kind f 0 (e.species.zip y)

/-- The interaction of two species. Ions of one sign do not interact. -/
def interaction (e : Electrolyte α) (y : List α) (i j : Species) : Except (Fault α) α :=
  match i.kind, j.kind with
  | .molecule, .molecule => e.alpha.get i.name j.name
  | .cation, .molecule =>
    e.weighted y .anion fun k => do e.alpha.get (← e.salt i.name k) j.name
  | .molecule, .cation =>
    e.weighted y .anion fun k => do e.alpha.get (← e.salt j.name k) i.name
  | .anion, .molecule =>
    e.weighted y .cation fun k => do e.alpha.get (← e.salt k i.name) j.name
  | .molecule, .anion =>
    e.weighted y .cation fun k => do e.alpha.get (← e.salt k j.name) i.name
  | .cation, .anion => do
    let pair ← e.salt i.name j.name
    e.weighted y .cation fun k => do e.alpha.get pair (← e.salt k j.name)
  | .anion, .cation => do
    let pair ← e.salt j.name i.name
    e.weighted y .anion fun k => do e.alpha.get pair (← e.salt j.name k)
  | .cation, .cation => .ok 0
  | .anion, .anion => .ok 0

/-- The mixing terms of a composition. -/
def mixingTerms (e : Electrolyte α) (fractions : List α) : Except (Fault α) (MixingTerms α) := do
  if fractions.length ≠ e.species.length then
    throw (.dataShape (.moleFractionCount e.species.length fractions.length))
  let x := List.zipWith chargeWeighted e.species fractions
  let y := e.chargeShares x
  let alpha ← e.species.mapM fun i => e.species.mapM fun j => e.interaction y i j
  return { x, y, alpha }

end Electrolyte

end PlantEconomics

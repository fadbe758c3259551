import PlantEconomics.Dispatch.Model

/-!
# Ramping and up and down times

Power cannot change at will from one period to the next: its rise and its fall are limited, with
limits of their own while a unit starts up or shuts down. And a unit that has started stays on for
a while, and one that has shut down stays off. Both stages put linear constraints on neighbouring
periods; a constraint's index is the position of its period, the first period being position 0.
-/

namespace PlantEconomics

/-! ## §1. Limits -/

/-- Limits of the change of power from one period to the next. -/
structure RampingLimits (α : Type) where
  startup : α
  shutdown : α
  up : α
  down : α
  /-- Least power while on. -/
  least : α
deriving Repr, DecidableEq

namespace RampingLimits

variable {α : Type} [Scalar α]

/-- Limits for a unit of two hundred megawatts. -/
def standard : RampingLimits α := ⟨100.0, 100.0, 110.0, 110.0, 0⟩

/-- The limits under the names of their settings. -/
def quantities (l : RampingLimits α) : List (String × α) :=
  [("startup_limit", l.startup), ("shutdown_limit", l.shutdown), ("ramp_up_limit", l.up),
    ("ramp_down_limit", l.down), ("minimum_opt_limit", l.least)]

/-- Fail unless all limits are finite and not negative. -/
def validate (l : RampingLimits α) : Except (Fault α) Unit :=
  match l.quantities.find? fun q => !ThermalGenerator.isQuantity q.2 with
  | some (limit, got) => .error (.configuration (.badLimit limit got))
  | none => .ok ()

/-- Pairs of limits of which the first is expected to be at least as large. -/
def expectedOrder (l : RampingLimits α) : List ((String × α) × (String × α)) :=
  [(("ramp_up_limit", l.up), ("startup_limit", l.startup)),
    (("ramp_down_limit", l.down), ("shutdown_limit", l.shutdown)),
    (("startup_limit", l.startup), ("minimum_opt_limit", l.least)),
    (("shutdown_limit", l.shutdown), ("minimum_opt_limit", l.least))]

/-- The expectations that the limits break, in words. They are allowed to. -/
def orderingViolations (text : α → String) (l : RampingLimits α) : List String :=
  (l.expectedOrder.filter fun (a, b) => !(b.2 ≤ a.2 : Bool)).map fun (a, b) =>
    a.1 ++ " (" ++ text a.2 ++ ") < " ++ b.1 ++ " (" ++ text b.2 ++ ")"

end RampingLimits

/-- How many periods a unit stays on or off at least. -/
structure UpDownTimes where
  up : Nat
  down : Nat
deriving Repr, DecidableEq

namespace UpDownTimes

/-- Four periods each. -/
def standard : UpDownTimes := ⟨4, 4⟩

/-- Fail unless both times are at least one period. -/
def validate {α : Type} (t : UpDownTimes) : Except (Fault α) Unit :=
  if t.up < 1 ∨ t.down < 1 then .error (.configuration (.zeroUpDownTime t.up t.down)) else .ok ()

end UpDownTimes

namespace DispatchModel

variable {α : Type} [Scalar α]

/-! ## §2. Ramping -/

/-- The rise of power from a period to the next is limited. -/
def rise (l : RampingLimits α) (before now : Period α) : Relation α :=
  let bound := Affine.zero
    |>.addMul l.startup now.starting
    |>.addMul (-l.least) before.starting
    |>.addMul (l.up + l.least) now.online
    |>.addMul (-l.least) before.online
  Relation.le (now.power - before.power) bound

/-- The fall of power from a period to the next is limited. -/
def fall (l : RampingLimits α) (before now : Period α) : Relation α :=
  let bound := ((before.starting + before.online) - now.online).scale l.shutdown
    |>.addMul (-l.least) now.starting
    |>.addMul l.down now.online
  Relation.le (before.power - now.power) bound

/-- Relations of neighbouring periods, by the position of the later one, from position 2 on. -/
def neighbours (relate : Period α → Period α → Relation α) (periods : List (Period α)) :
    List (Index × Relation α) :=
  (List.zipWith relate (periods.drop 1) (periods.drop 2)).mapIdx fun i r => (.position (i + 2), r)

/-- The model with limited rises and falls. -/
def withRamping (m : DispatchModel α) (l : RampingLimits α) :
    Except (Fault α) (DispatchModel α) := do
  l.validate
  m.withFamilies [("ramp_up_con", neighbours (rise l) m.periods),
    ("ramp_down_con", neighbours (fall l) m.periods)]

/-! ## §3. Up and down times -/

/-- Starts in the periods from position `first` up to but not including `last`. -/
def startsIn (periods : List (Period α)) (first last : Nat) : Affine α :=
  Affine.sum (((periods.drop first).take (last - first)).map (·.starting))

/-- Whether a unit is on in a position; nothing is on outside the horizon. -/
def onlineAt (periods : List (Period α)) (t : Nat) : Affine α :=
  match periods[t]? with
  | some p => p.online
  | none => Affine.zero

/-- The positions from `t` on. -/
def positionsFrom (t : Nat) (periods : List (Period α)) : List Nat :=
  List.range' t (periods.length - t)

/-- A unit that started within the up time is on. -/
def startupWindows (up : Nat) (periods : List (Period α)) : List (Index × Relation α) :=
  (positionsFrom up periods).map fun t =>
    (.position t, Relation.le (startsIn periods (t + 1 - up) t) (onlineAt periods t))

/-- A unit that is on does not start within the down time. -/
def shutdownWindows (down : Nat) (periods : List (Period α)) : List (Index × Relation α) :=
  (positionsFrom down periods).map fun t =>
    (.position t, Relation.le (startsIn periods (t - down) (t + 1))
      (Affine.const 1 - onlineAt periods (t - down)))

/-- The model with least up and down times. -/
def withUpDownTimes (m : DispatchModel α) (t : UpDownTimes) :
    Except (Fault α) (DispatchModel α) := do
  t.validate
  m.withFamilies [("startup_con", startupWindows t.up m.periods),
    ("shutdown_con", shutdownWindows t.down m.periods)]

end DispatchModel

end PlantEconomics

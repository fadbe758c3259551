/-!
# Bisection

Search of an ordered list by halves. An `order` says how an element lies to what is sought: before
it, at it or behind it. A stretch of places is cut in two again and again; the front part is kept
exactly when the element at the cut lies behind what is sought. One place is left in the end, and
only there it is seen whether the element is the one sought.

The search does not look whether the list is in order. If it is not, an element may be missed.
-/

namespace PlantEconomics

namespace Bisection

variable {β : Type}

/-- The place that is left of the `size` places from `first` on. -/
def lastPlace (order : β → Ordering) (xs : List β) (first size : Nat)
    (within : first + size ≤ xs.length) : Nat :=
  if several : 1 < size then
    if order xs[first + size / 2] = .gt then
      lastPlace order xs first (size - size / 2) (by omega)
    else lastPlace order xs (first + size / 2) (size - size / 2) (by omega)
  else first
termination_by size

/-- The place of what is sought. -/
def place? (order : β → Ordering) (xs : List β) : Option Nat :=
  let place := lastPlace order xs 0 xs.length (Nat.le_of_eq (Nat.zero_add _))
  match xs[place]? with
  | some x => if order x = .eq then some place else none
  | none => none

end Bisection

end PlantEconomics

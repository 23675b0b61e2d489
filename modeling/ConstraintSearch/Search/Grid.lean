import ConstraintSearch.Search.Engine

/-!
# Grid search

A deterministic engine that tries a few candidate values for every literal. The points of the
grid are read off an odometer with a wheel for every literal, on which the places of its
candidates stand. The wheel of the first literal turns at every step, and a wheel that comes round
turns the next one. Points are tried until one satisfies the path condition, the last wheel has
come round, or as many points have been tried as the budget allows.
-/

namespace ConstraintSearch.Grid

/-- The greatest number of points that are tried. -/
def budget : Nat := 200000

/-- The candidates for integers. -/
def integers : List Int :=
  [0, 1, -1, 2, -2, 3, -3, 5, 6, 7, 10, -10, 100]

/-- The candidates for floats, in halves. -/
def halves : List Int :=
  [0, 2, -2, 1, 4, 5, 6, -5, 12, 20, -20]

/-- The candidates for literals of a kind. -/
def candidates : (k : Kind) → List k.Carrier
  | .bool => [true, false]
  | .num (.integral w) => integers.map (Word.wrap w)
  | .num (.real w) => halves.map fun i ↦ BinaryFloat.ofScaledInt w false i (-1)

/-- The candidates for literals of a kind, as scalars. -/
def axis (k : Kind) : List Scalar :=
  (candidates k).map fun v ↦ ⟨k, v⟩

/-- The axes of the grid for a list of literals. -/
def axes (literals : List (Nat × Kind)) : List (Nat × List Scalar) :=
  literals.map fun l ↦ (l.1, axis l.2)

/-- The reading of the odometer at which the search starts. -/
def start (axes : List (Nat × List Scalar)) : List Nat :=
  axes.map fun _ ↦ 0

/-- The next reading of the odometer, unless all its wheels have come round. -/
def advance : List (Nat × List Scalar) → List Nat → Option (List Nat)
  | (_, values) :: axes, place :: places =>
    if place + 1 < values.length then some ((place + 1) :: places)
    else (advance axes places).map (0 :: ·)
  | _, _ => none

/-- The point of the grid at a reading of the odometer. -/
def point (axes : List (Nat × List Scalar)) (places : List Nat) : List (Nat × Scalar) :=
  List.zipWith (fun a place ↦ (a.1, (a.2[place]?).getD default)) axes places

/-- Whether an assignment satisfies the path condition; one under which it has no value does
not. -/
def satisfied (pc : PathCondition) (σ : Assignment) : Bool :=
  match pc.evaluate σ with
  | .ok b => b
  | .error _ => false

/-- The first point, from a reading on, that satisfies the path condition, among so many. -/
def searchFrom (pc : PathCondition) (axes : List (Nat × List Scalar)) :
    Nat → List Nat → Option Assignment
  | 0, _ => none
  | left + 1, places =>
    let σ : Assignment := Table.ofList (point axes places)
    if satisfied pc σ then some σ
    else
      match advance axes places with
      | some places => searchFrom pc axes left places
      | none => none

/-- The outcome of a grid search. A path condition without literals is evaluated once and
decided; otherwise a point is found, or the search comes to no verdict. -/
def search (pc : PathCondition) : SearchOutcome :=
  if pc.literals.isEmpty then
    match pc.evaluate Table.empty with
    | .ok true => .solved ⟨.sat, Table.empty⟩
    | .ok false => .solved ⟨.unsat, Table.empty⟩
    | .error e => .failed e.message
  else
    let axes := axes pc.literals
    match searchFrom pc axes budget (start axes) with
    | some σ => .solved ⟨.sat, σ⟩
    | none => .solved ⟨.unknown, Table.empty⟩

/-- The engine that searches the grid. -/
def engine : Engine :=
  fun _ pc _ ↦ search pc

end ConstraintSearch.Grid

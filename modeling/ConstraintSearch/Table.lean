/-!
# Ordered tables

Finite maps whose entries are listed in the order of their keys. Insertion is a single pass
that puts a new key in front of the first greater one and replaces the entry of a key that is
there already. Keys are compared for equality by `DecidableEq`, so that what a look-up finds
after an insertion does not depend on any law of the order.
-/

namespace ConstraintSearch

/-- A finite map from keys to values. -/
structure Table (κ α : Type) where
  entries : List (κ × α)
  deriving DecidableEq

namespace Table

variable {κ α : Type}

/-- The map without entries. -/
def empty : Table κ α := ⟨[]⟩

instance : Inhabited (Table κ α) := ⟨empty⟩

/-- The number of entries. -/
def size (t : Table κ α) : Nat :=
  t.entries.length

/-- Whether there are no entries. -/
def isEmpty (t : Table κ α) : Bool :=
  t.entries.isEmpty

/-- The value of the first entry of a key in a list of entries. -/
def find? [DecidableEq κ] (k : κ) : List (κ × α) → Option α
  | [] => none
  | (k', a) :: rest => if k' = k then some a else find? k rest

/-- The value of a key. -/
def get? [DecidableEq κ] (t : Table κ α) (k : κ) : Option α :=
  find? k t.entries

/-- Whether a key has a value. -/
def contains [DecidableEq κ] (t : Table κ α) (k : κ) : Bool :=
  (t.get? k).isSome

/-- Puts an entry at its place in a list of entries. -/
def place [DecidableEq κ] [Ord κ] (k : κ) (a : α) : List (κ × α) → List (κ × α)
  | [] => [(k, a)]
  | (k', a') :: rest =>
    if k' = k then (k, a) :: rest
    else if compare k k' = .lt then (k, a) :: (k', a') :: rest
    else (k', a') :: place k a rest

/-- Gives a key a value, in place of one that it has already. -/
def insert [DecidableEq κ] [Ord κ] (t : Table κ α) (k : κ) (a : α) : Table κ α :=
  ⟨place k a t.entries⟩

/-- The map that a list of entries builds up; of several entries of a key the last one
counts. -/
def ofList [DecidableEq κ] [Ord κ] (entries : List (κ × α)) : Table κ α :=
  entries.foldl (fun t e ↦ t.insert e.1 e.2) empty

/-! ### Look-up -/

@[simp] theorem get?_empty [DecidableEq κ] (k : κ) : (empty : Table κ α).get? k = none :=
  rfl

private theorem find?_place [DecidableEq κ] [Ord κ] (k k' : κ) (a : α) (es : List (κ × α)) :
    find? k' (place k a es) = if k = k' then some a else find? k' es := by
  induction es with
  | nil => rfl
  | cons e rest ih => grind [place, find?]

/-- After an insertion the key has the new value, and every other key what it had. -/
theorem get?_insert [DecidableEq κ] [Ord κ] (t : Table κ α) (k k' : κ) (a : α) :
    (t.insert k a).get? k' = if k = k' then some a else t.get? k' :=
  find?_place k k' a t.entries

@[simp] theorem get?_insert_self [DecidableEq κ] [Ord κ] (t : Table κ α) (k : κ) (a : α) :
    (t.insert k a).get? k = some a := by
  simp [get?_insert]

end Table

end ConstraintSearch

/-!
# Schedules

What a pool of threads decides: the order in which independent pieces of work are done, and how a
range is cut into neighbouring pieces whose results are then combined. Work that does not depend on
these choices can be stated for every schedule.
-/

namespace DenseBench

/-- An order of visits to `n` pieces that leaves none out. -/
structure VisitOrder (n : Nat) where
  visit : Fin n → Fin n
  onto : ∀ i, ∃ t, visit t = i

namespace VisitOrder

def natural (n : Nat) : VisitOrder n :=
  ⟨id, fun i => ⟨i, rfl⟩⟩

variable {β : Type} {n : Nat}

/-- Writes the value of each piece into its place, in the order of the visits. -/
@[specialize]
def tabulate (order : VisitOrder n) (blank : β) (value : Fin n → β) : Vector β n :=
  n.fold (fun t h out =>
    let i := order.visit ⟨t, h⟩
    out.set i (value i)) (Vector.replicate n blank)

/-- Replaces each piece by its update, in the order of the visits. -/
@[specialize]
def update (order : VisitOrder n) (change : β → β) (pieces : Vector β n) : Vector β n :=
  n.fold (fun t h out =>
    let i := order.visit ⟨t, h⟩
    out.set i (change out[i])) pieces

end VisitOrder

/-- A way to cut a range into neighbouring pieces, some perhaps empty, and to pair their results. -/
inductive Cut
  | piece (length : Nat)
  | join (left right : Cut)

namespace Cut

def length : Cut → Nat
  | piece n => n
  | join l r => l.length + r.length

/-- Folds each piece of the range from `start` on, then combines neighbours from left to right. -/
@[specialize]
def reduce {β : Type} (op : β → β → β) (identity : β) (xs : Array β) : Cut → Nat → β
  | piece n, start => xs.foldl op identity start (start + n)
  | join l r, start =>
    op (reduce op identity xs l start) (reduce op identity xs r (start + l.length))

end Cut

/-- The choices made during one call: an order for each of its steps, and a cut of each range. -/
structure Schedule where
  order : (step n : Nat) → VisitOrder n
  cut : Nat → Cut
  cut_length : ∀ n, (cut n).length = n

namespace Schedule

/-- Everything in its natural order and in one piece. -/
def sequential : Schedule where
  order _ n := VisitOrder.natural n
  cut n := .piece n
  cut_length _ := rfl

end Schedule

end DenseBench

import PathRouting.Router.Basic

/-!
# Publishers

A publisher serves the latest of a growing sequence of router snapshots. An update edits a copy of the
latest one and publishes the result, or publishes nothing if the edit fails. Earlier snapshots stay
in use: a lookup may go to any of them, and changes the cache of that one alone.
-/

namespace PathRouting

/-- The snapshots that were published, the oldest first. -/
structure Publisher (α : Type) where
  snapshots : List (Router α)
  snapshots_ne_nil : snapshots ≠ []

namespace Publisher

variable {α : Type}

/-- The publisher of a first snapshot. -/
def ofRouter (router : Router α) : Publisher α := ⟨[router], List.cons_ne_nil router []⟩

/-- The snapshot that is published. -/
def current (p : Publisher α) : Router α := p.snapshots.getLast p.snapshots_ne_nil

/-- The number of the snapshot that is published; the first one has the number zero. -/
def generation (p : Publisher α) : Nat := p.snapshots.length - 1

/-- The snapshot of a number. -/
def snapshot? (p : Publisher α) (generation : Nat) : Option (Router α) := p.snapshots[generation]?

/-- Puts a snapshot in the place of the one of its number. -/
def setSnapshot (p : Publisher α) (generation : Nat) (router : Router α) : Publisher α where
  snapshots := p.snapshots.set generation router
  snapshots_ne_nil := by simpa using p.snapshots_ne_nil

/-- Publishes a router; the snapshots before it stay. -/
def publish (p : Publisher α) (router : Router α) : Publisher α where
  snapshots := p.snapshots ++ [router]
  snapshots_ne_nil := by simp

/-- Publishes an edited copy of the latest snapshot, if the edit succeeds. -/
def update (p : Publisher α) (edit : Router α → Except RouteError Unit × Router α) :
    Except RouteError Unit × Publisher α :=
  match edit p.current.copy with
  | (.error error, _) => (.error error, p)
  | (.ok _, next) => (.ok (), p.publish next)

/-- The best match of a path in the snapshot that is published, which remembers this lookup. -/
def find (p : Publisher α) (path : String) : Option (Match α) × Publisher α :=
  let (result, next) := p.current.find path
  (result, p.setSnapshot p.generation next)

/-- What is published is the snapshot from then on. -/
@[simp]
theorem current_publish (p : Publisher α) (router : Router α) :
    (p.publish router).current = router := by
  simp [current, publish]

/-- The latest snapshot is the one of the latest number. -/
theorem snapshot?_generation (p : Publisher α) : p.snapshot? p.generation = some p.current := by
  simp only [snapshot?, generation, current]
  rw [← List.getLast?_eq_getElem?, List.getLast?_eq_some_getLast p.snapshots_ne_nil]

/-- Publishing leaves the earlier snapshots as they are. -/
theorem snapshot?_publish_of_le (p : Publisher α) (router : Router α) {generation : Nat}
    (h : generation ≤ p.generation) : (p.publish router).snapshot? generation = p.snapshot? generation := by
  have pos := List.length_pos_iff.mpr p.snapshots_ne_nil
  simp only [Publisher.generation] at h
  simp only [snapshot?, publish]
  exact List.getElem?_append_left (by omega)

end Publisher

end PathRouting

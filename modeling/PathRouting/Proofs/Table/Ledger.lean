import Mathlib.Data.List.Nodup
import Mathlib.Tactic.Lemma
import PathRouting.Table.Basic

/-!
# Ledgers

A ledger says what a route table is meant to be: a finite map from addresses to routes, kept as the list
of these routes in the order of their registration. A route is found by its address, a registration
strikes out the route that had the address and writes the new one at the end, and a removal strikes a
route out. `Ledger.runAll` makes the changes of a table on a ledger.
-/

namespace PathRouting

/-- The routes in the order of their registration, and the number of the next one. -/
structure Ledger (α : Type) where
  routes : List (Route α)
  nextPriority : Nat

namespace Ledger

variable {α : Type}

/-- The ledger of no routes. -/
def empty : Ledger α := ⟨[], 0⟩

/-- The route at an address. -/
def lookup (l : Ledger α) (address : Address) : Option (Route α) :=
  l.routes.find? fun r => r.pattern.address == address

/-- Strikes out the route at an address. -/
def erase (l : Ledger α) (address : Address) : Ledger α :=
  { l with routes := l.routes.filter fun r => r.pattern.address != address }

/-- Writes a route at the end, in place of the one at its address. -/
def record (l : Ledger α) (pattern : Pattern) (resource : α) : Ledger α :=
  ⟨(l.erase pattern.address).routes ++ [⟨pattern, resource, l.nextPriority⟩], l.nextPriority + 1⟩

/-- Strikes out all routes and goes on counting. -/
def clear (l : Ledger α) : Ledger α := { l with routes := [] }

/-- Records a route, unless the insertion is strict and its address is taken. -/
def insert (l : Ledger α) (pattern : Pattern) (resource : α) (strict : Bool) :
    Answer α × Ledger α :=
  match strict, l.lookup pattern.address with
  | true, some existing => (.error (.duplicateRoute existing.pattern), l)
  | _, old => (.ok old, l.record pattern resource)

/-- Strikes out the route of a pattern, if there is one. -/
def remove (l : Ledger α) (pattern : Pattern) : Answer α × Ledger α :=
  match l.lookup pattern.address with
  | none => (.error (.routeNotFound pattern), l)
  | some route => (.ok (some route), l.erase pattern.address)

/-- The pattern and the resource of a route below a base; a strict mount needs its address to be free. -/
def joined (l : Ledger α) (base : Pattern) (strict : Bool) (route : Route α) :
    Except RouteError (Pattern × α) :=
  match base.join route.pattern with
  | .error cause => .error (.pattern (base.display ++ route.pattern.display) cause)
  | .ok pattern =>
    if strict && (l.lookup pattern.address).isSome then .error (.duplicateRoute pattern)
    else .ok (pattern, route.resource)

/-- Records all routes of another ledger below a base in their order, or none of them. -/
def mount (l : Ledger α) (base : Pattern) (other : Ledger α) (strict : Bool) :
    Answer α × Ledger α :=
  match other.routes.mapM (l.joined base strict) with
  | .error error => (.error error, l)
  | .ok routes => (.ok none, routes.foldl (fun l r => l.record r.1 r.2) l)

mutual

/-- Makes a change of a table on a ledger; the table to mount is a ledger of its own. -/
def run : Change α → Ledger α → Answer α × Ledger α
  | .insert pattern resource strict, l => l.insert pattern resource strict
  | .remove pattern, l => l.remove pattern
  | .mount base strict changes, l => l.mount base (runAll changes .empty).2 strict
  | .clear, l => (.ok none, l.clear)

/-- Makes the changes of a table on a ledger, in order. -/
def runAll : List (Change α) → Ledger α → List (Answer α) × Ledger α
  | [], l => ([], l)
  | change :: changes, l =>
    let (answer, next) := run change l
    let (answers, last) := runAll changes next
    (answer :: answers, last)

end

/-- The ledger that some changes make of the empty one. -/
def after (changes : List (Change α)) : Ledger α := (runAll changes .empty).2

variable {l : Ledger α}

/-- What is found at an address is a route of the ledger, and stands there. -/
lemma of_lookup {address : Address} {route : Route α} (h : l.lookup address = some route) :
    route ∈ l.routes ∧ route.pattern.address = address :=
  ⟨List.mem_of_find?_eq_some h, by simpa using List.find?_some h⟩

/-- With one route at each address, a route is found at its own. -/
lemma lookup_of_mem (nodup : (l.routes.map fun r => r.pattern.address).Nodup) {route : Route α}
    (mem : route ∈ l.routes) : l.lookup route.pattern.address = some route := by
  have found : (l.lookup route.pattern.address).isSome := by
    rw [lookup, List.find?_isSome]
    exact ⟨route, mem, beq_self_eq_true _⟩
  obtain ⟨other, h⟩ := Option.isSome_iff_exists.mp found
  obtain ⟨otherMem, same⟩ := of_lookup h
  rw [h, List.inj_on_of_nodup_map nodup otherMem mem same]

/-- Nothing is found at an address that was struck out, and every other route is found as before. -/
lemma lookup_erase (l : Ledger α) (address other : Address) :
    (l.erase address).lookup other = if other = address then none else l.lookup other := by
  rw [lookup, erase, List.find?_filter]
  split
  · rename_i same
    rw [same, List.find?_eq_none]
    intro route _
    simp
  · rename_i differ
    apply congrArg (fun p => l.routes.find? p)
    funext route
    by_cases here : route.pattern.address = other
    · simp [here, differ]
    · simp [here]

/-- The route that was written is found at its address, and every other route is found as before. -/
lemma lookup_record (l : Ledger α) (pattern : Pattern) (resource : α) (other : Address) :
    (l.record pattern resource).lookup other =
      if other = pattern.address then some ⟨pattern, resource, l.nextPriority⟩
      else l.lookup other := by
  have erased := l.lookup_erase pattern.address other
  rw [lookup] at erased
  rw [lookup, record, List.find?_append, erased]
  by_cases same : other = pattern.address
  · simp [same]
  · simp [same, Ne.symm same]

/-- Striking an address out makes the ledger shorter by the route that was there. -/
lemma length_erase (nodup : (l.routes.map fun r => r.pattern.address).Nodup) (address : Address) :
    (l.erase address).routes.length + (l.lookup address).toList.length = l.routes.length := by
  obtain ⟨routes, next⟩ := l
  simp only [erase, lookup] at nodup ⊢
  induction routes with
  | nil => rfl
  | cons route routes ih =>
    rw [List.map_cons, List.nodup_cons] at nodup
    obtain ⟨fresh, nodup⟩ := nodup
    by_cases here : route.pattern.address = address
    · have others : routes.filter (fun r => r.pattern.address != address) = routes := by
        rw [List.filter_eq_self]
        intro other mem
        have apart : other.pattern.address ≠ address := by
          intro same
          apply fresh
          rw [here, ← same]
          exact List.mem_map_of_mem mem
        simpa using apart
      simp [here, others]
    · have := ih nodup
      simp only [List.filter_cons, List.find?_cons, here, bne_iff_ne, ne_eq, not_false_eq_true,
        if_true, beq_eq_false_iff_ne.mpr here, List.length_cons]
      omega

end Ledger

end PathRouting

import PathRouting.Pattern.Order
import PathRouting.Trie.Basic

/-!
# Route tables

A route is a registered pattern with its resource and its number in the order of registration, and
`RouteError` says why a route can not be registered or removed.

A table keeps at most one route at each address, in a trie, and numbers registrations from zero on.
The numbers are never used again: a removal, a replacement and `Table.clear` leave the counter as it
is. An operation that can fail returns its result beside the table it leaves behind.

A table is changed by inserting, removing, mounting and clearing, and in no other way. `Table.runAll`
makes a list of changes, one after the other, whether they succeed or not; `Table.after` is the table
that they make of the empty one. A table that is mounted comes from changes of its own.
-/

namespace PathRouting

/-- A registered pattern. -/
structure Route (α : Type) where
  pattern : Pattern
  resource : α
  /-- The number of the registration; later registrations have larger numbers. -/
  priority : Nat
  deriving DecidableEq

/-- Why a route can not be registered or removed. -/
inductive RouteError where
  /-- A text, or the join of two patterns, is no pattern. -/
  | pattern (text : String) (cause : PatternError)
  /-- The place of a route is taken, and routes must not be replaced. -/
  | duplicateRoute (existing : Pattern)
  /-- There is no route at the place of a pattern. -/
  | routeNotFound (missing : Pattern)
  deriving DecidableEq

/-- The wording of an error, with the pattern or the text that it is about. -/
def RouteError.message : RouteError → String
  | .pattern text cause => "invalid pattern " ++ Text.quote text ++ ": " ++ cause.message
  | .duplicateRoute existing => "route is already registered: " ++ existing.display
  | .routeNotFound missing => "route is not registered: " ++ missing.display

/-- Reads a pattern for a registration. -/
def Route.parsePattern (text : String) : Except RouteError Pattern :=
  (Pattern.parse text).mapError (.pattern text)

/-- Routes by their addresses. -/
structure Table (α : Type) where
  trie : Trie (Route α)
  /-- The number of routes. -/
  size : Nat
  /-- The number of the next registration. -/
  nextPriority : Nat

namespace Table

variable {α : Type}

/-- The table without routes. -/
def empty : Table α := ⟨.empty, 0, 0⟩

/-- Whether there are no routes. -/
def isEmpty (t : Table α) : Bool := t.size == 0

/-- The route at the address of a pattern. -/
def get? (t : Table α) (pattern : Pattern) : Option (Route α) := t.trie.get? pattern.address

/-- Whether there is a route at the address of a pattern. -/
def contains (t : Table α) (pattern : Pattern) : Bool := (t.get? pattern).isSome

/-- Removes every route; the numbers go on. -/
def clear (t : Table α) : Table α := ⟨.empty, 0, t.nextPriority⟩

/-- Stores a route where its pattern belongs, and returns the route that it replaces. -/
def register (t : Table α) (pattern : Pattern) (resource : α) : Option (Route α) × Table α :=
  let (old, trie) := t.trie.insert pattern.address ⟨pattern, resource, t.nextPriority⟩
  (old, ⟨trie, if old.isSome then t.size else t.size + 1, t.nextPriority + 1⟩)

/-- Registers a pattern, and returns the route that it replaces; a strict registration is refused where
there is one. -/
def insert (t : Table α) (pattern : Pattern) (resource : α) (strict : Bool) :
    Except RouteError (Option (Route α)) × Table α :=
  match strict, t.get? pattern with
  | true, some existing => (.error (.duplicateRoute existing.pattern), t)
  | _, _ =>
    let (old, next) := t.register pattern resource
    (.ok old, next)

/-- Removes the route at the address of a pattern, and returns it. -/
def remove (t : Table α) (pattern : Pattern) : Except RouteError (Route α) × Table α :=
  match t.trie.remove pattern.address with
  | (none, trie) => (.error (.routeNotFound pattern), { t with trie := trie })
  | (some route, trie) => (.ok route, ⟨trie, t.size - 1, t.nextPriority⟩)

/-- The routes in the order of their patterns. -/
def toList (t : Table α) : List (Route α) :=
  t.trie.values.mergeSort fun r s => r.pattern.le s.pattern

/-- The patterns of the routes, in their order. -/
def patterns (t : Table α) : List Pattern := t.toList.map Route.pattern

/-- The routes in the order of their registration. -/
def history (t : Table α) : List (Route α) :=
  t.trie.values.mergeSort fun r s => decide (r.priority ≤ s.priority)

/-- Checks that a route can be mounted under a base, and joins its pattern to it; a strict mount needs
the address to be free. -/
def stage (t : Table α) (base : Pattern) (strict : Bool) (route : Route α) :
    Except RouteError (Pattern × α) :=
  match base.join route.pattern with
  | .error cause => .error (.pattern (base.display ++ route.pattern.display) cause)
  | .ok joined =>
    if strict && t.contains joined then .error (.duplicateRoute joined)
    else .ok (joined, route.resource)

/-- Registers patterns one after the other, up to the first error. -/
def insertAll : List (Pattern × α) → Table α → Except RouteError Unit × Table α
  | [], t => (.ok (), t)
  | (pattern, resource) :: rest, t =>
    match t.insert pattern resource false with
    | (.error error, next) => (.error error, next)
    | (.ok _, next) => insertAll rest next

/-- Registers the routes of another table under a base, in the order of their registration there. All
of them are checked before the first one is registered. -/
def mount (t : Table α) (base : Pattern) (other : Table α) (strict : Bool) :
    Except RouteError Unit × Table α :=
  match other.history.mapM (t.stage base strict) with
  | .error error => (.error error, t)
  | .ok staged => insertAll staged t

/-- The routes in either order are the values of the trie. -/
theorem toList_perm (t : Table α) : t.toList.Perm t.trie.values := List.mergeSort_perm ..

/-- The routes in the order of their registration are the values of the trie. -/
theorem history_perm (t : Table α) : t.history.Perm t.trie.values := List.mergeSort_perm ..

end Table

/-! ### Changes -/

/-- A change of a table. -/
inductive Change (α : Type) where
  | insert (pattern : Pattern) (resource : α) (strict : Bool)
  | remove (pattern : Pattern)
  /-- Mounts the table that some changes make of the empty one. -/
  | mount (base : Pattern) (strict : Bool) (changes : List (Change α))
  | clear

/-- The result of a change: the route that it displaced, if any, or the refusal. -/
abbrev Answer (α : Type) : Type := Except RouteError (Option (Route α))

namespace Table

variable {α : Type}

mutual

/-- Makes a change; one that is refused leaves the table as it is. -/
def run : Change α → Table α → Answer α × Table α
  | .insert pattern resource strict, t => t.insert pattern resource strict
  | .remove pattern, t =>
    let (answer, next) := t.remove pattern
    (answer.map some, next)
  | .mount base strict changes, t =>
    let (answer, next) := t.mount base (runAll changes .empty).2 strict
    (answer.map fun _ => none, next)
  | .clear, t => (.ok none, t.clear)

/-- Makes changes one after the other, whether they succeed or not. -/
def runAll : List (Change α) → Table α → List (Answer α) × Table α
  | [], t => ([], t)
  | change :: changes, t =>
    let (answer, next) := run change t
    let (answers, last) := runAll changes next
    (answer :: answers, last)

end

/-- The table that some changes make of the empty one. -/
def after (changes : List (Change α)) : Table α := (runAll changes .empty).2

end Table

end PathRouting

import PathRouting.Router.Basic

/-!
# Uses of a router

A router is looked up in and changed by the uses below. `Router.after` makes some uses one after the
other, whether they succeed or not, of a router that begins without routes. The router that is mounted,
or that a nested build returns, may be any.

A table is used within a router, or it is taken out, changed by itself, and put into a router of its own
again (`Turn`). A turn that succeeds makes the registrations that it asks for: an insertion asks for one, and
a mount for one of every route of the other table, in the order of their registration there. `Turn.runAll`
makes some turns one after the other, and lists the registrations that they made.
-/

namespace PathRouting

/-- A use of a router. -/
inductive Use (α : Type) where
  | find (path : String)
  | isCached (path : String)
  | insert (pattern : String) (resource : α)
  | remove (pattern : String)
  | mount (base : String) (other : Router α)
  | nest (base : String) (build : Router α → Router α)
  | clear
  /-- Goes on with a copy. -/
  | copy
  /-- Goes on with the table alone. -/
  | rebuild

variable {α : Type}

namespace Router

/-- The router after a use. -/
def use (r : Router α) : Use α → Router α
  | .find path => (r.find path).2
  | .isCached _ => r
  | .insert pattern resource => (r.insert pattern resource).2
  | .remove pattern => (r.remove pattern).2
  | .mount base other => (r.mount base other).2
  | .nest base build => (r.nest base build).2
  | .clear => r.clear
  | .copy => r.copy
  | .rebuild => r.rebuild

/-- The router that some uses make of the one without routes. -/
def after (config : Config) (uses : List (Use α)) : Router α := uses.foldl use (ofConfig config)

/-- A router that uses make of one without routes. -/
def Reachable (r : Router α) : Prop := ∃ config uses, r = after config uses

end Router

/-! ### Turns -/

/-- What the routes of a table are registered as below a base. -/
def Pattern.below (base : Pattern) (t : Table α) : List (Pattern × α) :=
  t.history.filterMap fun route =>
    (base.join route.pattern).toOption.map fun joined => (joined, route.resource)

/-- Registrations of the pattern of a text; a malformed one has none. -/
def whenPattern (text : String) (entries : Pattern → List (Pattern × α)) : List (Pattern × α) :=
  match Pattern.parse text with
  | .error _ => []
  | .ok pattern => entries pattern

/-- What counts only if a change succeeded. -/
def granted {ε β γ : Type} (result : Except ε β) (entries : List γ) : List γ :=
  match result with
  | .error _ => []
  | .ok _ => entries

/-- Whether a use succeeds: lookups do, and changes that cannot fail. -/
def Router.outcome (r : Router α) : Use α → Except RouteError Unit
  | .insert text resource => (r.insert text resource).1
  | .remove text => (r.remove text).1.map fun _ => ()
  | .mount text other => (r.mount text other).1
  | .nest text build => (r.nest text build).1
  | _ => .ok ()

/-- The registrations that a use asks for. -/
def Router.asks (r : Router α) : Use α → List (Pattern × α)
  | .insert text resource => whenPattern text fun pattern => [(pattern, resource)]
  | .mount text other => whenPattern text fun base => base.below other.table
  | .nest text build => whenPattern text fun base => base.below (build r.nested).table
  | _ => []

/-- The registrations that a change asks for. -/
def Change.asks : Change α → List (Pattern × α)
  | .insert pattern resource _ => [(pattern, resource)]
  | .mount base _ changes => base.below (.after changes)
  | _ => []

/-- A turn in the life of a table. -/
inductive Turn (α : Type) where
  /-- Uses a router of the table. -/
  | use (use : Use α)
  /-- Takes the table out of its router, and goes on with a router of the changed table. -/
  | change (change : Change α)

namespace Turn

/-- Makes a turn, and says whether it succeeded. -/
def run : Turn α → Router α → Except RouteError Unit × Router α
  | .use u, r => (r.outcome u, r.use u)
  | .change c, r =>
    let (answer, table) := Table.run c r.table
    (answer.map fun _ => (), .ofTable table)

/-- The registrations that a turn asks for. -/
def asks (r : Router α) : Turn α → List (Pattern × α)
  | .use u => r.asks u
  | .change c => c.asks

/-- The registrations that a turn makes. -/
def registrations (turn : Turn α) (r : Router α) : List (Pattern × α) :=
  granted (turn.run r).1 (turn.asks r)

/-- The registrations that some turns make, and the router after them. -/
def runAll : List (Turn α) → Router α → List (Pattern × α) × Router α
  | [], r => ([], r)
  | turn :: turns, r =>
    let (entries, last) := runAll turns (turn.run r).2
    (turn.registrations r ++ entries, last)

end Turn

end PathRouting

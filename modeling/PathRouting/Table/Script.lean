import PathRouting.Lookup.Search

/-!
# Uses of a table

A table is looked up in and changed by the uses below, one at a time. `Table.Use.run` answers a use with a
`Table.Reply`; a use that is refused leaves the table as it is. `Table.useAll` makes some uses one after the other.

A script is a list of steps on a table whose patterns are still texts. `Table.Step.run` reads the
pattern of a step before anything else happens, so a malformed one leaves the table as it is; with its
pattern, the step is a use of the table.
-/

namespace PathRouting

namespace Table

/-- A use of a table. -/
inductive Use (α : Type) where
  | insert (pattern : Pattern) (resource : α) (strict : Bool)
  | remove (pattern : Pattern)
  | get (pattern : Pattern)
  | contains (pattern : Pattern)
  | find (path : String)
  | clear

/-- The answer to a use or a step. -/
inductive Reply (α : Type) where
  /-- The pattern of a step is malformed. -/
  | malformed (cause : PatternError)
  /-- The table refused the step. -/
  | failed (error : RouteError)
  /-- A route was registered, perhaps in place of another. -/
  | inserted (previous : Option (Route α))
  | removed (route : Route α)
  | route (route : Option (Route α))
  | truth (value : Bool)
  | found (result : Option (Match α))
  | routes (routes : List (Route α))
  | patterns (patterns : List Pattern)
  | done

variable {α : Type}

/-- Makes a use, and answers it. -/
def Use.run : Use α → Table α → Reply α × Table α
  | .insert pattern resource strict, t =>
    match t.insert pattern resource strict with
    | (.error error, next) => (.failed error, next)
    | (.ok previous, next) => (.inserted previous, next)
  | .remove pattern, t =>
    match t.remove pattern with
    | (.error error, next) => (.failed error, next)
    | (.ok route, next) => (.removed route, next)
  | .get pattern, t => (.route (t.get? pattern), t)
  | .contains pattern, t => (.truth (t.contains pattern), t)
  | .find path, t => (.found (t.find path), t)
  | .clear, t => (.done, t.clear)

/-- Makes some uses in order; each answer comes with the number of routes after the use. -/
def useAll : List (Use α) → Table α → List (Reply α × Nat) × Table α
  | [], t => ([], t)
  | use :: uses, t =>
    let (reply, next) := use.run t
    let (replies, last) := useAll uses next
    ((reply, next.size) :: replies, last)

/-! ### Scripts -/

/-- A step of a script. -/
inductive Step (α : Type) where
  | insert (pattern : String) (resource : α) (strict : Bool)
  | remove (pattern : String)
  | get (pattern : String)
  | contains (pattern : String)
  | find (path : String)
  /-- Mounts the table that an inner script makes of the empty one. -/
  | mount (base : String) (strict : Bool) (steps : List (Step α))
  | list
  | patterns
  | history
  | isEmpty
  | clear

/-- Continues a step with its pattern, if the text is one. -/
def withPattern (t : Table α) (text : String) (next : Pattern → Reply α × Table α) :
    Reply α × Table α :=
  match Pattern.parse text with
  | .error cause => (.malformed cause, t)
  | .ok pattern => next pattern

mutual

/-- Runs a step; one whose pattern is malformed is answered with the cause. -/
def Step.run : Step α → Table α → Reply α × Table α
  | .insert text resource strict, t =>
    t.withPattern text fun pattern => (Use.insert pattern resource strict).run t
  | .remove text, t => t.withPattern text fun pattern => (Use.remove pattern).run t
  | .get text, t => t.withPattern text fun pattern => (Use.get pattern).run t
  | .contains text, t => t.withPattern text fun pattern => (Use.contains pattern).run t
  | .find path, t => (Use.find path).run t
  | .mount text strict steps, t =>
    let other := (runSteps steps .empty).2
    t.withPattern text fun base =>
      match t.mount base other strict with
      | (.error error, next) => (.failed error, next)
      | (.ok _, next) => (.done, next)
  | .list, t => (.routes t.toList, t)
  | .patterns, t => (.patterns t.patterns, t)
  | .history, t => (.routes t.history, t)
  | .isEmpty, t => (.truth t.isEmpty, t)
  | .clear, t => Use.clear.run t

/-- Runs the steps of a script in order; each answer comes with the number of routes after the step. -/
def runSteps : List (Step α) → Table α → List (Reply α × Nat) × Table α
  | [], t => ([], t)
  | step :: steps, t =>
    let (reply, next) := step.run t
    let (replies, last) := runSteps steps next
    ((reply, next.size) :: replies, last)

end

end Table

end PathRouting

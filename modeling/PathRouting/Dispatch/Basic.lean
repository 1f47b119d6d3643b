import PathRouting.Publisher.Basic
import PathRouting.Text.Percent

/-!
# Dispatch of requests

A dispatcher hands each request to the handler of the best route for its path, and to the fallback where
there is none. The path of a request is the part of its target before the query; it is
percent-decoded once, before it is cut into tokens. A path that does not decode to text goes to the
fallback without a lookup.

A handler is handed the captures of the match (`Params`). A match without placeholders hands over nothing
at all (`Params.ofCaptures`), and so does a path without a match (`Params.empty`).
-/

namespace PathRouting

/-- The captures that a handler is handed, if there are any. -/
structure Params where
  captures? : Option Captures
  deriving DecidableEq, Repr

namespace Params

/-- The parameters of a handler that is handed nothing. -/
def empty : Params := ⟨none⟩

/-- The parameters of some captures; without any capture nothing is handed over. -/
def ofCaptures (captures : Captures) : Params :=
  if captures.isEmpty then ⟨none⟩ else ⟨some captures⟩

/-- The token that the named placeholder of a name took. -/
def getOne? (p : Params) (name : String) : Option String := p.captures?.bind (·.getOne? name)

/-- The tokens that the greedy placeholder of a name took. -/
def getMany? (p : Params) (name : String) : Option (List String) :=
  p.captures?.bind (·.getMany? name)

/-- Reads the token of a named placeholder in the way given. -/
def parse {β : Type} (p : Params) (read : String → β) (name : String) : Option β :=
  (p.getOne? name).map read

/-- The names of the parameters with what was captured, in the order of the pattern. -/
def toList (p : Params) : List (String × Capture) := p.captures?.elim [] Captures.entries

/-- The number of parameters. -/
def size (p : Params) : Nat := p.captures?.elim 0 Captures.size

/-- Whether there are no parameters. -/
def isEmpty (p : Params) : Bool := p.size == 0

end Params

/-- A request: its target, which is a path and perhaps a query, and its body. -/
structure Request where
  target : String
  body : String
  deriving DecidableEq, Repr

/-- Whether a character ends the path of a target. -/
def Request.endsPath (c : Char) : Bool := c == '?' || c == '#'

/-- The part of the target in front of the query. -/
def Request.path (request : Request) : String :=
  String.ofList (request.target.toList.takeWhile fun c => !endsPath c)

/-- A router under publication whose resources are handlers, and the handler of last resort. -/
structure Dispatcher (η : Type) where
  publisher : Publisher η
  fallback : η

namespace Dispatcher

variable {η : Type}

/-- The dispatcher of some routes, which are expected to be accepted. -/
def ofRoutes (routes : List (String × η)) (fallback : η) : Except Abort (Dispatcher η) := do
  let router ← Router.ofRoutes .default routes
  return ⟨.ofRouter router, fallback⟩

/-- The handler of a request with the parameters that it is handed, and the dispatcher after the lookup. -/
def dispatch (d : Dispatcher η) (request : Request) : (η × Params) × Dispatcher η :=
  match Text.Percent.decodeText? request.path with
  | none => ((d.fallback, .empty), d)
  | some path =>
    let (result, publisher) := d.publisher.find path
    let next := { d with publisher := publisher }
    match result with
    | none => ((d.fallback, .empty), next)
    | some found => ((found.route.resource, .ofCaptures found.captures), next)

/-- Publishes a router of new routes, if they are all accepted. -/
def replace (d : Dispatcher η) (routes : List (String × η)) : Except Abort (Dispatcher η) := do
  let router ← Router.ofRoutes .default routes
  return { d with publisher := d.publisher.publish router }

/-- Removes routes one after the other, up to the first error. -/
def removeEach : List String → Router η → Except RouteError Unit × Router η
  | [], r => (.ok (), r)
  | pattern :: rest, r =>
    match r.remove pattern with
    | (.error error, next) => (.error error, next)
    | (.ok _, next) => removeEach rest next

/-- Removes routes and registers others, as one update. -/
def update (d : Dispatcher η) (removed : List String) (routes : List (String × η)) :
    Except RouteError Unit × Dispatcher η :=
  let (result, publisher) := d.publisher.update fun router =>
    match removeEach removed router with
    | (.error error, next) => (.error error, next)
    | (.ok _, next) => next.insertEach routes
  (result, { d with publisher := publisher })

/-- A path that is no text after decoding goes to the fallback, and nothing is looked up. -/
theorem dispatch_of_undecodable {d : Dispatcher η} {request : Request}
    (h : Text.Percent.decodeText? request.path = none) :
    d.dispatch request = ((d.fallback, .empty), d) := by
  simp [dispatch, h]

end Dispatcher

end PathRouting

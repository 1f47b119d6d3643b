import PathRouting.Cache.Basic

/-!
# Routers

A router is a route table with a cache of its lookups. `Router.find` answers from the cache and falls
back on the table. Every change that succeeds forgets all lookups, and one that fails forgets none
(`Router.settle`). `Router.copy` is a router with the same routes and settings that remembers nothing. The settings
are the capacity of the cache, and whether a registration may replace a route (`Config`).
-/

namespace PathRouting

/-- The settings of a router. -/
structure Config where
  capacity : Capacity
  /-- Whether a registration at an address that is taken is refused. -/
  strict : Bool
  deriving DecidableEq, Repr

namespace Config

/-- The settings where nothing else is said: 1024 paths are remembered, and routes are replaced. -/
def default : Config := ⟨.bounded 1024, false⟩

/-- The settings with another capacity. -/
def withCapacity (c : Config) (capacity : Capacity) : Config := { c with capacity := capacity }

/-- The settings with another answer to registrations at an address that is taken. -/
def withStrict (c : Config) (strict : Bool) : Config := { c with strict := strict }

end Config

/-- A route table with a cache of its lookups. -/
structure Router (α : Type) where
  table : Table α
  cache : LookupCache
  config : Config

namespace Router

variable {α : Type}

/-- The router without routes. -/
def ofConfig (config : Config) : Router α := ⟨.empty, .ofCapacity config.capacity, config⟩

/-- The router of a table, with the default settings. -/
def ofTable (table : Table α) : Router α := ⟨table, .ofCapacity Config.default.capacity, .default⟩

/-- The number of routes. -/
def size (r : Router α) : Nat := r.table.size

/-- Whether there are no routes. -/
def isEmpty (r : Router α) : Bool := r.table.isEmpty

/-- What the cache tells of itself. -/
def stats (r : Router α) : CacheStats := r.cache.stats

/-- Whether a lookup of the path would be answered from the cache. -/
def isCached (r : Router α) (path : String) : Bool := r.cache.contains path

/-- The resolution of a path, and the router after this lookup. -/
def resolve (r : Router α) (path : String) : Option Resolution × Router α :=
  match r.cache.lookup path with
  | (some result, cache) => (result, { r with cache := cache })
  | (none, cache) =>
    let result := r.table.resolve path
    (result, { r with cache := cache.store path result })

/-- The best match of a path, and the router after this lookup. -/
def find (r : Router α) (path : String) : Option (Match α) × Router α :=
  let (result, next) := r.resolve path
  (result.bind r.table.matchAt?, next)

/-- The resource at the address of a pattern; a malformed pattern has none. -/
def get? (r : Router α) (pattern : String) : Option α :=
  match Pattern.parse pattern with
  | .error _ => none
  | .ok pattern => (r.table.get? pattern).map Route.resource

/-- Whether there is a route at the address of a pattern. -/
def contains (r : Router α) (pattern : String) : Bool := (r.get? pattern).isSome

/-- The patterns and their resources, in the order of the patterns. -/
def toList (r : Router α) : List (Pattern × α) :=
  r.table.toList.map fun route => (route.pattern, route.resource)

/-- The router with all lookups forgotten. -/
def invalidate (r : Router α) : Router α := { r with cache := r.cache.clear }

/-- The router after a change of its table: lookups are forgotten if the change succeeded, and only
then. -/
def settle {ε β : Type} (r : Router α) (change : Except ε β × Table α) : Except ε β × Router α :=
  match change with
  | (.error error, table) => (.error error, { r with table := table })
  | (.ok value, table) => (.ok value, { r with table := table }.invalidate)

/-- Continues with the pattern of a text, if it is one. -/
def withPattern {β : Type} (r : Router α) (text : String)
    (next : Pattern → Except RouteError β × Router α) : Except RouteError β × Router α :=
  match Route.parsePattern text with
  | .error error => (.error error, r)
  | .ok pattern => next pattern

/-- Registers a pattern. -/
def insert (r : Router α) (pattern : String) (resource : α) : Except RouteError Unit × Router α :=
  r.withPattern pattern fun pattern =>
    let (result, next) := r.settle (r.table.insert pattern resource r.config.strict)
    (result.map fun _ => (), next)

/-- Registers patterns one after the other, up to the first error; those before it stay. -/
def insertEach : List (String × α) → Router α → Except RouteError Unit × Router α
  | [], r => (.ok (), r)
  | (pattern, resource) :: rest, r =>
    match r.insert pattern resource with
    | (.error error, next) => (.error error, next)
    | (.ok _, next) => insertEach rest next

/-- Removes the route at the address of a pattern, and returns its resource. -/
def remove (r : Router α) (pattern : String) : Except RouteError α × Router α :=
  r.withPattern pattern fun pattern =>
    let (result, next) := r.settle (r.table.remove pattern)
    (result.map Route.resource, next)

/-- Registers the routes of another router under a base. -/
def mount (r : Router α) (base : String) (other : Router α) : Except RouteError Unit × Router α :=
  r.withPattern base fun base => r.settle (r.table.mount base other.table r.config.strict)

/-- The router that a nested build begins with: the same settings, but no cache. -/
def nested (r : Router α) : Router α := ofConfig (r.config.withCapacity .disabled)

/-- Builds a nested router and mounts it under a base. -/
def nest (r : Router α) (base : String) (build : Router α → Router α) :
    Except RouteError Unit × Router α :=
  r.mount base (build r.nested)

/-- Removes every route. -/
def clear (r : Router α) : Router α := { r with table := r.table.clear }.invalidate

/-- The same routes and settings, with a cache that remembers nothing and counts from zero. -/
def copy (r : Router α) : Router α := ⟨r.table, .ofCapacity r.config.capacity, r.config⟩

/-- The same routes, with the default settings. -/
def rebuild (r : Router α) : Router α := ofTable r.table

end Router

/-- A change of a router that was expected to succeed, and failed. -/
inductive Abort where
  | insert (pattern : String) (error : RouteError)
  | mount (base : String) (error : RouteError)
  deriving DecidableEq

/-- The wording of an abort: the error, and the text that was given. -/
def Abort.message : Abort → String
  | insert pattern error => error.message ++ ": pattern = " ++ Text.quote pattern
  | mount base error => error.message ++ ": prefix = " ++ Text.quote base

namespace Router

variable {α : Type}

/-- Registers a pattern that is expected to be accepted, and aborts if it is not. -/
def insertOrAbort (r : Router α) (pattern : String) (resource : α) : Except Abort (Router α) :=
  match r.insert pattern resource with
  | (.error error, _) => .error (.insert pattern error)
  | (.ok _, next) => .ok next

/-- Registers patterns that are expected to be accepted, and aborts at the first that is not. -/
def ofRoutes (config : Config) (routes : List (String × α)) : Except Abort (Router α) :=
  routes.foldlM (fun r (pattern, resource) => r.insertOrAbort pattern resource) (ofConfig config)

end Router

end PathRouting

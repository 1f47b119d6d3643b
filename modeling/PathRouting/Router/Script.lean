import PathRouting.Router.Basic

/-!
# Scripts over a router

A script is a list of steps. A query looks something up: of the router it can change the cache alone.
The other steps change the routes; a step of the manner `Manner.checked` answers with its error, one of
the manner `Manner.expected` aborts with it, and the router is the same either way. A mount runs an
inner script on a new router before anything else, whatever becomes of the mount.
-/

namespace PathRouting

namespace Router

/-- What a failing step answers with. -/
inductive Manner where
  /-- The error. -/
  | checked
  /-- An abort: the step was expected to succeed. -/
  | expected
  deriving DecidableEq, Repr

mutual

/-- A step that looks something up. -/
inductive Query (α : Type) where
  | find (path : String)
  /-- Searches the table and leaves the cache alone. -/
  | findUncached (path : String)
  /-- Finds a path, and asks for the captures of some names. -/
  | captures (path : String) (names : List String)
  | read (path name : String) (type : Text.ScalarType)
  | get (pattern : String)
  | contains (pattern : String)
  | isCached (path : String)
  | list
  | patterns
  | history
  | isEmpty
  | config
  /-- Asks for nothing. -/
  | observe
  /-- Runs a script on a copy of the router. -/
  | fork (steps : List (Step α))

/-- A step of a script. -/
inductive Step (α : Type) where
  | query (query : Query α)
  | insert (manner : Manner) (pattern : String) (resource : α)
  | insertEach (routes : List (String × α))
  | remove (pattern : String)
  /-- Mounts the router that an inner script makes of an empty one. -/
  | mount (manner : Manner) (base : String) (config : Config) (steps : List (Step α))
  /-- Mounts the router that an inner script makes of the nested one. -/
  | nest (manner : Manner) (base : String) (steps : List (Step α))
  | clear
  /-- Goes on with a copy of the router. -/
  | copy
  /-- Goes on with a router of the same table. -/
  | rebuild

end

/-- What a match captured under a name. -/
structure CaptureView where
  capture : Option Capture
  one : Option String
  many : Option (List String)

mutual

/-- The answer to a step or a query. -/
inductive Reply (α : Type) where
  | found (result : Option (Match α))
  | captures (views : Option (List CaptureView))
  | scalar (value : Option (Except Text.ScalarFault Text.Scalar))
  | resource (value : Option α)
  | truth (value : Bool)
  | entries (entries : List (Pattern × α))
  | patterns (patterns : List Pattern)
  | routes (routes : List (Route α))
  | config (config : Config)
  | observed
  | forked (entries : List (Entry α))
  | done
  | removed (resource : α)
  | failed (error : RouteError)
  | aborted (abort : Abort)

/-- The answer to a step with the state of the router after it. -/
inductive Entry (α : Type) where
  /-- The last component holds the entries of the inner script, if the step has one. -/
  | mk (reply : Reply α) (size : Nat) (stats : CacheStats) (inner : Option (List (Entry α)))

end

variable {α : Type}

/-- The answer alone, without the state of the router. -/
def Entry.reply : Entry α → Reply α
  | mk reply _ _ _ => reply

/-- What a match captured under some names, in the order in which they are asked for. -/
def viewCaptures (captures : Captures) (names : List String) : List CaptureView :=
  names.map fun name => ⟨captures.get? name, captures.getOne? name, captures.getMany? name⟩

/-- The answer to a change that may fail. -/
def Manner.answer (manner : Manner) (abort : RouteError → Abort) :
    Except RouteError Unit → Reply α
  | .ok _ => .done
  | .error error =>
    match manner with
    | .checked => .failed error
    | .expected => .aborted (abort error)

/-- Answers with the state of the router, and leaves the router as it is. -/
def note (reply : Reply α) (r : Router α) (inner : Option (List (Entry α))) : Entry α × Router α :=
  (.mk reply r.size r.stats inner, r)

mutual

/-- Runs a query; the lookups among them are remembered. -/
def Query.run : Query α → Router α → Reply α × Router α
  | .find path, r =>
    let (result, next) := r.find path
    (.found result, next)
  | .findUncached path, r => (.found (r.table.find path), r)
  | .captures path names, r =>
    let (result, next) := r.find path
    (.captures (result.map fun found => viewCaptures found.captures names), next)
  | .read path name type, r =>
    let (result, next) := r.find path
    (.scalar (result.bind fun found => found.captures.read? name type), next)
  | .get pattern, r => (.resource (r.get? pattern), r)
  | .contains pattern, r => (.truth (r.contains pattern), r)
  | .isCached path, r => (.truth (r.isCached path), r)
  | .list, r => (.entries r.toList, r)
  | .patterns, r => (.patterns r.table.patterns, r)
  | .history, r => (.routes r.table.history, r)
  | .isEmpty, r => (.truth r.isEmpty, r)
  | .config, r => (.config r.config, r)
  | .observe, r => (.observed, r)
  | .fork steps, r => (.forked (runSteps steps r.copy).1, r)

/-- Runs a step; one that fails is answered with its error or with an abort. -/
def Step.run : Step α → Router α → Entry α × Router α
  | .query query, r =>
    let (reply, next) := query.run r
    note reply next none
  | .insert manner pattern resource, r =>
    let (result, next) := r.insert pattern resource
    note (manner.answer (.insert pattern) result) next none
  | .insertEach routes, r =>
    match r.insertEach routes with
    | (.error error, next) => note (.failed error) next none
    | (.ok _, next) => note .done next none
  | .remove pattern, r =>
    match r.remove pattern with
    | (.error error, next) => note (.failed error) next none
    | (.ok resource, next) => note (.removed resource) next none
  | .mount manner base config steps, r =>
    let (entries, other) := runSteps steps (ofConfig config)
    let (result, next) := r.mount base other
    note (manner.answer (.mount base) result) next (some entries)
  | .nest manner base steps, r =>
    let (entries, other) := runSteps steps r.nested
    let (result, next) := r.mount base other
    note (manner.answer (.mount base) result) next (some entries)
  | .clear, r => note .done r.clear none
  | .copy, r => note .done r.copy none
  | .rebuild, r => note .done r.rebuild none

/-- Runs the steps of a script in order. -/
def runSteps : List (Step α) → Router α → List (Entry α) × Router α
  | [], r => ([], r)
  | step :: steps, r =>
    let (entry, next) := step.run r
    let (entries, last) := runSteps steps next
    (entry :: entries, last)

end

end Router

end PathRouting

import PathRouting.Publisher.Basic
import PathRouting.Router.Script

/-!
# Scripts over a publisher

A session is a publisher with names for some of its snapshots. An update runs router steps on a copy of
the latest snapshot up to the first error, and publishes nothing if there is one; an abort is no
error. Queries go to the latest snapshot or to a named one, which may be the same.
-/

namespace PathRouting

namespace Publisher

/-- A publisher with the numbers of the snapshots that have a name, the latest name first. -/
structure Session (α : Type) where
  publisher : Publisher α
  kept : List (String × Nat)

/-- A step of a script. -/
inductive Step (α : Type) where
  | update (steps : List (Router.Step α))
  /-- Publishes the router that an inner script makes of an empty one. -/
  | replace (config : Config) (steps : List (Router.Step α))
  /-- Gives the latest snapshot a name. -/
  | load (name : String)
  /-- Runs queries on the snapshot of a name. -/
  | on (name : String) (queries : List (Router.Query α))
  /-- Runs a query on the latest snapshot. -/
  | query (query : Router.Query α)

/-- The answer to a step. -/
inductive Reply (α : Type) where
  | done
  | failed (error : RouteError)
  | answered (reply : Router.Reply α)
  /-- The state of a named snapshot after the queries. -/
  | snapshot (size : Nat) (stats : CacheStats)
  /-- No snapshot has the name. -/
  | unknown

/-- The answers to the inner steps of a step. -/
inductive Inner (α : Type) where
  | replies (replies : List (Router.Reply α))
  | entries (entries : List (Router.Entry α))

/-- The answer to a step with the state of the latest snapshot after it. -/
structure Entry (α : Type) where
  reply : Reply α
  inner : Inner α
  size : Nat
  stats : CacheStats

variable {α : Type}

/-- Runs router steps up to the first error: the answers before it, the result, and the router. -/
def runUntilError : List (Router.Step α) → Router α →
    List (Router.Reply α) × Except RouteError Unit × Router α
  | [], r => ([], .ok (), r)
  | step :: steps, r =>
    let (entry, next) := step.run r
    match entry.reply with
    | .failed error => ([], .error error, next)
    | reply =>
      let (replies, result) := runUntilError steps next
      (reply :: replies, result)

/-- Runs queries on a router, one after the other. -/
def runQueries : List (Router.Query α) → Router α → List (Router.Reply α) × Router α
  | [], r => ([], r)
  | query :: queries, r =>
    let (reply, next) := query.run r
    let (replies, last) := runQueries queries next
    (reply :: replies, last)

namespace Session

/-- The session of a publisher, in which no snapshot has a name yet. -/
def ofPublisher (publisher : Publisher α) : Session α := ⟨publisher, []⟩

/-- The snapshot of a name, with its number. -/
def named? (s : Session α) (name : String) : Option (Nat × Router α) := do
  let generation ← s.kept.lookup name
  let router ← s.publisher.snapshot? generation
  return (generation, router)

/-- Answers with the state of the latest snapshot, and leaves the session as it is. -/
def note (s : Session α) (reply : Reply α) (inner : Inner α) : Entry α × Session α :=
  (⟨reply, inner, s.publisher.current.size, s.publisher.current.stats⟩, s)

end Session

/-- Runs a step; an update that fails is answered with its error. -/
def Step.run (step : Step α) (s : Session α) : Entry α × Session α :=
  match step with
  | .update steps =>
    let replies := (runUntilError steps s.publisher.current.copy).1
    match s.publisher.update fun r => (runUntilError steps r).2 with
    | (.error error, next) => { s with publisher := next }.note (.failed error) (.replies replies)
    | (.ok _, next) => { s with publisher := next }.note .done (.replies replies)
  | .replace config steps =>
    let (entries, router) := Router.runSteps steps (.ofConfig config)
    { s with publisher := s.publisher.publish router }.note .done (.entries entries)
  | .load name =>
    { s with kept := (name, s.publisher.generation) :: s.kept }.note .done (.replies [])
  | .on name queries =>
    match s.named? name with
    | none => s.note .unknown (.replies [])
    | some (generation, router) =>
      let (replies, next) := runQueries queries router
      { s with publisher := s.publisher.setSnapshot generation next }.note
        (.snapshot next.size next.stats) (.replies replies)
  | .query lookup =>
    let (reply, next) := lookup.run s.publisher.current
    { s with publisher := s.publisher.setSnapshot s.publisher.generation next }.note
      (.answered reply) (.replies [])

/-- Runs the steps of a script in order. -/
def runSteps : List (Step α) → Session α → List (Entry α) × Session α
  | [], s => ([], s)
  | step :: steps, s =>
    let (entry, next) := step.run s
    let (entries, last) := runSteps steps next
    (entry :: entries, last)

end Publisher

end PathRouting

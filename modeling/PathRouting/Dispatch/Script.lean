import PathRouting.Dispatch.Echo

/-!
# Scripts over a dispatcher

A session is a dispatcher of echo handlers, perhaps beside a publisher that it does not serve from. A
request is answered by its handler; a replacement that aborts and an update that fails leave the
session as it is.
-/

namespace PathRouting

namespace Dispatcher

/-- A dispatcher of echo handlers. -/
structure Session where
  dispatcher : Dispatcher String
  /-- A publisher beside the one of the dispatcher. -/
  beside : Option (Publisher String)

/-- A step of a script: a request, a replacement of all routes, or an update of some. -/
inductive Step where
  | request (request : Request)
  | replace (routes : List (String × String))
  | update (removed : List String) (routes : List (String × String))

/-- The answer to a step. -/
inductive Reply where
  | response (response : Except HandlerFailure Report)
  | done
  | aborted (abort : Abort)
  | failed (error : RouteError)

/-- The answer to a step with the state of the published router after it. -/
structure Entry where
  reply : Reply
  size : Nat
  stats : CacheStats
  /-- The number of routes of the publisher that was given to the session. -/
  outerSize : Nat

namespace Session

/-- The session of some routes, which are expected to be accepted. -/
def ofRoutes (routes : List (String × String)) : Except Abort Session :=
  (Dispatcher.ofRoutes routes Echo.fallback).map fun dispatcher => ⟨dispatcher, none⟩

/-- The session of a publisher with some settings: the dispatcher serves from it, or from a new one of
its own. -/
def ofConfig (config : Config) (own : Bool) : Session :=
  let given := Publisher.ofRouter (Router.ofConfig config)
  if own then ⟨⟨.ofRouter (.ofConfig .default), Echo.fallback⟩, some given⟩
  else ⟨⟨given, Echo.fallback⟩, none⟩

/-- The router that requests are looked up in. -/
def router (s : Session) : Router String := s.dispatcher.publisher.current

/-- The router of the publisher that was given to the session. -/
def outerRouter (s : Session) : Router String := (s.beside.getD s.dispatcher.publisher).current

/-- Answers with the state of the session, and leaves the session as it is. -/
def note (s : Session) (reply : Reply) : Entry × Session :=
  (⟨reply, s.router.size, s.router.stats, s.outerRouter.size⟩, s)

end Session

/-- Runs a step; one that fails is answered with its error. -/
def Step.run (step : Step) (s : Session) : Entry × Session :=
  match step with
  | .request asked =>
    let ((handler, params), next) := s.dispatcher.dispatch asked
    { s with dispatcher := next }.note (.response (Echo.respond handler asked params))
  | .replace routes =>
    match s.dispatcher.replace routes with
    | .error abort => s.note (.aborted abort)
    | .ok next => { s with dispatcher := next }.note .done
  | .update removed routes =>
    match s.dispatcher.update removed routes with
    | (.error error, next) => { s with dispatcher := next }.note (.failed error)
    | (.ok _, next) => { s with dispatcher := next }.note .done

/-- Runs the steps of a script in order. -/
def runSteps : List Step → Session → List Entry × Session
  | [], s => ([], s)
  | step :: steps, s =>
    let (entry, next) := step.run s
    let (entries, last) := runSteps steps next
    (entry :: entries, last)

end Dispatcher

end PathRouting

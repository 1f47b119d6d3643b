import PathRouting.Dispatch.Basic
import PathRouting.Publisher.Use

/-!
# Uses of a dispatcher

A dispatcher answers requests while others hold its publisher: they look something up in what it publishes,
edit it, and replace it. `Dispatcher.useAll` makes such uses one after the other. A router that is to be
published may not come about at all; then nothing is published.
-/

namespace PathRouting

/-- A router that is built for publication, if nothing that it is built by aborts. -/
structure Build (η : Type) where
  result : Except Abort (Router η)
  reachable_result : ∀ {router}, result = .ok router → router.Reachable

namespace Dispatcher

/-- A use of a dispatcher: a request, or what others do to the published router meanwhile. -/
inductive Use (η : Type) where
  | request (request : Request)
  /-- Runs a query on the published router. -/
  | query (query : Router.Query η)
  | update (edit : Edit η)
  /-- Publishes the router that is built, if it is. -/
  | replace (build : Build η)

/-- What a use comes to. -/
inductive Outcome (η : Type) where
  /-- A handler is handed the request with these parameters. -/
  | handed (handler : η) (params : Params)
  | answered (reply : Router.Reply η)
  | done
  | failed (error : RouteError)
  | aborted (abort : Abort)

variable {η : Type}

/-- What a use comes to, and the dispatcher after it. -/
def use (d : Dispatcher η) : Use η → Outcome η × Dispatcher η
  | .request request =>
    let outcome := d.dispatch request
    (.handed outcome.1.1 outcome.1.2, outcome.2)
  | .query query =>
    let (reply, next) := query.run d.publisher.current
    (.answered reply, { d with publisher := d.publisher.setSnapshot d.publisher.generation next })
  | .update edit =>
    match d.publisher.update edit.run with
    | (.error error, next) => (.failed error, { d with publisher := next })
    | (.ok _, next) => (.done, { d with publisher := next })
  | .replace build =>
    match build.result with
    | .error abort => (.aborted abort, d)
    | .ok router => (.done, { d with publisher := d.publisher.publish router })

/-- Makes some uses one after the other. -/
def useAll : List (Use η) → Dispatcher η → List (Outcome η) × Dispatcher η
  | [], d => ([], d)
  | use :: uses, d =>
    let (outcome, next) := d.use use
    let (outcomes, last) := useAll uses next
    (outcome :: outcomes, last)

/-- The dispatcher that some uses make of one over a publisher of one router. -/
def after (router : Router η) (fallback : η) (uses : List (Use η)) : Dispatcher η :=
  (useAll uses ⟨.ofRouter router, fallback⟩).2

end Dispatcher

end PathRouting

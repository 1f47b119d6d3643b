import PathRouting.Publisher.Script
import PathRouting.Router.Use

/-!
# Uses of a publisher

Many hold a publisher at once: they edit what it publishes, replace it, keep a snapshot under a name, and
look things up in the snapshot that is published or in one they keep. `Publisher.useAll` makes such uses one
after the other. The edit of an update may do with its router whatever uses of a router can do, and it
decides by itself whether it fails.
-/

namespace PathRouting

/-- A change of a router that may fail. -/
structure Edit (α : Type) where
  run : Router α → Except RouteError Unit × Router α
  /-- Whether it fails or not, it makes nothing of a router but what uses make. -/
  reachable_run : ∀ {r}, r.Reachable → (run r).2.Reachable

namespace Publisher

/-- A use of a publisher and of the snapshots that were given a name. -/
inductive Use (α : Type) where
  | update (edit : Edit α)
  | replace (router : Router α) (reachable : router.Reachable)
  /-- Gives the published snapshot a name. -/
  | load (name : String)
  /-- Runs a query on the published snapshot. -/
  | query (query : Router.Query α)
  /-- Runs a query on the snapshot of a name. -/
  | on (name : String) (query : Router.Query α)

variable {α : Type}

/-- The answer to a use, and the session after it. -/
def Session.use (s : Session α) : Use α → Reply α × Session α
  | .update edit =>
    match s.publisher.update edit.run with
    | (.error error, next) => (.failed error, { s with publisher := next })
    | (.ok _, next) => (.done, { s with publisher := next })
  | .replace router _ => (.done, { s with publisher := s.publisher.publish router })
  | .load name => (.done, { s with kept := (name, s.publisher.generation) :: s.kept })
  | .query query =>
    let (reply, next) := query.run s.publisher.current
    (.answered reply,
      { s with publisher := s.publisher.setSnapshot s.publisher.generation next })
  | .on name query =>
    match s.named? name with
    | none => (.unknown, s)
    | some (generation, router) =>
      let (reply, next) := query.run router
      (.answered reply, { s with publisher := s.publisher.setSnapshot generation next })

/-- Makes some uses one after the other. -/
def useAll : List (Use α) → Session α → List (Reply α) × Session α
  | [], s => ([], s)
  | use :: uses, s =>
    let (reply, next) := s.use use
    let (replies, last) := useAll uses next
    (reply :: replies, last)

/-- The session that some uses make of a publisher of one router. -/
def after (router : Router α) (uses : List (Use α)) : Session α :=
  (useAll uses (.ofPublisher (.ofRouter router))).2

end Publisher

end PathRouting

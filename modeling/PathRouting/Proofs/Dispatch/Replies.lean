import PathRouting.Dispatch.Script
import PathRouting.Dispatch.Use
import PathRouting.Proofs.Lookup.Bindings
import PathRouting.Proofs.Publisher.Isolation
import PathRouting.Proofs.Text.Percent

/-!
# Whom a request is handed to

`Dispatcher.Delivers` says it without the cache and without the decoder: the path that a request asks for
is what the part of its target before the query stands for (`Request.Asks`), the route is the one that the
table of the published router finds, and the parameters list the captures of this match (`Params.Lists`).
What is published is what the uses of the publisher make of it, and of these a request makes one lookup at
most (`Use.shared`). So all that holds of a publisher holds behind a dispatcher, too.
-/

namespace PathRouting

/-! ### Requests -/

namespace Request

/-- A request asks for a path: the part of its target before the query is an encoding of it. -/
def Asks (request : Request) (path : String) : Prop :=
  ∃ raw query, request.target.toList = raw ++ query ∧ (∀ c ∈ raw, endsPath c = false) ∧
    (∀ c ∈ query.head?, endsPath c = true) ∧
    Text.Percent.Decodes (Text.Percent.bytesOf (String.ofList raw)) (Text.Percent.bytesOf path)

/-- The path of a target is what stands before its query. -/
lemma path_eq {request : Request} {raw query : List Char} (target : request.target.toList = raw ++ query)
    (within : ∀ c ∈ raw, endsPath c = false) (ends : ∀ c ∈ query.head?, endsPath c = true) :
    request.path = String.ofList raw := by
  rw [path, target, List.takeWhile_append_of_pos (by simpa using within)]
  cases query with
  | nil => simp
  | cons c query => simp [ends c rfl]

/-- A request asks for the path that decoding its target gives, and for no other. -/
lemma asks_iff {request : Request} {path : String} :
    request.Asks path ↔ Text.Percent.decodeText? request.path = some path := by
  rw [Text.Percent.decodeText?_eq_some_iff]
  constructor
  · rintro ⟨raw, query, target, within, ends, decodes⟩
    rwa [path_eq target within ends]
  · intro decodes
    refine ⟨_, _, (List.takeWhile_append_dropWhile (p := fun c => !endsPath c)).symm, ?_, ?_, decodes⟩
    · intro c mem
      simpa using List.all_eq_true.mp (List.all_takeWhile (p := fun c => !endsPath c)) c mem
    · intro c head
      have first := List.head?_dropWhile_not (fun c => !endsPath c) request.target.toList
      rw [head] at first
      simpa using first

end Request

/-! ### Parameters -/

/-- Parameters list the entries of some captures: all ways to read them agree with the list. -/
structure Params.Lists (p : Params) (entries : List (String × Capture)) : Prop where
  toList_eq : p.toList = entries
  size_eq : p.size = entries.length
  isEmpty_iff : p.isEmpty = true ↔ entries = []
  getOne?_iff : ∀ name token, p.getOne? name = some token ↔ (name, .one token) ∈ entries
  getMany?_iff : ∀ name tokens, p.getMany? name = some tokens ↔ (name, .many tokens) ∈ entries
  /-- Reading a value is reading the token. -/
  parse_iff : ∀ {β : Type} (read : String → β) name value,
    p.parse read name = some value ↔ ∃ token, (name, .one token) ∈ entries ∧ read token = value

namespace Captures

variable {c : Captures}

/-- Under distinct names, a single token is read exactly where an entry holds it. -/
lemma getOne?_eq_some_iff (nodup : (c.entries.map Prod.fst).Nodup) {name token : String} :
    c.getOne? name = some token ↔ (name, .one token) ∈ c.entries := by
  rw [← get?_eq_some_iff nodup, getOne?]
  cases c.get? name with
  | none => simp
  | some capture => cases capture <;> simp [Capture.one?]

/-- Under distinct names, a list of tokens is read exactly where an entry holds it. -/
lemma getMany?_eq_some_iff (nodup : (c.entries.map Prod.fst).Nodup) {name : String}
    {tokens : List String} : c.getMany? name = some tokens ↔ (name, .many tokens) ∈ c.entries := by
  rw [← get?_eq_some_iff nodup, getMany?]
  cases c.get? name with
  | none => simp
  | some capture => cases capture <;> simp [Capture.many?]

end Captures

namespace Params

/-- Captures of nothing may as well be left out. -/
lemma ofCaptures_cases (c : Captures) :
    (c = .empty ∧ ofCaptures c = .empty) ∨ ofCaptures c = ⟨some c⟩ := by
  obtain ⟨entries⟩ := c
  cases entries with
  | nil => exact .inl ⟨rfl, rfl⟩
  | cons entry entries => exact .inr rfl

/-- The parameters of a match list its captures. -/
lemma lists_ofCaptures {c : Captures} (nodup : (c.entries.map Prod.fst).Nodup) :
    (ofCaptures c).Lists c.entries := by
  have one : ∀ name, (ofCaptures c).getOne? name = c.getOne? name := by
    intro name
    rcases ofCaptures_cases c with ⟨rfl, same⟩ | same <;> rw [same] <;> rfl
  have many : ∀ name, (ofCaptures c).getMany? name = c.getMany? name := by
    intro name
    rcases ofCaptures_cases c with ⟨rfl, same⟩ | same <;> rw [same] <;> rfl
  have size : (ofCaptures c).size = c.entries.length := by
    rcases ofCaptures_cases c with ⟨rfl, same⟩ | same <;> rw [same] <;> rfl
  constructor
  case toList_eq => rcases ofCaptures_cases c with ⟨rfl, same⟩ | same <;> rw [same] <;> rfl
  case size_eq => exact size
  case isEmpty_iff => rw [isEmpty, size, beq_iff_eq, List.length_eq_zero_iff]
  case getOne?_iff =>
    intro name token
    rw [one, Captures.getOne?_eq_some_iff nodup]
  case getMany?_iff =>
    intro name tokens
    rw [many, Captures.getMany?_eq_some_iff nodup]
  case parse_iff =>
    intro β read name value
    rw [parse, one, Option.map_eq_some_iff]
    simp only [Captures.getOne?_eq_some_iff nodup]

end Params

/-- The names of exact captures are those of the pattern, in its order. -/
lemma Match.IsExact.names_eq {α : Type} {request : RequestPath} {m : Match α}
    (exact : m.IsExact request) :
    m.captures.entries.map Prod.fst = namesOf m.route.pattern.segments := by
  have names : ∀ {segments entries}, List.Forall₂ Segment.Binds segments entries →
      entries.map Prod.fst = namesOf segments := by
    intro segments entries binds
    induction binds with
    | nil => rfl
    | @cons s entry segments entries here _ ih =>
      rw [List.map_cons, ih, namesOf_cons]
      cases s with
      | literal text => cases here
      | named name =>
        obtain ⟨token, rfl⟩ := here
        rfl
      | greedy name =>
        obtain ⟨block, -, rfl⟩ := here
        rfl
  rw [names exact.entries, namesOf, List.filterMap_filter, namesOf]
  apply List.filterMap_congr
  intro s _
  cases s <;> rfl

/-! ### Replacements -/

/-- A router that is built from routes is reachable. -/
lemma Router.reachable_ofRoutes {η : Type} {config : Config} {routes : List (String × η)}
    {router : Router η} (built : Router.ofRoutes config routes = .ok router) : router.Reachable := by
  rw [Router.ofRoutes] at built
  have start := Router.Reachable.ofConfig (α := η) config
  generalize Router.ofConfig config = first at built start
  induction routes generalizing first with
  | nil =>
    cases built
    exact start
  | cons route routes ih =>
    obtain ⟨pattern, resource⟩ := route
    have next : (first.insert pattern resource).2.Reachable := start.use (.insert pattern resource)
    simp only [List.foldlM_cons, Router.insertOrAbort] at built
    generalize first.insert pattern resource = change at built next
    obtain ⟨result, second⟩ := change
    cases result with
    | error error => cases built
    | ok _ => exact ih second built next

/-- Builds the router of some routes. -/
def Build.ofRoutes {η : Type} (routes : List (String × η)) : Build η where
  result := Router.ofRoutes .default routes
  reachable_result := Router.reachable_ofRoutes

namespace Dispatcher

variable {η : Type}

/-! ### Deliveries -/

/-- One lookup of a path in the published router is all that happens. -/
structure LooksUp (d : Dispatcher η) (path : String) (next : Dispatcher η) : Prop where
  fallback_eq : next.fallback = d.fallback
  generation_eq : next.publisher.generation = d.publisher.generation
  lasts : d.publisher.current.Lasts [path] next.publisher.current
  superseded : ∀ number, number ≠ d.publisher.generation →
    next.publisher.snapshot? number = d.publisher.snapshot? number

/-- The handler that a request is handed to with which parameters, and the dispatcher after it. -/
inductive Delivers (d : Dispatcher η) (request : Request) : η → Params → Dispatcher η → Prop where
  | undecodable (nothing : ∀ path, ¬request.Asks path) :
    Delivers d request d.fallback .empty d
  | unmatched {path next} (asks : request.Asks path)
    (unmatched : d.publisher.current.table.find path = none) (looks : d.LooksUp path next) :
    Delivers d request d.fallback .empty next
  | matched {path found params next} (asks : request.Asks path)
    (matched : d.publisher.current.table.find path = some found)
    (exact : found.IsExact (.ofString path)) (lists : params.Lists found.captures.entries)
    (looks : d.LooksUp path next) :
    Delivers d request found.route.resource params next

section Deliveries

variable {d : Dispatcher η}

/-- A lookup in the published router changes what it remembers and nothing else. -/
lemma looksUp_find (reachable : d.publisher.current.Reachable) (path : String) :
    d.LooksUp path { d with publisher := (d.publisher.find path).2 } where
  fallback_eq := rfl
  generation_eq := Publisher.generation_setSnapshot ..
  lasts := by
    rw [Publisher.find, Publisher.current_setSnapshot]
    exact reachable.lasts [path]
  superseded := by
    intro number other
    exact (Publisher.snapshot?_setSnapshot ..).trans (if_neg other.symm)

/-- Dispatching a request delivers it. -/
lemma delivers_dispatch (reachable : d.publisher.current.Reachable) (request : Request) :
    d.Delivers request (d.dispatch request).1.1 (d.dispatch request).1.2 (d.dispatch request).2 := by
  cases asked : Text.Percent.decodeText? request.path with
  | none =>
    rw [dispatch_of_undecodable asked]
    refine .undecodable fun path asks => ?_
    rw [Request.asks_iff, asked] at asks
    cases asks
  | some path =>
    have asks := Request.asks_iff.mpr asked
    have looks := looksUp_find reachable path
    have uncached : (d.publisher.find path).1 = d.publisher.current.table.find path :=
      (reachable.coherent.find path).1
    rw [dispatch, asked]
    dsimp only
    generalize d.publisher.find path = lookup at looks uncached ⊢
    obtain ⟨result, publisher⟩ := lookup
    dsimp only at looks uncached ⊢
    cases result with
    | none => exact .unmatched asks uncached.symm looks
    | some found =>
      have exact := reachable.valid.isExact uncached.symm
      refine .matched asks uncached.symm exact (Params.lists_ofCaptures ?_) looks
      rw [exact.names_eq]
      exact found.route.pattern.names_nodup

end Deliveries

/-! ### The publisher behind a dispatcher -/

/-- What a use does to the publisher: a request makes one lookup at most. -/
def Use.shared : Use η → List (Publisher.Use η)
  | .request asked =>
    (Text.Percent.decodeText? asked.path).toList.map fun path => .query (.find path)
  | .query q => [.query q]
  | .update edit => [.update edit]
  | .replace build =>
    match built : build.result with
    | .error _ => []
    | .ok router => [.replace router (build.reachable_result built)]

/-- What a use does to the published routers is what it asks of the publisher. -/
lemma useAll_shared_use (d : Dispatcher η) (use : Use η) :
    (Publisher.useAll use.shared (.ofPublisher d.publisher)).2 =
      .ofPublisher (d.use use).2.publisher := by
  cases use with
  | request request =>
    rw [Dispatcher.use, Use.shared, dispatch]
    cases Text.Percent.decodeText? request.path with
    | none => rfl
    | some path =>
      show Publisher.Session.ofPublisher (d.publisher.find path).2 = _
      dsimp only
      generalize d.publisher.find path = lookup
      obtain ⟨result, publisher⟩ := lookup
      cases result <;> rfl
  | query query => rfl
  | update edit =>
    show ((Publisher.Session.ofPublisher d.publisher).use (.update edit)).2 = _
    rw [Dispatcher.use, Publisher.Session.use, Publisher.Session.ofPublisher]
    dsimp only
    generalize d.publisher.update edit.run = change
    obtain ⟨result, publisher⟩ := change
    cases result <;> rfl
  | replace build =>
    obtain ⟨result, reachable⟩ := build
    cases result <;> rfl

/-- So it is for a run: the publisher goes through what the uses ask of it. -/
lemma useAll_shared (d : Dispatcher η) (uses : List (Use η)) :
    (Publisher.useAll (uses.flatMap Use.shared) (.ofPublisher d.publisher)).2 =
      .ofPublisher (useAll uses d).2.publisher := by
  induction uses generalizing d with
  | nil => rfl
  | cons use uses ih =>
    rw [List.flatMap_cons, Publisher.snd_useAll_append, useAll_shared_use]
    exact ih _

/-- A request does not change the fallback. -/
lemma fallback_dispatch (d : Dispatcher η) (request : Request) :
    (d.dispatch request).2.fallback = d.fallback := by
  rw [dispatch]
  split
  · rfl
  · dsimp only
    split <;> rfl

/-- Using a dispatcher by a request is dispatching the request. -/
lemma use_request (d : Dispatcher η) (request : Request) :
    d.use (.request request) =
      (.handed (d.dispatch request).1.1 (d.dispatch request).1.2, (d.dispatch request).2) :=
  rfl

/-- No use changes the fallback. -/
lemma fallback_use (d : Dispatcher η) (use : Use η) : (d.use use).2.fallback = d.fallback := by
  cases use with
  | request request =>
    rw [use_request]
    exact fallback_dispatch d request
  | query query => rfl
  | update edit =>
    rw [Dispatcher.use]
    split <;> rfl
  | replace build =>
    rw [Dispatcher.use]
    split <;> rfl

/-- The fallback is the same after any run. -/
lemma fallback_useAll (d : Dispatcher η) (uses : List (Use η)) :
    (useAll uses d).2.fallback = d.fallback := by
  induction uses generalizing d with
  | nil => rfl
  | cons use uses ih => exact (ih _).trans (fallback_use d use)

/-! ### Scripts -/

/-- Removing several patterns leads from a reachable router to a reachable one. -/
lemma reachable_removeEach {r : Router η} (reachable : r.Reachable) (patterns : List String) :
    (removeEach patterns r).2.Reachable := by
  induction patterns generalizing r with
  | nil => exact reachable
  | cons pattern patterns ih =>
    have first : (r.remove pattern).2.Reachable := reachable.use (.remove pattern)
    rw [removeEach]
    generalize r.remove pattern = change at first ⊢
    obtain ⟨result, next⟩ := change
    cases result with
    | error error => exact first
    | ok _ => exact ih first

/-- Removes routes and registers others. -/
def exchange (removed : List String) (routes : List (String × η)) : Edit η where
  run router :=
    match removeEach removed router with
    | (.error error, next) => (.error error, next)
    | (.ok _, next) => next.insertEach routes
  reachable_run := by
    intro r reachable
    have first := reachable_removeEach reachable removed
    generalize removeEach removed r = change at first ⊢
    obtain ⟨result, next⟩ := change
    cases result with
    | error error => exact first
    | ok _ => exact first.insertEach routes

/-- The use that a step of a script makes. -/
def Step.use : Step → Use String
  | .request asked => .request asked
  | .replace routes => .replace (.ofRoutes routes)
  | .update removed routes => .update (exchange removed routes)

/-- A step changes the dispatcher as its use does. -/
lemma dispatcher_run (step : Step) (s : Session) :
    (step.run s).2.dispatcher = (s.dispatcher.use step.use).2 := by
  cases step with
  | request asked => rfl
  | replace routes =>
    rw [Step.run, Step.use, Dispatcher.use, Build.ofRoutes, replace]
    dsimp only
    cases Router.ofRoutes .default routes <;> rfl
  | update removed routes =>
    rw [Step.run, Step.use, Dispatcher.use, update, exchange]
    dsimp only
    generalize s.dispatcher.publisher.update _ = change
    obtain ⟨result, next⟩ := change
    cases result <;> rfl

/-- A script of a dispatcher is a list of uses. -/
theorem dispatcher_runSteps (steps : List Step) (s : Session) :
    (runSteps steps s).2.dispatcher = (useAll (steps.map Step.use) s.dispatcher).2 := by
  induction steps generalizing s with
  | nil => rfl
  | cons step steps ih =>
    show (runSteps steps (step.run s).2).2.dispatcher =
      (useAll (steps.map Step.use) (s.dispatcher.use step.use).2).2
    rw [← dispatcher_run]
    exact ih _

/-! ### Replies -/

/-- After any uses a dispatcher hands a request to the handler of the route that the published table finds
for the path that the request asks for, with the captures of the match, and to the fallback if there is no
path or no route. What is published is what a publisher publishes after the same uses. A failed update or a
replacement that is not built changes nothing that comes after it. -/
theorem after_delivers {router : Router η} (reachable : router.Reachable) (fallback : η)
    (uses : List (Use η)) :
    let d := after router fallback uses
    d.fallback = fallback ∧
    d.publisher = (Publisher.after router (uses.flatMap Use.shared)).publisher ∧
    (∀ request, ∃ handler params next, d.use (.request request) = (.handed handler params, next) ∧
      d.Delivers request handler params next) ∧
    (∀ edit error next later, edit.run d.publisher.current.copy = (.error error, next) →
      useAll (.update edit :: later) d =
        (.failed error :: (useAll later d).1, (useAll later d).2)) ∧
    ∀ build abort later, build.result = .error abort →
      useAll (.replace build :: later) d =
        (.aborted abort :: (useAll later d).1, (useAll later d).2) := by
  intro d
  -- the published router is one that a publisher makes of the same uses, so it is reachable
  have shared := useAll_shared ⟨.ofRouter router, fallback⟩ uses
  have published : d.publisher = (Publisher.after router (uses.flatMap Use.shared)).publisher :=
    congrArg Publisher.Session.publisher shared.symm
  have current : d.publisher.current.Reachable := by
    rw [published]
    exact ((Publisher.Session.sound_ofRouter reachable).useAll _).current
  refine ⟨fallback_useAll _ uses, published, ?_, ?_, ?_⟩
  · intro request
    exact ⟨_, _, _, use_request d request, delivers_dispatch current request⟩
  · intro edit error next later fails
    have refused : d.use (.update edit) = (.failed error, d) := by
      rw [Dispatcher.use, Publisher.update, fails]
    rw [useAll, refused]
  · intro build abort later aborted
    rw [useAll, Dispatcher.use, aborted]

/-- A request with an escape is handed to the handler of a route after an update that failed. -/
theorem after_delivers_escaped :
    let router := ((Router.ofConfig .default).insert "/hello/{name}" "hello").2
    let failing : Use String := .update (exchange ["/hello/{x}", "/bye"] [])
    let request : Request := ⟨"/hello/John%20Doe?loud=1", ""⟩
    let params : Params := ⟨some ⟨[("name", .one "John Doe")]⟩⟩
    ∃ next, (after router "none" [failing]).use (.request request) = (.handed "hello" params, next) ∧
      (after router "none" [failing]).Delivers request "hello" params next := by
  intro router failing request params
  have same : ((after router "none" [failing]).dispatch request).1 = ("hello", params) := by
    decide +kernel
  have reachable : router.Reachable :=
    (Router.Reachable.ofConfig .default).use (.insert "/hello/{name}" "hello")
  obtain ⟨handler, given, next, use, delivers⟩ :=
    (after_delivers reachable "none" [failing]).2.2.1 request
  rw [use_request, same] at use
  cases use
  exact ⟨_, by rw [use_request, same], delivers⟩

end Dispatcher

end PathRouting

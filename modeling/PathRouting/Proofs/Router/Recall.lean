import PathRouting.Proofs.Cache.Log
import PathRouting.Router.Script

/-!
# What a router remembers

Of a step only its effect matters to the cache: it looks a path up, it makes the router forget, it renews
the cache, or it keeps it (`Step.effect`). A change of the routes makes the router forget if it succeeds and
keeps the cache if it fails. The effects of a script alone make up a log, and the router that a script leaves
behind remembers and has counted what this log says (`runSteps_remembers`).
-/

namespace PathRouting

variable {α : Type}

/-- What a step does to the cache of a router. -/
inductive Effect where
  | keeps
  | looks (path : String)
  | forgets
  /-- The cache is a new one, of some capacity. -/
  | renews (capacity : Capacity)

/-- A change forgets all results if it succeeds, and only then. -/
def Effect.ofResult {ε β : Type} : Except ε β → Effect
  | .ok _ => forgets
  | .error _ => keeps

/-- The log after an effect. -/
def Log.note (l : Log) : Effect → Log
  | .keeps => l
  | .looks path => l.look path
  | .forgets => l.forget
  | .renews capacity => start capacity

namespace Router

/-- The path that a query looks up. -/
def Query.path? : Query α → Option String
  | .find path => some path
  | .captures path _ => some path
  | .read path _ _ => some path
  | _ => none

/-- What a query does to the cache: it looks its path up, if it has one. -/
def Query.effect (query : Query α) : Effect :=
  match query.path? with
  | some path => .looks path
  | none => .keeps

/-- What a step does to the cache: a change of the routes does it by its result. -/
def Step.effect (r : Router α) : Step α → Effect
  | .query q => q.effect
  | .insert _ pattern resource => .ofResult (r.insert pattern resource).1
  | .insertEach [] => .keeps
  -- behind a first registration that succeeded there is nothing left to forget
  | .insertEach ((pattern, resource) :: _) => .ofResult (r.insert pattern resource).1
  | .remove pattern => .ofResult (r.remove pattern).1
  | .mount _ base config steps => .ofResult (r.mount base (runSteps steps (ofConfig config)).2).1
  | .nest _ base steps => .ofResult (r.mount base (runSteps steps r.nested).2).1
  | .clear => .forgets
  | .copy => .renews r.config.capacity
  | .rebuild => .renews Config.default.capacity

/-- The effects of some steps, each on the router that those before it left behind. -/
def effects : List (Step α) → Router α → List Effect
  | [], _ => []
  | step :: steps, r => step.effect r :: effects steps (step.run r).2

/-- How an effect leads from one router to the next. -/
inductive Moves (r : Router α) : Effect → Router α → Prop where
  | keeps {next : Router α} (config : next.config = r.config) (cache : next.cache = r.cache) :
    Moves r .keeps next
  | looks {next : Router α} (path : String) (config : next.config = r.config)
    (cache : next.cache = (r.resolve path).2.cache) : Moves r (.looks path) next
  | forgets {next : Router α} (config : next.config = r.config)
    (cache : next.cache = r.cache.clear) : Moves r .forgets next
  | renews {next : Router α} (capacity : Capacity) (config : next.config.capacity = capacity)
    (cache : next.cache = .ofCapacity capacity) : Moves r (.renews capacity) next

/-! ### Changes -/

section Changes

variable {r : Router α} {β : Type}

/-- A router that takes a change over forgets all results exactly if the change succeeded. -/
lemma moves_settle (change : Except RouteError β × Table α) :
    Moves r (.ofResult (r.settle change).1) (r.settle change).2 := by
  obtain ⟨result, table⟩ := change
  cases result with
  | ok value => exact .forgets rfl rfl
  | error error => exact .keeps rfl rfl

/-- A text that is no pattern leaves the cache as it is. -/
lemma moves_withPattern {next : Pattern → Except RouteError β × Router α}
    (moves : ∀ pattern, Moves r (.ofResult (next pattern).1) (next pattern).2) (text : String) :
    Moves r (.ofResult (r.withPattern text next).1) (r.withPattern text next).2 := by
  rw [withPattern]
  cases Route.parsePattern text with
  | error error => exact .keeps rfl rfl
  | ok pattern => exact moves pattern

/-- What is made of an answer does not matter to the cache. -/
lemma ofResult_map {γ : Type} (f : β → γ) (result : Except RouteError β) :
    Effect.ofResult (result.map f) = .ofResult result := by
  cases result <;> rfl

/-- An insertion moves a router by its result. -/
lemma moves_insert (pattern : String) (resource : α) :
    Moves r (.ofResult (r.insert pattern resource).1) (r.insert pattern resource).2 := by
  apply moves_withPattern
  intro p
  rw [ofResult_map]
  exact moves_settle _

/-- A removal moves a router by its result. -/
lemma moves_remove (pattern : String) :
    Moves r (.ofResult (r.remove pattern).1) (r.remove pattern).2 := by
  apply moves_withPattern
  intro p
  rw [ofResult_map]
  exact moves_settle _

/-- A mount moves a router by its result. -/
lemma moves_mount (base : String) (other : Router α) :
    Moves r (.ofResult (r.mount base other).1) (r.mount base other).2 :=
  moves_withPattern (fun _ => moves_settle _) base

/-- What one registration preserves, whether it succeeds or not, several of them do. -/
lemma insertEach_preserves {P : Router α → Prop}
    (insert : ∀ {r : Router α} pattern resource, P r → P (r.insert pattern resource).2)
    (holds : P r) (routes : List (String × α)) : P (r.insertEach routes).2 := by
  induction routes generalizing r with
  | nil => exact holds
  | cons route routes ih =>
    obtain ⟨pattern, resource⟩ := route
    have next := insert pattern resource holds
    rw [Router.insertEach]
    generalize r.insert pattern resource = change at next ⊢
    obtain ⟨result, after⟩ := change
    cases result with
    | error error => exact next
    | ok _ => exact ih next

/-- Once all results are forgotten, further registrations leave it at that. -/
lemma Moves.insertEach {next : Router α} (moves : Moves r .forgets next)
    (routes : List (String × α)) : Moves r .forgets (next.insertEach routes).2 := by
  refine insertEach_preserves ?_ moves routes
  intro next pattern resource moves
  have first := moves_insert (r := next) pattern resource
  generalize next.insert pattern resource = change at first ⊢
  obtain ⟨result, after⟩ := change
  cases moves with
  | forgets config cache =>
    cases result with
    | error error =>
      cases first with
      | keeps config' cache' => exact .forgets (config'.trans config) (cache'.trans cache)
    | ok _ =>
      cases first with
      | forgets config' cache' =>
        have forgotten : after.cache = r.cache.clear := by rw [cache', cache]; rfl
        exact .forgets (config'.trans config) forgotten

/-- Of some registrations the first one decides whether all results are forgotten. -/
lemma moves_insertEach (routes : List (String × α)) :
    Moves r (Step.effect r (.insertEach routes)) (r.insertEach routes).2 := by
  cases routes with
  | nil => exact .keeps rfl rfl
  | cons route routes =>
    obtain ⟨pattern, resource⟩ := route
    have first := moves_insert (r := r) pattern resource
    rw [Step.effect, insertEach]
    cases h : r.insert pattern resource with
    | mk result next =>
      rw [h] at first
      cases result with
      | error error => exact first
      | ok _ => exact first.insertEach routes

end Changes

/-! ### Steps -/

/-- A lookup moves a router by its path. -/
lemma moves_find (r : Router α) (path : String) : Moves r (.looks path) (r.find path).2 := by
  refine .looks path ?_ rfl
  show (r.resolve path).2.config = r.config
  rw [resolve]
  split <;> rfl

/-- A query moves a router by the lookup in it, if there is one. -/
lemma moves_query (r : Router α) (query : Query α) : Moves r query.effect (query.run r).2 := by
  cases query with
  | find path => exact moves_find r path
  | captures path names => exact moves_find r path
  | read path name type => exact moves_find r path
  | _ => exact .keeps rfl rfl

/-- The operation that a step makes of a router. -/
def Step.next (r : Router α) : Step α → Router α
  | .query q => (q.run r).2
  | .insert _ pattern resource => (r.insert pattern resource).2
  | .insertEach routes => (r.insertEach routes).2
  | .remove pattern => (r.remove pattern).2
  | .mount _ base config steps => (r.mount base (runSteps steps (ofConfig config)).2).2
  | .nest _ base steps => (r.mount base (runSteps steps r.nested).2).2
  | .clear => r.clear
  | .copy => r.copy
  | .rebuild => r.rebuild

/-- The answer of a step aside, a step is its operation. -/
lemma snd_run_step (step : Step α) (r : Router α) : (step.run r).2 = step.next r := by
  cases step with
  | insertEach routes =>
    rw [Step.run, Step.next]
    generalize r.insertEach routes = change
    obtain ⟨_ | _, next⟩ := change <;> rfl
  | remove pattern =>
    rw [Step.run, Step.next]
    generalize r.remove pattern = change
    obtain ⟨_ | _, next⟩ := change <;> rfl
  | _ => rfl

/-- Every step moves a router as its effect says. -/
lemma moves_step (r : Router α) (step : Step α) : Moves r (step.effect r) (step.run r).2 := by
  rw [snd_run_step]
  cases step with
  | query query => exact moves_query r query
  | insert manner pattern resource => exact moves_insert pattern resource
  | insertEach routes => exact moves_insertEach routes
  | remove pattern => exact moves_remove pattern
  | mount manner base config steps => exact moves_mount base _
  | nest manner base steps => exact moves_mount base _
  | clear => exact .forgets rfl rfl
  | copy => exact .renews _ rfl rfl
  | rebuild => exact .renews _ rfl rfl

/-- The cache of a router is as a log says. -/
structure Recalls (r : Router α) (l : Log) : Prop where
  capacity_eq : r.config.capacity = l.capacity
  cache : r.cache.Recalls l

/-- A new router keeps to the log of a new cache. -/
lemma recalls_ofConfig (config : Config) :
    (ofConfig config : Router α).Recalls (.start config.capacity) :=
  ⟨rfl, .ofCapacity config.capacity⟩

/-- Resolving a path keeps the cache to its log. -/
lemma recalls_resolve {r : Router α} {l : Log} (recalls : r.cache.Recalls l) (path : String) :
    (r.resolve path).2.cache.Recalls (l.look path) := by
  rw [resolve]
  cases h : r.cache.lookup path with
  | mk result cache =>
    cases result with
    | some result => exact recalls.hit h
    | none => exact recalls.miss h _

/-- A log that notes the effects of the steps goes on as the cache does. -/
lemma Recalls.moves {r next : Router α} {l : Log} {effect : Effect} (recalls : r.Recalls l)
    (moves : Moves r effect next) : next.Recalls (l.note effect) := by
  obtain ⟨capacity, recalls⟩ := recalls
  cases moves with
  | keeps config cache => exact ⟨config ▸ capacity, cache ▸ recalls⟩
  | looks path config cache => exact ⟨config ▸ capacity, cache ▸ recalls_resolve recalls path⟩
  | forgets config cache => exact ⟨config ▸ capacity, cache ▸ recalls.clear⟩
  | renews capacity config cache => exact ⟨config, cache ▸ .ofCapacity capacity⟩

/-- A script keeps a router to the log of its effects. -/
lemma Recalls.runSteps {r : Router α} {l : Log} (recalls : r.Recalls l) (steps : List (Step α)) :
    (runSteps steps r).2.Recalls ((effects steps r).foldl Log.note l) := by
  induction steps generalizing r l with
  | nil => exact recalls
  | cons step steps ih =>
    rw [Router.runSteps]
    exact ih (recalls.moves (moves_step r step))

/-- What a router remembers and has counted is what a log tells. -/
structure Remembers (r : Router α) (l : Log) : Prop where
  /-- The paths that are remembered, in the order of their last lookups. -/
  keys_eq : r.cache.memory.keys = l.recent
  isCached_iff : ∀ path, r.isCached path = true ↔ path ∈ l.recent
  size_bounded : ∀ limit, l.capacity = .bounded limit →
    r.stats.size = min limit.toNat l.distinct.length
  size_unbounded : l.capacity = .unbounded → r.stats.size = l.distinct.length
  hits_eq : r.stats.hits = l.hits
  total_eq : l.capacity.isEnabled = true → r.stats.hits + r.stats.misses = l.finds
  /-- A lookup is a hit if its path was remembered, and a miss if it was not. -/
  counts : l.capacity.isEnabled = true → ∀ path,
    (r.find path).2.stats.hits = r.stats.hits + (if r.isCached path then 1 else 0) ∧
      (r.find path).2.stats.misses = r.stats.misses + (if r.isCached path then 0 else 1)
  /-- A cache without room remembers nothing and counts nothing. -/
  disabled : l.capacity.isEnabled = false → (∀ path, r.isCached path = false) ∧
    r.stats.hits = 0 ∧ r.stats.misses = 0 ∧ r.stats.size = 0
  /-- A step that neither looks a path up nor succeeds in a change leaves the whole cache alone. -/
  kept : ∀ step : Step α, step.effect r = .keeps → (step.run r).2.cache = r.cache

/-- The size that is reported is the number of paths remembered. -/
lemma size_stats (r : Router α) : r.stats.size = r.cache.memory.keys.length :=
  (List.length_map _).symm

/-- A path is cached exactly if the log says that it is remembered. -/
lemma Recalls.isCached_iff {r : Router α} {l : Log} (recalls : r.Recalls l) {path : String} :
    r.isCached path = true ↔ path ∈ l.recent := by
  rw [isCached, LookupCache.contains, Recency.contains_iff, recalls.cache.keys_eq]

/-- A lookup in an enabled cache counts a hit if its path is cached, and a miss if not. -/
lemma Recalls.counts {r : Router α} {l : Log} (recalls : r.Recalls l)
    (enabled : l.capacity.isEnabled = true) (path : String) :
    (r.find path).2.stats.hits = r.stats.hits + (if r.isCached path then 1 else 0) ∧
      (r.find path).2.stats.misses = r.stats.misses + (if r.isCached path then 0 else 1) := by
  have next : (r.find path).2.cache.Recalls (l.look path) := recalls_resolve recalls.cache path
  have hits : r.stats.hits = l.hits := recalls.cache.hits_eq
  have hits' : (r.find path).2.stats.hits = (l.look path).hits := next.hits_eq
  have total : r.stats.hits + r.stats.misses = l.finds :=
    recalls.cache.total_eq.trans (if_pos enabled)
  have total' : (r.find path).2.stats.hits + (r.find path).2.stats.misses = l.finds + 1 :=
    next.total_eq.trans (if_pos enabled)
  rw [Log.look] at hits'
  simp only [recalls.isCached_iff]
  by_cases mem : path ∈ l.recent
  · simp only [if_pos mem] at hits' ⊢
    omega
  · simp only [if_neg mem] at hits' ⊢
    omega

/-- A router that keeps to a log remembers what the log says. -/
lemma Recalls.remembers {r : Router α} {l : Log} (recalls : r.Recalls l) : r.Remembers l where
  keys_eq := recalls.cache.keys_eq
  isCached_iff _ := recalls.isCached_iff
  size_bounded := by
    intro limit bounded
    rw [size_stats, recalls.cache.keys_eq, Log.recent, bounded]
    exact List.length_take
  size_unbounded := by
    intro unbounded
    rw [size_stats, recalls.cache.keys_eq, Log.recent, unbounded]
    rfl
  hits_eq := recalls.cache.hits_eq
  total_eq enabled := recalls.cache.total_eq.trans (if_pos enabled)
  counts := recalls.counts
  disabled := by
    intro disabled
    -- nothing is counted, as a disabled cache is asked for nothing
    have bare := Log.recent_of_disabled disabled
    have total : r.stats.hits + r.stats.misses = 0 :=
      recalls.cache.total_eq.trans (by rw [disabled]; rfl)
    refine ⟨?_, Nat.eq_zero_of_add_eq_zero_right total, Nat.eq_zero_of_add_eq_zero_left total, ?_⟩
    · intro path
      rw [← Bool.not_eq_true, recalls.isCached_iff, bare]
      exact List.not_mem_nil
    · rw [size_stats, recalls.cache.keys_eq, bare]
      rfl
  kept := by
    intro step keeps
    have moves := moves_step r step
    rw [keeps] at moves
    cases moves with
    | keeps _ cache => exact cache

/-- After any script a router remembers the paths that were looked up last since a change succeeded, as many
as its capacity has room for, and it has counted the lookups since it was made. -/
theorem runSteps_remembers (config : Config) (steps : List (Step α)) :
    (runSteps steps (ofConfig config)).2.Remembers
      ((effects steps (ofConfig config)).foldl Log.note (.start config.capacity)) :=
  ((recalls_ofConfig config).runSteps steps).remembers

/-- Of three paths a cache with room for two remembers those that were looked up last; a change that fails
makes it forget nothing. -/
theorem runSteps_remembers_evicted :
    let steps : List (Step Nat) := [.query (.find "/a"), .query (.find "/b"), .query (.find "/a"),
      .query (.find "/c"), .remove "/b"]
    let r := (runSteps steps (ofConfig ⟨.bounded 2, false⟩)).2
    r.isCached "/a" = true ∧ r.isCached "/b" = false ∧ r.isCached "/c" = true ∧
      r.stats.size = 2 ∧ r.stats.hits = 1 := by
  intro steps r
  let l : Log := ⟨.bounded 2, ["/c", "/a", "/b", "/a"], 4, 1⟩
  have log : (effects steps (ofConfig ⟨.bounded 2, false⟩)).foldl Log.note (.start (.bounded 2)) = l := by
    decide +kernel
  have remembers : r.Remembers l := log ▸ runSteps_remembers ⟨.bounded 2, false⟩ steps
  have recent : l.recent = ["/c", "/a"] := by decide
  refine ⟨?_, ?_, ?_, ?_, ?_⟩
  · rw [remembers.isCached_iff, recent]
    decide
  · rw [← Bool.not_eq_true, remembers.isCached_iff, recent]
    decide
  · rw [remembers.isCached_iff, recent]
    decide
  · rw [remembers.size_bounded 2 rfl]
    decide
  · exact remembers.hits_eq

end Router

end PathRouting

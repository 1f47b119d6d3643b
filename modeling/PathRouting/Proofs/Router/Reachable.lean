import PathRouting.Proofs.Router.Failures
import PathRouting.Proofs.Router.Recall
import PathRouting.Router.Use

/-!
# Routers that uses make

A reachable router is one that uses make of a router without routes (`Router.Reachable`). Every step of a
script leads from one to another, so scripts make no others. Of a query a router keeps at most the trace of
one lookup (`Router.snd_run_query`).
-/

namespace PathRouting

namespace Router

variable {α : Type} {r : Router α}

/-! ### Queries -/

/-- Of a query a router keeps the lookup, if there is one. -/
lemma snd_run_query (query : Query α) (r : Router α) :
    (query.run r).2 = query.path?.elim r fun path => (r.find path).2 := by
  cases query <;> rfl

/-- A lookup leaves the settings alone. -/
lemma config_find (r : Router α) (path : String) : (r.find path).2.config = r.config := by
  cases moves_find r path with
  | looks _ config _ => exact config

/-- A copy has nothing of the lookups. -/
lemma copy_find (r : Router α) (path : String) : (r.find path).2.copy = r.copy := by
  rw [copy, table_find, config_find, copy]

/-- A query does not show in a copy. -/
lemma copy_query (query : Query α) (r : Router α) : (query.run r).2.copy = r.copy := by
  rw [snd_run_query]
  cases query.path? with
  | none => rfl
  | some path => exact copy_find r path

/-- A query leaves the routes alone. -/
lemma table_query (query : Query α) (r : Router α) : (query.run r).2.table = r.table := by
  rw [snd_run_query]
  cases query.path? with
  | none => rfl
  | some path => exact table_find r path

/-- Every use moves a router by some effect. -/
lemma moves_use (r : Router α) (use : Use α) : ∃ effect, Moves r effect (r.use use) := by
  cases use with
  | find path => exact ⟨_, moves_find r path⟩
  | isCached path => exact ⟨_, .keeps rfl rfl⟩
  | insert pattern resource => exact ⟨_, moves_insert pattern resource⟩
  | remove pattern => exact ⟨_, moves_remove pattern⟩
  | mount base other => exact ⟨_, moves_mount base other⟩
  | nest base build => exact ⟨_, moves_mount base _⟩
  | clear => exact ⟨_, .forgets rfl rfl⟩
  | copy => exact ⟨_, .renews _ rfl rfl⟩
  | rebuild => exact ⟨_, .renews _ rfl rfl⟩

/-! ### Reachable routers -/

namespace Reachable

/-- A new router is reachable. -/
lemma ofConfig (config : Config) : (Router.ofConfig config : Router α).Reachable :=
  ⟨config, [], rfl⟩

/-- A use leads from a reachable router to a reachable one. -/
lemma use (reachable : r.Reachable) (use : Use α) : (r.use use).Reachable := by
  obtain ⟨config, uses, rfl⟩ := reachable
  exact ⟨config, uses ++ [use], by simp [after]⟩

/-- A reachable router is coherent. -/
lemma coherent (reachable : r.Reachable) : r.Coherent := by
  obtain ⟨config, uses, rfl⟩ := reachable
  exact (coherent_ofConfig config).foldl_use uses

/-- The table of a reachable router is valid. -/
lemma valid (reachable : r.Reachable) : r.table.Valid := by
  obtain ⟨config, uses, rfl⟩ := reachable
  exact valid_after config uses

/-- The cache of a reachable router is as some log says. -/
lemma recalls (reachable : r.Reachable) : ∃ l, r.Recalls l := by
  obtain ⟨config, uses, rfl⟩ := reachable
  rw [after]
  have start : ∃ l, (Router.ofConfig config : Router α).Recalls l := ⟨_, recalls_ofConfig config⟩
  generalize (Router.ofConfig config : Router α) = first at start ⊢
  induction uses generalizing first with
  | nil => exact start
  | cons use uses ih =>
    obtain ⟨l, before⟩ := start
    obtain ⟨effect, moves⟩ := moves_use first use
    exact ih _ ⟨_, before.moves moves⟩

/-- A query leads from a reachable router to a reachable one. -/
lemma query (reachable : r.Reachable) (query : Query α) : (query.run r).2.Reachable := by
  rw [snd_run_query]
  cases query.path? with
  | none => exact reachable
  | some path => exact reachable.use (.find path)

/-- Several registrations lead from a reachable router to a reachable one. -/
lemma insertEach (reachable : r.Reachable) (routes : List (String × α)) :
    (r.insertEach routes).2.Reachable :=
  insertEach_preserves (fun pattern resource reachable => reachable.use (.insert pattern resource))
    reachable routes

/-- Every step of a script leads to a reachable router. -/
lemma step (reachable : r.Reachable) (step : Step α) : (step.run r).2.Reachable := by
  rw [snd_run_step]
  cases step with
  | query query => exact reachable.query query
  | insert manner pattern resource => exact reachable.use (.insert pattern resource)
  | insertEach routes => exact reachable.insertEach routes
  | remove pattern => exact reachable.use (.remove pattern)
  | mount manner base config steps => exact reachable.use (.mount base _)
  | nest manner base steps => exact reachable.use (.mount base _)
  | clear => exact reachable.use .clear
  | copy => exact reachable.use .copy
  | rebuild => exact reachable.use .rebuild

/-- A script leads from a reachable router to a reachable one. -/
lemma runSteps (reachable : r.Reachable) (steps : List (Step α)) :
    (Router.runSteps steps r).2.Reachable := by
  induction steps generalizing r with
  | nil => exact reachable
  | cons step steps ih =>
    rw [Router.runSteps]
    exact ih (reachable.step step)

end Reachable

end Router

end PathRouting

import PathRouting.Proofs.Publisher.Updates

/-!
# Snapshots do not affect each other

A use looks at most one path up, in one snapshot (`Session.look?`). The paths that are looked up in a snapshot
are all that becomes of it: later on it is the router that was published, after these lookups
(`snapshot?_useAll`), so it has the same routes and finds the same matches (`Router.Lasts`). A name stands for
one snapshot; it is the published one until something else is published, and never again after that. A new
snapshot begins without a cache of its own.
-/

namespace PathRouting

variable {α : Type}

/-! ### Lookups -/

namespace Router

/-- The router after some lookups. -/
def findAll (r : Router α) (paths : List String) : Router α :=
  paths.foldl (fun r path => (r.find path).2) r

/-- What becomes of a router by lookups of some paths: its routes are the same, and its cache is that of these
lookups. -/
structure Lasts (r : Router α) (paths : List String) (next : Router α) : Prop where
  next_eq : next = r.findAll paths
  table_eq : next.table = r.table
  config_eq : next.config = r.config
  /-- It finds what it found. -/
  find_eq : ∀ path, (next.find path).1 = (r.find path).1
  find_table : ∀ path, (next.find path).1 = r.table.find path
  /-- Every lookup is counted once, unless there is no cache. -/
  counted : next.stats.hits + next.stats.misses =
    r.stats.hits + r.stats.misses + if r.config.capacity.isEnabled then paths.length else 0
  recalls : ∃ l, r.Recalls l ∧ next.Recalls (paths.foldl Log.look l)

variable {r : Router α}

/-- Lookups of two lists of paths come after one another. -/
lemma findAll_append (r : Router α) (front back : List String) :
    r.findAll (front ++ back) = (r.findAll front).findAll back :=
  List.foldl_append

/-- Lookups leave the routes alone. -/
lemma table_findAll (r : Router α) (paths : List String) : (r.findAll paths).table = r.table := by
  induction paths generalizing r with
  | nil => rfl
  | cons path paths ih => exact (ih (r.find path).2).trans (table_find r path)

/-- Lookups leave the settings alone. -/
lemma config_findAll (r : Router α) (paths : List String) : (r.findAll paths).config = r.config := by
  induction paths generalizing r with
  | nil => rfl
  | cons path paths ih => exact (ih (r.find path).2).trans (config_find r path)

/-- Lookups lead from a reachable router to a reachable one. -/
lemma Reachable.findAll (reachable : r.Reachable) (paths : List String) :
    (r.findAll paths).Reachable := by
  induction paths generalizing r with
  | nil => exact reachable
  | cons path paths ih => exact ih (reachable.use (.find path))

/-- A router keeps to its log by every lookup. -/
lemma Recalls.findAll {l : Log} (recalls : r.Recalls l) (paths : List String) :
    (r.findAll paths).Recalls (paths.foldl Log.look l) := by
  induction paths generalizing r l with
  | nil => exact recalls
  | cons path paths ih => exact ih (recalls.moves (moves_find r path))

/-- A log counts every lookup, and lookups do not change its capacity. -/
lemma foldl_look (l : Log) (paths : List String) :
    (paths.foldl Log.look l).capacity = l.capacity ∧
      (paths.foldl Log.look l).finds = l.finds + paths.length := by
  induction paths generalizing l with
  | nil => exact ⟨rfl, rfl⟩
  | cons path paths ih =>
    obtain ⟨capacity, finds⟩ := ih (l.look path)
    refine ⟨capacity, finds.trans ?_⟩
    rw [Log.look, List.length_cons, Nat.add_assoc, Nat.add_comm 1]

/-- A reachable router lasts through any lookups. -/
lemma Reachable.lasts (reachable : r.Reachable) (paths : List String) :
    r.Lasts paths (r.findAll paths) := by
  have found : ∀ path, ((r.findAll paths).find path).1 = r.table.find path := by
    intro path
    rw [((reachable.findAll paths).coherent.find path).1, table_findAll]
  obtain ⟨l, recalls⟩ := reachable.recalls
  have next := recalls.findAll paths
  constructor
  case next_eq => rfl
  case table_eq => exact table_findAll r paths
  case config_eq => exact config_findAll r paths
  case find_eq => exact fun path => (found path).trans (reachable.coherent.find path).1.symm
  case find_table => exact found
  case counted =>
    obtain ⟨capacity, finds⟩ := foldl_look l paths
    have total := recalls.cache.total_eq
    have total' := next.cache.total_eq
    rw [capacity, finds] at total'
    rw [recalls.capacity_eq]
    simp only [stats, LookupCache.stats, total, total']
    split <;> rfl
  case recalls => exact ⟨l, recalls, next⟩

end Router

namespace Publisher

namespace Session

/-- The path that a use looks up in the snapshot of a number. -/
def look? (number : Nat) (s : Session α) (use : Use α) : Option String :=
  (s.target? use).bind fun (target, q) => if target = number then q.path? else none

end Session

/-- The paths that some uses look up in the snapshot of a number, in order. -/
def lookups (number : Nat) : List (Use α) → Session α → List String
  | [], _ => []
  | use :: uses, s => (s.look? number use).toList ++ lookups number uses (s.use use).2

/-- The routers that some uses publish, in order. -/
def publications : List (Use α) → Session α → List (Router α)
  | [], _ => []
  | use :: uses, s => (s.publication? use).toList ++ publications uses (s.use use).2

namespace Session

variable {s : Session α} {number : Nat} {r : Router α}

/-- A use does to a snapshot what the lookup does that it makes there. -/
lemma touch_eq (use : Use α) (number : Nat) (r : Router α) :
    s.touch use number r = r.findAll (s.look? number use).toList := by
  rw [touch, look?]
  cases s.target? use with
  | none => rfl
  | some target =>
    obtain ⟨target, query⟩ := target
    simp only [Option.bind_some]
    split
    · rw [Router.snd_run_query]
      cases query.path? <;> rfl
    · rfl

/-- Of the uses a snapshot keeps the lookups in it and nothing else. -/
lemma snapshot?_use (held : s.publisher.snapshot? number = some r) (use : Use α) :
    (s.use use).2.publisher.snapshot? number = some (r.findAll (s.look? number use).toList) := by
  cases published : s.publication? use with
  | none => rw [(snapshot?_use_of_none published).2, held, Option.map_some, touch_eq]
  | some next =>
    obtain ⟨untargeted, same⟩ := use_of_publication? published
    have old : number ≤ s.publisher.generation :=
      (snapshot?_isSome_iff _ _).mp (Option.isSome_of_eq_some held)
    rw [same, snapshot?_publish, if_neg (by omega), held, look?, untargeted]
    rfl

/-- Of a run a snapshot keeps the lookups in it, in order. -/
lemma snapshot?_useAll (held : s.publisher.snapshot? number = some r) (uses : List (Use α)) :
    (useAll uses s).2.publisher.snapshot? number = some (r.findAll (lookups number uses s)) := by
  induction uses generalizing s r with
  | nil => exact held
  | cons use uses ih =>
    rw [lookups, Router.findAll_append]
    exact ih (snapshot?_use held use)

/-- A use makes one more snapshot if it publishes, and none if it does not. -/
lemma generation_use (s : Session α) (use : Use α) :
    (s.use use).2.publisher.generation =
      s.publisher.generation + (s.publication? use).toList.length := by
  cases published : s.publication? use with
  | none => exact (snapshot?_use_of_none published).1
  | some next =>
    rw [(use_of_publication? published).2]
    exact generation_publish _ next

/-- A run makes as many snapshots as it publishes. -/
lemma generation_useAll (s : Session α) (uses : List (Use α)) :
    (useAll uses s).2.publisher.generation =
      s.publisher.generation + (publications uses s).length := by
  induction uses generalizing s with
  | nil => rfl
  | cons use uses ih =>
    rw [publications, List.length_append, ← Nat.add_assoc, ← generation_use]
    exact ih _

/-! ### Reachable snapshots -/

/-- Uses make every snapshot of a router without routes. -/
def Sound (s : Session α) : Prop :=
  ∀ number r, s.publisher.snapshot? number = some r → r.Reachable

/-- The published router is reachable. -/
lemma Sound.current (sound : s.Sound) : s.publisher.current.Reachable :=
  sound _ _ s.publisher.snapshot?_generation

/-- A publisher of a reachable router is sound. -/
lemma sound_ofRouter (reachable : r.Reachable) : (ofPublisher (.ofRouter r)).Sound := by
  intro number held same
  obtain rfl := List.mem_singleton.mp (List.mem_of_getElem? same)
  exact reachable

/-- What a use publishes is reachable. -/
lemma Sound.publication? (sound : s.Sound) {use : Use α} (published : s.publication? use = some r) :
    r.Reachable := by
  cases use with
  | update edit =>
    have next := edit.reachable_run (sound.current.use .copy)
    rw [Session.publication?] at published
    split at published
    · rename_i made succeeds
      cases published
      rw [Router.use, succeeds] at next
      exact next
    · cases published
  | replace router reachable =>
    cases published
    exact reachable
  | _ => cases published

/-- A use keeps all snapshots reachable. -/
lemma Sound.use (sound : s.Sound) (use : Use α) : (s.use use).2.Sound := by
  intro number r held
  cases published : s.publication? use with
  | none =>
    rw [(snapshot?_use_of_none published).2, Option.map_eq_some_iff] at held
    obtain ⟨before, held, rfl⟩ := held
    rw [touch_eq]
    exact (sound number before held).findAll _
  | some next =>
    rw [(use_of_publication? published).2, snapshot?_publish] at held
    split at held
    · cases held
      exact sound.publication? published
    · exact sound number r held

/-- So does a run. -/
lemma Sound.useAll (sound : s.Sound) (uses : List (Use α)) : (useAll uses s).2.Sound := by
  induction uses generalizing s with
  | nil => exact sound
  | cons use uses ih => exact ih (sound.use use)

/-! ### Names -/

/-- A use that does not load a name leaves the number of the name as it is. -/
lemma lookup_kept_use {name : String} {use : Use α} (other : use ≠ .load name) :
    (s.use use).2.kept.lookup name = s.kept.lookup name := by
  cases use with
  | update edit =>
    rw [Session.use]
    split <;> rfl
  | load given =>
    have differs : (name == given) = false := by
      apply beq_false_of_ne
      rintro rfl
      exact other rfl
    rw [Session.use, List.lookup_cons, differs]
  | on given query =>
    rw [Session.use]
    split <;> rfl
  | _ => rfl

/-- A name stands for its snapshot until it is given to another one. -/
lemma lookup_kept_useAll {name : String} {uses : List (Use α)}
    (others : ∀ use ∈ uses, use ≠ .load name) :
    (useAll uses s).2.kept.lookup name = s.kept.lookup name := by
  induction uses generalizing s with
  | nil => rfl
  | cons use uses ih =>
    obtain ⟨other, others⟩ := List.forall_mem_cons.mp others
    exact (ih others).trans (lookup_kept_use other)

/-- A name of the published snapshot is as good as none. -/
lemma use_on_of_current {name : String}
    (named : s.named? name = some (s.publisher.generation, s.publisher.current))
    (query : Router.Query α) : s.use (.on name query) = s.use (.query query) := by
  rw [use, use, named]

/-- A query on a superseded snapshot leaves the published one alone. -/
lemma current_use_on_of_ne {name : String} (named : s.named? name = some (number, r))
    (other : number ≠ s.publisher.generation) (query : Router.Query α) :
    (s.use (.on name query)).2.publisher.current = s.publisher.current := by
  rw [use, named]
  exact current_setSnapshot_of_ne _ _ other

/-- A query on the published snapshot leaves a superseded one alone. -/
lemma named?_use_query_of_ne {name : String} (named : s.named? name = some (number, r))
    (other : number ≠ s.publisher.generation) (query : Router.Query α) :
    (s.use (.query query)).2.named? name = some (number, r) := by
  obtain ⟨kept, held⟩ := named?_eq_some_iff.mp named
  refine named?_eq_some_iff.mpr ⟨kept, ?_⟩
  rw [use, snapshot?_setSnapshot, if_neg other.symm, held]

/-- A name that is given to the published snapshot stands for it, whatever follows. -/
lemma named?_useAll_load {name : String} {uses : List (Use α)}
    (others : ∀ use ∈ uses, use ≠ .load name) :
    ∃ held, (useAll uses (s.use (.load name)).2).2.named? name =
      some (s.publisher.generation, held) := by
  have kept : (useAll uses (s.use (.load name)).2).2.kept.lookup name =
      some s.publisher.generation := by
    rw [lookup_kept_useAll others]
    exact List.lookup_cons_self
  have held := snapshot?_useAll (s := (s.use (.load name)).2) s.publisher.snapshot?_generation uses
  exact ⟨_, named?_eq_some_iff.mpr ⟨kept, held⟩⟩

/-- A name with the number of the published snapshot stands for the published router. -/
lemma named?_eq_current {name : String}
    (named : s.named? name = some (s.publisher.generation, r)) :
    s.named? name = some (s.publisher.generation, s.publisher.current) := by
  have held := (named?_eq_some_iff.mp named).2
  rw [snapshot?_generation, Option.some_inj] at held
  rw [named, held]

/-- The cache of what an update publishes is as the steps of its edit say. -/
lemma remembers_of_ok {edit : Edit α} {next : Router α}
    (succeeds : edit.run s.publisher.current.copy = (.ok (), next)) {steps : List (Router.Step α)}
    (made : edit = .ofSteps steps ∨ next = (Router.runSteps steps s.publisher.current.copy).2) :
    next.Remembers ((Router.effects steps s.publisher.current.copy).foldl Log.note
      (.start s.publisher.current.config.capacity)) := by
  have start : s.publisher.current.copy.Recalls (.start s.publisher.current.config.capacity) :=
    ⟨rfl, .ofCapacity _⟩
  have run : next = (Router.runSteps steps s.publisher.current.copy).2 := by
    rcases made with rfl | run
    · rw [← runUntilError_of_ok (congrArg Prod.fst succeeds)]
      exact (congrArg Prod.snd succeeds).symm
    · exact run
  rw [run]
  exact (start.runSteps steps).remembers

end Session

/-! ### Isolation -/

/-- Whatever follows, of every snapshot there is later the router that was published after the lookups in it.
A name that is given to the published snapshot stands for it: it is as good as no name while nothing is
published, and from then on it stands for another snapshot, which shares nothing with what is published. An
update that succeeds leaves all snapshots as they are, and its edit begins with a cache that remembers nothing
and counts from zero; so the new snapshot has counted what the edit looked up. -/
theorem after_isolated {router : Router α} (reachable : router.Reachable) (front : List (Use α)) :
    let s := after router front
    (∀ uses number r, s.publisher.snapshot? number = some r →
      ∃ next, (useAll uses s).2.publisher.snapshot? number = some next ∧
        r.Lasts (lookups number uses s) next) ∧
    (∀ name uses, (∀ use ∈ uses, use ≠ .load name) →
      let loaded := (s.use (.load name)).2
      let later := (useAll uses loaded).2
      ∃ held, later.named? name = some (s.publisher.generation, held) ∧
        (publications uses loaded = [] →
          ∀ query, later.use (.on name query) = later.use (.query query)) ∧
        (publications uses loaded ≠ [] → s.publisher.generation < later.publisher.generation ∧
          ∀ query, (later.use (.on name query)).2.publisher.current = later.publisher.current ∧
            (later.use (.query query)).2.named? name = some (s.publisher.generation, held))) ∧
    ∀ edit next, edit.run s.publisher.current.copy = (.ok (), next) →
      let copy := s.publisher.current.copy
      let later := (s.use (.update edit)).2
      (∀ number ≤ s.publisher.generation,
        later.publisher.snapshot? number = s.publisher.snapshot? number) ∧
      later.publisher.current = next ∧
      (∀ path, copy.isCached path = false) ∧
      copy.stats = ⟨0, 0, 0, s.publisher.current.config.capacity.limit?⟩ ∧
      ∀ steps, (edit = .ofSteps steps ∨ next = (Router.runSteps steps copy).2) →
        next.Remembers ((Router.effects steps copy).foldl Log.note
          (.start s.publisher.current.config.capacity)) := by
  intro s
  have sound : s.Sound := (Session.sound_ofRouter reachable).useAll front
  refine ⟨?_, ?_, ?_⟩
  · intro uses number r held
    exact ⟨_, Session.snapshot?_useAll held uses, (sound number r held).lasts _⟩
  · intro name uses others loaded later
    -- whether the name still stands for what is published is told from the two numbers
    obtain ⟨held, named⟩ := Session.named?_useAll_load (s := s) others
    have generation : later.publisher.generation =
        s.publisher.generation + (publications uses loaded).length :=
      Session.generation_useAll loaded uses
    refine ⟨held, named, ?_, ?_⟩
    · intro nothing query
      rw [nothing, List.length_nil, Nat.add_zero] at generation
      rw [← generation] at named
      exact Session.use_on_of_current (Session.named?_eq_current named) query
    · intro something
      have superseded : s.publisher.generation < later.publisher.generation := by
        have more := List.length_pos_iff.mpr something
        omega
      refine ⟨superseded, fun query => ?_⟩
      exact ⟨Session.current_use_on_of_ne named superseded.ne query,
        Session.named?_use_query_of_ne named superseded.ne query⟩
  · intro edit next succeeds copy later
    have published : later = { s with publisher := s.publisher.publish next } :=
      congrArg Prod.snd (Session.update_of_ok succeeds)
    rw [published]
    refine ⟨?_, current_publish _ next, fun _ => rfl, rfl, ?_⟩
    · intro number old
      exact snapshot?_publish_of_le _ next old
    · intro steps made
      exact Session.remembers_of_ok succeeds made

/-- A snapshot is looked up without its name, by its name, and by its name once it is superseded; the one
after it only knows of the lookup that is its own. -/
theorem after_isolated_superseded :
    let front : List (Use Nat) := [.update (.ofSteps [.insert .checked "/a" 1]), .load "old"]
    let uses : List (Use Nat) := [.query (.find "/a"), .on "old" (.find "/a"),
      .update (.ofSteps [.insert .checked "/b" 2]), .on "old" (.find "/a"), .query (.find "/b")]
    ∃ r next, (after (.ofConfig .default) front).publisher.snapshot? 1 = some r ∧
      (useAll uses (after (.ofConfig .default) front)).2.publisher.snapshot? 1 = some next ∧
      r.Lasts ["/a", "/a", "/a"] next ∧ next.stats.hits + next.stats.misses = 3 ∧
      (useAll uses (after (.ofConfig .default) front)).2.publisher.current.stats.misses = 1 := by
  intro front uses
  have number : (after (.ofConfig .default) front).publisher.generation = 1 := by
    decide +kernel
  have held := number ▸ (after (.ofConfig .default) front).publisher.snapshot?_generation
  have looked : lookups 1 uses (after (.ofConfig .default) front) = ["/a", "/a", "/a"] := by
    decide +kernel
  have fresh : (after (.ofConfig .default) front).publisher.current.stats.hits +
        (after (.ofConfig .default) front).publisher.current.stats.misses = 0 ∧
      (after (.ofConfig .default) front).publisher.current.config.capacity.isEnabled = true := by
    decide +kernel
  have own : (useAll uses (after (.ofConfig .default) front)).2.publisher.current.stats.misses = 1 := by
    decide +kernel
  obtain ⟨next, later, lasts⟩ := (after_isolated (.ofConfig .default) front).1 uses 1 _ held
  rw [looked] at lasts
  have counted := lasts.counted
  rw [fresh.1, if_pos fresh.2] at counted
  exact ⟨_, next, held, later, lasts, counted, own⟩

end Publisher

end PathRouting

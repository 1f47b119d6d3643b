import PathRouting.Proofs.Lists
import PathRouting.Proofs.Lookup.Search
import PathRouting.Proofs.Table.Refinement
import PathRouting.Router.Use

/-!
# The cache of a router is coherent

A remembered result refers to a route by the number of a node and a slot, so it is right only for the
table that it was found in. A router is coherent if it remembers nothing that its table would not answer
now. Every use keeps it so: a lookup remembers what it has just found, a change that succeeds forgets
everything, and one that fails forgets nothing but leaves the table as it was (`Table.Undone`).
-/

namespace PathRouting

variable {α : Type}

/-! ### Failed changes -/

namespace Table

variable {t : Table α}

/-- If the change failed, it left the table as it was. -/
def Undone {β : Type} (t : Table α) (change : Except RouteError β × Table α) : Prop :=
  ∀ error, change.1 = .error error → change.2 = t

/-- An insertion that is refused leaves the table as it was. -/
lemma undone_insert (pattern : Pattern) (resource : α) (strict : Bool) :
    t.Undone (t.insert pattern resource strict) := by
  intro error failed
  cases strict with
  | false => cases failed
  | true =>
    cases h : t.get? pattern with
    | none => simp [insert, h] at failed
    | some existing => simp [insert, h]

/-- So does a removal that finds no route. -/
lemma undone_remove (pattern : Pattern) : t.Undone (t.remove pattern) := by
  intro error failed
  rw [Table.remove, Trie.remove] at failed ⊢
  cases h : t.trie.trail pattern.address.keys Trie.root [] with
  | none => rfl
  | some trail =>
    cases trail with
    | nil => rfl
    | cons id above =>
      cases g : (t.trie.node id).slots.get pattern.address.trailing with
      | none => simp [g]
      | some route => simp [h, g] at failed

/-- A mount checks all routes before it registers the first, so a refused one leaves no trace. -/
lemma undone_mount (base : Pattern) (other : Table α) (strict : Bool) :
    t.Undone (t.mount base other strict) := by
  intro error failed
  rw [mount] at failed ⊢
  cases h : other.history.mapM (t.stage base strict) with
  | error refusal => rfl
  | ok routes =>
    -- once all routes are checked, none of them is refused
    simp [h, insertAll_eq] at failed

/-- A resolution that the table gives is a match there. -/
lemma matchAt?_isSome {path : String} {resolution : Resolution}
    (h : t.resolve path = some resolution) : (t.matchAt? resolution).isSome := by
  obtain ⟨found, best, rfl⟩ := Option.map_eq_some_iff.mp h
  have held := Trie.value?_eq_some_iff.mpr (Search.best_held best)
  rw [matchAt?, Found.resolution, held]
  rfl

end Table

/-! ### Memories -/

namespace Recency

variable {κ ν : Type} [DecidableEq κ] {r : Recency κ ν}

/-- A value that is there is one of the entries. -/
lemma mem_of_peek? {key : κ} {value : ν} (h : r.peek? key = some value) :
    (key, value) ∈ r.entries := mem_of_lookup h

/-- A use finds one of the entries. -/
lemma mem_of_touch {key : κ} {value : ν} {next : Recency κ ν}
    (h : r.touch key = (some value, next)) : (key, value) ∈ r.entries := by
  rw [touch] at h
  split at h
  · cases h
  · rename_i found
    cases h
    exact mem_of_peek? found

/-- A use adds no entry. -/
lemma mem_of_mem_touch {key : κ} {result : Option ν} {next : Recency κ ν}
    (h : r.touch key = (result, next)) {entry : κ × ν} (mem : entry ∈ next.entries) :
    entry ∈ r.entries := by
  rw [touch] at h
  split at h
  · cases h
    exact mem
  · rename_i value found
    cases h
    rcases List.mem_cons.mp mem with rfl | mem
    · exact mem_of_peek? found
    · exact List.mem_of_mem_filter mem

/-- Putting a value in adds no entry but this one. -/
lemma mem_of_mem_put {limit : Option Nat} {key : κ} {value : ν} {entry : κ × ν}
    (mem : entry ∈ (r.put limit key value).entries) : entry = (key, value) ∨ entry ∈ r.entries := by
  have kept : entry ∈ (key, value) :: (r.erase key).entries := by
    rw [put] at mem
    cases limit with
    | none => exact mem
    | some limit => exact List.mem_of_mem_take mem
  rcases List.mem_cons.mp kept with same | mem
  · exact .inl same
  · exact .inr (List.mem_of_mem_filter mem)

end Recency

/-- Every result that the cache remembers is the one that the table gives. -/
def LookupCache.Agrees (c : LookupCache) (t : Table α) : Prop :=
  ∀ entry ∈ c.memory.entries, entry.2 = t.resolve entry.1

namespace LookupCache

variable {c : LookupCache} {t : Table α}

/-- A new cache agrees with any table. -/
lemma agrees_ofCapacity (capacity : Capacity) (t : Table α) : (ofCapacity capacity).Agrees t := by
  intro entry mem
  cases mem

/-- So does a cleared one. -/
lemma agrees_clear (c : LookupCache) (t : Table α) : c.clear.Agrees t := by
  intro entry mem
  cases mem

/-- A lookup gives back what the table gives, and keeps the cache right. -/
lemma Agrees.lookup (agrees : c.Agrees t) (path : String) :
    (∀ result, (c.lookup path).1 = some result → result = t.resolve path) ∧
      (c.lookup path).2.Agrees t := by
  rw [LookupCache.lookup]
  split
  · cases h : c.memory.touch path with
    | mk result memory =>
      cases result with
      | none => exact ⟨fun _ missed => (nomatch missed), agrees⟩
      | some value =>
        refine ⟨?_, fun entry mem => agrees entry (Recency.mem_of_mem_touch h mem)⟩
        intro result same
        cases same
        exact agrees _ (Recency.mem_of_touch h)
  · exact ⟨fun _ missed => (nomatch missed), agrees⟩

/-- To remember what the table answers keeps the cache in agreement. -/
lemma Agrees.store (agrees : c.Agrees t) (path : String) :
    (c.store path (t.resolve path)).Agrees t := by
  rw [LookupCache.store]
  split
  · intro entry mem
    rcases Recency.mem_of_mem_put mem with rfl | mem
    · rfl
    · exact agrees entry mem
  · exact agrees

end LookupCache

/-! ### Routers -/

namespace Router

variable {r : Router α}

/-- Every result that is remembered is the one that the table gives. -/
def Coherent (r : Router α) : Prop := r.cache.Agrees r.table

/-- A coherent router resolves a path as its table does, and stays coherent. -/
lemma Coherent.resolve (coherent : r.Coherent) (path : String) :
    (r.resolve path).1 = r.table.resolve path ∧ (r.resolve path).2.Coherent := by
  obtain ⟨found, agrees⟩ := LookupCache.Agrees.lookup coherent path
  rw [Router.resolve]
  cases h : r.cache.lookup path with
  | mk result cache =>
    rw [h] at found agrees
    cases result with
    | none => exact ⟨rfl, agrees.store path⟩
    | some result => exact ⟨found result rfl, agrees⟩

/-- A coherent router finds what its table does, and stays coherent. -/
lemma Coherent.find (coherent : r.Coherent) (path : String) :
    (r.find path).1 = r.table.find path ∧ (r.find path).2.Coherent := by
  obtain ⟨same, next⟩ := coherent.resolve path
  refine ⟨?_, next⟩
  rw [Table.find, ← same]
  rfl

/-- A router of some routes begins coherent. -/
lemma coherent_ofTable (table : Table α) : (ofTable table).Coherent :=
  LookupCache.agrees_ofCapacity _ table

/-- A new router is coherent. -/
lemma coherent_ofConfig (config : Config) : (ofConfig config : Router α).Coherent :=
  LookupCache.agrees_ofCapacity _ _

/-- A copy is coherent, as it remembers nothing. -/
lemma coherent_copy (r : Router α) : r.copy.Coherent := LookupCache.agrees_ofCapacity _ _

/-- Clearing a router makes it coherent. -/
lemma coherent_clear (r : Router α) : r.clear.Coherent := LookupCache.agrees_clear _ _

/-- A change keeps a router coherent: either all is forgotten, or the table is as it was. -/
lemma Coherent.settle (coherent : r.Coherent) {β : Type} {change : Except RouteError β × Table α}
    (undone : r.table.Undone change) : (r.settle change).2.Coherent := by
  obtain ⟨result, table⟩ := change
  cases result with
  | ok value => exact LookupCache.agrees_clear _ _
  | error error =>
    -- nothing is forgotten, but the table is as it was
    have same : table = r.table := undone error rfl
    subst same
    exact coherent

/-- A malformed pattern changes nothing. -/
lemma Coherent.withPattern (coherent : r.Coherent) {β : Type} (text : String)
    {next : Pattern → Except RouteError β × Router α}
    (changed : ∀ pattern, (next pattern).2.Coherent) : (r.withPattern text next).2.Coherent := by
  rw [Router.withPattern]
  cases Route.parsePattern text with
  | error error => exact coherent
  | ok pattern => exact changed pattern

/-- An insertion keeps a router coherent, whether it succeeds or not. -/
lemma Coherent.insert (coherent : r.Coherent) (pattern : String) (resource : α) :
    (r.insert pattern resource).2.Coherent :=
  coherent.withPattern pattern fun p => coherent.settle (Table.undone_insert p resource _)

/-- A removal keeps a router coherent, whether it succeeds or not. -/
lemma Coherent.remove (coherent : r.Coherent) (pattern : String) :
    (r.remove pattern).2.Coherent :=
  coherent.withPattern pattern fun p => coherent.settle (Table.undone_remove p)

/-- A mount keeps a router coherent, whether it succeeds or not. -/
lemma Coherent.mount (coherent : r.Coherent) (base : String) (other : Router α) :
    (r.mount base other).2.Coherent :=
  coherent.withPattern base fun p => coherent.settle (Table.undone_mount p other.table _)

/-- Every use keeps a router coherent. -/
lemma Coherent.use (coherent : r.Coherent) (use : Use α) : (r.use use).Coherent := by
  cases use with
  | find path => exact (coherent.find path).2
  | isCached path => exact coherent
  | insert pattern resource => exact coherent.insert pattern resource
  | remove pattern => exact coherent.remove pattern
  | mount base other => exact coherent.mount base other
  | nest base build => exact coherent.mount base (build r.nested)
  | clear => exact coherent_clear r
  | copy => exact coherent_copy r
  | rebuild => exact coherent_ofTable r.table

/-- Any uses keep a router coherent. -/
lemma Coherent.foldl_use (coherent : r.Coherent) (uses : List (Use α)) :
    (uses.foldl Router.use r).Coherent := by
  induction uses generalizing r with
  | nil => exact coherent
  | cons use uses ih => exact ih (coherent.use use)

/-- After any uses a router remembers only what its table answers now; so it finds what the table finds,
and every resolution that it looks up still has its route. -/
theorem find_after_eq (config : Config) (uses : List (Use α)) :
    (∀ entry ∈ (after config uses).cache.memory.entries,
      entry.2 = (after config uses).table.resolve entry.1) ∧
    ∀ path, ((after config uses).find path).1 = (after config uses).table.find path ∧
      ∀ resolution ∈ ((after config uses).resolve path).1,
        ((after config uses).table.matchAt? resolution).isSome := by
  have coherent : (after config uses).Coherent := (coherent_ofConfig config).foldl_use uses
  refine ⟨coherent, ?_⟩
  intro path
  refine ⟨(coherent.find path).1, ?_⟩
  intro resolution resolved
  rw [(coherent.resolve path).1] at resolved
  exact Table.matchAt?_isSome resolved

/-- A change that fails leaves a path remembered, with the resolution that the table gives, and this still has
its route. -/
theorem find_after_eq_remembered :
    let r : Router Unit := after .default [.insert "/a" (), .find "/a", .remove "/b"]
    ∃ entry ∈ r.cache.memory.entries, entry.1 = "/a" ∧ entry.2 = r.table.resolve "/a" ∧
      ∃ resolution, entry.2 = some resolution ∧ (r.table.matchAt? resolution).isSome := by
  intro r
  have kept : r.cache.memory.keys = ["/a"] := by decide +kernel
  have found : (r.table.resolve "/a").isSome := by decide +kernel
  have resolved : (r.resolve "/a").1 = r.table.resolve "/a" := by decide +kernel
  obtain ⟨entry, mem, key⟩ := List.mem_map.mp (kept.symm ▸ List.mem_singleton_self "/a")
  obtain ⟨resolution, eq⟩ := Option.isSome_iff_exists.mp found
  obtain ⟨remembered, lookups⟩ := find_after_eq .default [.insert "/a" (), .find "/a", .remove "/b"]
  have right : entry.2 = r.table.resolve "/a" := key ▸ remembered entry mem
  exact ⟨entry, mem, key, right, resolution, right.trans eq,
    (lookups "/a").2 resolution (resolved.trans eq)⟩

end Router

end PathRouting

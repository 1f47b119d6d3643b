import Mathlib.Tactic.Lemma
import PathRouting.Cache.Basic
import PathRouting.Proofs.Lists

/-!
# A cache is known from its log

A log tells what a cache has gone through, without the cache: the paths that were looked up since all
results were last forgotten, and how many lookups there were. What a log lets a cache remember is a
function of it (`Log.recent`): the paths that were looked up last, each once, as many as the capacity has
room for. Every lookup keeps a cache to its log (`LookupCache.Recalls.hit`, `LookupCache.Recalls.miss`).
-/

namespace PathRouting

/-- The first elements, up to a limit if there is one. -/
def latest {κ : Type} : Option Nat → List κ → List κ
  | none, xs => xs
  | some limit, xs => xs.take limit

/-- There is nothing to keep of the empty list. -/
@[simp] lemma latest_nil {κ : Type} (limit : Option Nat) : latest limit ([] : List κ) = [] := by
  cases limit <;> simp [latest]

/-- A list that fits the limit is kept whole. -/
lemma latest_eq_self {κ : Type} {limit : Option Nat} {xs : List κ}
    (fits : ∀ n, limit = some n → xs.length ≤ n) : latest limit xs = xs := by
  cases limit with
  | none => rfl
  | some n => exact List.take_of_length_le (fits n rfl)

namespace Recency

variable {κ ν : Type} [DecidableEq κ] {r : Recency κ ν}

/-- A list of recent values contains the keys that it lists. -/
lemma contains_iff {key : κ} : r.contains key = true ↔ key ∈ r.keys := by
  rw [contains, peek?, List.lookup_isSome_iff, keys, List.mem_map]
  apply exists_congr
  intro entry
  rw [beq_iff_eq, eq_comm (a := key)]

/-- Erasing a key takes it out of the keys and leaves the others in their order. -/
lemma keys_erase (key : κ) : (r.erase key).keys = r.keys.filter (· != key) := by
  rw [erase, keys, keys, List.filter_map]
  rfl

/-- Putting a value in moves its key to the front and drops what is beyond the limit. -/
lemma keys_put (limit : Option Nat) (key : κ) (value : ν) :
    (r.put limit key value).keys = latest limit (key :: r.keys.filter (· != key)) := by
  rw [← keys_erase, put]
  cases limit with
  | none => rfl
  | some limit => exact List.map_take

/-- A use finds the value of a key that is there, and puts it in front. -/
lemma touch_cases (r : Recency κ ν) (key : κ) :
    (key ∉ r.keys ∧ r.touch key = (none, r)) ∨
    (key ∈ r.keys ∧ ∃ value next, r.touch key = (some value, next) ∧
      next.keys = key :: r.keys.filter (· != key)) := by
  rw [← contains_iff, contains, touch]
  cases h : r.peek? key with
  | none => exact .inl ⟨by simp, rfl⟩
  | some value =>
    refine .inr ⟨rfl, value, _, rfl, ?_⟩
    rw [← keys_erase]
    rfl

end Recency

/-! ### Logs -/

/-- What a cache went through. -/
structure Log where
  capacity : Capacity
  /-- The paths that were looked up since all results were last forgotten, the last one first. -/
  paths : List String
  /-- The number of lookups. -/
  finds : Nat
  /-- The number of lookups of a path that was remembered. -/
  hits : Nat
  deriving DecidableEq

namespace Log

/-- The log of a new cache. -/
def start (capacity : Capacity) : Log := ⟨capacity, [], 0, 0⟩

/-- The paths that were looked up, each once, the last one first. -/
def distinct (l : Log) : List String := l.paths.eraseDups

/-- The paths that are remembered: those looked up last. -/
def recent (l : Log) : List String := latest l.capacity.limit? l.distinct

/-- The log after a lookup of a path, which is a hit if the path is remembered. -/
def look (l : Log) (path : String) : Log where
  capacity := l.capacity
  paths := path :: l.paths
  finds := l.finds + 1
  hits := if path ∈ l.recent then l.hits + 1 else l.hits

/-- The log after all results were forgotten, which does not touch what was counted. -/
def forget (l : Log) : Log := { l with paths := [] }

/-- A lookup moves its path to the front. -/
lemma recent_look (l : Log) (path : String) :
    (l.look path).recent = latest l.capacity.limit? (path :: l.recent.filter (· != path)) := by
  have distinct : (l.look path).distinct = path :: l.distinct.filter (· != path) :=
    eraseDups_cons_eq path l.paths
  rw [recent, distinct, recent, look]
  cases l.capacity.limit? with
  | none => rfl
  | some limit =>
    cases limit with
    | zero => rfl
    | succ limit =>
      simp only [latest, List.take_succ_cons]
      exact congrArg _ (take_filter_take (nodup_eraseDups l.paths) path limit).symm

/-- No more paths are remembered than the capacity has room for. -/
lemma length_recent_le {l : Log} {limit : Nat} (bounded : l.capacity.limit? = some limit) :
    l.recent.length ≤ limit := by
  rw [recent, bounded]
  exact List.length_take_le ..

/-- A disabled cache remembers no path. -/
lemma recent_of_disabled {l : Log} (disabled : l.capacity.isEnabled = false) : l.recent = [] := by
  have none : l.capacity.limit? = some 0 := by simpa [Capacity.isEnabled] using disabled
  rw [recent, none]
  rfl

end Log

/-- What a lookup comes to: nothing at all, a miss, or a hit that moves the path to the front. -/
lemma LookupCache.lookup_cases (c : LookupCache) (path : String) :
    (c.capacity.isEnabled = false ∧ c.lookup path = (none, c)) ∨
    (c.capacity.isEnabled = true ∧ path ∉ c.memory.keys ∧
      c.lookup path = (none, { c with misses := c.misses + 1 })) ∨
    (c.capacity.isEnabled = true ∧ path ∈ c.memory.keys ∧ ∃ result memory,
      c.lookup path = (some result, { c with memory := memory, hits := c.hits + 1 }) ∧
        memory.keys = path :: c.memory.keys.filter (· != path)) := by
  rw [lookup]
  cases c.capacity.isEnabled with
  | false => exact .inl ⟨rfl, rfl⟩
  | true =>
    rcases c.memory.touch_cases path with ⟨fresh, same⟩ | ⟨mem, value, next, same, keys⟩
    · exact .inr (.inl ⟨rfl, fresh, by rw [same]; rfl⟩)
    · exact .inr (.inr ⟨rfl, mem, value, next, by rw [same]; rfl, keys⟩)

/-- What a cache remembers and has counted is what its log says. -/
structure LookupCache.Recalls (c : LookupCache) (l : Log) : Prop where
  capacity_eq : c.capacity = l.capacity
  keys_eq : c.memory.keys = l.recent
  hits_eq : c.hits = l.hits
  total_eq : c.hits + c.misses = if l.capacity.isEnabled then l.finds else 0

namespace LookupCache.Recalls

variable {c : LookupCache} {l : Log}

/-- A new cache keeps to the new log. -/
lemma ofCapacity (capacity : Capacity) : (LookupCache.ofCapacity capacity).Recalls (.start capacity) where
  capacity_eq := rfl
  keys_eq := (latest_nil _).symm
  hits_eq := rfl
  total_eq := by
    rw [Log.start]
    split <;> rfl

/-- Clearing a cache forgets its results and keeps its counters. -/
lemma clear (recalls : c.Recalls l) : c.clear.Recalls l.forget where
  capacity_eq := recalls.capacity_eq
  keys_eq := (latest_nil _).symm
  hits_eq := recalls.hits_eq
  total_eq := recalls.total_eq

/-- A lookup that finds a result keeps a cache to its log. -/
lemma hit (recalls : c.Recalls l) {path : String} {result : Option Resolution} {next : LookupCache}
    (found : c.lookup path = (some result, next)) : next.Recalls (l.look path) := by
  rcases c.lookup_cases path with
    ⟨-, same⟩ | ⟨-, -, same⟩ | ⟨enabled, mem, value, memory, same, keys⟩
  · cases same.symm.trans found
  · cases same.symm.trans found
  · cases same.symm.trans found
    rw [recalls.capacity_eq] at enabled
    rw [recalls.keys_eq] at mem keys
    have total := recalls.total_eq
    rw [if_pos enabled] at total
    constructor
    case capacity_eq => exact recalls.capacity_eq
    case keys_eq =>
      -- the path was there already, so moving it to the front drops none
      rw [Log.recent_look, keys, latest_eq_self]
      intro limit bounded
      have fits := Log.length_recent_le bounded
      have shorter : (l.recent.filter (· != path)).length < l.recent.length :=
        List.length_filter_lt_length_iff_exists.mpr ⟨path, mem, by simp⟩
      rw [List.length_cons]
      omega
    case hits_eq => rw [Log.look, if_pos mem, recalls.hits_eq]
    case total_eq =>
      rw [Log.look, if_pos enabled, ← total]
      exact Nat.add_right_comm ..

/-- So does one that finds none, once its result is stored. -/
lemma miss (recalls : c.Recalls l) {path : String} {next : LookupCache}
    (missed : c.lookup path = (none, next)) (result : Option Resolution) :
    (next.store path result).Recalls (l.look path) := by
  have hits := recalls.hits_eq
  have total := recalls.total_eq
  rcases c.lookup_cases path with
    ⟨disabled, same⟩ | ⟨enabled, fresh, same⟩ | ⟨-, -, value, memory, same, -⟩
  · -- nothing is stored and nothing is counted
    cases same.symm.trans missed
    have stored : c.store path result = c := by
      rw [LookupCache.store, disabled]
      rfl
    rw [recalls.capacity_eq] at disabled
    have bare : l.recent = [] := Log.recent_of_disabled disabled
    have bare' : (l.look path).recent = [] := Log.recent_of_disabled disabled
    rw [stored]
    constructor
    case capacity_eq => exact recalls.capacity_eq
    case keys_eq => rw [recalls.keys_eq, bare, bare']
    case hits_eq => rw [Log.look, bare, if_neg List.not_mem_nil, hits]
    case total_eq => simpa [Log.look, disabled] using total
  · cases same.symm.trans missed
    rw [recalls.keys_eq] at fresh
    rw [LookupCache.store, if_pos enabled]
    rw [recalls.capacity_eq] at enabled
    rw [if_pos enabled] at total
    constructor
    case capacity_eq => exact recalls.capacity_eq
    case keys_eq =>
      rw [Log.recent_look, Recency.keys_put, recalls.keys_eq, recalls.capacity_eq]
    case hits_eq => rw [Log.look, if_neg fresh, hits]
    case total_eq =>
      rw [Log.look, if_pos enabled, ← total]
      exact (Nat.add_assoc ..).symm
  · cases same.symm.trans missed

end LookupCache.Recalls

end PathRouting

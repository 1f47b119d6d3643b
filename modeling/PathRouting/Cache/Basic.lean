import PathRouting.Lookup.Search

/-!
# The cache of lookups

A cache remembers the resolution of paths, also that a path has none. With a bounded capacity it
forgets the path that was not looked up for the longest time. A cache that is disabled, or bounded by
zero, stores nothing and counts nothing.

Results are kept with the most recently used first (`Recency`). `Recency.touch` moves a key to the front,
and `Recency.put` places a value there and drops what a limit leaves no room for.
-/

namespace PathRouting

/-! ### Recency lists -/

/-- Values under keys, the most recently used first. -/
structure Recency (κ : Type) (ν : Type) where
  entries : List (κ × ν)

namespace Recency

variable {κ : Type} {ν : Type} [DecidableEq κ]

/-- The list without keys. -/
def empty : Recency κ ν := ⟨[]⟩

/-- The number of keys. -/
def size (r : Recency κ ν) : Nat := r.entries.length

/-- The keys, the most recently used first. -/
def keys (r : Recency κ ν) : List κ := r.entries.map Prod.fst

/-- The value of a key; this is no use of it. -/
def peek? (r : Recency κ ν) (key : κ) : Option ν := r.entries.lookup key

/-- Whether a key has a value; this is no use of it. -/
def contains (r : Recency κ ν) (key : κ) : Bool := (r.peek? key).isSome

/-- Takes a key away, and leaves the others in their order. -/
def erase (r : Recency κ ν) (key : κ) : Recency κ ν :=
  ⟨r.entries.filter fun entry => entry.1 != key⟩

/-- Keeps the most recently used keys, up to a limit if there is one. -/
def trim (r : Recency κ ν) : Option Nat → Recency κ ν
  | none => r
  | some limit => ⟨r.entries.take limit⟩

/-- Gives a key a value and uses it. -/
def put (r : Recency κ ν) (limit : Option Nat) (key : κ) (value : ν) : Recency κ ν :=
  trim ⟨(key, value) :: (r.erase key).entries⟩ limit

/-- The value of a key, and the list after this use of it. -/
def touch (r : Recency κ ν) (key : κ) : Option ν × Recency κ ν :=
  match r.peek? key with
  | none => (none, r)
  | some value => (some value, ⟨(key, value) :: (r.erase key).entries⟩)

end Recency

/-! ### The cache -/

/-- How many paths a cache remembers. -/
inductive Capacity where
  /-- Every path is searched. -/
  | disabled
  /-- At most this many paths are remembered; zero of them is the same as none. -/
  | bounded (limit : UInt64)
  | unbounded
  deriving DecidableEq, Repr

namespace Capacity

/-- The number of paths that are remembered at most; none without a bound. -/
def limit? : Capacity → Option Nat
  | disabled => some 0
  | bounded limit => some limit.toNat
  | unbounded => none

/-- Whether any path is remembered at all. -/
def isEnabled (c : Capacity) : Bool := c.limit? != some 0

end Capacity

/-- What a cache tells of itself: how many lookups it answered and how many it did not, how many results
it holds, and how many it may hold. -/
structure CacheStats where
  hits : Nat
  misses : Nat
  size : Nat
  limit : Option Nat
  deriving DecidableEq, Repr

/-- The results of lookups by their paths. -/
structure LookupCache where
  capacity : Capacity
  memory : Recency String (Option Resolution)
  hits : Nat
  misses : Nat

namespace LookupCache

/-- The cache that remembers nothing yet and counts from zero. -/
def ofCapacity (capacity : Capacity) : LookupCache := ⟨capacity, .empty, 0, 0⟩

/-- Whether the result of a path is remembered; this is no use of it. -/
def contains (c : LookupCache) (path : String) : Bool := c.memory.contains path

/-- The remembered result of a path, if there is one, and the cache after this lookup. -/
def lookup (c : LookupCache) (path : String) : Option (Option Resolution) × LookupCache :=
  if c.capacity.isEnabled then
    match c.memory.touch path with
    | (some result, memory) => (some result, { c with memory := memory, hits := c.hits + 1 })
    | (none, _) => (none, { c with misses := c.misses + 1 })
  else (none, c)

/-- Remembers the result of a path, unless the cache is disabled. -/
def store (c : LookupCache) (path : String) (result : Option Resolution) : LookupCache :=
  if c.capacity.isEnabled then
    { c with memory := c.memory.put c.capacity.limit? path result }
  else c

/-- Forgets every result; the counters go on. -/
def clear (c : LookupCache) : LookupCache := { c with memory := .empty }

/-- The counters, the number of results, and the limit of this number. -/
def stats (c : LookupCache) : CacheStats := ⟨c.hits, c.misses, c.memory.size, c.capacity.limit?⟩

end LookupCache

end PathRouting

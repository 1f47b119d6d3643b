import Mathlib.Data.List.Permutation
import PathRouting.Proofs.Router.Failures

/-!
# What a strict mount keeps

A strict mount is meant to replace nothing. It looks for the addresses of the other table before the first
of them is registered, so two routes that come to one address below the base escape it: the second one
replaces the first. `Router.strict_mount_lossless_iff` says that this is the only way for a strict mount to
lose a route, and `Router.strict_mount_merges_roots` is the smallest one that does.
-/

namespace PathRouting

variable {α : Type}

namespace Table

variable {t : Table α}

/-- Registers patterns one after the other, up to the first whose address is taken. -/
def insertAllStrict : List (Pattern × α) → Table α → Except RouteError Unit × Table α
  | [], t => (.ok (), t)
  | (pattern, resource) :: rest, t =>
    match t.insert pattern resource true with
    | (.error error, next) => (.error error, next)
    | (.ok _, next) => insertAllStrict rest next

/-- A table has the routes of two tables, those of the second one below a base: nothing was replaced. -/
structure Lossless (t : Table α) (base : Pattern) (other next : Table α) : Prop where
  size_eq : next.size = t.size + other.size
  kept : ∀ r ∈ t.toList, next.get? r.pattern = some r
  mounted : ∀ q ∈ other.toList, ∃ joined, base.join q.pattern = .ok joined ∧
    (next.get? joined).map Route.resource = some q.resource
  /-- The joined patterns can be registered one after the other, each at an address that is free. -/
  registers : ∃ entries,
    List.Forall₂ (fun q e => base.join q.pattern = .ok e.1 ∧ e.2 = q.resource) other.history entries ∧
      insertAllStrict entries t = (.ok (), next)

/-- A strict insertion at a free address is a registration. -/
lemma Indexed.insert_strict (indexed : t.Indexed) {pattern : Pattern} (vacant : t.get? pattern = none)
    (resource : α) :
    t.insert pattern resource true = (.ok none, (t.register pattern resource).2) := by
  rw [insert_of_vacant vacant, indexed.fst_register, vacant]

/-- Free registrations are not refused. -/
lemma Valid.insertAllStrict_eq (valid : t.Valid) {entries : List (Pattern × α)}
    (free : t.Free entries) : Table.insertAllStrict entries t = Table.insertAll entries t := by
  induction entries generalizing t with
  | nil => rfl
  | cons entry entries ih =>
    obtain ⟨vacant, free⟩ := valid.free_cons_iff.mp free
    rw [Table.insertAllStrict, valid.insert_strict vacant, insertAll_cons]
    exact ih (valid.register entry.1 entry.2) free

/-- Routes that are registered at free addresses are all there, with those that were there before. -/
lemma Valid.lossless (valid : t.Valid) {base : Pattern} {other : Table α} (valid' : other.Valid)
    {entries : List (Pattern × α)}
    (joined : List.Forall₂ (fun q e => base.join q.pattern = .ok e.1 ∧ e.2 = q.resource)
      other.history entries)
    (free : t.Free entries) : t.Lossless base other (Table.insertAll entries t).2 := by
  have next := valid.insertAll entries
  have history := valid.history_insertAll free
  obtain ⟨pairs, first, second, below⟩ := exists_pairs (Route.below_numbered joined t.nextPriority)
  constructor
  case size_eq =>
    rw [next.size_eq, history, List.length_append, Route.length_numbered, valid.size_eq,
      valid'.size_eq, joined.length_eq]
  case kept =>
    intro r mem
    rw [← next.mem_history_iff, history]
    apply List.mem_append_left
    rwa [valid.mem_history_iff, ← valid.mem_toList_iff]
  case mounted =>
    intro q mem
    rw [mem_toList_iff_mem_history, ← first] at mem
    obtain ⟨e, memE, rfl⟩ := List.mem_map.mp mem
    obtain ⟨join, resource⟩ := below e memE
    -- free registrations come behind the history as they are, so each is found at its own address
    have held : (Table.insertAll entries t).2.get? e.2.pattern = some e.2 := by
      rw [← next.mem_history_iff, history, ← second]
      exact List.mem_append_right _ (List.mem_map_of_mem memE)
    exact ⟨e.2.pattern, join, by rw [held, Option.map_some, resource]⟩
  case registers =>
    refine ⟨entries, joined, ?_⟩
    rw [valid.insertAllStrict_eq free]
    exact Prod.ext (fst_insertAll entries t) rfl

/-- A strict mount that succeeds loses a route exactly if the base merges two of them. -/
lemma Valid.lossless_mount_iff (valid : t.Valid) {base : Pattern} {other next : Table α}
    (valid' : other.Valid) (mounted : t.mount base other true = (.ok (), next)) :
    t.Lossless base other next ↔ ¬base.Merges other := by
  obtain ⟨entries, staged, rfl⟩ := mount_eq_ok_iff.mp mounted
  have checked := staged.imp fun q e h => stage_eq_ok_iff.mp h
  have apart := valid'.apart_joined_iff (checked.imp fun q e h => h.1)
  constructor
  · intro lossless
    rw [← apart]
    -- the table has grown by as many routes as were registered
    refine (valid.free_of_size_insertAll ?_).apart
    rw [lossless.size_eq, valid'.size_eq, staged.length_eq]
  · intro notMerged
    refine valid.lossless valid' (checked.imp fun q e h => ⟨h.1, h.2.1⟩) ⟨?_, apart.mpr notMerged⟩
    obtain ⟨pairs, -, rfl, all⟩ := exists_pairs checked
    intro e mem
    obtain ⟨pair, memPair, rfl⟩ := List.mem_map.mp mem
    exact (all pair memPair).2.2 rfl

end Table

namespace Router

variable {r : Router α}

/-- A router mounts another one as its table does. -/
lemma table_mount {text : String} {base : Pattern} {other next : Router α}
    (parsed : Pattern.parse text = .ok base) (mounted : r.mount text other = (.ok (), next)) :
    r.table.mount base other.table r.config.strict = (.ok (), next.table) := by
  rw [Router.mount, withPattern, Route.parsePattern, parsed] at mounted
  replace mounted : r.settle (r.table.mount base other.table r.config.strict) = (.ok (), next) :=
    mounted
  generalize r.table.mount base other.table r.config.strict = change at mounted ⊢
  obtain ⟨result, table⟩ := change
  cases result <;> cases mounted
  rfl

/-- A strict mount that succeeds keeps all routes, of the table and of the router that is mounted or
built, unless the base gives two of them one address; and then it loses one. -/
theorem strict_mount_lossless_iff (changes others : List (Change α)) (config config' : Config)
    (uses uses' : List (Use α)) (base : Pattern) :
    (∀ next, (Table.after changes).mount base (Table.after others) true = (.ok (), next) →
      ((Table.after changes).Lossless base (Table.after others) next ↔
        ¬base.Merges (Table.after others))) ∧
    let r := after config uses
    let other := after config' uses'
    ∀ text next, r.config.strict = true → Pattern.parse text = .ok base →
      (r.mount text other = (.ok (), next) →
        (r.table.Lossless base other.table next.table ↔ ¬base.Merges other.table)) ∧
      ∀ build, build r.nested = other → r.nest text build = (.ok (), next) →
        (r.table.Lossless base other.table next.table ↔ ¬base.Merges other.table) := by
  refine ⟨fun next mounted => ?_, ?_⟩
  · exact (Table.valid_after changes).lossless_mount_iff (Table.valid_after others) mounted
  · intro r other text next strict parsed
    have lossless : r.mount text other = (.ok (), next) →
        (r.table.Lossless base other.table next.table ↔ ¬base.Merges other.table) := by
      intro mounted
      have table := table_mount parsed mounted
      rw [strict] at table
      exact (valid_after config uses).lossless_mount_iff (valid_after config' uses') table
    refine ⟨lossless, ?_⟩
    rintro build built mounted
    rw [nest, built] at mounted
    exact lossless mounted

/-- Below a base that does not end in a greedy segment both roots are kept. -/
theorem strict_mount_lossless_iff_literal :
    let base : Pattern := ⟨[.literal "a"], .no, by decide, by decide, by decide⟩
    let other : Table Nat := Table.after [
      .insert ⟨[.literal ""], .no, by decide, by decide, by decide⟩ 1 true,
      .insert ⟨[.literal ""], .yes, by decide, by decide, by decide⟩ 2 true]
    ((Table.after []).mount base other true).1 = .ok () ∧
      (Table.after []).Lossless base other ((Table.after []).mount base other true).2 := by
  intro base other
  have succeeds : ((Table.after []).mount base other true).1 = .ok () := by
    simp only [base, other]
    cbv
  have notMerged : ¬base.Merges other := fun merges => absurd merges.1 (by decide)
  refine ⟨succeeds, ?_⟩
  exact ((strict_mount_lossless_iff [] _ .default .default [] [] base).1 _
    (Prod.ext succeeds rfl)).mpr notMerged

/-- Below a base that ends in a greedy segment the root with a slash replaces the root without one, although
the mount is strict. -/
theorem strict_mount_merges_roots :
    let base : Pattern := ⟨[.greedy "x"], .indeterminate, by decide, by decide, by decide⟩
    let other : Table Nat := Table.after [
      .insert ⟨[.literal ""], .no, by decide, by decide, by decide⟩ 1 true,
      .insert ⟨[.literal ""], .yes, by decide, by decide, by decide⟩ 2 true]
    ((Table.after []).mount base other true).1 = .ok () ∧ other.size = 2 ∧
      ((Table.after []).mount base other true).2.size = 1 := by
  cbv

end Router

end PathRouting

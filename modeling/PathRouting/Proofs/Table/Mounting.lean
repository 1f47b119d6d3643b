import PathRouting.Proofs.Lists
import PathRouting.Proofs.Pattern.Join
import PathRouting.Proofs.Table.Refinement

/-!
# Mounts

A mount checks the routes of the other table one by one, and registers them only if it refuses none
(`Table.mount_eq_ok_iff`, `Table.mount_eq_error_iff`). Registrations at addresses that are free and
differ come behind the routes of the table and replace none of them (`Table.Valid.history_insertAll`);
only then does the table grow by as many routes (`Table.Valid.free_of_size_insertAll`). The joined
addresses of a mount differ unless the base merges two roots (`Pattern.Merges`).
-/

namespace PathRouting

variable {α : Type}

/-- The routes of some registrations, numbered from a number on. -/
def Route.numbered : Nat → List (Pattern × α) → List (Route α)
  | _, [] => []
  | number, (pattern, resource) :: rest =>
    ⟨pattern, resource, number⟩ :: numbered (number + 1) rest

/-- Numbering adds no route and drops none. -/
lemma Route.length_numbered (number : Nat) (entries : List (Pattern × α)) :
    (numbered number entries).length = entries.length := by
  induction entries generalizing number with
  | nil => rfl
  | cons entry entries ih => exact congrArg (· + 1) (ih _)

/-- What a route is, apart from its number. -/
def Route.entry (r : Route α) : Pattern × α := (r.pattern, r.resource)

/-- Numbering leaves the entries as they are. -/
lemma Route.map_entry_numbered (number : Nat) (entries : List (Pattern × α)) :
    (numbered number entries).map entry = entries := by
  induction entries generalizing number with
  | nil => rfl
  | cons first rest ih => exact congrArg (first :: ·) (ih _)

/-- The route is that of another one below a base. -/
structure Route.Below (base : Pattern) (q r : Route α) : Prop where
  joined : base.join q.pattern = .ok r.pattern
  resource_eq : r.resource = q.resource

/-- What was joined to a base stays below it under any numbers. -/
lemma Route.below_numbered {base : Pattern} {routes : List (Route α)} {entries : List (Pattern × α)}
    (staged : List.Forall₂ (fun q e => base.join q.pattern = .ok e.1 ∧ e.2 = q.resource) routes entries)
    (number : Nat) : List.Forall₂ (Below base) routes (numbered number entries) := by
  induction staged generalizing number with
  | nil => exact .nil
  | cons here _ ih => exact .cons ⟨here.1, here.2⟩ (ih _)

/-- The base gives two routes of a table one address: the root with a slash and the one without. -/
def Pattern.Merges (base : Pattern) (t : Table α) : Prop :=
  endsGreedy base.segments = true ∧ ∃ q ∈ t.toList, ∃ s ∈ t.toList,
    q.pattern.isRoot = true ∧ s.pattern.isRoot = true ∧ q.pattern.trailing ≠ s.pattern.trailing

namespace Table

variable {t : Table α}

/-- The routes in their order are those of the history. -/
lemma mem_toList_iff_mem_history {route : Route α} : route ∈ t.toList ↔ route ∈ t.history :=
  (t.toList_perm.trans t.history_perm.symm).mem_iff

/-- The routes of a table are those of any list that makes its history. -/
lemma mem_toList_iff_of_map {β : Type} {items : List β} {f : β → Route α}
    (listed : items.map f = t.history) {route : Route α} :
    route ∈ t.toList ↔ ∃ item ∈ items, f item = route := by
  rw [mem_toList_iff_mem_history, ← listed, List.mem_map]

/-! ### Registrations -/

/-- The addresses of some registrations are free, and they differ. -/
structure Free (t : Table α) (entries : List (Pattern × α)) : Prop where
  vacant : ∀ e ∈ entries, t.get? e.1 = none
  apart : (entries.map fun e => e.1.address).Nodup

/-- At a free address a strict registration is like any other. -/
lemma insert_of_vacant {pattern : Pattern} (vacant : t.get? pattern = none) (resource : α)
    (strict : Bool) : t.insert pattern resource strict =
      (.ok (t.register pattern resource).1, (t.register pattern resource).2) := by
  cases strict with
  | false => rfl
  | true => simp [insert, vacant]

/-- The first entry is registered before the others. -/
lemma insertAll_cons (entry : Pattern × α) (rest : List (Pattern × α)) (t : Table α) :
    insertAll (entry :: rest) t = insertAll rest (t.register entry.1 entry.2).2 := rfl

/-- Inserting patterns without strictness never fails. -/
lemma fst_insertAll (entries : List (Pattern × α)) (t : Table α) :
    (insertAll entries t).1 = .ok () := by
  rw [insertAll_eq]

/-- Inserting patterns keeps a table valid. -/
lemma Valid.insertAll (valid : t.Valid) (entries : List (Pattern × α)) :
    (Table.insertAll entries t).2.Valid := by
  rw [insertAll_eq]
  exact (valid.registerAll entries).1

/-- Registrations are free if the first one is and, with it done, the others are. -/
lemma Indexed.free_cons_iff (indexed : t.Indexed) {entry : Pattern × α}
    {rest : List (Pattern × α)} : t.Free (entry :: rest) ↔
      t.get? entry.1 = none ∧ (t.register entry.1 entry.2).2.Free rest := by
  have differ : ∀ e ∈ rest, (t.register entry.1 entry.2).2.get? e.1 = none ↔
      t.get? e.1 = none ∧ e.1.address ≠ entry.1.address := by
    intro e _
    rw [indexed.get?_register]
    split
    · rename_i same
      simp [same]
    · rename_i other
      simp [other]
  constructor
  · intro ⟨vacant, apart⟩
    rw [List.map_cons, List.nodup_cons, List.mem_map] at apart
    obtain ⟨fresh, apart⟩ := apart
    refine ⟨vacant entry List.mem_cons_self, ⟨fun e mem => (differ e mem).mpr ⟨?_, ?_⟩, apart⟩⟩
    · exact vacant e (List.mem_cons_of_mem _ mem)
    · exact fun same => fresh ⟨e, mem, same⟩
  · intro ⟨first, ⟨vacant, apart⟩⟩
    constructor
    case vacant =>
      rintro e (_ | ⟨_, mem⟩)
      · exact first
      · exact ((differ e mem).mp (vacant e mem)).1
    case apart =>
      rw [List.map_cons, List.nodup_cons, List.mem_map]
      refine ⟨?_, apart⟩
      rintro ⟨e, mem, same⟩
      exact ((differ e mem).mp (vacant e mem)).2 same

/-- A registration at a free address comes behind all routes. -/
lemma Indexed.history_register (indexed : t.Indexed) {pattern : Pattern} {resource : α}
    (vacant : t.get? pattern = none) : (t.register pattern resource).2.history =
      t.history ++ [⟨pattern, resource, t.nextPriority⟩] := by
  have erased : (t.ledger.erase pattern.address).routes = t.history := by
    apply List.filter_eq_self.mpr
    intro r mem
    have held := indexed.mem_history_iff.mp mem
    apply bne_iff_ne.mpr
    intro same
    rw [get?, same] at held
    cases vacant.symm.trans held
  have recorded := congrArg Ledger.routes (indexed.ledger_register pattern resource)
  rw [Ledger.record, erased] at recorded
  exact recorded

/-- Free registrations come behind all routes, in their order. -/
lemma Valid.history_insertAll (valid : t.Valid) {entries : List (Pattern × α)}
    (free : t.Free entries) :
    (Table.insertAll entries t).2.history = t.history ++ Route.numbered t.nextPriority entries := by
  induction entries generalizing t with
  | nil => exact (List.append_nil _).symm
  | cons entry entries ih =>
    obtain ⟨vacant, free⟩ := valid.free_cons_iff.mp free
    rw [insertAll_cons, ih (valid.register entry.1 entry.2) free, valid.history_register vacant,
      List.append_assoc]
    rfl

/-- A registration raises the size unless it replaces a route. -/
lemma Indexed.size_register (indexed : t.Indexed) (pattern : Pattern) (resource : α) :
    (t.register pattern resource).2.size =
      if (t.get? pattern).isSome then t.size else t.size + 1 := by
  rw [← indexed.fst_register pattern resource]
  rfl

/-- Registrations raise the size by their number at most. -/
lemma Valid.size_insertAll_le (valid : t.Valid) (entries : List (Pattern × α)) :
    (Table.insertAll entries t).2.size ≤ t.size + entries.length := by
  induction entries generalizing t with
  | nil => exact Nat.le_refl _
  | cons entry entries ih =>
    have next := ih (valid.register entry.1 entry.2)
    rw [valid.size_register] at next
    rw [insertAll_cons, List.length_cons]
    split at next <;> omega

/-- Only free registrations make the table grow by their number. -/
lemma Valid.free_of_size_insertAll (valid : t.Valid) {entries : List (Pattern × α)}
    (size : (Table.insertAll entries t).2.size = t.size + entries.length) : t.Free entries := by
  induction entries generalizing t with
  | nil => exact ⟨by simp, List.nodup_nil⟩
  | cons entry entries ih =>
    have registered := valid.register entry.1 entry.2
    have most := registered.size_insertAll_le entries
    rw [insertAll_cons, List.length_cons] at size
    rw [valid.size_register] at most
    cases h : t.get? entry.1 with
    | some existing =>
      -- the first registration replaces a route, and the others add one each at most
      rw [h, Option.isSome_some, if_pos rfl] at most
      omega
    | none =>
      refine valid.free_cons_iff.mpr ⟨h, ih registered ?_⟩
      rw [valid.size_register, h]
      simp only [Option.isSome_none, Bool.false_eq_true, if_false]
      omega

/-! ### Mounts -/

/-- A check passes a route that can be joined to the base, and whose address is free if it is strict. -/
lemma stage_eq_ok_iff {base : Pattern} {strict : Bool} {q : Route α} {entry : Pattern × α} :
    t.stage base strict q = .ok entry ↔ base.join q.pattern = .ok entry.1 ∧ entry.2 = q.resource ∧
      (strict = true → t.get? entry.1 = none) := by
  obtain ⟨pattern, resource⟩ := entry
  rw [stage]
  cases base.join q.pattern with
  | error cause => simp
  | ok joined =>
    simp only [contains, Bool.and_eq_true]
    split
    · rename_i taken
      simp only [reduceCtorEq, false_iff, Except.ok.injEq]
      rintro ⟨rfl, -, vacant⟩
      rw [vacant taken.1] at taken
      cases taken.2
    · rename_i free
      simp only [Except.ok.injEq, Prod.mk.injEq]
      constructor
      · rintro ⟨rfl, rfl⟩
        exact ⟨rfl, rfl, fun strict => by simpa [strict] using free⟩
      · rintro ⟨rfl, rfl, -⟩
        exact ⟨rfl, rfl⟩

/-- A mount succeeds if every check does, and then it registers what was checked. -/
lemma mount_eq_ok_iff {base : Pattern} {other next : Table α} {strict : Bool} :
    t.mount base other strict = (.ok (), next) ↔ ∃ staged,
      List.Forall₂ (fun q e => t.stage base strict q = .ok e) other.history staged ∧
        next = (insertAll staged t).2 := by
  rw [mount]
  simp only [← mapM_eq_ok_iff]
  cases other.history.mapM (t.stage base strict) with
  | error error => simp
  | ok staged => simp [Prod.ext_iff, fst_insertAll, eq_comm]

/-- A mount fails at the first route that is refused. -/
lemma mount_eq_error_iff {base : Pattern} {other : Table α} {strict : Bool} {error : RouteError} :
    (t.mount base other strict).1 = .error error ↔
      ∃ front q back, other.history = front ++ q :: back ∧
        (∀ s ∈ front, ∃ e, t.stage base strict s = .ok e) ∧
        t.stage base strict q = .error error := by
  rw [← mapM_eq_error_iff, mount]
  cases other.history.mapM (t.stage base strict) with
  | error refusal => simp
  | ok staged => simp [fst_insertAll]

/-- Different routes are apart below a base exactly if it does not merge two of them. -/
lemma Indexed.apart_joined_iff {base : Pattern} {other : Table α} (indexed : other.Indexed)
    {entries : List (Pattern × α)}
    (joined : List.Forall₂ (fun q e => base.join q.pattern = .ok e.1) other.history entries) :
    (entries.map fun e => e.1.address).Nodup ↔ ¬base.Merges other := by
  obtain ⟨pairs, first, rfl, all⟩ := exists_pairs joined
  have listed : ∀ {q}, q ∈ other.toList ↔ ∃ e ∈ pairs, e.1 = q := mem_toList_iff_of_map first
  constructor
  · rintro apart ⟨greedy, q, memQ, s, memS, rootQ, rootS, differ⟩
    obtain ⟨e, memE, rfl⟩ := listed.mp memQ
    obtain ⟨f, memF, rfl⟩ := listed.mp memS
    have same := (Pattern.address_join_eq_iff (all e memE) (all f memF)).mpr
      (.inr ⟨greedy, rootQ, rootS⟩)
    rw [List.map_map] at apart
    rw [List.inj_on_of_nodup_map apart memE memF same] at differ
    exact differ rfl
  · intro notMerged
    have apart : (pairs.map Prod.fst).Pairwise fun q s => q.pattern.address ≠ s.pattern.address := by
      rw [first]
      exact List.pairwise_map.mp indexed.addresses_nodup
    rw [List.pairwise_map] at apart
    rw [List.map_map, List.Nodup, List.pairwise_map]
    apply apart.imp_of_mem
    intro e f memE memF differ same
    -- two joined addresses are the same for equal addresses, or for two roots below a greedy end
    rcases (Pattern.address_join_eq_iff (all e memE) (all f memF)).mp same with
      same | ⟨greedy, rootE, rootF⟩
    · exact differ same
    · refine notMerged ⟨greedy, e.1, listed.mpr ⟨e, memE, rfl⟩, f.1, listed.mpr ⟨f, memF, rfl⟩,
        rootE, rootF, ?_⟩
      intro trailing
      apply differ
      rw [Pattern.address_eq_iff, Pattern.core_of_isRoot rootE, Pattern.core_of_isRoot rootF]
      exact ⟨rfl, trailing⟩

end Table

end PathRouting

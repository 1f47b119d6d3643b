import Mathlib.Data.List.Pairwise
import PathRouting.Proofs.Lookup.Renumbering
import PathRouting.Proofs.Pattern.Concatenation

/-!
# Nested mounts

A table that is mounted below a base, with the result mounted below another one, comes to the table mounted below
the join of both bases at once (`Table.mount_mount`). Of the registrations that a table went through those stand
that no later one replaces (`survivors`, `Table.Valid.entries_insertAll`). The inner mount drops some that
the outer one would have dropped as well, so what stands in the end is the same (`exists_standing`).
-/

namespace PathRouting

variable {α β : Type}

/-! ### What stands of some registrations -/

/-- The entries without a later one at the same address. -/
def survivors (entries : List (Pattern × α)) : List (Pattern × α) :=
  entries.pwFilter fun e f => e.1.address ≠ f.1.address

/-- What differs at both ends differs on one side of anything between. -/
lemma ne_or_ne {f : β → Address} {x y z : β} (differ : f x ≠ f z) : f x ≠ f y ∨ f y ≠ f z := by
  by_contra both
  rw [not_or, not_not, not_not] at both
  exact differ (both.1.trans both.2)

/-- In front of a coarser filter a finer one changes nothing. -/
lemma pwFilter_pwFilter {f g : β → Address} {xs : List β}
    (coarser : ∀ x ∈ xs, ∀ y ∈ xs, f x = f y → g x = g y) :
    (xs.pwFilter fun x y => f x ≠ f y).pwFilter (fun x y => g x ≠ g y) =
      xs.pwFilter fun x y => g x ≠ g y := by
  induction xs with
  | nil => rfl
  | cons x xs ih =>
    have ih := ih fun y memY z memZ =>
      coarser y (List.mem_cons_of_mem x memY) z (List.mem_cons_of_mem x memZ)
    by_cases apart : ∀ y ∈ xs.pwFilter (fun x y => f x ≠ f y), f x ≠ f y
    · rw [List.pwFilter_cons_of_pos apart]
      exact congrArg (fun kept => if ∀ y ∈ kept, g x ≠ g y then x :: kept else kept) ih
    · -- what the finer filter drops has a partner behind it, for which the coarser one drops it
      rw [List.pwFilter_cons_of_neg apart, ih]
      push Not at apart
      obtain ⟨y, mem, same⟩ := apart
      have mem := List.pwFilter_subset xs mem
      refine (List.pwFilter_cons_of_neg ?_).symm
      rw [List.forall_mem_pwFilter ne_or_ne]
      intro apart
      exact apart y mem (coarser x List.mem_cons_self y (List.mem_cons_of_mem x mem) same)

/-- Of entries at different addresses all stand. -/
lemma survivors_eq_self {entries : List (Pattern × α)}
    (nodup : (entries.map fun e => e.1.address).Nodup) : survivors entries = entries :=
  List.pwFilter_eq_self.mpr (List.pairwise_map.mp nodup)

/-- An address that no survivor has is one that no entry has. -/
lemma forall_mem_survivors_iff (e : Pattern × α) (entries : List (Pattern × α)) :
    (∀ f ∈ survivors entries, e.1.address ≠ f.1.address) ↔
      ∀ f ∈ entries, e.1.address ≠ f.1.address :=
  List.forall_mem_pwFilter ne_or_ne e entries

/-- An entry stands unless there is another one at its address behind it. -/
lemma survivors_cons (e : Pattern × α) (entries : List (Pattern × α)) :
    survivors (e :: entries) =
      if ∀ f ∈ entries, e.1.address ≠ f.1.address then e :: survivors entries
      else survivors entries := by
  simp only [← forall_mem_survivors_iff e entries]
  rfl

/-- Of what comes last only its own survivors count. -/
lemma survivors_append_congr (front : List (Pattern × α)) {back back' : List (Pattern × α)}
    (same : survivors back = survivors back') :
    survivors (front ++ back) = survivors (front ++ back') := by
  induction front with
  | nil => exact same
  | cons e front ih =>
    rw [List.cons_append, List.cons_append, survivors_cons, survivors_cons]
    simp only [← forall_mem_survivors_iff e (front ++ _), ih]

/-- One more entry drops the one at its address. -/
lemma survivors_concat (entries : List (Pattern × α)) (last : Pattern × α) :
    survivors (entries ++ [last]) =
      (survivors entries).filter (fun e => e.1.address != last.1.address) ++ [last] := by
  induction entries with
  | nil => rfl
  | cons e entries ih =>
    rw [List.cons_append, survivors_cons, survivors_cons, ih]
    simp only [List.forall_mem_append, List.forall_mem_singleton]
    by_cases others : ∀ f ∈ entries, e.1.address ≠ f.1.address
    · by_cases same : e.1.address = last.1.address
      · rw [if_neg fun h => h.2 same, if_pos others, List.filter_cons_of_neg (by simpa using same)]
      · rw [if_pos ⟨others, same⟩, if_pos others, List.filter_cons_of_pos (by simpa using same),
          List.cons_append]
    · rw [if_neg fun h => others h.1, if_neg others]

namespace Ledger

/-- Recording an entry strikes out the one at its address and writes it at the end. -/
lemma entries_record (l : Ledger α) (pattern : Pattern) (resource : α) :
    (l.record pattern resource).routes.map Route.entry =
      (l.routes.map Route.entry).filter (fun e => e.1.address != pattern.address) ++
        [(pattern, resource)] := by
  rw [record, List.map_append, erase, List.filter_map]
  rfl

/-- What stands in a ledger are the survivors of what was recorded. -/
lemma entries_foldl_record {l : Ledger α} {front : List (Pattern × α)}
    (standing : l.routes.map Route.entry = survivors front) (entries : List (Pattern × α)) :
    (entries.foldl (fun l e => l.record e.1 e.2) l).routes.map Route.entry =
      survivors (front ++ entries) := by
  induction entries generalizing l front with
  | nil => rw [List.append_nil, List.foldl_nil, standing]
  | cons entry entries ih =>
    have next : (l.record entry.1 entry.2).routes.map Route.entry = survivors (front ++ [entry]) := by
      rw [entries_record, survivors_concat, standing]
    rw [List.foldl_cons, ih next, List.append_assoc, List.singleton_append]

end Ledger

/-! ### Below two bases -/

/-- The pattern is that of another entry below a base, with the same resource. -/
structure Mounted (base : Pattern) (e f : Pattern × α) : Prop where
  joined : base.join e.1 = .ok f.1
  resource_eq : f.2 = e.2

variable {a b ab : Pattern}

/-- Joining to the join of two bases is joining to the one and then to the other. -/
lemma Pattern.join_join_of_join {c abc : Pattern} (joined : a.join b = .ok ab) :
    ab.join c = .ok abc ↔ ∃ bc, b.join c = .ok bc ∧ a.join bc = .ok abc := by
  have left : (a.join b >>= fun ab => ab.join c) = ab.join c := by
    rw [joined]
    rfl
  rw [← left, join_join_eq_ok_iff, ← join_join_eq_ok_iff']
  cases b.join c with
  | error cause => simp [bind, Except.bind]
  | ok bc => simp [bind, Except.bind]

/-- What can be mounted below the join of two bases can be mounted below the one and then below the other. -/
lemma exists_nested (joined : a.join b = .ok ab) {entries : List (Pattern × α)}
    (joins : ∀ e ∈ entries, ∃ abe, ab.join e.1 = .ok abe) :
    ∃ pairs : List ((Pattern × α) × (Pattern × α)),
      List.Forall₂ (Mounted b) entries (pairs.map Prod.fst) ∧
      List.Forall₂ (Mounted ab) entries (pairs.map Prod.snd) ∧
      ∀ e ∈ pairs, Mounted a e.1 e.2 := by
  induction entries with
  | nil => exact ⟨[], .nil, .nil, by simp⟩
  | cons e entries ih =>
    obtain ⟨⟨abe, outer⟩, joins⟩ := List.forall_mem_cons.mp joins
    obtain ⟨be, inner, nested⟩ := (Pattern.join_join_of_join joined).mp outer
    obtain ⟨pairs, inners, outers, all⟩ := ih joins
    refine ⟨((be, e.2), (abe, e.2)) :: pairs, .cons ⟨inner, rfl⟩ inners, .cons ⟨outer, rfl⟩ outers, ?_⟩
    exact List.forall_mem_cons.mpr ⟨⟨nested, rfl⟩, all⟩

/-- Mounting what stands of some entries leaves what stands of all of them: a base keeps two entries at one
address together. -/
lemma exists_standing {pairs : List ((Pattern × α) × (Pattern × α))}
    (mounted : ∀ e ∈ pairs, Mounted a e.1 e.2) :
    ∃ standing, List.Forall₂ (Mounted a) (survivors (pairs.map Prod.fst)) standing ∧
      survivors standing = survivors (pairs.map Prod.snd) := by
  -- entries at one address are at one address below the base, so the outer filter is the coarser one
  have coarser : ∀ e ∈ pairs, ∀ f ∈ pairs,
      e.1.1.address = f.1.1.address → e.2.1.address = f.2.1.address := by
    intro e memE f memF same
    exact (Pattern.address_join_eq_iff (mounted e memE).joined (mounted f memF).joined).mpr (.inl same)
  refine ⟨(pairs.pwFilter fun e f => e.1.1.address ≠ f.1.1.address).map Prod.snd, ?_, ?_⟩
  · rw [survivors, List.pwFilter_map, List.forall₂_map_left_iff, List.forall₂_map_right_iff,
      List.forall₂_same]
    exact fun e mem => mounted e (List.pwFilter_subset pairs mem)
  · rw [survivors, survivors, List.pwFilter_map, List.pwFilter_map, pwFilter_pwFilter coarser]

namespace Table

variable {t other : Table α}

/-- After some registrations the routes are the survivors of those that were there and of the new ones. -/
lemma Valid.entries_insertAll (valid : t.Valid) (entries : List (Pattern × α)) :
    (Table.insertAll entries t).2.history.map Route.entry =
      survivors (t.history.map Route.entry ++ entries) := by
  have ledger := (valid.registerAll entries).2
  have start : t.ledger.routes.map Route.entry = survivors (t.history.map Route.entry) := by
    refine (survivors_eq_self ?_).symm
    rw [List.map_map]
    exact valid.addresses_nodup
  rw [insertAll_eq]
  show ((entries.foldl _ t).ledger.routes).map Route.entry = _
  rw [ledger, Ledger.entries_foldl_record start]

/-- A mount succeeds if all patterns can be joined and, where it is strict, no route is there. -/
lemma mount_eq_of_mounted {base : Pattern} {entries : List (Pattern × α)} {strict : Bool}
    (mounted : List.Forall₂ (Mounted base) (other.history.map Route.entry) entries)
    (bare : strict = true → ∀ pattern, t.get? pattern = none) :
    t.mount base other strict = (.ok (), (insertAll entries t).2) := by
  refine mount_eq_ok_iff.mpr ⟨entries, ?_, rfl⟩
  rw [List.forall₂_map_left_iff] at mounted
  apply mounted.imp
  intro q e ⟨joined, resource⟩
  exact stage_eq_ok_iff.mpr ⟨joined, resource, fun strict => bare strict e.1⟩

/-- Two mounts, one below the other, and the mount below the join of both bases leave the same routes in the
same order. -/
lemma Valid.renumbers_nested (valid : t.Valid) (joined : a.join b = .ok ab)
    (joins : ∀ q ∈ other.toList, ∃ abq, ab.join q.pattern = .ok abq) (strict : Bool) :
    ∃ inner nested flat, (Table.empty : Table α).mount b other strict = (.ok (), inner) ∧
      t.mount a inner false = (.ok (), nested) ∧ t.mount ab other false = (.ok (), flat) ∧
      nested.Valid ∧ flat.Valid ∧ nested.Renumbers flat := by
  have joins : ∀ e ∈ other.history.map Route.entry, ∃ abe, ab.join e.1 = .ok abe := by
    rw [List.forall_mem_map]
    exact fun q mem => joins q (mem_toList_iff_mem_history.mpr mem)
  obtain ⟨pairs, inners, outers, nested⟩ := exists_nested joined joins
  obtain ⟨standing, mounted, same⟩ := exists_standing nested
  have inner := Valid.empty.entries_insertAll (pairs.map Prod.fst)
  rw [history_empty, List.map_nil, List.nil_append] at inner
  rw [← inner] at mounted
  refine ⟨_, _, _, mount_eq_of_mounted inners fun _ _ => Trie.get?_empty _,
    mount_eq_of_mounted mounted nofun, mount_eq_of_mounted outers nofun,
    valid.insertAll _, valid.insertAll _, ?_⟩
  rw [Renumbers, valid.entries_insertAll, valid.entries_insertAll, survivors_append_congr _ same]

/-- Let a base be joined of two, and let all routes of a table join it. Then the table can be mounted below the
second base into the empty table, the result below the first one, and the table itself below the joined base.
The last two mounts leave the same patterns with the same resources, registered in the same order, so every
lookup finds the same. -/
theorem mount_mount (changes changes' : List (Change α)) {a b ab : Pattern} (joined : a.join b = .ok ab)
    (joins : ∀ q ∈ (after changes').toList, ∃ abq, ab.join q.pattern = .ok abq) (strict : Bool) :
    let t := after changes
    let other := after changes'
    let inner := (Table.empty : Table α).mount b other strict
    let nested := t.mount a inner.2 false
    let flat := t.mount ab other false
    inner.1 = .ok () ∧ nested.1 = .ok () ∧ flat.1 = .ok () ∧
    nested.2.toList.map Route.entry = flat.2.toList.map Route.entry ∧
    nested.2.history.map Route.entry = flat.2.history.map Route.entry ∧
    (∀ p ∈ nested.2.toList, ∀ q ∈ nested.2.toList, ∀ p' ∈ flat.2.toList, ∀ q' ∈ flat.2.toList,
      p.pattern = p'.pattern → q.pattern = q'.pattern →
        (p.priority < q.priority ↔ p'.priority < q'.priority)) ∧
    ∀ path, Option.Rel Match.Same (nested.2.find path) (flat.2.find path) := by
  intro t other inner nested flat
  obtain ⟨inner', nested', flat', mountInner, mountNested, mountFlat, valid, valid', same⟩ :=
    (valid_after changes).renumbers_nested joined joins strict
  have isInner : inner = (.ok (), inner') := mountInner
  have isNested : nested = (.ok (), nested') := by
    rw [show nested = t.mount a inner.2 false from rfl, isInner]
    exact mountNested
  have isFlat : flat = (.ok (), flat') := mountFlat
  rw [isInner, isNested, isFlat]
  refine ⟨rfl, rfl, rfl, same.toList_eq valid valid', same, ?_, same.find_same valid valid'⟩
  intro p memP q memQ p' memP' q' memQ' sameP sameQ
  exact same.lt_iff valid valid' memP memQ memP' memQ' sameP sameQ

/-- The roots of a table, with and without a slash, meet below a greedy segment: nested mounts merge them on the
outer level, as the inner base is a root. There they replace a route with another name. -/
theorem mount_mount_roots :
    let a : Pattern := ⟨[.greedy "x"], .indeterminate, by decide, by decide, by decide⟩
    let b : Pattern := ⟨[.literal ""], .yes, by decide, by decide, by decide⟩
    let t : Table Nat := after [
      .insert ⟨[.greedy "y"], .indeterminate, by decide, by decide, by decide⟩ 0 false]
    let other : Table Nat := after [.insert b 1 false,
      .insert ⟨[.literal ""], .no, by decide, by decide, by decide⟩ 2 false]
    let inner := (Table.empty : Table Nat).mount b other true
    let nested := t.mount a inner.2 false
    let flat := t.mount a other false
    a.join b = .ok a ∧ inner.2.size = 2 ∧ flat.2.toList.map Route.entry = [(a, 2)] ∧
      nested.2.toList.map Route.entry = [(a, 2)] ∧
      ∀ path, Option.Rel Match.Same (nested.2.find path) (flat.2.find path) := by
  intro a b t other inner nested flat
  have joins : ∀ q ∈ other.toList, ∃ joined, a.join q.pattern = .ok joined := by
    have routes : other.toList.map Route.pattern =
        [⟨[.literal ""], .no, by decide, by decide, by decide⟩, b] := by
      simp only [other]
      cbv
    have all : ∀ p ∈ other.toList.map Route.pattern, ∃ joined, a.join p = .ok joined := by
      rw [routes, List.forall_mem_cons, List.forall_mem_singleton]
      exact ⟨⟨_, rfl⟩, ⟨_, rfl⟩⟩
    exact fun q mem => all q.pattern (List.mem_map_of_mem mem)
  obtain ⟨-, -, -, same, -, -, finds⟩ := mount_mount
    [.insert ⟨[.greedy "y"], .indeterminate, by decide, by decide, by decide⟩ 0 false]
    [.insert b 1 false, .insert ⟨[.literal ""], .no, by decide, by decide, by decide⟩ 2 false]
    (show a.join b = .ok a from rfl) joins true
  have size : inner.2.size = 2 := by
    simp only [inner, other]
    cbv
  have routes : flat.2.toList.map Route.entry = [(a, 2)] := by
    simp only [flat, other]
    cbv
  exact ⟨rfl, size, routes, same.trans routes, finds⟩

end Table

end PathRouting

import PathRouting.Proofs.Lookup.Twins

/-!
# Tables that differ in their numbers

A table may have the patterns and resources of another one, in the same order of registration, under other numbers
(`Table.Renumbers`). Whatever the two went through before, they list the same, and they find the same: only the
order of the numbers counts (`Table.Renumbers.find_same`).
-/

namespace PathRouting

variable {α : Type}

/-- Both tables have the same routes in the same order of registration, whatever their numbers. -/
def Table.Renumbers (t next : Table α) : Prop :=
  t.history.map Route.entry = next.history.map Route.entry

/-- Two matches agree in all but the numbers of their routes. -/
structure Match.Same (m w : Match α) : Prop where
  entry_eq : m.route.entry = w.route.entry
  literals_eq : m.specificity.literals = w.specificity.literals
  named_eq : m.specificity.named = w.specificity.named
  captures_eq : m.captures = w.captures

namespace Route

variable {q r : Route α}

/-- Routes have one entry if they have one pattern and one resource. -/
lemma entry_eq_iff : q.entry = r.entry ↔ q.pattern = r.pattern ∧ q.resource = r.resource :=
  Prod.ext_iff

/-- Routes with one entry have one pattern. -/
lemma pattern_eq_of_entry_eq (same : q.entry = r.entry) : q.pattern = r.pattern :=
  (entry_eq_iff.mp same).1

/-- Routes with one entry stand at one address. -/
lemma address_eq_of_entry_eq (same : q.entry = r.entry) : q.pattern.address = r.pattern.address :=
  congrArg Pattern.address (pattern_eq_of_entry_eq same)

end Route

namespace Table

variable {t next : Table α}

namespace Renumbers

/-- The routes of both tables are pairs, and they differ in their numbers alone. -/
lemma exists_twins (same : t.Renumbers next) :
    ∃ pairs, t.Twins next pairs ∧ ∀ e ∈ pairs, e.1.entry = e.2.entry := by
  rw [Renumbers, ← List.forall₂_eq_eq_eq, List.forall₂_map_left_iff,
    List.forall₂_map_right_iff] at same
  obtain ⟨pairs, first, second, all⟩ := exists_pairs same
  exact ⟨pairs, ⟨first, second, fun e mem => Route.address_eq_of_entry_eq (all e mem)⟩, all⟩

/-- Tables that differ in their numbers are equally large. -/
lemma size_eq (same : t.Renumbers next) (valid : t.Valid) (valid' : next.Valid) :
    t.size = next.size := by
  have lengths := congrArg List.length same
  rw [List.length_map, List.length_map] at lengths
  rw [valid.size_eq, valid'.size_eq, lengths]

/-- The entries that a valid table lists ascend by their patterns. -/
lemma entries_ascending (valid : t.Valid) :
    (t.toList.map Route.entry).Pairwise fun e f => compare e.1 f.1 = .lt :=
  List.pairwise_map.mpr valid.toList_ascending

/-- A table lists the entries that were registered. -/
lemma entries_perm (t : Table α) : (t.toList.map Route.entry).Perm (t.history.map Route.entry) :=
  (t.toList_perm.trans t.history_perm.symm).map _

/-- The numbers have no part in the order of the patterns. -/
lemma toList_eq (same : t.Renumbers next) (valid : t.Valid) (valid' : next.Valid) :
    t.toList.map Route.entry = next.toList.map Route.entry := by
  have perm : (t.toList.map Route.entry).Perm (next.toList.map Route.entry) :=
    (entries_perm t).trans (same ▸ (entries_perm next).symm)
  apply perm.eq_of_pairwise _ (entries_ascending valid) (entries_ascending valid')
  intro e f _ _ less more
  cases (Std.OrientedCmp.gt_iff_lt.mpr less).symm.trans more

/-- The numbers compare in one table as they do in the other one. -/
lemma lt_iff (same : t.Renumbers next) (valid : t.Valid) (valid' : next.Valid)
    {p q p' q' : Route α} (memP : p ∈ t.toList) (memQ : q ∈ t.toList) (memP' : p' ∈ next.toList)
    (memQ' : q' ∈ next.toList) (sameP : p.pattern = p'.pattern) (sameQ : q.pattern = q'.pattern) :
    p.priority < q.priority ↔ p'.priority < q'.priority := by
  obtain ⟨pairs, ⟨first, second, -⟩, all⟩ := same.exists_twins
  have alike := valid.alike valid'.toIndexed first second
  have partner : ∀ {r r' : Route α}, r ∈ t.toList → r' ∈ next.toList → r.pattern = r'.pattern →
      (r, r') ∈ pairs := by
    intro r r' mem mem' sameR
    -- a table has one route of a pattern, so the other side of the pair is this one
    obtain ⟨e, memE, rfl⟩ := (mem_toList_iff_of_map first).mp mem
    have memE' : e.2 ∈ next.toList := (mem_toList_iff_of_map second).mpr ⟨e, memE, rfl⟩
    have held := valid'.mem_toList_iff.mp memE'
    rw [← Route.pattern_eq_of_entry_eq (all e memE), sameR, valid'.mem_toList_iff.mp mem'] at held
    rw [Option.some.inj held]
    exact memE
  have order := alike _ (partner memP memP' sameP) _ (partner memQ memQ' sameQ)
  rw [← Nat.compare_eq_lt, ← Nat.compare_eq_lt, order]

/-- The winners are the same route under two numbers, so the cut names the same captures. -/
theorem find_same (same : t.Renumbers next) (valid : t.Valid) (valid' : next.Valid) (path : String) :
    Option.Rel Match.Same (t.find path) (next.find path) := by
  obtain ⟨pairs, twins, all⟩ := same.exists_twins
  refine rel_imp (twins.find_rel valid valid' path) ?_
  intro m w ⟨pair, parallels⟩
  have entry : m.route.entry = w.route.entry := all _ pair
  obtain ⟨blocks, captures, captures'⟩ := parallels.cut
  refine ⟨entry, parallels.literals_eq, parallels.named_eq, ?_⟩
  rw [captures, captures', Route.pattern_eq_of_entry_eq entry]

end Renumbers

end Table

end PathRouting

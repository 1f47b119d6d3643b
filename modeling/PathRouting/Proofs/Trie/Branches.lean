import PathRouting.Proofs.Lists
import PathRouting.Trie.Branches

/-!
# Branches as finite maps

As long as the keys ascend, halving finds a key exactly when it is there, and a key that is missing is
given the one index that keeps the keys in order (`Branches.seek_cases`). From this follow the laws of
the finite map: what `find?` says after `access` and `remove`, that both keep the order, and which
values there are. Branches are known from what `find?` says (`Sorted.ext`).
-/

namespace PathRouting.Branches

variable {β : Type}

/-- The entries in front of a key and behind it. -/
structure Around (key : Key) (front back : List (Key × β)) : Prop where
  below : ∀ e ∈ front, compare e.1 key = .lt
  above : ∀ e ∈ back, compare key e.1 = .lt

/-- No key in front of or behind another one equals it. -/
lemma Around.lookup_eq_none {key : Key} {front back : List (Key × β)} (cut : Around key front back) :
    front.lookup key = none ∧ back.lookup key = none := by
  simp only [List.lookup_eq_none_iff, bne_iff_ne]
  refine ⟨?_, ?_⟩
  · rintro e mem rfl
    have less := cut.below e mem
    simp [Std.ReflOrd.compare_self] at less
  · rintro e mem rfl
    have less := cut.above e mem
    simp [Std.ReflOrd.compare_self] at less

/-- Entries around a missing key have what they had beside an entry of this key. -/
lemma Around.lookup_insert {key : Key} {front back : List (Key × β)} (cut : Around key front back)
    (value : β) (other : Key) :
    (front ++ (key, value) :: back).lookup other =
      if other = key then some value else (front ++ back).lookup other := by
  by_cases same : other = key
  · subst same
    simp [List.lookup_append, cut.lookup_eq_none.1]
  · have ne : (other == key) = false := beq_eq_false_iff_ne.mpr same
    simp [List.lookup_append, List.lookup_cons, ne, same]

/-- Entries around a missing key ascend together with an entry of this key. -/
lemma Around.sorted_insert {key : Key} {front back : List (Key × β)} (cut : Around key front back)
    (sorted : Sorted ⟨front ++ back⟩) (value : β) : Sorted ⟨front ++ (key, value) :: back⟩ := by
  obtain ⟨frontSorted, backSorted, apart⟩ := List.pairwise_append.mp sorted
  refine List.pairwise_append.mpr ⟨frontSorted, List.pairwise_cons.mpr ⟨cut.above, backSorted⟩, ?_⟩
  intro e mem f fmem
  rcases List.mem_cons.mp fmem with rfl | fmem
  · exact cut.below e mem
  · exact apart e mem f fmem

/-- Every entry of ascending ones splits them around its key. -/
lemma Sorted.around {front back : List (Key × β)} {key : Key} {value : β}
    (sorted : Sorted ⟨front ++ (key, value) :: back⟩) : Around key front back := by
  obtain ⟨_, tail, apart⟩ := List.pairwise_append.mp sorted
  refine ⟨?_, ?_⟩
  · intro e mem
    exact apart e mem _ List.mem_cons_self
  · exact (List.pairwise_cons.mp tail).1

/-- Entries still ascend without one of them. -/
lemma Sorted.erase {front back : List (Key × β)} {key : Key} {value : β}
    (sorted : Sorted ⟨front ++ (key, value) :: back⟩) : Sorted ⟨front ++ back⟩ :=
  List.Pairwise.sublist (List.Sublist.append_left (List.sublist_cons_self _ _) _) sorted

/-- The value of an entry does not matter to the order. -/
lemma Sorted.replace {front back : List (Key × β)} {key : Key} {value : β}
    (sorted : Sorted ⟨front ++ (key, value) :: back⟩) (other : β) :
    Sorted ⟨front ++ (key, other) :: back⟩ :=
  sorted.around.sorted_insert sorted.erase other

/-- Halving comes to an index between its bounds where the key stands or where it belongs. -/
lemma seekBetween_spec (key : Key) {entries : List (Key × β)} (sorted : Sorted ⟨entries⟩)
    {low high : Nat} (bound : high ≤ entries.length) (ordered : low ≤ high)
    (below : ∀ e ∈ entries.take low, compare e.1 key = .lt)
    (above : ∀ e ∈ entries.drop high, compare key e.1 = .lt) :
    (∃ front value back, seekBetween key entries low high bound = .taken front.length ∧
      entries = front ++ (key, value) :: back) ∨
    (∃ front back, seekBetween key entries low high bound = .vacant front.length ∧
      entries = front ++ back ∧ Around key front back) := by
  fun_induction seekBetween key entries low high bound with
  | case1 low high bound inside middle same =>
    have inRange : middle < entries.length := by omega
    have eq : entries[middle].1 = key := Std.LawfulEqOrd.eq_of_compare same
    refine .inl ⟨entries.take middle, entries[middle].2, entries.drop (middle + 1), ?_, ?_⟩
    · rw [List.length_take_of_le (Nat.le_of_lt inRange)]
    · rw [← eq, List.getElem_cons_drop, List.take_append_drop]
  | case2 low high bound inside middle less ih =>
    have inRange : middle < entries.length := by omega
    refine ih (by omega) ?_ above
    -- the entries before the middle one are less than it, and so less than the key
    intro e mem
    obtain ⟨i, hi, rfl⟩ := List.mem_take_iff_getElem.mp mem
    rcases Nat.lt_or_ge i middle with before | atMiddle
    · exact Std.TransCmp.lt_trans (List.pairwise_iff_getElem.mp sorted i middle _ inRange before) less
    · have : i = middle := by omega
      subst this
      exact less
  | case3 low high bound inside middle greater ih =>
    have inRange : middle < entries.length := by omega
    have less : compare key entries[middle].1 = .lt := Std.OrientedCmp.lt_of_gt greater
    refine ih (by omega) below ?_
    -- the entries behind the middle one are greater than it, and so greater than the key
    intro e mem
    obtain ⟨i, hi, rfl⟩ := List.mem_drop_iff_getElem.mp mem
    rcases Nat.eq_zero_or_pos i with rfl | pos
    · exact less
    · have ascending := List.pairwise_iff_getElem.mp sorted middle (i + middle) inRange hi (by omega)
      simpa only [Nat.add_comm] using Std.TransCmp.lt_trans less ascending
  | case4 low high bound outside =>
    have meet : low = high := by omega
    subst meet
    refine .inr ⟨entries.take low, entries.drop low, ?_, ?_, ⟨below, above⟩⟩
    · rw [List.length_take_of_le bound]
    · exact (List.take_append_drop low entries).symm

/-- A search finds the entry of the key, or else the index where one belongs. -/
lemma seek_cases {b : Branches β} (sorted : b.Sorted) (key : Key) :
    (∃ front value back, b.seek key = .taken front.length ∧
      b = ⟨front ++ (key, value) :: back⟩ ∧ Around key front back) ∨
    (∃ front back, b.seek key = .vacant front.length ∧
      b = ⟨front ++ back⟩ ∧ Around key front back) := by
  obtain ⟨entries⟩ := b
  have spec := seekBetween_spec key sorted (Nat.le_refl _) (Nat.zero_le _) (by simp)
    (by simp)
  rcases spec with ⟨front, value, back, found, rfl⟩ | ⟨front, back, missing, rfl, cut⟩
  · exact .inl ⟨front, value, back, found, rfl, Sorted.around sorted⟩
  · exact .inr ⟨front, back, missing, rfl, cut⟩

/-- Halving sorted branches finds what a search from the left finds. -/
lemma find?_eq_lookup {b : Branches β} (sorted : b.Sorted) (key : Key) :
    b.find? key = b.entries.lookup key := by
  rcases seek_cases sorted key with ⟨front, value, back, found, rfl, cut⟩ |
    ⟨front, back, missing, rfl, cut⟩
  · simp [find?, found, cut.lookup_insert]
  · simp [find?, missing, List.lookup_append, cut.lookup_eq_none]

/-- To insert behind a front is to insert between the two parts. -/
lemma insertIdx_length (front back : List (Key × β)) (e : Key × β) :
    (front ++ back).insertIdx front.length e = front ++ e :: back := by
  induction front with
  | nil => rfl
  | cons f front ih => simpa using ih

/-- A use of a key changes its value, or adds an entry where the key belongs. -/
lemma access_cases {b : Branches β} (sorted : b.Sorted) (key : Key) (value : β) (use : β → β) :
    (∃ front kept back, b = ⟨front ++ (key, kept) :: back⟩ ∧
      b.access key (key, value) use = ⟨front ++ (key, use kept) :: back⟩ ∧ Around key front back) ∨
    (∃ front back, b = ⟨front ++ back⟩ ∧
      b.access key (key, value) use = ⟨front ++ (key, use value) :: back⟩ ∧
      Around key front back) := by
  rcases seek_cases sorted key with ⟨front, kept, back, found, rfl, cut⟩ |
    ⟨front, back, missing, rfl, cut⟩
  · refine .inl ⟨front, kept, back, rfl, ?_, cut⟩
    simp [access, found, List.modify_eq_take_cons_drop]
  · refine .inr ⟨front, back, rfl, ?_, cut⟩
    simp [access, missing, insertIdx_length]

/-- A removal takes the entry of the key out, or changes nothing. -/
lemma remove_cases {b : Branches β} (sorted : b.Sorted) (key : Key) :
    (∃ front value back, b = ⟨front ++ (key, value) :: back⟩ ∧
      b.remove key = (some value, ⟨front ++ back⟩) ∧ Around key front back) ∨
    (b.find? key = none ∧ b.remove key = (none, b)) := by
  rcases seek_cases sorted key with ⟨front, value, back, found, rfl, cut⟩ |
    ⟨front, back, missing, rfl, cut⟩
  · refine .inl ⟨front, value, back, rfl, ?_, cut⟩
    simp [remove, found, List.eraseIdx_append_of_length_le]
  · exact .inr ⟨by simp [find?, missing], by simp [remove, missing]⟩

/-- A removal returns what a search finds. -/
lemma remove_fst (b : Branches β) (key : Key) : (b.remove key).1 = b.find? key := by
  unfold remove find?
  cases b.seek key <;> rfl

/-- Using a key keeps branches sorted. -/
lemma Sorted.access {b : Branches β} (sorted : b.Sorted) (key : Key) (value : β) (use : β → β) :
    (b.access key (key, value) use).Sorted := by
  rcases access_cases sorted key value use with ⟨front, kept, back, rfl, eq, cut⟩ |
    ⟨front, back, rfl, eq, cut⟩
  · rw [eq]
    exact sorted.replace (use kept)
  · rw [eq]
    exact cut.sorted_insert sorted (use value)

/-- Taking a key away keeps branches sorted. -/
lemma Sorted.remove {b : Branches β} (sorted : b.Sorted) (key : Key) : (b.remove key).2.Sorted := by
  rcases remove_cases sorted key with ⟨front, value, back, rfl, eq, cut⟩ | ⟨-, eq⟩
  · rw [eq]
    exact sorted.erase
  · rw [eq]
    exact sorted

/-- A key that is used has its changed value, or the new one changed; no other key changes. -/
lemma find?_access {b : Branches β} (sorted : b.Sorted) (key other : Key) (value : β)
    (use : β → β) :
    (b.access key (key, value) use).find? other =
      if other = key then some (use ((b.find? key).getD value)) else b.find? other := by
  rw [find?_eq_lookup (sorted.access key value use), find?_eq_lookup sorted, find?_eq_lookup sorted]
  rcases access_cases sorted key value use with ⟨front, kept, back, rfl, eq, cut⟩ |
    ⟨front, back, rfl, eq, cut⟩
  · rw [eq]
    by_cases same : other = key <;> simp [cut.lookup_insert, same]
  · rw [eq]
    by_cases same : other = key <;>
      simp [cut.lookup_insert, same, List.lookup_append, cut.lookup_eq_none]

/-- A key that is used has its changed value, or the new one changed. -/
lemma find?_access_self {b : Branches β} (sorted : b.Sorted) (key : Key) (value : β) (use : β → β) :
    (b.access key (key, value) use).find? key = some (use ((b.find? key).getD value)) :=
  (find?_access sorted key key value use).trans (if_pos rfl)

/-- Using a key changes no other one. -/
lemma find?_access_of_ne {b : Branches β} (sorted : b.Sorted) {key other : Key} (value : β)
    (use : β → β) (ne : other ≠ key) :
    (b.access key (key, value) use).find? other = b.find? other :=
  (find?_access sorted key other value use).trans (if_neg ne)

/-- A key that was removed has no value; no other key changes. -/
lemma find?_remove {b : Branches β} (sorted : b.Sorted) (key other : Key) :
    (b.remove key).2.find? other = if other = key then none else b.find? other := by
  rcases remove_cases sorted key with ⟨front, value, back, rfl, eq, cut⟩ | ⟨missing, eq⟩
  · rw [eq, find?_eq_lookup sorted, find?_eq_lookup sorted.erase]
    by_cases same : other = key
    · simp [same, List.lookup_append, cut.lookup_eq_none]
    · simp [cut.lookup_insert, same]
  · rw [eq]
    by_cases same : other = key
    · simp [same, missing]
    · simp [same]

/-- A key that is taken away is gone. -/
lemma find?_remove_self {b : Branches β} (sorted : b.Sorted) (key : Key) :
    (b.remove key).2.find? key = none :=
  (find?_remove sorted key key).trans (if_pos rfl)

/-- Taking a key away changes no other one. -/
lemma find?_remove_of_ne {b : Branches β} (sorted : b.Sorted) {key other : Key} (ne : other ≠ key) :
    (b.remove key).2.find? other = b.find? other :=
  (find?_remove sorted key other).trans (if_neg ne)

/-- A search of sorted branches finds exactly their entries. -/
lemma find?_eq_some_iff {b : Branches β} (sorted : b.Sorted) {key : Key} {value : β} :
    b.find? key = some value ↔ (key, value) ∈ b.entries := by
  obtain ⟨entries⟩ := b
  rw [find?_eq_lookup sorted]
  refine ⟨mem_of_lookup, fun mem => ?_⟩
  obtain ⟨front, back, rfl⟩ := List.append_of_mem mem
  rw [sorted.around.lookup_insert, if_pos rfl]

/-- Keys that ascend differ. -/
lemma Sorted.nodup {b : Branches β} (sorted : b.Sorted) : (b.entries.map Prod.fst).Nodup := by
  apply List.pairwise_map.mpr
  refine sorted.imp ?_
  intro e f less same
  rw [same, Std.ReflOrd.compare_self] at less
  cases less

/-- Ascending entries are known from what is found among them. -/
lemma Sorted.ext {b c : Branches β} (sorted : b.Sorted) (sorted' : c.Sorted)
    (same : ∀ key, b.find? key = c.find? key) : b = c := by
  have members : ∀ e, e ∈ b.entries ↔ e ∈ c.entries := by
    intro e
    rw [← Prod.eta e, ← find?_eq_some_iff sorted, ← find?_eq_some_iff sorted', same]
  have perm : b.entries.Perm c.entries :=
    (List.perm_ext_iff_of_nodup sorted.nodup.of_map sorted'.nodup.of_map).mpr members
  have entries : b.entries = c.entries := by
    refine perm.eq_of_pairwise ?_ sorted sorted'
    intro e f _ _ less greater
    rw [Std.OrientedCmp.gt_of_lt less] at greater
    cases greater
  exact congrArg mk entries

/-- Branches are empty if no key is found. -/
lemma isEmpty_iff {b : Branches β} (sorted : b.Sorted) :
    b.isEmpty = true ↔ ∀ key, b.find? key = none := by
  obtain ⟨entries⟩ := b
  cases entries with
  | nil => simp [isEmpty, find?_eq_lookup sorted]
  | cons e rest =>
    have found : find? ⟨e :: rest⟩ e.1 = some e.2 :=
      (find?_eq_some_iff sorted).mpr List.mem_cons_self
    simp only [isEmpty, List.isEmpty_cons, Bool.false_eq_true, false_iff]
    intro none
    simp [none] at found

end PathRouting.Branches

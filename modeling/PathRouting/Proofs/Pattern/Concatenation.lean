import Mathlib.Data.List.Duplicate
import PathRouting.Proofs.Pattern.Join

/-!
# Concatenation of patterns

The join is a concatenation of cores, and it is there if the names of both patterns differ
(`Pattern.Concatenates`, `Pattern.exists_join_iff`). So it does not matter in which order three patterns are
joined, and a root is neutral on the left; on the right it gives its mark. What two orders can differ in is the
name that they fail at (`Pattern.join_concatenates`).
-/

namespace PathRouting

namespace Pattern

variable {a b c ab abc : Pattern}

/-- The pattern has the core of one pattern followed by that of another one, and the mark of the second one
unless it ends in a greedy segment. -/
structure Concatenates (a b ab : Pattern) : Prop where
  core_eq : ab.core = a.core ++ b.core
  trailing_eq : ab.trailing =
    if endsGreedy (a.core ++ b.core) then .indeterminate else b.trailing

/-- A pattern whose mark is indeterminate ends in a greedy segment, also behind another core. -/
lemma endsGreedy_core_append (indeterminate : b.trailing = .indeterminate) :
    endsGreedy (a.core ++ b.core) = true := by
  have greedy := b.trailing_eq_indeterminate_iff.mp indeterminate
  rw [← endsGreedy_core] at greedy
  have ne : b.core ≠ [] := by
    intro empty
    rw [empty] at greedy
    cases greedy
  rwa [endsGreedy_append _ ne]

/-- Behind another core the mark of a pattern is kept, unless the segments end in a greedy one. -/
lemma settleTrailing_core_append (a b : Pattern) :
    settleTrailing (a.core ++ b.core) b.trailing =
      if endsGreedy (a.core ++ b.core) then .indeterminate else b.trailing := by
  rw [settleTrailing]
  cases greedy : endsGreedy (a.core ++ b.core) with
  | true => rfl
  | false =>
    have determinate : b.trailing ≠ .indeterminate := by
      intro indeterminate
      cases greedy.symm.trans (endsGreedy_core_append indeterminate)
    simp [determinate]

/-- A join succeeds if no name is shared, and then it is the concatenation. -/
lemma join_eq_ok_iff_concatenates :
    a.join b = .ok ab ↔ a.names.Disjoint b.names ∧ a.Concatenates b ab := by
  rw [join_eq_ok_iff, settleTrailing_core_append, List.nodup_append']
  constructor
  · rintro ⟨⟨-, -, disjoint⟩, core, trailing⟩
    exact ⟨disjoint, core, trailing⟩
  · intro ⟨disjoint, core, trailing⟩
    exact ⟨⟨a.names_nodup, b.names_nodup, disjoint⟩, core, trailing⟩

/-- Two patterns can be joined exactly if they share no name. -/
lemma exists_join_iff : (∃ ab, a.join b = .ok ab) ↔ a.names.Disjoint b.names := by
  constructor
  · rintro ⟨ab, joined⟩
    exact (join_eq_ok_iff_concatenates.mp joined).1
  · intro disjoint
    cases joined : a.join b with
    | ok ab => exact ⟨ab, rfl⟩
    | error cause =>
      obtain ⟨name, repeated, -⟩ := join_eq_error_iff.mp joined
      have nodup : (a.names ++ b.names).Nodup :=
        List.nodup_append'.mpr ⟨a.names_nodup, b.names_nodup, disjoint⟩
      have none := firstRepeat_eq_none_iff.mpr ⟨nodup, fun name _ => List.not_mem_nil⟩
      cases none.symm.trans repeated

/-- Patterns that cannot be joined share a name. -/
lemma not_disjoint_of_join {cause : PatternError} (failed : a.join b = .error cause) :
    ¬a.names.Disjoint b.names := by
  intro disjoint
  obtain ⟨ab, joined⟩ := exists_join_iff.mpr disjoint
  cases failed.symm.trans joined

/-- A join fails at a name that is used twice. -/
lemma exists_duplicate_of_join {cause : PatternError} (failed : a.join b = .error cause) :
    ∃ name, cause = .duplicateAlias name ∧ (a.names ++ b.names).Duplicate name := by
  obtain ⟨name, first, same⟩ := join_eq_error_iff.mp failed
  obtain ⟨front, back, split, -, -, again⟩ := firstRepeat_eq_some_iff.mp first
  refine ⟨name, same, ?_⟩
  rw [split, List.duplicate_iff_sublist]
  have mem : name ∈ front := by simpa using again
  exact (List.singleton_sublist.mpr mem).append (List.cons_sublist_cons.mpr (List.nil_sublist _))

namespace Concatenates

/-- A concatenation has the names of both patterns. -/
lemma names_eq (concat : a.Concatenates b ab) : ab.names = a.names ++ b.names := by
  rw [← namesOf_core, concat.core_eq, namesOf_append, namesOf_core, namesOf_core]

/-- A root adds nothing on the left. -/
lemma of_root (root : a.isRoot = true) : a.Concatenates b b where
  core_eq := by rw [core_of_isRoot root, List.nil_append]
  trailing_eq := by
    rw [core_of_isRoot root, List.nil_append, endsGreedy_core]
    cases greedy : endsGreedy b.segments with
    | true => exact b.trailing_eq_indeterminate_iff.mpr greedy
    | false => rfl

end Concatenates

/-! ### Three patterns -/

/-- What three patterns joined from the left come to. -/
lemma join_join_eq_ok_iff : (a.join b >>= fun ab => ab.join c) = .ok abc ↔
    (a.names ++ b.names ++ c.names).Nodup ∧ abc.core = a.core ++ b.core ++ c.core ∧
      abc.trailing = if endsGreedy (a.core ++ b.core ++ c.core) then .indeterminate
        else c.trailing := by
  cases joined : a.join b with
  | error cause =>
    constructor
    · intro failed
      cases failed
    · rintro ⟨nodup, -⟩
      have front := (List.nodup_append'.mp nodup).1
      exact absurd (List.nodup_append'.mp front).2.2 (not_disjoint_of_join joined)
  | ok ab =>
    have concat := (join_eq_ok_iff_concatenates.mp joined).2
    show ab.join c = .ok abc ↔ _
    rw [join_eq_ok_iff, settleTrailing_core_append, concat.names_eq, concat.core_eq]

/-- What they come to joined from the right: the mark is settled twice, by ends that agree. -/
lemma join_join_eq_ok_iff' : (b.join c >>= fun bc => a.join bc) = .ok abc ↔
    (a.names ++ b.names ++ c.names).Nodup ∧ abc.core = a.core ++ b.core ++ c.core ∧
      abc.trailing = if endsGreedy (a.core ++ b.core ++ c.core) then .indeterminate
        else c.trailing := by
  rw [List.append_assoc, List.append_assoc]
  cases joined : b.join c with
  | error cause =>
    constructor
    · intro failed
      cases failed
    · rintro ⟨nodup, -⟩
      have back := (List.nodup_append'.mp nodup).2.1
      exact absurd (List.nodup_append'.mp back).2.2 (not_disjoint_of_join joined)
  | ok bc =>
    have concat := (join_eq_ok_iff_concatenates.mp joined).2
    have mark : (if endsGreedy (a.core ++ bc.core) then .indeterminate else bc.trailing) =
        if endsGreedy (a.core ++ bc.core) then Trailing.indeterminate else c.trailing := by
      cases greedy : endsGreedy (a.core ++ bc.core) with
      | true => rfl
      | false =>
        have determinate : bc.trailing ≠ .indeterminate := by
          intro indeterminate
          cases greedy.symm.trans (endsGreedy_core_append indeterminate)
        have trailing := concat.trailing_eq
        split at trailing
        · exact absurd trailing determinate
        · exact trailing
    show a.join bc = .ok abc ↔ _
    rw [join_eq_ok_iff, settleTrailing_core_append, mark, concat.names_eq, concat.core_eq]

/-- In either order three patterns fail to join at a name that is used twice among them. -/
lemma exists_duplicate_of_join_join {cause : PatternError}
    (failed : (a.join b >>= fun ab => ab.join c) = .error cause ∨
      (b.join c >>= fun bc => a.join bc) = .error cause) :
    ∃ name, cause = .duplicateAlias name ∧ (a.names ++ b.names ++ c.names).Duplicate name := by
  rcases failed with failed | failed
  · cases joined : a.join b with
    | error first =>
      rw [joined] at failed
      cases failed
      obtain ⟨name, same, twice⟩ := exists_duplicate_of_join joined
      exact ⟨name, same, twice.mono_sublist (List.sublist_append_left _ _)⟩
    | ok ab =>
      rw [joined] at failed
      obtain ⟨name, same, twice⟩ := exists_duplicate_of_join (a := ab) failed
      rw [(join_eq_ok_iff_concatenates.mp joined).2.names_eq] at twice
      exact ⟨name, same, twice⟩
  · rw [List.append_assoc]
    cases joined : b.join c with
    | error first =>
      rw [joined] at failed
      cases failed
      obtain ⟨name, same, twice⟩ := exists_duplicate_of_join joined
      exact ⟨name, same, twice.mono_sublist (List.sublist_append_right _ _)⟩
    | ok bc =>
      rw [joined] at failed
      obtain ⟨name, same, twice⟩ := exists_duplicate_of_join (b := bc) failed
      rw [(join_eq_ok_iff_concatenates.mp joined).2.names_eq] at twice
      exact ⟨name, same, twice⟩

/-- The join of two patterns is there if no name is in both, and it concatenates their cores. So three patterns
can be joined in either order, or in neither; a root is neutral on the left, and on the right it gives its mark
unless the pattern ends in a greedy segment. -/
theorem join_concatenates (a b c : Pattern) :
    ((∃ ab, a.join b = .ok ab) ↔ a.names.Disjoint b.names) ∧
    (∀ ab, a.join b = .ok ab ↔ a.names.Disjoint b.names ∧ a.Concatenates b ab) ∧
    (∀ abc, (a.join b >>= fun ab => ab.join c) = .ok abc ↔
      (b.join c >>= fun bc => a.join bc) = .ok abc) ∧
    (∀ cause, (a.join b >>= fun ab => ab.join c) = .error cause ∨
      (b.join c >>= fun bc => a.join bc) = .error cause →
        ∃ name, cause = .duplicateAlias name ∧ (a.names ++ b.names ++ c.names).Duplicate name) ∧
    (a.isRoot = true → a.join b = .ok b) ∧
    (b.isRoot = true → ∃ ab, a.join b = .ok ab ∧ ab.segments = a.segments ∧
      ab.trailing = if endsGreedy a.segments then .indeterminate else b.trailing) := by
  -- a root has no name that could be shared
  have rootless : ∀ p : Pattern, p.isRoot = true → p.names = [] := by
    intro p root
    rw [← namesOf_core, core_of_isRoot root]
    rfl
  refine ⟨exists_join_iff, ?_, ?_, ?_, ?_, ?_⟩
  · intro ab
    exact join_eq_ok_iff_concatenates
  · intro abc
    exact join_join_eq_ok_iff.trans join_join_eq_ok_iff'.symm
  · intro cause failed
    exact exists_duplicate_of_join_join failed
  · intro root
    apply join_eq_ok_iff_concatenates.mpr
    rw [rootless a root]
    exact ⟨List.disjoint_nil_left _, .of_root root⟩
  · intro root
    have disjoint : a.names.Disjoint b.names := by
      rw [rootless b root]
      exact List.disjoint_nil_right _
    obtain ⟨ab, joined⟩ := exists_join_iff.mpr disjoint
    exact ⟨ab, joined, segments_join_root joined root, trailing_join_root joined root⟩

/-- A root with a slash is neutral on the left. On the right of a pattern that ends in a greedy segment nothing
is left of it, and the pattern cannot be joined with itself. -/
theorem join_concatenates_root :
    let root : Pattern := ⟨[.literal ""], .yes, by decide, by decide, by decide⟩
    let p : Pattern := ⟨[.named "x", .greedy "y"], .indeterminate, by decide, by decide, by decide⟩
    root.join p = .ok p ∧ root.Concatenates p p ∧
      (∃ pr, p.join root = .ok pr ∧ pr.segments = p.segments ∧ pr.trailing = .indeterminate) ∧
      (root.names ++ p.names ++ p.names).Duplicate "x" := by
  intro root p
  obtain ⟨-, concat, -, fails, left, -⟩ := join_concatenates root p p
  obtain ⟨-, -, -, -, -, right⟩ := join_concatenates p root root
  have joined := left rfl
  refine ⟨joined, ((concat p).mp joined).2, right rfl, ?_⟩
  obtain ⟨name, same, twice⟩ := fails (.duplicateAlias "x") (.inl rfl)
  cases same
  exact twice

/-- Of two names that clash, the two orders may report different ones. -/
example :
    let a : Pattern := ⟨[.named "x"], .no, by decide, by decide, by decide⟩
    let b : Pattern := ⟨[.named "y"], .no, by decide, by decide, by decide⟩
    let c : Pattern := ⟨[.named "x", .named "y"], .no, by decide, by decide, by decide⟩
    (a.join b >>= fun ab => ab.join c) = .error (.duplicateAlias "x") ∧
      (b.join c >>= fun bc => a.join bc) = .error (.duplicateAlias "y") :=
  ⟨rfl, rfl⟩

end Pattern

end PathRouting

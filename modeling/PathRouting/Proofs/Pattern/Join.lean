import Mathlib.Tactic.Lemma
import PathRouting.Pattern.Address

/-!
# Joins of patterns

The join of two patterns reads the core of the one and then that of the other, where the core of the
root is empty. It fails exactly if a name is used twice (`Pattern.join_eq_ok_iff`,
`Pattern.join_eq_error_iff`). Below one base different addresses stay different, with one exception
(`Pattern.address_join_eq_iff`): a base that ends in a greedy segment forgets the mark of a root.
-/

namespace PathRouting

/-- The names of the first segments come before those of the others. -/
lemma namesOf_append (front back : List Segment) :
    namesOf (front ++ back) = namesOf front ++ namesOf back := List.filterMap_append

/-- The end of a list is that of its last part. -/
lemma endsGreedy_append (front : List Segment) {back : List Segment} (ne : back ≠ []) :
    endsGreedy (front ++ back) = endsGreedy back := by
  rw [endsGreedy, endsGreedy, List.getLast?_append, List.getLast?_eq_some_getLast ne, Option.some_or]

namespace Pattern

variable {p q r : Pattern}

/-! ### Cores -/

/-- A root is a pattern of the empty literal alone. -/
lemma isRoot_iff : p.isRoot = true ↔ p.segments = [.literal ""] := beq_iff_eq

/-- A root has no core. -/
lemma core_of_isRoot (root : p.isRoot = true) : p.core = [] := if_pos root

/-- The core of any other pattern is all of its segments. -/
lemma core_of_not_isRoot (notRoot : p.isRoot = false) : p.core = p.segments := by
  simp [core, notRoot]

/-- A pattern without a core is a root. -/
lemma core_eq_nil_iff : p.core = [] ↔ p.isRoot = true := by
  cases h : p.isRoot with
  | true => simp [core_of_isRoot h]
  | false => simp [core_of_not_isRoot h, p.segments_ne_nil]

/-- A core is not the empty literal alone. -/
lemma core_ne_root (p : Pattern) : p.core ≠ [.literal ""] := by
  intro same
  cases h : p.isRoot with
  | true => simp [core_of_isRoot h] at same
  | false =>
    rw [core_of_not_isRoot h, ← isRoot_iff, h] at same
    cases same

/-- The core consists of segments of the pattern. -/
lemma core_subset (p : Pattern) : p.core ⊆ p.segments := by
  cases h : p.isRoot with
  | true => rw [core_of_isRoot h]; exact List.nil_subset _
  | false => rw [core_of_not_isRoot h]; exact List.Subset.refl _

/-- Two cores in a row are not the empty literal alone, either. -/
lemma core_append_ne_root (p q : Pattern) : p.core ++ q.core ≠ [.literal ""] := by
  intro same
  rcases List.append_eq_singleton_iff.mp same with ⟨-, last⟩ | ⟨last, -⟩
  · exact q.core_ne_root last
  · exact p.core_ne_root last

/-- The segments are what the core stands for. -/
lemma rooted_core (p : Pattern) : rooted p.core = p.segments := by
  cases h : p.isRoot with
  | true => rw [core_of_isRoot h, isRoot_iff.mp h, rooted, if_pos rfl]
  | false => rw [core_of_not_isRoot h, rooted, if_neg p.segments_ne_nil]

/-- A pattern has some core if its segments stand for it. -/
lemma core_eq_iff {segments : List Segment} (ne : segments ≠ [.literal ""]) :
    p.core = segments ↔ p.segments = rooted segments := by
  constructor
  · intro same
    rw [← same, rooted_core]
  · intro same
    rw [core, isRoot, same, rooted]
    split
    · rename_i empty
      simp [empty]
    · simp [ne]

/-- The empty literal that stands for the root adds no name. -/
lemma namesOf_rooted (segments : List Segment) : namesOf (rooted segments) = namesOf segments := by
  rw [rooted]
  split
  · rename_i empty
    rw [empty]
    rfl
  · rfl

/-- The core has all the names of the pattern. -/
lemma namesOf_core (p : Pattern) : namesOf p.core = p.names := by
  rw [names, ← p.rooted_core, namesOf_rooted]

/-- Nor does the empty literal make a greedy end. -/
lemma endsGreedy_rooted (segments : List Segment) :
    endsGreedy (rooted segments) = endsGreedy segments := by
  rw [rooted]
  split
  · rename_i empty
    rw [empty]
    rfl
  · rfl

/-- The core ends in a greedy segment if the pattern does. -/
lemma endsGreedy_core (p : Pattern) : endsGreedy p.core = endsGreedy p.segments := by
  rw [← endsGreedy_rooted, p.rooted_core]

/-! ### The join -/

/-- A join succeeds if all names differ, and then its core is both cores and its mark the settled second one. -/
lemma join_eq_ok_iff : p.join q = .ok r ↔
    (p.names ++ q.names).Nodup ∧ r.core = p.core ++ q.core ∧
      r.trailing = settleTrailing (p.core ++ q.core) q.trailing := by
  rw [join, ofSegments_eq_ok_iff, namesOf_rooted, namesOf_append, namesOf_core, namesOf_core,
    core_eq_iff (core_append_ne_root p q), settleTrailing, settleTrailing, endsGreedy_rooted]

/-- A join fails at the first name that repeats one before it. -/
lemma join_eq_error_iff {cause : PatternError} : p.join q = .error cause ↔
    ∃ name, firstRepeat [] (p.names ++ q.names) = some name ∧ cause = .duplicateAlias name := by
  rw [join, ofSegments_eq_error_iff, namesOf_rooted, namesOf_append, namesOf_core, namesOf_core]

/-- The core of a join is both cores. -/
lemma core_join (joined : p.join q = .ok r) : r.core = p.core ++ q.core :=
  (join_eq_ok_iff.mp joined).2.1

/-- A join with anything but a root has the core of the first and the segments of the second. -/
lemma segments_join (joined : p.join q = .ok r) (notRoot : q.isRoot = false) :
    r.segments = p.core ++ q.segments := by
  have core : r.core = p.core ++ q.segments := by rw [core_join joined, core_of_not_isRoot notRoot]
  have ne : p.core ++ q.segments ≠ [] := List.append_ne_nil_of_right_ne_nil _ q.segments_ne_nil
  rw [← r.rooted_core, core, rooted, if_neg ne]

/-- The join with a root keeps the segments. -/
lemma segments_join_root (joined : p.join q = .ok r) (root : q.isRoot = true) :
    r.segments = p.segments := by
  rw [← r.rooted_core, core_join joined, core_of_isRoot root, List.append_nil, p.rooted_core]

/-- Behind a core that is not empty the mark stays as it is. -/
lemma trailing_join (joined : p.join q = .ok r) (notRoot : q.isRoot = false) :
    r.trailing = q.trailing := by
  have ne : q.core ≠ [] := by simp [core_eq_nil_iff, notRoot]
  have own := q.trailing_eq_indeterminate_iff
  rw [(join_eq_ok_iff.mp joined).2.2, settleTrailing, endsGreedy_append _ ne, endsGreedy_core]
  cases greedy : endsGreedy q.segments with
  | true => simp [own.mpr greedy]
  | false =>
    have determinate : q.trailing ≠ .indeterminate := by simp [own, greedy]
    simp [determinate]

/-- The mark of a root is kept unless the base ends in a greedy segment. -/
lemma trailing_join_root (joined : p.join q = .ok r) (root : q.isRoot = true) :
    r.trailing = if endsGreedy p.segments then .indeterminate else q.trailing := by
  have determinate : q.trailing ≠ .indeterminate := by
    rw [ne_eq, q.trailing_eq_indeterminate_iff, isRoot_iff.mp root]
    decide
  rw [(join_eq_ok_iff.mp joined).2.2, settleTrailing, core_of_isRoot root, List.append_nil,
    endsGreedy_core, if_neg determinate]

/-! ### Addresses -/

/-- Only the empty literal has the key of the root. -/
lemma map_key_eq_root_iff {segments : List Segment} :
    segments.map Segment.key = [.literal ""] ↔ segments = [.literal ""] := by
  constructor
  · intro same
    obtain ⟨s, rfl, key⟩ := List.map_eq_singleton_iff.mp same
    cases s <;> simp_all [Segment.key]
  · rintro rfl
    rfl

/-- Patterns have one address if their cores have the same keys, and their marks are the same. -/
lemma address_eq_iff : p.address = q.address ↔
    p.core.map Segment.key = q.core.map Segment.key ∧ p.trailing = q.trailing := by
  have core : ∀ p : Pattern, p.core.map Segment.key =
      if p.segments.map Segment.key = [.literal ""] then [] else p.segments.map Segment.key := by
    intro p
    simp only [map_key_eq_root_iff, ← isRoot_iff, Pattern.core]
    split <;> rfl
  have segments : ∀ p : Pattern, p.segments.map Segment.key =
      if p.core.map Segment.key = [] then [.literal ""] else p.core.map Segment.key := by
    intro p
    rw [← p.rooted_core, rooted]
    by_cases empty : p.core = []
    · simp [empty, Segment.key]
    · simp [empty]
  rw [address, address, Address.mk.injEq]
  apply and_congr_left
  intro _
  constructor
  · intro same
    rw [core p, core q, same]
  · intro same
    rw [segments p, segments q, same]

/-- Patterns whose cores have the same keys are both roots or neither. -/
lemma isRoot_eq_of_keys (same : p.core.map Segment.key = q.core.map Segment.key) :
    p.isRoot = q.isRoot := by
  have empty : p.core = [] ↔ q.core = [] := by
    rw [← List.map_eq_nil_iff (f := Segment.key), same, List.map_eq_nil_iff]
  rw [core_eq_nil_iff, core_eq_nil_iff] at empty
  exact Bool.eq_iff_iff.mpr empty

/-- Below a base the marks of two patterns stay apart, unless both are roots and the base ends in a greedy
segment. -/
lemma trailing_join_eq_iff {base s : Pattern} (hr : base.join p = .ok r) (hs : base.join q = .ok s)
    (roots : p.isRoot = q.isRoot) : r.trailing = s.trailing ↔
      p.trailing = q.trailing ∨ endsGreedy base.segments = true ∧ p.isRoot = true := by
  cases root : p.isRoot with
  | false => simp [trailing_join hr root, trailing_join hs (roots.symm.trans root)]
  | true =>
    rw [trailing_join_root hr root, trailing_join_root hs (roots.symm.trans root)]
    cases endsGreedy base.segments <;> simp

/-- Below a base two patterns share an address if they do so anyway, or if both are roots and the base
ends in a greedy segment. -/
lemma address_join_eq_iff {base s : Pattern} (hr : base.join p = .ok r) (hs : base.join q = .ok s) :
    r.address = s.address ↔ p.address = q.address ∨
      endsGreedy base.segments = true ∧ p.isRoot = true ∧ q.isRoot = true := by
  rw [address_eq_iff, address_eq_iff, core_join hr, core_join hs, List.map_append, List.map_append,
    List.append_cancel_left_eq]
  constructor
  · intro ⟨keys, trailing⟩
    have roots := isRoot_eq_of_keys keys
    rcases (trailing_join_eq_iff hr hs roots).mp trailing with trailing | ⟨greedy, root⟩
    · exact .inl ⟨keys, trailing⟩
    · exact .inr ⟨greedy, root, roots ▸ root⟩
  · rintro (⟨keys, trailing⟩ | ⟨greedy, rootP, rootQ⟩)
    · exact ⟨keys, (trailing_join_eq_iff hr hs (isRoot_eq_of_keys keys)).mpr (.inl trailing)⟩
    · have roots := rootP.trans rootQ.symm
      refine ⟨?_, (trailing_join_eq_iff hr hs roots).mpr (.inr ⟨greedy, rootP⟩)⟩
      rw [core_of_isRoot rootP, core_of_isRoot rootQ]

end Pattern

end PathRouting

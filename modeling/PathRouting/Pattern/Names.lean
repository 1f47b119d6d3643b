import PathRouting.Pattern.Segment

/-!
# Names of placeholders

The names that some segments bind, and the first name that is used again (`firstRepeat_eq_some_iff`).
There is none exactly when the names are distinct (`firstRepeat_eq_none_iff`).
-/

namespace PathRouting

/-- The names of the placeholders among some segments, in order. -/
def namesOf (segments : List Segment) : List String := segments.filterMap Segment.name?

/-- The first element that repeats one before it or one of those already seen. -/
def firstRepeat {α : Type} [DecidableEq α] (seen : List α) : List α → Option α
  | [] => none
  | x :: xs => if x ∈ seen then some x else firstRepeat (x :: seen) xs

/-- No element is used again exactly if the elements differ and none of them was seen before. -/
theorem firstRepeat_eq_none_iff {α : Type} [DecidableEq α] {seen xs : List α} :
    firstRepeat seen xs = none ↔ xs.Nodup ∧ ∀ x ∈ xs, x ∉ seen := by
  induction xs generalizing seen with
  | nil => simp [firstRepeat]
  | cons x xs ih =>
    by_cases h : x ∈ seen
    · simp [firstRepeat, h]
    · simp only [firstRepeat, h, if_false, ih, List.nodup_cons, List.mem_cons, not_or]
      constructor
      · rintro ⟨nodup, fresh⟩
        refine ⟨⟨fun mem => (fresh x mem).1 rfl, nodup⟩, ?_⟩
        rintro y (rfl | mem)
        · exact h
        · exact (fresh y mem).2
      · rintro ⟨⟨notMem, nodup⟩, fresh⟩
        refine ⟨nodup, fun y mem => ⟨?_, fresh y (Or.inr mem)⟩⟩
        rintro rfl
        exact notMem mem

/-- The first repetition has distinct elements before it, none of them seen already. -/
theorem firstRepeat_eq_some_iff {α : Type} [DecidableEq α] {seen xs : List α} {x : α} :
    firstRepeat seen xs = some x ↔ ∃ front back, xs = front ++ x :: back ∧ front.Nodup ∧
      (∀ y ∈ front, y ∉ seen) ∧ (x ∈ seen ∨ x ∈ front) := by
  induction xs generalizing seen with
  | nil => simp [firstRepeat]
  | cons y ys ih =>
    rw [firstRepeat]
    constructor
    · intro first
      split at first
      · rename_i old
        cases first
        exact ⟨[], ys, rfl, List.nodup_nil, by simp, .inl old⟩
      · rename_i new
        obtain ⟨front, back, rfl, nodup, fresh, again⟩ := ih.mp first
        simp only [List.mem_cons, not_or] at fresh again
        refine ⟨y :: front, back, rfl, ?_, ?_, ?_⟩
        · exact List.nodup_cons.mpr ⟨fun mem => (fresh y mem).1 rfl, nodup⟩
        · exact List.forall_mem_cons.mpr ⟨new, fun z mem => (fresh z mem).2⟩
        · rcases again with (rfl | old) | mem
          · exact .inr List.mem_cons_self
          · exact .inl old
          · exact .inr (List.mem_cons_of_mem y mem)
    · rintro ⟨front, back, split, nodup, fresh, again⟩
      cases front with
      | nil =>
        cases split
        have old : x ∈ seen := by simpa using again
        rw [if_pos old]
      | cons z front =>
        cases split
        rw [List.nodup_cons] at nodup
        rw [List.forall_mem_cons] at fresh
        rw [if_neg fresh.1]
        refine ih.mpr ⟨front, back, rfl, nodup.2, ?_, ?_⟩
        · intro w mem old
          rcases List.mem_cons.mp old with rfl | old
          · exact nodup.1 mem
          · exact fresh.2 w mem old
        · rcases again with old | mem
          · exact .inl (List.mem_cons_of_mem y old)
          · rcases List.mem_cons.mp mem with rfl | mem
            · exact .inl List.mem_cons_self
            · exact .inr mem

end PathRouting

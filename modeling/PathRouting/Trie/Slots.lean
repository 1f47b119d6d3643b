import PathRouting.Pattern.Basic

/-!
# Slots

The values at one node of a trie: at most one for each trailing-slash mark.
-/

namespace PathRouting

/-- At most one value for each mark. -/
structure Slots (ρ : Type) where
  no : Option ρ
  yes : Option ρ
  indeterminate : Option ρ

namespace Slots

variable {ρ : Type}

/-- No values at all. -/
def empty : Slots ρ := ⟨none, none, none⟩

/-- The value of a mark. -/
def get (s : Slots ρ) : Trailing → Option ρ
  | .no => s.no
  | .yes => s.yes
  | .indeterminate => s.indeterminate

/-- Gives a mark a value, or takes its value away. -/
def set (s : Slots ρ) (trailing : Trailing) (value : Option ρ) : Slots ρ :=
  match trailing with
  | .no => { s with no := value }
  | .yes => { s with yes := value }
  | .indeterminate => { s with indeterminate := value }

/-- The values in the order of the marks. -/
def toList (s : Slots ρ) : List ρ := s.no.toList ++ s.yes.toList ++ s.indeterminate.toList

/-- Whether no mark has a value. -/
def isEmpty (s : Slots ρ) : Bool := s.no.isNone && s.yes.isNone && s.indeterminate.isNone

/-- Without values no mark has one. -/
@[simp] theorem get_empty (trailing : Trailing) : (empty : Slots ρ).get trailing = none := by
  cases trailing <;> rfl

/-- A mark has the value that it was given last. -/
@[simp]
theorem get_set_self (s : Slots ρ) (trailing : Trailing) (value : Option ρ) :
    (s.set trailing value).get trailing = value := by
  cases trailing <;> rfl

/-- A mark keeps its value while another one is given one. -/
theorem get_set_of_ne (s : Slots ρ) {trailing other : Trailing} (value : Option ρ)
    (h : other ≠ trailing) : (s.set trailing value).get other = s.get other := by
  cases trailing <;> cases other <;> simp_all [get, set]

/-- The values that are listed are those of the marks. -/
theorem mem_toList {s : Slots ρ} {value : ρ} :
    value ∈ s.toList ↔ ∃ trailing, s.get trailing = some value := by
  simp only [toList, List.mem_append, Option.mem_toList]
  constructor
  · rintro ((h | h) | h)
    · exact ⟨.no, h⟩
    · exact ⟨.yes, h⟩
    · exact ⟨.indeterminate, h⟩
  · rintro ⟨trailing, h⟩
    cases trailing
    · exact Or.inl (Or.inl h)
    · exact Or.inl (Or.inr h)
    · exact Or.inr h

/-- The slots are empty exactly if no mark has a value. -/
theorem isEmpty_iff {s : Slots ρ} : s.isEmpty = true ↔ ∀ trailing, s.get trailing = none := by
  simp only [isEmpty, Bool.and_eq_true, Option.isNone_iff_eq_none]
  constructor
  · rintro ⟨⟨no, yes⟩, indeterminate⟩ trailing
    cases trailing
    · exact no
    · exact yes
    · exact indeterminate
  · exact fun h => ⟨⟨h .no, h .yes⟩, h .indeterminate⟩

end Slots

end PathRouting

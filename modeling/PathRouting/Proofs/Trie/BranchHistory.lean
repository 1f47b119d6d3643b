import Mathlib.Data.List.Induction
import PathRouting.Proofs.Pattern.Order
import PathRouting.Proofs.Trie.Branches

/-!
# Branches are known from their history

A history is what happened to some branches since they were empty: keys were used in place and taken away
(`Branches.Use`). Which value a history stored last under a key, since it took the key away last, is said without the
branches (`Branches.LastStored`). For every history, the branches are the finite map of these values, in strictly
ascending order of the keys (`Branches.after_isMapOf`).
-/

namespace PathRouting

/-! ### The order of keys -/

namespace Key

/-- The order of keys: literals by their code points, then the named key, then the greedy one. -/
inductive Before : Key → Key → Prop where
  | literal {text other : String} (less : Text.codePoints text < Text.codePoints other) :
    Before (.literal text) (.literal other)
  | literal_named (text : String) : Before (.literal text) .named
  | literal_greedy (text : String) : Before (.literal text) .greedy
  | named_greedy : Before .named .greedy

/-- The rank of a key decides, and the text if the ranks are the same. -/
lemma compare_eq_lt_iff_rank {k l : Key} : compare k l = .lt ↔
    k.rank < l.rank ∨ k.rank = l.rank ∧ Text.codePoints k.text < Text.codePoints l.text := by
  show (compare k.rank l.rank).then (compare k.text l.text) = .lt ↔ _
  rw [Ordering.then_eq_lt, Nat.compare_eq_lt, Nat.compare_eq_eq, Text.compare_eq_lt_iff]

/-- The comparison follows this order. -/
lemma Before.of_compare {k l : Key} (less : compare k l = .lt) : k.Before l := by
  rw [compare_eq_lt_iff_rank] at less
  cases k with
  | literal text =>
    cases l with
    | literal other => exact .literal (by simpa [rank, Key.text] using less)
    | named => exact .literal_named text
    | greedy => exact .literal_greedy text
  | named =>
    cases l with
    | literal other => simp [rank] at less
    | named => simp [Key.text, Text.codePoints] at less
    | greedy => exact .named_greedy
  | greedy =>
    cases l with
    | literal other => simp [rank] at less
    | named => simp [rank] at less
    | greedy => simp [Key.text, Text.codePoints] at less

end Key

namespace Branches

variable {β : Type}

/-! ### Histories -/

/-- A use of branches. -/
inductive Use (β : Type) where
  /-- Changes the value of a key in place; a key that is missing is itself put in first, with a value that the use
  brings. -/
  | access (key : Key) (value : β) (use : β → β)
  /-- Takes a key away. -/
  | remove (key : Key)

namespace Use

/-- The key that a use is about. -/
def key : Use β → Key
  | access key _ _ => key
  | remove key => key

/-- What a use makes of some branches. -/
def run : Use β → Branches β → Branches β
  | access key value use, b => b.access key (key, value) use
  | remove key, b => (b.remove key).2

end Use

/-- Makes some uses, one after the other. -/
def useAll (uses : List (Use β)) (b : Branches β) : Branches β := uses.foldl (fun b u => u.run b) b

/-- The branches that some uses make of none. -/
def after (uses : List (Use β)) : Branches β := useAll uses empty

/-- The value that some uses stored last under a key since they took it away last, if there is one. At first there
is none. -/
inductive LastStored (key : Key) : List (Use β) → Option β → Prop where
  /-- No use is about the key. -/
  | never {uses : List (Use β)} (apart : ∀ u ∈ uses, u.key ≠ key) : LastStored key uses none
  /-- The last use that is about the key takes it away. -/
  | removed {uses later : List (Use β)} (apart : ∀ u ∈ later, u.key ≠ key) :
    LastStored key (uses ++ .remove key :: later) none
  /-- The last use that is about the key stores what it makes of the value there, or else of the one that it brings. -/
  | stored {uses later : List (Use β)} {old : Option β} {value : β} {use : β → β}
    (earlier : LastStored key uses old) (apart : ∀ u ∈ later, u.key ≠ key) :
    LastStored key (uses ++ .access key value use :: later) (some (use (old.getD value)))

/-- A use that is about another key stores nothing under this one. -/
lemma LastStored.concat {key : Key} {uses : List (Use β)} {result : Option β} (last : LastStored key uses result)
    {u : Use β} (ne : u.key ≠ key) : LastStored key (uses ++ [u]) result := by
  have extend {later : List (Use β)} (apart : ∀ v ∈ later, v.key ≠ key) : ∀ v ∈ later ++ [u], v.key ≠ key :=
    List.forall_mem_append.mpr ⟨apart, List.forall_mem_singleton.mpr ne⟩
  cases last with
  | never apart => exact .never (extend apart)
  | removed apart =>
    rw [List.append_assoc, List.cons_append]
    exact .removed (extend apart)
  | stored earlier apart =>
    rw [List.append_assoc, List.cons_append]
    exact .stored earlier (extend apart)

/-- Every history says what was stored last under a key. -/
lemma LastStored.total (key : Key) (uses : List (Use β)) : ∃ result, LastStored key uses result := by
  induction uses using List.reverseRecOn with
  | nil => exact ⟨none, .never (by simp)⟩
  | append_singleton uses u ih =>
    obtain ⟨old, earlier⟩ := ih
    by_cases same : u.key = key
    · subst same
      cases u with
      | access key value use => exact ⟨_, .stored earlier (by simp)⟩
      | remove key => exact ⟨_, .removed (by simp)⟩
    · exact ⟨old, earlier.concat same⟩

/-! ### What a run does to the branches -/

/-- A use keeps branches sorted. -/
lemma Sorted.run {b : Branches β} (sorted : b.Sorted) (u : Use β) : (u.run b).Sorted := by
  cases u with
  | access key value use => exact sorted.access key value use
  | remove key => exact sorted.remove key

/-- Any uses keep branches sorted. -/
lemma Sorted.useAll {b : Branches β} (sorted : b.Sorted) (uses : List (Use β)) :
    (useAll uses b).Sorted := by
  induction uses generalizing b with
  | nil => exact sorted
  | cons u uses ih => exact ih (sorted.run u)

/-- Branches are sorted after any history. -/
lemma sorted_after (uses : List (Use β)) : (after uses).Sorted := sorted_empty.useAll uses

/-- A use changes what is found under its own key alone. -/
lemma find?_run_of_ne {b : Branches β} (sorted : b.Sorted) {u : Use β} {key : Key} (ne : u.key ≠ key) :
    (u.run b).find? key = b.find? key := by
  cases u with
  | access other value use => exact find?_access_of_ne sorted value use (Ne.symm ne)
  | remove other => exact find?_remove_of_ne sorted (Ne.symm ne)

/-- Uses that are about other keys change nothing of what is found under a key. -/
lemma find?_useAll_of_apart {b : Branches β} (sorted : b.Sorted) {uses : List (Use β)} {key : Key}
    (apart : ∀ u ∈ uses, u.key ≠ key) : (useAll uses b).find? key = b.find? key := by
  induction uses generalizing b with
  | nil => rfl
  | cons u uses ih =>
    rw [List.forall_mem_cons] at apart
    calc (useAll uses (u.run b)).find? key
        = (u.run b).find? key := ih (sorted.run u) apart.2
      _ = b.find? key := find?_run_of_ne sorted apart.1

/-- What is found under a key after a use that is the last one about it is what this use made of it. -/
lemma find?_after_last (uses : List (Use β)) (u : Use β) {later : List (Use β)} {key : Key}
    (apart : ∀ v ∈ later, v.key ≠ key) :
    (after (uses ++ u :: later)).find? key = (u.run (after uses)).find? key := by
  have split : after (uses ++ u :: later) = useAll later (u.run (after uses)) := List.foldl_append
  rw [split]
  exact find?_useAll_of_apart ((sorted_after uses).run u) apart

/-- After a history a key has the value that was stored last. -/
lemma LastStored.find?_after {key : Key} {uses : List (Use β)} {result : Option β}
    (last : LastStored key uses result) : (after uses).find? key = result := by
  induction last with
  | never apart => exact (find?_useAll_of_apart sorted_empty apart).trans (find?_empty key)
  | @removed uses later apart =>
    rw [find?_after_last uses _ apart]
    exact find?_remove_self (sorted_after uses) key
  | @stored uses later old value use earlier apart ih =>
    rw [find?_after_last uses _ apart, ← ih]
    exact find?_access_self (sorted_after uses) key value use

/-- What is found under a key is what was stored there last. -/
lemma find?_after_iff {uses : List (Use β)} {key : Key} {result : Option β} :
    (after uses).find? key = result ↔ LastStored key uses result := by
  constructor
  · rintro rfl
    obtain ⟨result, last⟩ := LastStored.total key uses
    rw [last.find?_after]
    exact last
  · exact LastStored.find?_after

/-- Some branches are the sorted finite map of what a history stored last. -/
structure IsMapOf (b : Branches β) (uses : List (Use β)) : Prop where
  ascending : b.entries.Pairwise fun e f => e.1.Before f.1
  /-- So there is one entry at the most of the named key, of the greedy one, and of each literal. -/
  count_le_one : ∀ key, (b.entries.map Prod.fst).count key ≤ 1
  mem_entries : ∀ key value, (key, value) ∈ b.entries ↔ b.find? key = some value
  find : ∀ key result, b.find? key = result ↔ LastStored key uses result
  remove : ∀ key, LastStored key uses (b.remove key).1
  remove_find : ∀ key, (b.remove key).2.find? key = none
  remove_other : ∀ key other, other ≠ key → (b.remove key).2.find? other = b.find? other
  access_find : ∀ key value use,
    (b.access key (key, value) use).find? key = some (use ((b.find? key).getD value))
  access_other : ∀ key value use other, other ≠ key →
    (b.access key (key, value) use).find? other = b.find? other
  isEmpty : b.isEmpty = true ↔ ∀ key, b.find? key = none
  /-- Another history with the same values makes the same branches, and so the same order of the values. -/
  unique : ∀ others, (∀ key result, LastStored key others result ↔ LastStored key uses result) → after others = b

/-- Whatever was done to some branches, they are the sorted finite map of what was stored last. -/
theorem after_isMapOf (uses : List (Use β)) : (after uses).IsMapOf uses := by
  have sorted := sorted_after uses
  constructor
  case ascending => exact sorted.imp Key.Before.of_compare
  case count_le_one => exact List.nodup_iff_count_le_one.mp sorted.nodup
  case mem_entries =>
    intro key value
    exact (find?_eq_some_iff sorted).symm
  case find =>
    intro key result
    exact find?_after_iff
  case remove =>
    intro key
    rw [remove_fst]
    exact find?_after_iff.mp rfl
  case remove_find => exact find?_remove_self sorted
  case remove_other =>
    intro key other ne
    exact find?_remove_of_ne sorted ne
  case access_find => exact find?_access_self sorted
  case access_other =>
    intro key value use other ne
    exact find?_access_of_ne sorted value use ne
  case isEmpty => exact isEmpty_iff sorted
  case unique =>
    intro others same
    -- sorted branches are known from what a search finds in them
    apply (sorted_after others).ext sorted
    intro key
    rw [find?_after_iff, same, ← find?_after_iff]

-- a literal is stored twice, and the named key is taken away
example :
    let b : Branches Nat := after [.access .greedy 0 fun _ => 4, .access (.literal "b") 0 fun _ => 2,
      .access .named 0 fun _ => 3, .access (.literal "a") 0 fun _ => 1,
      .access (.literal "a") 0 fun old => old + 4, .remove .named]
    b.entries = [(.literal "a", 5), (.literal "b", 2), (.greedy, 4)] ∧ b.find? .named = none := by
  decide +kernel

end Branches

end PathRouting

import Mathlib.Data.Finset.Card
import Mathlib.Data.List.Forall2
import Mathlib.Data.List.Nodup
import Mathlib.Tactic.Lemma

/-!
# Lists

What the other proofs need to know of lists: what is looked up by its key in a list of keys with their values
(`mem_of_lookup`, `Single.lookup_eq_some_iff`), what is left of a list when of equal elements the first one stays
(`nodup_eraseDups`, `length_eraseDups`), and when a check of all elements, from left to right, succeeds or fails
(`mapM_eq_ok_iff`, `mapM_eq_error_iff`).
-/

namespace PathRouting

/-! ### Entries -/

section

variable {κ β : Type} {entries : List (κ × β)} {key : κ}

/-- Some entries have one value at most under a key. -/
def Single (entries : List (κ × β)) (key : κ) : Prop :=
  ∀ value other, (key, value) ∈ entries → (key, other) ∈ entries → value = other

/-- Entries with distinct keys have one value at most under each. -/
lemma single_of_nodup (nodup : (entries.map Prod.fst).Nodup) : Single entries key := by
  intro value other mem mem'
  have same := List.inj_on_of_nodup_map nodup mem mem' rfl
  exact congrArg Prod.snd same

variable [BEq κ] [LawfulBEq κ]

/-- What is looked up is one of the entries. -/
lemma mem_of_lookup {value : β} (found : entries.lookup key = some value) : (key, value) ∈ entries := by
  obtain ⟨front, back, rfl, -⟩ := List.lookup_eq_some_iff.mp found
  simp

/-- A lookup fails exactly for the keys that no entry has. -/
lemma lookup_eq_none_iff : entries.lookup key = none ↔ key ∉ entries.map Prod.fst := by
  rw [List.lookup_eq_none_iff, List.mem_map]
  constructor
  · rintro fresh ⟨entry, mem, rfl⟩
    simpa using fresh entry mem
  · intro fresh entry mem
    apply bne_iff_ne.mpr
    rintro rfl
    exact fresh ⟨entry, mem, rfl⟩

/-- Where a key has one value at most, a lookup finds it wherever it stands. -/
lemma Single.lookup_eq_some_iff (single : Single entries key) {value : β} :
    entries.lookup key = some value ↔ (key, value) ∈ entries := by
  refine ⟨mem_of_lookup, fun mem => ?_⟩
  cases found : entries.lookup key with
  | none => exact absurd (List.mem_map_of_mem mem) (lookup_eq_none_iff.mp found)
  | some other => rw [single _ _ mem (mem_of_lookup found)]

end

/-! ### Distinct elements -/

section

variable {κ : Type} [DecidableEq κ]

/-- It makes no difference whether a list is filtered before or after repetitions are dropped. -/
lemma filter_eraseDups (keep : κ → Bool) :
    ∀ xs : List κ, (xs.filter keep).eraseDups = xs.eraseDups.filter keep
  | [] => rfl
  | x :: xs => by
    have next := filter_eraseDups keep (xs.filter fun y => !y == x)
    rw [List.eraseDups_cons]
    cases kept : keep x with
    | true =>
      rw [List.filter_cons_of_pos kept, List.filter_cons_of_pos kept, List.eraseDups_cons, ← next,
        List.filter_comm]
    | false =>
      have dropped : ¬keep x = true := by simp [kept]
      rw [List.filter_cons_of_neg dropped, List.filter_cons_of_neg dropped, ← next,
        List.filter_filter]
      -- the elements that equal the first one are dropped with it
      apply congrArg
      apply List.filter_congr
      intro y _
      by_cases same : y = x
      · simp [same, kept]
      · simp [same]
termination_by xs => xs.length
decreasing_by exact Nat.lt_succ_of_le (List.length_filter_le _ xs)

/-- Of the elements that are equal the first one stays. -/
lemma eraseDups_cons_eq (x : κ) (xs : List κ) :
    (x :: xs).eraseDups = x :: xs.eraseDups.filter (· != x) := by
  rw [List.eraseDups_cons, filter_eraseDups]
  rfl

/-- No element is left twice. -/
lemma nodup_eraseDups (xs : List κ) : xs.eraseDups.Nodup := by
  induction xs with
  | nil => exact List.nodup_nil
  | cons x xs ih =>
    rw [eraseDups_cons_eq, List.nodup_cons]
    exact ⟨by simp, ih.filter _⟩

/-- As many elements are left as the list has different ones. -/
lemma length_eraseDups (xs : List κ) : xs.eraseDups.length = xs.toFinset.card := by
  have same : xs.eraseDups.toFinset = xs.toFinset := by
    ext x
    simp
  rw [← same, List.toFinset_card_of_nodup (nodup_eraseDups xs)]

/-- It makes no difference whether an element is dropped before or after the list is cut. -/
lemma take_filter_take {xs : List κ} (nodup : xs.Nodup) (x : κ) (n : Nat) :
    ((xs.take (n + 1)).filter (· != x)).take n = (xs.filter (· != x)).take n := by
  induction xs generalizing n with
  | nil => rfl
  | cons y xs ih =>
    rw [List.nodup_cons] at nodup
    obtain ⟨fresh, nodup⟩ := nodup
    by_cases same : y = x
    · subst same
      have kept : ∀ zs, zs ⊆ xs → zs.filter (· != y) = zs := by
        intro zs subset
        rw [List.filter_eq_self]
        intro z mem
        apply bne_iff_ne.mpr
        rintro rfl
        exact fresh (subset mem)
      rw [List.take_succ_cons, List.filter_cons_of_neg (by simp), List.filter_cons_of_neg (by simp),
        kept _ (List.take_subset n xs), kept _ (List.Subset.refl xs), List.take_take, Nat.min_self]
    · cases n with
      | zero => rfl
      | succ n =>
        have stays : (y != x) = true := bne_iff_ne.mpr same
        simp only [List.take_succ_cons, List.filter_cons, stays, if_true]
        exact congrArg _ (ih nodup n)

end

/-! ### Checks -/

section

variable {ε α β : Type} {f : α → Except ε β}

/-- A check of a list succeeds if that of every element does. -/
lemma mapM_eq_ok_iff {xs : List α} {ys : List β} :
    xs.mapM f = .ok ys ↔ List.Forall₂ (fun x y => f x = .ok y) xs ys := by
  induction xs generalizing ys with
  | nil => cases ys <;> simp [pure, Except.pure]
  | cons x xs ih =>
    rw [List.mapM_cons, List.forall₂_cons_left_iff]
    cases f x with
    | error error => simp [bind, Except.bind]
    | ok y =>
      cases h : xs.mapM f with
      | error error => simp [bind, Except.bind, ← ih, h]
      | ok rest => simp [bind, Except.bind, pure, Except.pure, ← ih, h, eq_comm]

/-- A check of a list fails as that of the first element does that fails. -/
lemma mapM_eq_error_iff {xs : List α} {error : ε} :
    xs.mapM f = .error error ↔ ∃ front x back, xs = front ++ x :: back ∧
      (∀ y ∈ front, ∃ z, f y = .ok z) ∧ f x = .error error := by
  induction xs with
  | nil => simp [pure, Except.pure]
  | cons x xs ih =>
    rw [List.mapM_cons]
    constructor
    · intro failed
      cases h : f x with
      | error first =>
        rw [h] at failed
        cases failed
        exact ⟨[], x, xs, rfl, by simp, h⟩
      | ok y =>
        cases g : xs.mapM f with
        | ok rest => simp [h, g, bind, Except.bind, pure, Except.pure] at failed
        | error later =>
          rw [h, g] at failed
          cases failed
          obtain ⟨front, z, back, split, passed, last⟩ := ih.mp g
          refine ⟨x :: front, z, back, by rw [split]; rfl, ?_, last⟩
          rintro w (_ | ⟨_, mem⟩)
          · exact ⟨y, h⟩
          · exact passed w mem
    · rintro ⟨front, z, back, split, passed, last⟩
      cases front with
      | nil =>
        obtain ⟨rfl, rfl⟩ := List.cons.inj split
        rw [last]
        rfl
      | cons w front =>
        obtain ⟨rfl, rfl⟩ := List.cons.inj split
        obtain ⟨y, h⟩ := passed x List.mem_cons_self
        have later := ih.mpr
          ⟨front, z, back, rfl, fun w mem => passed w (List.mem_cons_of_mem x mem), last⟩
        rw [h, later]
        rfl

/-- Two related lists are the two sides of one list of related pairs. -/
lemma exists_pairs {R : α → β → Prop} {xs : List α} {ys : List β} (related : List.Forall₂ R xs ys) :
    ∃ pairs : List (α × β), pairs.map Prod.fst = xs ∧ pairs.map Prod.snd = ys ∧
      ∀ e ∈ pairs, R e.1 e.2 := by
  induction related with
  | nil => exact ⟨[], rfl, rfl, by simp⟩
  | @cons x y xs ys here _ ih =>
    obtain ⟨pairs, rfl, rfl, all⟩ := ih
    exact ⟨(x, y) :: pairs, rfl, rfl, List.forall_mem_cons.mpr ⟨here, all⟩⟩

end

end PathRouting

import Mathlib.Data.Finset.Card
import Mathlib.Data.List.Sort
import Mathlib.Tactic.Lemma
import PathRouting.Pattern.Order
import PathRouting.Proofs.Lists

/-!
# The order of patterns is total

`Pattern.Before` says which of two patterns comes first, without a comparison: the first segments that differ decide,
or the end of the shorter list, and only then the marks. The comparison decides it (`Pattern.compare_eq_lt_iff`), and
it finds two patterns equal exactly if they are, which is when their data for hashing are. So a list of patterns is
sorted in one way only, and it has as many different patterns by the order as by the hash (`Pattern.compare_lawful`).
-/

namespace PathRouting

/-! ### Texts -/

namespace Text

/-- The code points of a text. -/
def codePoints (text : String) : List Nat := text.toList.map Char.toNat

/-- Characters are ordered as their code points. -/
lemma map_toNat_lt_iff {cs ds : List Char} : cs.map Char.toNat < ds.map Char.toNat ↔ cs < ds := by
  induction cs generalizing ds with
  | nil => cases ds <;> simp
  | cons c cs ih =>
    cases ds with
    | nil => simp
    | cons d ds =>
      rw [List.map_cons, List.map_cons, List.cons_lt_cons_iff, List.cons_lt_cons_iff, ih, Char.toNat_inj]
      rfl

/-- Texts are compared by their code points. -/
lemma compare_eq_lt_iff {s t : String} : compare s t = .lt ↔ codePoints s < codePoints t := by
  show compareOfLessAndEq s t = .lt ↔ _
  rw [compareOfLessAndEq_eq_lt, String.lt_iff, codePoints, codePoints, map_toNat_lt_iff]

end Text

/-! ### Segments -/

namespace Segment

/-- The order of segments: literals, the empty one first of all, then named placeholders, then greedy ones; within
a kind the text decides. -/
inductive Before : Segment → Segment → Prop where
  | empty {text : String} (ne : text ≠ "") : Before (.literal "") (.literal text)
  | literal {text other : String} (ne : text ≠ "")
    (less : Text.codePoints text < Text.codePoints other) : Before (.literal text) (.literal other)
  | literal_named (text name : String) : Before (.literal text) (.named name)
  | literal_greedy (text name : String) : Before (.literal text) (.greedy name)
  | named {name other : String} (less : Text.codePoints name < Text.codePoints other) :
    Before (.named name) (.named other)
  | named_greedy (name other : String) : Before (.named name) (.greedy other)
  | greedy {name other : String} (less : Text.codePoints name < Text.codePoints other) :
    Before (.greedy name) (.greedy other)

/-- The rank of a segment decides, and the text if the ranks are the same. -/
lemma compare_eq_lt_iff_rank {s t : Segment} : compare s t = .lt ↔
    s.rank < t.rank ∨ s.rank = t.rank ∧ Text.codePoints s.text < Text.codePoints t.text := by
  show (compare s.rank t.rank).then (compare s.text t.text) = .lt ↔ _
  rw [Ordering.then_eq_lt, Nat.compare_eq_lt, Nat.compare_eq_eq, Text.compare_eq_lt_iff]

/-- A literal ranks below the placeholders. -/
lemma rank_literal_lt (text : String) : (literal text).rank < 3 := by
  rw [rank]
  split <;> decide

/-- All literals but the empty one have one rank. -/
lemma rank_literal_of_ne {text : String} (ne : text ≠ "") : (literal text).rank = 2 := if_neg ne

/-- Segments that compare as less come first. -/
lemma Before.of_compare {s t : Segment} (less : compare s t = .lt) : s.Before t := by
  rw [compare_eq_lt_iff_rank] at less
  cases s with
  | literal text =>
    cases t with
    | literal other =>
      by_cases empty : text = ""
      · subst empty
        -- the empty literal is below itself neither by its rank nor by its text
        have ne : other ≠ "" := by
          rintro rfl
          exact absurd less (by simp)
        exact .empty ne
      · by_cases empty' : other = ""
        · simp [rank, empty, empty'] at less
        · rw [rank_literal_of_ne empty, rank_literal_of_ne empty'] at less
          exact .literal empty (by simpa [Segment.text] using less)
    | named name => exact .literal_named text name
    | greedy name => exact .literal_greedy text name
  | named name =>
    cases t with
    | literal text =>
      have := rank_literal_lt text
      simp only [rank] at less this
      omega
    | named other => exact .named (by simpa [rank, text] using less)
    | greedy other => exact .named_greedy name other
  | greedy name =>
    cases t with
    | literal text =>
      have := rank_literal_lt text
      simp only [rank] at less this
      omega
    | named other => simp [rank] at less
    | greedy other => exact .greedy (by simpa [rank, text] using less)

/-- A segment that comes first compares as less. -/
lemma Before.compare_eq {s t : Segment} (before : s.Before t) : compare s t = .lt := by
  rw [compare_eq_lt_iff_rank]
  cases before with
  | empty ne => exact .inl (by simp [rank, ne])
  | @literal text other ne less =>
    have ne' : other ≠ "" := by
      rintro rfl
      exact List.not_lt_nil _ less
    exact .inr ⟨by rw [rank_literal_of_ne ne, rank_literal_of_ne ne'], less⟩
  | literal_named text name => exact .inl (rank_literal_lt text)
  | literal_greedy text name => exact .inl (Nat.lt_succ_of_lt (rank_literal_lt text))
  | named less => exact .inr ⟨rfl, less⟩
  | named_greedy name other => exact .inl (Nat.lt_succ_self 3)
  | greedy less => exact .inr ⟨rfl, less⟩

/-- A segment compares as less exactly if it comes first. -/
lemma compare_eq_lt_iff {s t : Segment} : compare s t = .lt ↔ s.Before t :=
  ⟨Before.of_compare, Before.compare_eq⟩

end Segment

/-! ### Patterns -/

/-- Lists are compared from the left, and a list comes before those it begins. -/
lemma compare_list_eq_lt_iff {β : Type} [Ord β] [Std.LawfulEqOrd β] {R : β → β → Prop}
    (before : ∀ {x y : β}, compare x y = .lt ↔ R x y) {xs ys : List β} :
    compare xs ys = .lt ↔ List.Lex R xs ys := by
  induction xs generalizing ys with
  | nil =>
    cases ys with
    | nil => simp
    | cons y ys => exact iff_of_true rfl .nil
  | cons x xs ih =>
    cases ys with
    | nil => simp
    | cons y ys =>
      show List.compareLex compare (x :: xs) (y :: ys) = .lt ↔ _
      rw [List.compareLex_cons_cons, Ordering.then_eq_lt, before, Std.LawfulEqOrd.compare_eq_iff_eq]
      constructor
      · rintro (less | ⟨rfl, less⟩)
        · exact .rel less
        · exact .cons (ih.mp less)
      · rintro (_ | less | less)
        · exact .inl less
        · exact .inr ⟨rfl, ih.mpr less⟩

/-- A list comes before the longer ones that begin with it. -/
lemma lex_append {β : Type} {R : β → β → Prop} (xs : List β) (y : β) (ys : List β) :
    List.Lex R xs (xs ++ y :: ys) := by
  induction xs with
  | nil => exact .nil
  | cons x xs ih => exact .cons ih

namespace Pattern

/-- The order of patterns: the segments decide, and the marks if they are the same. -/
inductive Before (p q : Pattern) : Prop where
  | segments (less : List.Lex Segment.Before p.segments q.segments)
  | trailing (same : p.segments = q.segments) (less : p.trailing.index < q.trailing.index)

variable {p q : Pattern}

/-- A pattern compares as less exactly if it comes first. -/
lemma compare_eq_lt_iff : compare p q = .lt ↔ p.Before q := by
  show (compare p.segments q.segments).then (compare p.trailing.index q.trailing.index) = .lt ↔ _
  rw [Ordering.then_eq_lt, compare_list_eq_lt_iff Segment.compare_eq_lt_iff,
    Std.LawfulEqOrd.compare_eq_iff_eq, Nat.compare_eq_lt]
  constructor
  · rintro (less | ⟨same, less⟩)
    · exact .segments less
    · exact .trailing same less
  · rintro (less | ⟨same, less⟩)
    · exact .inl less
    · exact .inr ⟨same, less⟩

/-- Patterns compare as equal exactly if they are the same. -/
lemma compare_eq_eq_iff : compare p q = .eq ↔ p = q := Std.LawfulEqOrd.compare_eq_iff_eq

/-- Patterns with the same data for hashing are the same. -/
lemma hashData_inj : p.hashData = q.hashData ↔ p = q := by
  refine ⟨fun same => ?_, congrArg hashData⟩
  obtain ⟨segments, marks⟩ := Prod.mk.inj same
  apply Pattern.ext
  · exact List.map_injective_iff.mpr (fun _ _ => Segment.hashData_inj.mp) segments
  · exact Trailing.index_inj.mp marks

/-- A proper prefix comes first, whatever the marks. -/
lemma compare_of_prefix (start : p.segments <+: q.segments) (ne : p.segments ≠ q.segments) :
    compare p q = .lt := by
  obtain ⟨rest, joined⟩ := start
  rw [compare_eq_lt_iff]
  apply Before.segments
  rw [← joined]
  cases rest with
  | nil => exact absurd (by simpa using joined) ne
  | cons s rest => exact lex_append p.segments s rest

/-! ### Sorting -/

/-- Of two patterns one is at most the other. -/
lemma le_or_le (p q : Pattern) : p.le q = true ∨ q.le p = true := by
  rw [le, le, Std.OrientedOrd.eq_swap (a := q)]
  cases compare p q <;> simp

/-- The order of patterns is transitive. -/
lemma le_of_le_of_le {r : Pattern} : p.le q = true → q.le r = true → p.le r = true := Std.TransCmp.isLE_trans

/-- Patterns that are at most each other are the same. -/
lemma eq_of_le_of_le (left : p.le q = true) (right : q.le p = true) : p = q :=
  Std.LawfulEqOrd.eq_of_compare (Std.OrientedCmp.isLE_antisymm left right)

/-- Sorting keeps every pattern, as often as it is there. -/
lemma sort_perm (patterns : List Pattern) : (sort patterns).Perm patterns :=
  List.mergeSort_perm patterns le

/-- A sorted list ascends. -/
lemma sort_pairwise (patterns : List Pattern) :
    (sort patterns).Pairwise fun p q => p.le q = true := by
  apply List.pairwise_mergeSort
  · exact fun _ _ _ => le_of_le_of_le
  · intro p q
    rw [Bool.or_eq_true]
    exact le_or_le p q

/-- Lists that differ in their order alone are sorted alike. -/
lemma sort_congr {patterns others : List Pattern} (perm : patterns.Perm others) :
    sort patterns = sort others :=
  ((sort_perm patterns).trans (perm.trans (sort_perm others).symm)).eq_of_pairwise
    (fun _ _ _ _ => eq_of_le_of_le) (sort_pairwise patterns) (sort_pairwise others)

/-! ### Counting -/

/-- A test that tells apart just what is different counts the different patterns. -/
lemma length_eraseDupsBy {same : Pattern → Pattern → Bool}
    (same_iff : ∀ p q, same p q = true ↔ p = q) (patterns : List Pattern) :
    (patterns.eraseDupsBy same).length = patterns.toFinset.card := by
  have eq : same = fun p q => p == q := by
    funext p q
    rw [Bool.eq_iff_iff, same_iff, beq_iff_eq]
  rw [eq]
  exact length_eraseDups patterns

/-- Dropping neighbours that are equal counts the different patterns. -/
lemma countByOrder_eq (patterns : List Pattern) : countByOrder patterns = patterns.toFinset.card :=
  length_eraseDupsBy (fun p q => by rw [beq_iff_eq, compare_eq_eq_iff]) patterns

/-- So does collecting them by their hash. -/
lemma countByHash_eq (patterns : List Pattern) : countByHash patterns = patterns.toFinset.card :=
  length_eraseDupsBy (fun p q => by rw [beq_iff_eq, hashData_inj]) patterns

/-- The order is total, it decides by the segments and then by the marks, and it tells apart what the data for
hashing tell apart; a sorted list depends on the patterns and not on how they were given. -/
theorem compare_lawful (a b c : Pattern) :
    (a.le b = true ∨ b.le a = true) ∧
    (a.le b = true → b.le a = true → a = b) ∧
    (a.le b = true → b.le c = true → a.le c = true) ∧
    compare b a = (compare a b).swap ∧
    (compare a b = .lt ↔ a.Before b) ∧
    (compare a b = .eq ↔ a.segments = b.segments ∧ a.trailing = b.trailing) ∧
    (compare a b = .eq ↔ a.hashData = b.hashData) ∧
    (a.segments <+: b.segments → a.segments ≠ b.segments → compare a b = .lt) ∧
    (∀ patterns : List Pattern,
      (sort patterns).Perm patterns ∧ (sort patterns).Pairwise (fun p q => p.le q = true) ∧
      (∀ others, patterns.Perm others → sort patterns = sort others) ∧
      countByOrder patterns = patterns.toFinset.card ∧
      countByHash patterns = patterns.toFinset.card) := by
  refine ⟨le_or_le a b, eq_of_le_of_le, le_of_le_of_le, Std.OrientedOrd.eq_swap, compare_eq_lt_iff, ?_, ?_,
    compare_of_prefix, fun patterns => ?_⟩
  · rw [compare_eq_eq_iff, Pattern.ext_iff]
  · rw [compare_eq_eq_iff, hashData_inj]
  · exact ⟨sort_perm patterns, sort_pairwise patterns, fun _ => sort_congr,
      countByOrder_eq patterns, countByHash_eq patterns⟩

/-- The patterns `/a`, `/a/{x}` and `/a/{x}/` are in this order. -/
theorem compare_lawful_extended :
    let a : Pattern := ⟨[.literal "a"], .no, by decide, by decide, by decide⟩
    let b : Pattern := ⟨[.literal "a", .named "x"], .no, by decide, by decide, by decide⟩
    let c : Pattern := ⟨[.literal "a", .named "x"], .yes, by decide, by decide, by decide⟩
    (a.le a = true ∧ a.le b = true ∧ b.le c = true ∧ a.segments <+: b.segments ∧
      a.segments ≠ b.segments ∧ [c, a, b].Perm [a, b, c]) ∧
    a = a ∧ a.le c = true ∧ compare a b = .lt ∧ sort [c, a, b] = sort [a, b, c] := by
  intro a b c
  have same : a.le a = true := by decide +kernel
  have left : a.le b = true := by decide +kernel
  have right : b.le c = true := by decide +kernel
  have start : a.segments <+: b.segments := ⟨[.named "x"], rfl⟩
  have ne : a.segments ≠ b.segments := by decide
  have perm : [c, a, b].Perm [a, b, c] := by decide
  obtain ⟨-, -, trans, -, -, -, -, longer, sorted⟩ := compare_lawful a b c
  obtain ⟨-, antisymm, -⟩ := compare_lawful a a a
  exact ⟨⟨same, left, right, start, ne, perm⟩, antisymm same same, trans left right,
    longer start ne, (sorted [c, a, b]).2.2.1 [a, b, c] perm⟩

end Pattern

end PathRouting

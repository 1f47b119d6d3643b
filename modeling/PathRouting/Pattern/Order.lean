import PathRouting.Pattern.Basic

/-!
# The order of patterns

Patterns are compared segment by segment, and then by their mark. Of two segments the greedy one is
the greater, then the named one, then the literal that is not empty; segments of one kind are compared
by their text. The order is total (`Pattern.transOrd`) and two patterns are equal in it only if they
are the same (`Pattern.lawfulEqOrd`). `Pattern.hashData` is the data a hash of a pattern is made from.
-/

namespace PathRouting

namespace Segment

/-- The rank of a segment: greedy ones are the greatest, then named ones, then literals, and the empty
literal is the least. -/
def rank : Segment → Nat
  | literal text => if text = "" then 1 else 2
  | named _ => 3
  | greedy _ => 4

/-- Segments are compared by their rank, then by their text. -/
instance : Ord Segment where
  compare := compareLex (compareOn rank) (compareOn text)

/-- A segment is determined by its rank and its text. -/
theorem eq_of_rank_eq_of_text_eq {s t : Segment} (rank_eq : s.rank = t.rank)
    (text_eq : s.text = t.text) : s = t := by
  cases s <;> cases t <;> grind [rank, text]

/-- The order of segments is transitive. -/
instance transOrd : Std.TransOrd Segment :=
  inferInstanceAs (Std.TransCmp (compareLex (compareOn rank) (compareOn text)))

/-- Segments that compare as equal are the same. -/
instance lawfulEqOrd : Std.LawfulEqOrd Segment where
  eq_of_compare {s t} h := by
    obtain ⟨ranks, texts⟩ := Ordering.then_eq_eq.mp h
    exact eq_of_rank_eq_of_text_eq (Std.LawfulEqOrd.eq_of_compare ranks)
      (Std.LawfulEqOrd.eq_of_compare texts)

/-- The kind and the text of a segment, for hashing. -/
def hashData : Segment → Nat × String
  | literal text => (0, text)
  | named name => (1, name)
  | greedy name => (2, name)

/-- Segments with the same data for hashing are the same. -/
theorem hashData_inj {s t : Segment} : s.hashData = t.hashData ↔ s = t := by
  cases s <;> cases t <;> simp [hashData]

end Segment

namespace Pattern

/-- Patterns are compared by their segments from left to right, then by their marks. -/
instance : Ord Pattern where
  compare := compareLex (compareOn segments) (compareOn trailing)

/-- The order of patterns is transitive. -/
instance transOrd : Std.TransOrd Pattern :=
  inferInstanceAs (Std.TransCmp (compareLex (compareOn segments) (compareOn trailing)))

/-- Patterns that compare as equal are the same. -/
instance lawfulEqOrd : Std.LawfulEqOrd Pattern where
  eq_of_compare {p q} h := by
    obtain ⟨segs, trail⟩ := Ordering.then_eq_eq.mp h
    exact Pattern.ext (Std.LawfulEqOrd.eq_of_compare segs) (Std.LawfulEqOrd.eq_of_compare trail)

/-- The data that a hash of a pattern is made from: its segments and its mark. -/
def hashData (p : Pattern) : List (Nat × String) × Nat :=
  (p.segments.map Segment.hashData, p.trailing.index)

/-- A pattern is hashed by its segments and its mark. -/
instance : Hashable Pattern where
  hash p := hash p.hashData

/-- Whether one pattern comes before another or equals it. -/
def le (p q : Pattern) : Bool := (compare p q).isLE

/-- The patterns in ascending order. -/
def sort (patterns : List Pattern) : List Pattern := patterns.mergeSort le

/-- The number of patterns that the order tells apart. -/
def countByOrder (patterns : List Pattern) : Nat :=
  (patterns.eraseDupsBy fun p q => compare p q == .eq).length

/-- The number of patterns that the data for hashing tells apart. -/
def countByHash (patterns : List Pattern) : Nat :=
  (patterns.eraseDupsBy fun p q => p.hashData == q.hashData).length

end Pattern

end PathRouting

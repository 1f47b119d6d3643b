import PathRouting.Pattern.Basic

/-!
# Addresses

The place of a pattern in a route table: the keys of its segments, which forget the names of the
placeholders, and its trailing-slash mark. Patterns that differ only in names have one address.
-/

namespace PathRouting

/-- What a segment takes, without the name that it binds. -/
inductive Key where
  | literal (text : String)
  | named
  | greedy
  deriving DecidableEq, Repr

namespace Key

/-- Whether a key takes a token: a literal only the one that it spells, any other key every one. -/
def accepts : Key → String → Bool
  | literal text, token => text == token
  | named, _ => true
  | greedy, _ => true

/-- Whether a key is the greedy one. -/
def isGreedy : Key → Bool
  | greedy => true
  | _ => false

/-- The rank of a kind of key: literals come first and the greedy key last. -/
def rank : Key → Nat
  | literal _ => 0
  | named => 1
  | greedy => 2

/-- The text of a literal; the other keys have none. -/
def text : Key → String
  | literal text => text
  | _ => ""

/-- Keys are compared by their rank, then by their text. -/
instance : Ord Key where
  compare := compareLex (compareOn rank) (compareOn text)

/-- A key is determined by its rank and its text. -/
theorem eq_of_rank_eq_of_text_eq {k l : Key} (rank_eq : k.rank = l.rank)
    (text_eq : k.text = l.text) : k = l := by
  cases k <;> cases l <;> simp_all [rank, text]

/-- The order of keys is transitive. -/
instance transOrd : Std.TransOrd Key :=
  inferInstanceAs (Std.TransCmp (compareLex (compareOn rank) (compareOn text)))

/-- Keys that compare as equal are the same. -/
instance lawfulEqOrd : Std.LawfulEqOrd Key where
  eq_of_compare {k l} h := by
    obtain ⟨ranks, texts⟩ := Ordering.then_eq_eq.mp h
    exact eq_of_rank_eq_of_text_eq (Std.LawfulEqOrd.eq_of_compare ranks)
      (Std.LawfulEqOrd.eq_of_compare texts)

end Key

/-- The key of a segment, which forgets the name that the segment binds. -/
def Segment.key : Segment → Key
  | .literal text => .literal text
  | .named _ => .named
  | .greedy _ => .greedy

/-- A segment is greedy exactly if its key is. -/
@[simp] theorem Segment.isGreedy_key (s : Segment) : s.key.isGreedy = s.isGreedy := by
  cases s <;> rfl

/-- A place in a route table. -/
structure Address where
  keys : List Key
  trailing : Trailing
  deriving DecidableEq, Repr

/-- The place of a pattern: the keys of its segments, and its mark. -/
def Pattern.address (p : Pattern) : Address := ⟨p.segments.map Segment.key, p.trailing⟩

end PathRouting

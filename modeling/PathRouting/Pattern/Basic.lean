import PathRouting.Pattern.Names
import PathRouting.RequestPath

/-!
# Patterns

A pattern is a list of segments with a trailing-slash mark. Every pattern keeps three rules
(`Pattern.segments_ne_nil`, `Pattern.names_nodup`, `Pattern.trailing_eq_indeterminate_iff`): there is a
segment, no two placeholders have one name, and the mark is indeterminate exactly when the last
segment is greedy. `Pattern.ofSegments` is the only way to build one; `Pattern.parse` reads one from
text and `Pattern.display` writes it.

A mark says whether the request path must end in a slash, must not, or may do either (`Trailing`); the
three marks are ordered as they are listed.
-/

namespace PathRouting

/-- What a pattern asks of the slash at the end of a request path. -/
inductive Trailing where
  /-- The path ends without a slash. -/
  | no
  /-- The path ends in a slash. -/
  | yes
  /-- Either will do. -/
  | indeterminate
  deriving DecidableEq, Repr

namespace Trailing

/-- The mark of a path that does or does not end in a slash. -/
def ofBool (slash : Bool) : Trailing := if slash then yes else no

/-- The place of a mark in the order. -/
def index : Trailing → Nat
  | no => 0
  | yes => 1
  | indeterminate => 2

/-- Marks of one place are the same. -/
theorem index_inj {s t : Trailing} : s.index = t.index ↔ s = t := by
  cases s <;> cases t <;> simp [index]

/-- Marks are compared by their places. -/
instance : Ord Trailing where
  compare := compareOn index

/-- The order of marks is transitive. -/
instance transOrd : Std.TransOrd Trailing :=
  inferInstanceAs (Std.TransCmp (compareOn index))

/-- Marks that compare as equal are the same. -/
instance lawfulEqOrd : Std.LawfulEqOrd Trailing where
  eq_of_compare h := index_inj.mp (Std.LawfulEqOrd.eq_of_compare (α := Nat) h)

end Trailing

/-- Whether the last segment is greedy. -/
def endsGreedy (segments : List Segment) : Bool := segments.getLast?.any Segment.isGreedy

/-- The mark that segments settle for when another one is asked for: indeterminate after a greedy
segment and only there. -/
def settleTrailing (segments : List Segment) (trailing : Trailing) : Trailing :=
  if endsGreedy segments then .indeterminate
  else if trailing = .indeterminate then .no
  else trailing

/-- The mark is indeterminate after a greedy segment and only there. -/
theorem settleTrailing_eq_indeterminate_iff {segments : List Segment} {trailing : Trailing} :
    settleTrailing segments trailing = .indeterminate ↔ endsGreedy segments = true := by
  unfold settleTrailing
  split
  · rename_i h
    simp [h]
  · rename_i h
    split <;> simp_all

/-- A list of segments with a trailing-slash mark. -/
@[ext]
structure Pattern where
  segments : List Segment
  trailing : Trailing
  segments_ne_nil : segments ≠ []
  names_nodup : (namesOf segments).Nodup
  trailing_eq_indeterminate_iff : trailing = .indeterminate ↔ endsGreedy segments = true
  deriving DecidableEq

namespace Pattern

/-- The segments that stand for a list: no segment at all stands for the root. -/
def rooted (segments : List Segment) : List Segment :=
  if segments = [] then [.literal ""] else segments

/-- There is always a segment. -/
theorem rooted_ne_nil (segments : List Segment) : rooted segments ≠ [] := by
  unfold rooted
  split <;> simp_all

/-- The pattern of some segments: no segment stands for the root, and the mark is settled by the last
segment. -/
def ofSegments (segments : List Segment) (trailing : Trailing) : Except PatternError Pattern :=
  match h : firstRepeat [] (namesOf (rooted segments)) with
  | some name => .error (.duplicateAlias name)
  | none =>
    .ok
      { segments := rooted segments
        trailing := settleTrailing (rooted segments) trailing
        segments_ne_nil := rooted_ne_nil segments
        names_nodup := (firstRepeat_eq_none_iff.mp h).1
        trailing_eq_indeterminate_iff := settleTrailing_eq_indeterminate_iff }

/-- Reads a pattern: each token is a segment, and a slash at the end sets the mark. -/
def parse (text : String) : Except PatternError Pattern := do
  let segments ← (Text.tokens text).mapM Segment.parse
  ofSegments segments (Trailing.ofBool (Text.endsInSlash text))

/-- Writes a pattern: a slash before each segment, and one more for the mark. -/
def display (p : Pattern) : String :=
  String.join (p.segments.map fun s => "/" ++ s.display) ++
    (if p.trailing = .yes then "/" else "")

/-- The number of segments. -/
def size (p : Pattern) : Nat := p.segments.length

/-- Whether a pattern is the root: the empty literal alone. -/
def isRoot (p : Pattern) : Bool := p.segments == [.literal ""]

/-- The segments of a pattern, none for the root. -/
def core (p : Pattern) : List Segment := if p.isRoot then [] else p.segments

/-- The pattern that reads one pattern and then another; its mark is that of the second. -/
def join (p q : Pattern) : Except PatternError Pattern :=
  ofSegments (p.core ++ q.core) q.trailing

/-- Reads texts and joins their patterns from left to right: each is read before it is joined, and no
text gives no pattern. -/
def joinAll : List String → Except PatternError (Option Pattern)
  | [] => .ok none
  | text :: texts => do
    let first ← parse text
    let joined ← texts.foldlM (fun p text => do p.join (← parse text)) first
    return some joined

/-- The names of the placeholders, in order. -/
def names (p : Pattern) : List String := namesOf p.segments

/-- Segments make a pattern exactly when their names differ; the pattern then has these segments and
the settled mark. -/
theorem ofSegments_eq_ok_iff {segments : List Segment} {trailing : Trailing} {p : Pattern} :
    ofSegments segments trailing = .ok p ↔
      (namesOf (rooted segments)).Nodup ∧ p.segments = rooted segments ∧
        p.trailing = settleTrailing (rooted segments) trailing := by
  unfold ofSegments
  split
  · rename_i name h
    simp only [reduceCtorEq, false_iff]
    rintro ⟨nodup, -⟩
    have none : firstRepeat [] (namesOf (rooted segments)) = none :=
      firstRepeat_eq_none_iff.mpr ⟨nodup, by simp⟩
    rw [h] at none
    cases none
  · rename_i h
    constructor
    · intro e
      cases e
      exact ⟨(firstRepeat_eq_none_iff.mp h).1, rfl, rfl⟩
    · rintro ⟨-, segs, trail⟩
      exact congrArg Except.ok (Pattern.ext segs.symm trail.symm)

/-- Segments fail to make a pattern at the first name that repeats one before it. -/
theorem ofSegments_eq_error_iff {segments : List Segment} {trailing : Trailing}
    {cause : PatternError} : ofSegments segments trailing = .error cause ↔
      ∃ name, firstRepeat [] (namesOf (rooted segments)) = some name ∧
        cause = .duplicateAlias name := by
  unfold ofSegments
  split
  · rename_i name found
    simp [found, eq_comm]
  · rename_i found
    simp [found]

end Pattern

end PathRouting

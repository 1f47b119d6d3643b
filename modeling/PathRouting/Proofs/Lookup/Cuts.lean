import Mathlib.Data.List.Forall2
import Mathlib.Data.List.Lex
import Mathlib.Tactic.Lemma
import PathRouting.Lookup.Search
import PathRouting.Pattern.Address
import PathRouting.RequestPath
import PathRouting.Table.Basic

/-!
# Cuts of a request

What a search is meant to find, without any search. A pattern matches a request if the tokens can be cut
into blocks, one for each segment in order, such that every segment takes its block; of several cuts the
one is preferred whose greedy blocks are longer, the first difference from the left deciding
(`Pattern.greedyRuns`). Routes that match are ranked by `Route.specificity`.
-/

namespace PathRouting

namespace Segment

/-- The segment is a literal. -/
def isLiteral : Segment → Bool
  | literal _ => true
  | _ => false

/-- The segment is a placeholder for one token. -/
def isNamed : Segment → Bool
  | named _ => true
  | _ => false

/-- A literal takes its own text, a named placeholder any one token, and a greedy one at least one. -/
def Takes : Segment → List String → Prop
  | literal text, block => block = [text]
  | named _, block => ∃ token, block = [token]
  | greedy _, block => block ≠ []

end Segment

/-- An indeterminate mark admits any end of a path, and every other mark its own. -/
def Trailing.Admits (t : Trailing) (slash : Bool) : Prop := t = .indeterminate ∨ t = .ofBool slash

namespace Pattern

/-- The blocks cut the tokens into what the segments take. -/
structure Cuts (p : Pattern) (tokens : List String) (blocks : List (List String)) : Prop where
  takes : List.Forall₂ Segment.Takes p.segments blocks
  flatten : blocks.flatten = tokens

/-- The tokens of a request can be cut, and its end is as the mark asks. -/
structure Matches (p : Pattern) (request : RequestPath) : Prop where
  cut : ∃ blocks, p.Cuts request.tokens blocks
  trailing : p.trailing.Admits request.endsWithSlash

/-- The lengths of the blocks that greedy segments take, from left to right. -/
def greedyRuns : List Segment → List (List String) → List Nat
  | segment :: segments, block :: blocks =>
    if segment.isGreedy then block.length :: greedyRuns segments blocks
    else greedyRuns segments blocks
  | _, _ => []

end Pattern

/-- The rank of a route among those that match. -/
def Route.specificity {α : Type} (r : Route α) : Specificity where
  literals := r.pattern.segments.countP Segment.isLiteral
  named := r.pattern.segments.countP Segment.isNamed
  priority := r.priority

namespace Key

/-- The key is that of a literal. -/
def isLiteral : Key → Bool
  | literal _ => true
  | _ => false

/-- The key is that of a placeholder for one token. -/
def isNamed : Key → Bool
  | named => true
  | _ => false

/-- What a key takes is what the segments with this key take. -/
def Takes : Key → List String → Prop
  | literal text, block => block = [text]
  | named, block => ∃ token, block = [token]
  | greedy, block => block ≠ []

/-- Every key takes at least one token. -/
lemma not_takes_nil (k : Key) : ¬k.Takes [] := by
  cases k <;> simp [Takes]

/-- A key takes a first token if it accepts it, and further ones only if it is greedy. -/
lemma takes_cons_iff {k : Key} {token : String} {more : List String} :
    k.Takes (token :: more) ↔
      k.accepts token = true ∧ (more ≠ [] → k.isGreedy = true) := by
  cases k with
  | literal text =>
    simp only [Takes, accepts, isGreedy, List.cons.injEq, beq_iff_eq]
    rw [eq_comm]
    simp
  | named => simp [Takes, accepts, isGreedy]
  | greedy => simp [Takes, accepts, isGreedy]

end Key

namespace Segment

/-- A segment is literal exactly if its key is. -/
@[simp] lemma isLiteral_key (s : Segment) : s.key.isLiteral = s.isLiteral := by
  cases s <;> rfl

/-- A segment is named exactly if its key is. -/
@[simp] lemma isNamed_key (s : Segment) : s.key.isNamed = s.isNamed := by
  cases s <;> rfl

/-- The key of a segment takes what the segment takes. -/
@[simp] lemma takes_key {s : Segment} {block : List String} : s.key.Takes block ↔ s.Takes block := by
  cases s <;> rfl

end Segment

/-- The keys along a pattern take the blocks that its segments take. -/
lemma Pattern.forall₂_takes_iff {segments : List Segment} {blocks : List (List String)} :
    List.Forall₂ Key.Takes (segments.map Segment.key) blocks ↔
      List.Forall₂ Segment.Takes segments blocks := by
  simp

/-- Of two cuts of one list of segments, the one with longer blocks has longer greedy runs: all other
blocks are of one token. -/
lemma Pattern.greedyRuns_lt {segments : List Segment} {blocks others : List (List String)}
    (takes : List.Forall₂ Segment.Takes segments blocks)
    (takes' : List.Forall₂ Segment.Takes segments others)
    (less : others.map List.length < blocks.map List.length) :
    greedyRuns segments others < greedyRuns segments blocks := by
  induction takes generalizing others with
  | nil =>
    cases takes'
    cases less
  | @cons segment block segments blocks here takes ih =>
    cases takes' with
    | @cons _ other _ others there takes' =>
      rw [List.map_cons, List.map_cons, List.cons_lt_cons_iff] at less
      cases segment with
      | literal text =>
        rw [show block = [text] from here, show other = [text] from there] at less
        simpa [greedyRuns, Segment.isGreedy] using ih takes' (by simpa using less)
      | named name =>
        obtain ⟨token, rfl⟩ := here
        obtain ⟨token', rfl⟩ := there
        simpa [greedyRuns, Segment.isGreedy] using ih takes' (by simpa using less)
      | greedy name =>
        simp only [greedyRuns, Segment.isGreedy, if_true, List.cons_lt_cons_iff]
        rcases less with less | ⟨same, less⟩
        · exact .inl less
        · exact .inr ⟨same, ih takes' less⟩

end PathRouting

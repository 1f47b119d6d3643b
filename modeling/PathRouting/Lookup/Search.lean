import PathRouting.Lookup.Captures
import PathRouting.RequestPath
import PathRouting.Table.Basic

/-!
# The search for the best route

A candidate is a partial match: a node of the trie that was reached by giving some tokens of the
request to segments, with the tokens that are left. Candidates wait on a stack. `Candidate.successors`
gives the next token to every node below that accepts it and, at a greedy node, to the node itself; the
last of these candidates is taken up first, so a greedy placeholder takes as much as it can before it
yields. A candidate without tokens left is complete, and counts for each slot that fits the end of the
path. The most specific complete match wins, the first found of equal ones.

Every round of the search lowers `Search.stackWeight`, so the search ends on every table and path.

Two routes that match one request are ranked by their `Specificity`: the one with more literal segments
comes first, then the one with more named placeholders, then the one registered later; no match at all
ranks below every match. The result is kept as a `Resolution`, which refers to its route by the number of
the node and the slot. It can outlive the table that it was found in: only together with that table it is
a `Match`.
-/

namespace PathRouting

/-! ### The rank of a match -/

/-- The rank of a match. -/
structure Specificity where
  literals : Nat
  named : Nat
  /-- The number of the registration. -/
  priority : Nat
  deriving DecidableEq, Repr

namespace Specificity

/-- Ranks are compared by the literals, then by the named placeholders, then by the number of the
registration. -/
instance : Ord Specificity where
  compare := compareLex (compareOn literals) (compareLex (compareOn named) (compareOn priority))

/-- The order of ranks is transitive. -/
instance transOrd : Std.TransOrd Specificity :=
  inferInstanceAs (Std.TransCmp
    (compareLex (compareOn literals) (compareLex (compareOn named) (compareOn priority))))

/-- Ranks that compare as equal are the same. -/
instance lawfulEqOrd : Std.LawfulEqOrd Specificity where
  eq_of_compare {k l} h := by
    obtain ⟨literals, rest⟩ := Ordering.then_eq_eq.mp h
    obtain ⟨named, priority⟩ := Ordering.then_eq_eq.mp rest
    cases k
    cases l
    congr
    · exact Std.LawfulEqOrd.eq_of_compare (α := Nat) literals
    · exact Std.LawfulEqOrd.eq_of_compare (α := Nat) named
    · exact Std.LawfulEqOrd.eq_of_compare (α := Nat) priority

/-- Compares the ranks of two results, either of which may be no match. -/
def compareResults : Option Specificity → Option Specificity → Ordering
  | none, none => .eq
  | none, some _ => .lt
  | some _, none => .gt
  | some k, some l => compare k l

end Specificity

/-! ### Candidates -/

/-- A bound for the number of candidates that begin at a node with a number of tokens left. -/
def Trie.weight {ρ : Type} (t : Trie ρ) : Nat → Nat → Nat
  | 0, _ => 1
  | tokens + 1, id =>
    1 + t.weight tokens id +
      (t.node id).branches.values.foldr (fun child sum => t.weight tokens child + sum) 0

/-- A partial match. -/
structure Candidate where
  node : Nat
  /-- The tokens that are left. -/
  rest : List String
  /-- The tokens that were given away, the last one first. -/
  trail : List Taken
  literals : Nat
  named : Nat

/-- A complete match. -/
structure Found (α : Type) where
  specificity : Specificity
  node : Nat
  slot : Trailing
  /-- The tokens of the request, the last one first. -/
  trail : List Taken
  route : Route α

namespace Candidate

variable {α : Type}

/-- The candidate that has given nothing away. -/
def initial (path : RequestPath) : Candidate := ⟨Trie.root, path.tokens, [], 0, 0⟩

/-- Gives a token to a node that a key leads to; `position` is that of the segment with the key. -/
def advance (c : Candidate) (node position : Nat) (key : Key) (token : String)
    (rest : List String) : Candidate where
  node := node
  rest := rest
  trail := ⟨position, token⟩ :: c.trail
  literals :=
    match key with
    | .literal _ => c.literals + 1
    | _ => c.literals
  named :=
    match key with
    | .named => c.named + 1
    | _ => c.named

/-- The candidate that a node below leads to, if its key accepts the token. -/
def offer (t : Trie (Route α)) (c : Candidate) (token : String) (rest : List String) (child : Nat) :
    Option Candidate :=
  match (t.node child).key with
  | none => none
  | some key =>
    if key.accepts token then some (c.advance child (t.node child).position key token rest)
    else none

/-- The candidates that the next token leads to, the one to take up first at the front. -/
def successors (t : Trie (Route α)) (c : Candidate) : List Candidate :=
  match c.rest with
  | [] => []
  | token :: rest =>
    let node := t.node c.node
    -- a greedy node goes on taking before a node below it begins, and of these the last goes first
    (if node.isGreedy then [c.advance c.node node.position .greedy token rest] else []) ++
      (node.branches.values.filterMap (c.offer t token rest)).reverse

/-- The complete matches of a candidate: without tokens left, one for the slot of the path's own mark
and one for the slot that takes either. -/
def completions (t : Trie (Route α)) (trailing : Trailing) (c : Candidate) : List (Found α) :=
  match c.rest with
  | [] =>
    [trailing, .indeterminate].filterMap fun slot =>
      ((t.node c.node).slots.get slot).map fun route =>
        ⟨⟨c.literals, c.named, route.priority⟩, c.node, slot, c.trail, route⟩
  | _ :: _ => []

/-- A bound for the number of candidates that a candidate leads to, itself included. -/
def weight (t : Trie (Route α)) (c : Candidate) : Nat := t.weight c.rest.length c.node

/-- A candidate weighs as much as its node with the tokens that are left. -/
@[simp]
theorem weight_advance (t : Trie (Route α)) (c : Candidate) (node position : Nat) (key : Key)
    (token : String) (rest : List String) :
    (c.advance node position key token rest).weight t = t.weight rest.length node := rfl

end Candidate

/-- The better of the best match so far and one more: the later one must be more specific to win. -/
def Found.better {α : Type} (best : Option (Found α)) (found : Found α) : Option (Found α) :=
  match best with
  | none => some found
  | some kept =>
    if compare kept.specificity found.specificity = .lt then some found else some kept

namespace Search

variable {α : Type} {t : Trie (Route α)}

/-- A bound for the number of candidates that a stack leads to. -/
def stackWeight (t : Trie (Route α)) : List Candidate → Nat
  | [] => 0
  | c :: stack => c.weight t + stackWeight t stack

/-- The empty stack weighs nothing. -/
@[simp] theorem stackWeight_nil : stackWeight t [] = 0 := rfl

/-- The weight of a stack is that of its first candidate and of the others. -/
@[simp]
theorem stackWeight_cons (c : Candidate) (stack : List Candidate) :
    stackWeight t (c :: stack) = c.weight t + stackWeight t stack := rfl

/-- The weight of two stacks is the sum of their weights. -/
@[simp]
theorem stackWeight_append (front back : List Candidate) :
    stackWeight t (front ++ back) = stackWeight t front + stackWeight t back := by
  induction front with
  | nil => simp
  | cons c front ih => simp [ih, Nat.add_assoc]

/-- The order of a stack does not count for its weight. -/
@[simp]
theorem stackWeight_reverse (stack : List Candidate) :
    stackWeight t stack.reverse = stackWeight t stack := by
  induction stack with
  | nil => rfl
  | cons c stack ih => simp [ih, Nat.add_comm]

/-- The candidates of the nodes below weigh no more than these nodes. -/
theorem stackWeight_offers_le (c : Candidate) (token : String) (rest : List String)
    (children : List Nat) :
    stackWeight t (children.filterMap (c.offer t token rest)) ≤
      children.foldr (fun child sum => t.weight rest.length child + sum) 0 := by
  induction children with
  | nil => simp
  | cons child children ih =>
    rw [List.filterMap_cons, List.foldr_cons]
    split
    · exact Nat.le_trans ih (Nat.le_add_left _ _)
    · rename_i next offered
      have same : next.weight t = t.weight rest.length child := by
        unfold Candidate.offer at offered
        split at offered
        · cases offered
        · split at offered
          · cases offered
            exact Candidate.weight_advance ..
          · cases offered
      rw [stackWeight_cons, same]
      exact Nat.add_le_add_left ih _

/-- A candidate weighs more than all that it leads to. -/
theorem stackWeight_successors_lt (c : Candidate) :
    stackWeight t (c.successors t) < c.weight t := by
  obtain ⟨id, rest, trail, literals, named⟩ := c
  cases rest with
  | nil => simp [Candidate.successors, Candidate.weight, Trie.weight]
  | cons token rest =>
    simp only [Candidate.successors, Candidate.weight, List.length_cons, Trie.weight,
      stackWeight_append, stackWeight_reverse]
    have below := stackWeight_offers_le (t := t) ⟨id, token :: rest, trail, literals, named⟩ token
      rest (t.node id).branches.values
    split
    · rw [stackWeight_cons, stackWeight_nil, Candidate.weight_advance]
      omega
    · rw [stackWeight_nil]
      omega

/-- Works a stack of candidates off, and returns the best match. -/
def run (t : Trie (Route α)) (trailing : Trailing) (stack : List Candidate)
    (best : Option (Found α)) : Option (Found α) :=
  match stack with
  | [] => best
  | c :: stack =>
    run t trailing (c.successors t ++ stack) ((c.completions t trailing).foldl Found.better best)
termination_by stackWeight t stack
decreasing_by
  rw [stackWeight_append, stackWeight_cons]
  exact Nat.add_lt_add_right (stackWeight_successors_lt c) _

/-- The best match of a path in a table. -/
def best (table : Table α) (path : String) : Option (Found α) :=
  let request := RequestPath.ofString path
  run table.trie (.ofBool request.endsWithSlash) [.initial request] none

end Search

/-! ### Resolutions -/

/-- A successful search, apart from the table. -/
structure Resolution where
  node : Nat
  slot : Trailing
  specificity : Specificity
  captures : Captures
  deriving DecidableEq, Repr

/-- A route that a path matches, with its rank and what its placeholders took. -/
structure Match (α : Type) where
  route : Route α
  specificity : Specificity
  captures : Captures
  deriving DecidableEq

/-- The resolution of a complete match: the placeholders of its own pattern name the tokens. -/
def Found.resolution {α : Type} (found : Found α) : Resolution :=
  ⟨found.node, found.slot, found.specificity, Captures.ofTrail found.route.pattern found.trail⟩

namespace Table

variable {α : Type}

/-- The resolution of the best match of a path. -/
def resolve (t : Table α) (path : String) : Option Resolution :=
  (Search.best t path).map Found.resolution

/-- The match of a resolution: the route in its slot. A resolution that another table gave, or this one
before a change, may have none. -/
def matchAt? (t : Table α) (resolution : Resolution) : Option (Match α) :=
  (t.trie.value? resolution.node resolution.slot).map fun route =>
    ⟨route, resolution.specificity, resolution.captures⟩

/-- The best match of a path. -/
def find (t : Table α) (path : String) : Option (Match α) :=
  (t.resolve path).bind t.matchAt?

end Table

end PathRouting

import Mathlib.Data.List.Perm.Basic
import Mathlib.Logic.Function.Iterate
import PathRouting.Lookup.Search
import PathRouting.Proofs.Lookup.Winner

/-!
# The order of the branches

A search works its stack off round by round, and `Search.round` is one of them: every round lowers
`Search.stackWeight`, so on any trie the stack is empty after as many rounds at the most
(`iterate_round`).

The branches of a node are offered in the order in which they stand. `Trie.Rearranges` says that two tries
differ in this order alone. They have the same complete matches, in another order, and so their winners
are equally specific. On a valid table only hits of one route are, and of these the order of the branches
decides nothing: they lead to one node by the same keys, and a greedy node goes on taking before a node
below it begins. So the same hit wins (`Valid.best_rearranged`).
-/

namespace PathRouting

variable {α : Type}

/-! ### Rounds -/

namespace Search

variable {t : Trie (Route α)}

/-- Works the first candidate of a stack off. -/
def round (t : Trie (Route α)) (trailing : Trailing) :
    List Candidate × Option (Found α) → List Candidate × Option (Found α)
  | ([], best) => ([], best)
  | (c :: stack, best) =>
    (c.successors t ++ stack, (c.completions t trailing).foldl Found.better best)

/-- A round replaces a candidate by lighter ones. -/
lemma stackWeight_round_lt (trailing : Trailing) (c : Candidate) (stack : List Candidate)
    (best : Option (Found α)) :
    stackWeight t (round t trailing (c :: stack, best)).1 < stackWeight t (c :: stack) := by
  rw [round, stackWeight_append, stackWeight_cons]
  exact Nat.add_lt_add_right (stackWeight_successors_lt c) _

/-- The rounds of a search come to an empty stack and the result of the search. -/
lemma iterate_round (trailing : Trailing) (stack : List Candidate) (best : Option (Found α)) :
    ∃ rounds ≤ stackWeight t stack,
      (round t trailing)^[rounds] (stack, best) = ([], run t trailing stack best) := by
  induction stack, best using run.induct t trailing with
  | case1 best =>
    refine ⟨0, Nat.zero_le _, ?_⟩
    rw [run]
    rfl
  | case2 best c stack ih =>
    obtain ⟨rounds, le, settled⟩ := ih
    have less := stackWeight_round_lt (t := t) trailing c stack best
    refine ⟨rounds + 1, Nat.lt_of_le_of_lt le less, ?_⟩
    rw [Function.iterate_succ_apply, run]
    exact settled

end Search

/-! ### Rearranged tries -/

namespace Trie

variable {ρ : Type} {t u : Trie ρ}

/-- The nodes of two tries are the same but for the order of their branches. -/
structure Rearranges (u t : Trie ρ) : Prop where
  key : ∀ id, (u.node id).key = (t.node id).key
  position : ∀ id, (u.node id).position = (t.node id).position
  slots : ∀ id, (u.node id).slots = (t.node id).slots
  branches : ∀ id, (u.node id).branches.entries.Perm (t.node id).branches.entries

/-- Nodes of rearranged tries lie equally deep. -/
lemma Rearranges.depth_eq (rearranges : u.Rearranges t) (id : Nat) :
    (u.node id).depth = (t.node id).depth := by
  rw [Node.depth, Node.depth, rearranges.key, rearranges.position]

/-- Rearranging keeps the labels of a trie right. -/
lemma Rearranges.labelled (rearranges : u.Rearranges t) (labelled : t.Labelled) : u.Labelled where
  root_key := by rw [rearranges.key, labelled.root_key]
  distinct id := (rearranges.branches id).symm.pairwise (labelled.distinct id) fun ne => ne.symm
  key mem := by rw [rearranges.key, labelled.key ((rearranges.branches _).mem_iff.mp mem)]
  position mem := by
    rw [rearranges.position, labelled.position ((rearranges.branches _).mem_iff.mp mem),
      rearranges.depth_eq]

/-- The tokens can be given away in the same ways. -/
lemma Rearranges.splits_perm (rearranges : u.Rearranges t) (tokens : List String) (id : Nat) :
    (u.splits tokens id).Perm (t.splits tokens id) := by
  induction tokens generalizing id with
  | nil => exact .refl _
  | cons token rest ih =>
    have greedy : (u.node id).isGreedy = (t.node id).isGreedy := by
      rw [Node.isGreedy, Node.isGreedy, rearranges.key]
    rw [splits, splits, greedy]
    apply List.Perm.append
    · split
      · exact (ih id).map _
      · exact .refl _
    · have entries := (List.reverse_perm _).trans
        ((rearranges.branches id).trans (List.reverse_perm _).symm)
      apply entries.flatMap
      intro e _
      split
      · exact (ih e.2).map _
      · exact .refl _

/-- Nodes of rearranged tries hold the same values. -/
lemma Rearranges.value?_eq (rearranges : u.Rearranges t) (id : Nat) (trailing : Trailing) :
    u.value? id trailing = t.value? id trailing := by
  apply Option.ext
  intro value
  rw [value?_eq_some_iff, value?_eq_some_iff, rearranges.slots]

/-- The trie with the branches of every node from the last to the first. -/
def mirror (t : Trie ρ) : Trie ρ :=
  { t with nodes := t.nodes.map fun n => { n with branches := ⟨n.branches.entries.reverse⟩ } }

/-- Reversing the branches of every node is a rearrangement. -/
lemma mirror_rearranges (t : Trie ρ) : t.mirror.Rearranges t := by
  have node : ∀ id, t.mirror.node id =
      { t.node id with branches := ⟨(t.node id).branches.entries.reverse⟩ } := by
    intro id
    rw [Trie.node, Trie.node, mirror, Array.getElem?_map]
    cases t.nodes[id]? <;> rfl
  constructor
  case branches =>
    intro id
    rw [node]
    exact List.reverse_perm _
  all_goals
    intro id
    rw [node]

end Trie

/-! ### The same winner -/

namespace Search

variable {t u : Trie (Route α)}

/-- Rearranged tries have the same complete matches, in some order. -/
lemma hits_perm (rearranges : u.Rearranges t) (request : RequestPath) :
    (hits u request).Perm (hits t request) := by
  have same : hitsOf u request.endsWithSlash = hitsOf t request.endsWithSlash := by
    funext s
    rw [hitsOf, hitsOf, rearranges.slots]
  rw [hits, hits, same]
  exact (rearranges.splits_perm request.tokens Trie.root).flatMap_right _

end Search

/-- A hit wins over some hits, in whatever order they come: none is more specific, and of those that are
as specific and have the same keys, none has longer blocks. -/
structure Hit.Outranks (winner : Hit α) (hits : List (Hit α)) : Prop where
  mem : winner ∈ hits
  above : ∀ h ∈ hits, (compare h.found.specificity winner.found.specificity).isLE = true
  longest : ∀ h ∈ hits, h.found.specificity = winner.found.specificity →
    h.split.keys = winner.split.keys →
    h.split = winner.split ∨ h.split.lengths < winner.split.lengths

/-- What outranks the hits of a list outranks them in any order. -/
lemma Hit.Outranks.perm {hits hits' : List (Hit α)} {winner : Hit α} (outranks : winner.Outranks hits)
    (perm : hits.Perm hits') : winner.Outranks hits' where
  mem := perm.mem_iff.mp outranks.mem
  above h mem := outranks.above h (perm.mem_iff.mpr mem)
  longest h mem := outranks.longest h (perm.mem_iff.mpr mem)

/-- The hit that a search finds wins over all hits. -/
lemma Search.exists_outranks {table : Table α} (labelled : table.trie.Labelled) (path : String) :
    (hits table.trie (.ofString path) = [] ∧ best table path = none) ∨
    ∃ winner : Hit α, winner.Outranks (hits table.trie (.ofString path)) ∧
      best table path = some winner.found := by
  rcases best_cases labelled path with
    none | ⟨front, winner, back, hits_eq, best, before, behind⟩
  · exact .inl none
  · refine .inr ⟨winner, ?_, best⟩
    constructor
    case mem =>
      rw [hits_eq]
      simp
    case above =>
      intro h mem
      rw [hits_eq, List.mem_append, List.mem_cons] at mem
      rcases mem with mem | rfl | mem
      · rw [before h mem]
        rfl
      · rw [Std.ReflOrd.compare_self]
        rfl
      · exact behind h mem
    case longest =>
      intro h mem rank keys
      have later : h ∉ front := by
        intro mem
        have less := before h mem
        rw [rank, Std.ReflOrd.compare_self] at less
        cases less
      exact split_cases labelled hits_eq mem later keys

namespace Table

variable {t : Table α}

/-- One hit at the most wins over all hits of a valid table: equally specific ones are of one route, and
so they have the same keys and the same slot. -/
lemma Valid.outranks_unique (valid : t.Valid) {request : RequestPath} {h k : Hit α}
    (outranks : h.Outranks (Search.hits t.trie request))
    (others : k.Outranks (Search.hits t.trie request)) : h = k := by
  have genuine := valid.genuine outranks.mem
  have genuine' := valid.genuine others.mem
  have rank : h.found.specificity = k.found.specificity :=
    Std.LawfulEqOrd.eq_of_compare
      (Std.OrientedCmp.isLE_antisymm (others.above h outranks.mem) (outranks.above k others.mem))
  have route : h.route = k.route := by
    apply valid.specificity_inj genuine.stored genuine'.stored
    rw [← genuine.specificity_eq, rank, genuine'.specificity_eq]
  have keys : h.split.keys = k.split.keys := by rw [← genuine.keys, ← genuine'.keys, route]
  have slot : h.slot = k.slot := by rw [← genuine.slot, ← genuine'.slot, route]
  have split : h.split = k.split := by
    -- of two different cuts each would be longer than the other
    rcases others.longest h outranks.mem rank keys with same | shorter
    · exact same
    · rcases outranks.longest k others.mem rank.symm keys.symm with same | longer
      · exact same.symm
      · exact absurd longer (List.lt_asymm shorter)
  obtain ⟨_, _, _⟩ := h
  obtain ⟨_, _, _⟩ := k
  cases split
  cases slot
  cases route
  rfl

/-- The search comes to the same match, in whatever order the branches stand. -/
lemma Valid.best_rearranged (valid : t.Valid) {u : Trie (Route α)} (rearranges : u.Rearranges t.trie)
    (path : String) : Search.best { t with trie := u } path = Search.best t path := by
  have labelled := valid.wellFormed.labelled
  have perm := Search.hits_perm rearranges (.ofString path)
  have labelled' : ({ t with trie := u } : Table α).trie.Labelled := rearranges.labelled labelled
  rcases Search.exists_outranks labelled path with ⟨none, best⟩ | ⟨winner, outranks, best⟩
  · rcases Search.exists_outranks labelled' path with ⟨-, best'⟩ | ⟨winner, outranks, -⟩
    · rw [best, best']
    · have mem := perm.mem_iff.mp outranks.mem
      rw [none] at mem
      cases mem
  · rcases Search.exists_outranks labelled' path with ⟨none, -⟩ | ⟨winner', outranks', best'⟩
    · have mem := perm.mem_iff.mpr outranks.mem
      rw [none] at mem
      cases mem
    · rw [best, best', valid.outranks_unique outranks (outranks'.perm perm)]

/-- On every path the search empties its stack, in no more rounds than the stack weighs, as every round
lowers the weight; and in whatever order the branches of the nodes stand, it comes to one match, with the
same node, slot, rank and captures. -/
theorem find_rearranged (changes : List (Change α)) (path : String) {u : Trie (Route α)}
    (rearranges : u.Rearranges (after changes).trie) :
    let request := RequestPath.ofString path
    let round := Search.round u (.ofBool request.endsWithSlash)
    (∀ c stack best,
      Search.stackWeight u (round (c :: stack, best)).1 < Search.stackWeight u (c :: stack)) ∧
    (∃ rounds ≤ Search.stackWeight u [.initial request],
      round^[rounds] ([.initial request], none) = ([], Search.best (after changes) path)) ∧
    resolve { after changes with trie := u } path = (after changes).resolve path ∧
    find { after changes with trie := u } path = (after changes).find path := by
  intro request round
  have best := (valid_after changes).best_rearranged rearranges path
  have resolved : resolve { after changes with trie := u } path = (after changes).resolve path := by
    rw [resolve, resolve, best]
  refine ⟨fun c stack best => Search.stackWeight_round_lt _ c stack best, ?_, resolved, ?_⟩
  · obtain ⟨rounds, le, settled⟩ :=
      Search.iterate_round (t := u) (.ofBool request.endsWithSlash) [.initial request] none
    refine ⟨rounds, le, ?_⟩
    rw [← best]
    exact settled
  · have kept : matchAt? { after changes with trie := u } = (after changes).matchAt? := by
      funext resolution
      rw [matchAt?, matchAt?, rearranges.value?_eq]
    rw [find, find, resolved, kept]

/-- Three branches leave the root, and from whichever end they are offered, the longest greedy block is
taken. -/
theorem find_rearranged_mirror :
    let changes : List (Change Nat) := [
      .insert ⟨[.greedy "x", .literal "b", .named "y"], .no, by decide, by decide, by decide⟩ 0 false,
      .insert ⟨[.named "x", .literal "d"], .no, by decide, by decide, by decide⟩ 1 false,
      .insert ⟨[.literal "a", .literal "c"], .no, by decide, by decide, by decide⟩ 2 false]
    let t := after changes
    let u := t.trie.mirror
    (t.trie.node Trie.root).branches.values = [6, 4, 1] ∧
    (u.node Trie.root).branches.values = [1, 4, 6] ∧
    ∃ m, t.find "/a/b/b/c" = some m ∧ find { t with trie := u } "/a/b/b/c" = some m ∧
      m.captures.getMany? "x" = some ["a", "b"] := by
  intro changes t u
  refine ⟨by decide +kernel, by decide +kernel, ?_⟩
  have found : (t.find "/a/b/b/c").map (fun m => m.captures.getMany? "x") = some (some ["a", "b"]) := by
    decide +kernel
  obtain ⟨m, mem, tokens⟩ := Option.map_eq_some_iff.mp found
  obtain ⟨-, -, -, same⟩ := find_rearranged changes "/a/b/b/c" (Trie.mirror_rearranges t.trie)
  exact ⟨m, mem, same.trans mem, tokens⟩

end Table

end PathRouting

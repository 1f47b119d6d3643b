import PathRouting.Lookup.Search
import PathRouting.Proofs.Lookup.Splits

/-!
# What the search runs through

The stack of a search comes to nothing but the list of all complete matches in the order of
`Trie.splits`: `Search.run_eq_foldl` turns the loop into a fold over the candidates that have no tokens
left, and `Labelled.leaves_eq` finds these candidates among the splits. `Search.hits` is the list of the
complete matches, and `Search.best_cases` says which of them wins.
-/

namespace PathRouting

variable {α : Type} {t : Trie (Route α)}

/-! ### From the stack to the leaves -/

namespace Candidate

/-- The candidates without tokens left that a candidate leads to, the first one to be complete at the
front. The list is as long as the tokens are. -/
def leaves (t : Trie (Route α)) : List String → Candidate → List Candidate
  | [], c => [c]
  | _ :: rest, c => (c.successors t).flatMap (leaves t rest)

/-- A step gives one token away. -/
lemma rest_of_mem_successors {c next : Candidate} (mem : next ∈ c.successors t) :
    ∃ token, c.rest = token :: next.rest := by
  rw [successors] at mem
  cases h : c.rest with
  | nil => simp [h] at mem
  | cons token rest =>
    simp only [h, List.mem_append, List.mem_reverse, List.mem_filterMap] at mem
    refine ⟨token, congrArg (token :: ·) ?_⟩
    rcases mem with mem | ⟨child, -, offered⟩
    · split at mem
      · rw [List.mem_singleton.mp mem]
        rfl
      · cases mem
    · rw [offer] at offered
      split at offered
      · cases offered
      · split at offered
        · cases offered
          rfl
        · cases offered

/-- All complete matches that a candidate leads to. -/
def outcomes (t : Trie (Route α)) (trailing : Trailing) (c : Candidate) : List (Found α) :=
  (c.leaves t c.rest).flatMap (completions t trailing)

/-- A candidate leads to its own complete matches and those of its successors. -/
lemma outcomes_eq (t : Trie (Route α)) (trailing : Trailing) (c : Candidate) :
    c.outcomes t trailing =
      c.completions t trailing ++ (c.successors t).flatMap (outcomes t trailing) := by
  rw [outcomes]
  cases h : c.rest with
  | nil => simp [leaves, successors, h]
  | cons token rest =>
    -- no slot is looked at before the last token is gone
    have none : c.completions t trailing = [] := by simp [completions, h]
    rw [none, List.nil_append, leaves, List.flatMap_assoc]
    apply List.flatMap_congr
    intro next mem
    obtain ⟨_, tail⟩ := rest_of_mem_successors mem
    rw [outcomes, (List.cons.inj (h.symm.trans tail)).2]

end Candidate

/-- A search takes the best of what the stack leads to, in the order of the stack. -/
lemma Search.run_eq_foldl (t : Trie (Route α)) (trailing : Trailing) (stack : List Candidate)
    (best : Option (Found α)) :
    run t trailing stack best =
      (stack.flatMap (Candidate.outcomes t trailing)).foldl Found.better best := by
  induction stack, best using run.induct t trailing with
  | case1 best => simp [run]
  | case2 best c stack ih =>
    rw [run, ih, List.flatMap_cons, Candidate.outcomes_eq t trailing c]
    simp only [List.flatMap_append, List.foldl_append]

/-! ### From the leaves to the splits -/

/-- The tokens of some blocks with the positions of these blocks, from the first position on. -/
def takenFrom : Nat → List (List String) → List Taken
  | _, [] => []
  | position, block :: blocks =>
    block.map (Taken.mk position) ++ takenFrom (position + 1) blocks

namespace Candidate

/-- The candidate that a split makes: `position` is that of the node, and `depth` is the number of the
keys that lead to it. -/
def finish (c : Candidate) (position depth : Nat) (s : Split) : Candidate where
  node := s.node
  rest := []
  trail := (s.more.map (Taken.mk position) ++ takenFrom depth s.blocks).reverse ++ c.trail
  literals := c.literals + s.keys.countP Key.isLiteral
  named := c.named + s.keys.countP Key.isNamed

/-- To take a token at the node and then finish is to finish a split that stays for it. -/
lemma finish_stay (c : Candidate) (position depth : Nat) (token : String) (rest : List String)
    (s : Split) :
    (c.advance c.node position .greedy token rest).finish position depth s =
      c.finish position depth (s.stay token) := by
  simp [finish, advance, Split.stay, Split.keys, Split.blocks]

/-- To take a token at a branch and then finish is to finish a split that enters the branch. -/
lemma finish_enter (c : Candidate) (child position depth : Nat) (key : Key) (token : String)
    (rest : List String) (s : Split) :
    (c.advance child depth key token rest).finish depth (depth + 1) s =
      c.finish position depth (s.enter key token) := by
  cases key <;>
    simp [finish, advance, Split.enter, Split.keys, Split.blocks, takenFrom, Key.isLiteral,
      Key.isNamed, List.countP_cons, Nat.add_assoc, Nat.add_comm]

end Candidate

namespace Trie

/-- The branches of a node offer its tokens in their order: each is labelled by the key that leads to
it, and by its depth. -/
lemma Labelled.offer_eq (labelled : Labelled t) {c : Candidate} {e : Key × Nat}
    (mem : e ∈ (t.node c.node).branches.entries) (token : String) (rest : List String) :
    c.offer t token rest e.2 =
      if e.1.accepts token then some (c.advance e.2 (t.node c.node).depth e.1 token rest)
      else none := by
  rw [Candidate.offer, labelled.key mem, labelled.position mem]

/-- The candidates that the search completes are the splits of the tokens, in the same order. -/
lemma Labelled.leaves_eq (labelled : Labelled t) {c : Candidate} {tokens : List String}
    (left : c.rest = tokens) :
    c.leaves t tokens = (t.splits tokens c.node).map
      (c.finish (t.node c.node).position (t.node c.node).depth) := by
  induction tokens generalizing c with
  | nil =>
    obtain ⟨node, rest, trail, literals, named⟩ := c
    cases left
    rfl
  | cons token rest ih =>
    rw [Candidate.leaves, Candidate.successors, left, splits, List.flatMap_append, List.map_append]
    congr 1
    -- the splits that stay at the node, and those that enter a branch
    · split
      · have next := ih (c := c.advance c.node (t.node c.node).position .greedy token rest) rfl
        rw [List.flatMap_singleton, next, List.map_map]
        apply List.map_congr_left
        intro s _
        exact c.finish_stay ..
      · rfl
    · rw [Branches.values, List.filterMap_map, ← List.filterMap_reverse,
        List.filterMap_eq_flatMap_toList, List.flatMap_assoc, List.map_flatMap]
      apply List.flatMap_congr
      intro e mem
      have mem := List.mem_reverse.mp mem
      rw [Function.comp_apply, labelled.offer_eq mem]
      split
      · rw [Option.toList_some, List.flatMap_singleton, List.map_map]
        have next : (c.advance e.2 (t.node c.node).depth e.1 token rest).leaves t rest =
            (t.splits rest e.2).map ((c.advance e.2 (t.node c.node).depth e.1 token rest).finish
              (t.node e.2).position (t.node e.2).depth) := ih rfl
        rw [next, labelled.position mem, labelled.depth_branch mem]
        apply List.map_congr_left
        intro s _
        exact c.finish_enter ..
      · rfl

end Trie

/-! ### The complete matches -/

/-- A complete match, apart from the search: a split from the root on and a route in a slot of the node
where it ends. -/
structure Hit (α : Type) where
  split : Split
  slot : Trailing
  route : Route α

/-- The rank and the place of a hit, as the search records them. -/
def Hit.found (h : Hit α) : Found α where
  specificity :=
    ⟨h.split.keys.countP Key.isLiteral, h.split.keys.countP Key.isNamed, h.route.priority⟩
  node := h.split.node
  slot := h.slot
  trail := (takenFrom 0 h.split.blocks).reverse
  route := h.route

namespace Search

/-- The hits at the end of a split: the slot for the end of the path before the one for either end. -/
def hitsOf (t : Trie (Route α)) (slash : Bool) (s : Split) : List (Hit α) :=
  [.ofBool slash, .indeterminate].filterMap fun slot =>
    ((t.node s.node).slots.get slot).map fun route => ⟨s, slot, route⟩

/-- All complete matches of a request, in the order in which they are found. -/
def hits (t : Trie (Route α)) (request : RequestPath) : List (Hit α) :=
  (t.splits request.tokens Trie.root).flatMap (hitsOf t request.endsWithSlash)

/-- A hit is a split of the tokens that ends at a route for this end of the path. -/
lemma mem_hits_iff {request : RequestPath} {h : Hit α} :
    h ∈ hits t request ↔ h.split ∈ t.splits request.tokens Trie.root ∧
      h.slot.Admits request.endsWithSlash ∧
      (t.node h.split.node).slots.get h.slot = some h.route := by
  obtain ⟨split, slot, route⟩ := h
  simp only [hits, hitsOf, Trailing.Admits, List.mem_flatMap, List.mem_filterMap,
    Option.map_eq_some_iff, Hit.mk.injEq, List.mem_cons, List.not_mem_nil, or_false]
  constructor
  · rintro ⟨s, mem, mark, fits, r, held, rfl, rfl, rfl⟩
    exact ⟨mem, fits.symm, held⟩
  · intro ⟨mem, fits, held⟩
    exact ⟨split, mem, slot, fits.symm, route, held, rfl, rfl, rfl⟩

/-- A hit comes before the others with the same keys whose blocks are shorter. -/
lemma hits_pairwise (labelled : t.Labelled) (request : RequestPath) :
    (hits t request).Pairwise fun h next => h.split = next.split ∨
      (next.split.keys = h.split.keys → next.split.lengths < h.split.lengths) := by
  have split : ∀ {s h}, h ∈ hitsOf t request.endsWithSlash s → h.split = s := by
    intro s h mem
    obtain ⟨slot, -, held⟩ := List.mem_filterMap.mp mem
    obtain ⟨route, -, rfl⟩ := Option.map_eq_some_iff.mp held
    rfl
  rw [hits, List.pairwise_flatMap]
  refine ⟨?_, ?_⟩
  · intro s _
    apply List.pairwise_of_forall_mem_list
    intro h mem next memNext
    exact .inl ((split mem).trans (split memNext).symm)
  · apply (labelled.splits_pairwise request.tokens Trie.root).imp
    intro s s' less h mem next memNext
    rw [split mem, split memNext]
    exact .inr less

/-- A hit that does not stand before another one with the same keys is of the same split, or its blocks are
shorter. -/
lemma split_cases (labelled : t.Labelled) {request : RequestPath} {front back : List (Hit α)}
    {h winner : Hit α} (hits_eq : hits t request = front ++ winner :: back)
    (mem : h ∈ hits t request) (later : h ∉ front) (keys : h.split.keys = winner.split.keys) :
    h.split = winner.split ∨ h.split.lengths < winner.split.lengths := by
  have ordered := hits_pairwise labelled request
  rw [hits_eq] at mem ordered
  rcases List.mem_cons.mp ((List.mem_append.mp mem).resolve_left later) with rfl | mem
  · exact .inl rfl
  · rcases (List.pairwise_cons.mp (List.pairwise_append.mp ordered).2.1).1 h mem with same | shorter
    · exact .inl same.symm
    · exact .inr (shorter keys)

/-- The search folds over the hits. -/
lemma best_eq_foldl {table : Table α} (labelled : table.trie.Labelled) (path : String) :
    best table path =
      ((hits table.trie (.ofString path)).map Hit.found).foldl Found.better none := by
  have leaves := labelled.leaves_eq (c := .initial (.ofString path)) rfl
  have depth : (table.trie.node Trie.root).depth = 0 := by rw [Node.depth, labelled.root_key]
  simp only [best]
  rw [run_eq_foldl, List.flatMap_singleton, Candidate.outcomes, leaves, List.flatMap_map, hits,
    List.map_flatMap]
  congr 1
  apply List.flatMap_congr
  intro s mem
  have none := labelled.more_eq_nil mem
  rw [hitsOf, List.map_filterMap, Candidate.completions]
  simp only [Candidate.finish, Candidate.initial, none, depth, List.map_nil, List.nil_append,
    List.append_nil, Nat.zero_add, Option.map_map, Function.comp_def]
  rfl

/-! ### The winner -/

/-- A fold over matches keeps none only if there is none. Otherwise it keeps one that is more specific
than all before it and no less specific than all behind it. -/
lemma foldl_better_cases (founds : List (Found α)) :
    (founds = [] ∧ founds.foldl Found.better none = none) ∨
    ∃ front winner back, founds = front ++ winner :: back ∧
      founds.foldl Found.better none = some winner ∧
      (∀ f ∈ front, compare f.specificity winner.specificity = .lt) ∧
      ∀ f ∈ back, (compare f.specificity winner.specificity).isLE = true := by
  induction founds using List.reverseRecOn with
  | nil => exact .inl ⟨rfl, rfl⟩
  | append_singleton founds last ih =>
    right
    rw [List.foldl_append, List.foldl_cons, List.foldl_nil]
    rcases ih with ⟨rfl, result⟩ | ⟨front, winner, back, split, result, before, behind⟩
    · exact ⟨[], last, [], rfl, by rw [result]; rfl, by simp, by simp⟩
    · rw [result, Found.better]
      split
      · -- the last one is more specific than the winner so far, and so than all others
        rename_i more
        refine ⟨founds, last, [], rfl, rfl, ?_, by simp⟩
        intro f mem
        rw [split, List.mem_append, List.mem_cons] at mem
        rcases mem with mem | rfl | mem
        · exact Std.TransCmp.lt_trans (before f mem) more
        · exact more
        · exact Std.TransCmp.lt_of_isLE_of_lt (behind f mem) more
      · rename_i notMore
        -- an equally specific one behind the winner does not replace it
        refine ⟨front, winner, back ++ [last], by rw [split, List.append_assoc]; rfl, rfl, before, ?_⟩
        intro f mem
        rcases List.mem_append.mp mem with mem | mem
        · exact behind f mem
        · rw [List.mem_singleton.mp mem]
          exact Std.OrientedCmp.isGE_iff_isLE.mp (Ordering.ne_lt_iff_isGE.mp notMore)

/-- The route of the winner stands in its slot of its node, whatever the table is. -/
lemma best_held {table : Table α} {path : String} {found : Found α}
    (best : best table path = some found) :
    (table.trie.node found.node).slots.get found.slot = some found.route := by
  simp only [Search.best] at best
  rw [run_eq_foldl] at best
  rcases foldl_better_cases (List.flatMap _ _) with ⟨-, none⟩ | ⟨front, winner, back, split, some, -⟩
  · cases none.symm.trans best
  · cases some.symm.trans best
    have mem : found ∈ front ++ found :: back := by simp
    rw [← split, List.flatMap_singleton, Candidate.outcomes, List.mem_flatMap] at mem
    obtain ⟨c, -, mem⟩ := mem
    rw [Candidate.completions] at mem
    split at mem
    · obtain ⟨slot, -, taken⟩ := List.mem_filterMap.mp mem
      obtain ⟨route, held, rfl⟩ := Option.map_eq_some_iff.mp taken
      exact held
    · cases mem

/-- A search finds nothing only if there is no hit. Otherwise one hit wins: it is more specific than all
before it and no less specific than all behind it. -/
lemma best_cases {table : Table α} (labelled : table.trie.Labelled) (path : String) :
    (hits table.trie (.ofString path) = [] ∧ best table path = none) ∨
    ∃ front winner back, hits table.trie (.ofString path) = front ++ winner :: back ∧
      best table path = some winner.found ∧
      (∀ h ∈ front, compare h.found.specificity winner.found.specificity = .lt) ∧
      ∀ h ∈ back, (compare h.found.specificity winner.found.specificity).isLE = true := by
  rw [best_eq_foldl labelled]
  rcases foldl_better_cases ((hits table.trie (.ofString path)).map Hit.found) with
    ⟨none, result⟩ | ⟨front, winner, back, split, result, before, behind⟩
  · exact .inl ⟨List.map_eq_nil_iff.mp none, result⟩
  · right
    obtain ⟨front, tail, hits, rfl, cut⟩ := List.map_eq_append_iff.mp split
    obtain ⟨winner, back, rfl, rfl, rfl⟩ := List.map_eq_cons_iff.mp cut
    refine ⟨front, winner, back, hits, result, ?_, ?_⟩
    · intro h mem
      exact before _ (List.mem_map_of_mem mem)
    · intro h mem
      exact behind _ (List.mem_map_of_mem mem)

end Search

end PathRouting

import PathRouting.Proofs.Lookup.Cuts
import PathRouting.Proofs.Trie.Updates

/-!
# Splits

`Trie.splits` lists the ways to give some tokens away from a node on, in the order in which the search
comes across them: a greedy node takes the next token itself before any node below it does, and of the
nodes below the last one comes first. The list has exactly the ways that fit the keys
(`Linked.mem_splits_iff`). Of two that lead to one node by the same keys, the one with longer blocks
comes first (`Labelled.splits_pairwise`).

The order of the branches of a node matters to none but the search for a key, so what does not need it is
said of all tries that are `Trie.Labelled`.
-/

namespace PathRouting

/-- The number of the keys that lead to a node. -/
def Node.depth {ρ : Type} (n : Node ρ) : Nat :=
  match n.key with
  | none => 0
  | some _ => n.position + 1

/-- A way to give tokens away from a node on. -/
structure Split where
  /-- The tokens that go to the node itself, behind those that it has. -/
  more : List String
  /-- The keys that lead on from the node, with the tokens that go to each. -/
  steps : List (Key × List String)
  /-- The node that the keys lead to. -/
  node : Nat

namespace Split

/-- One token more for the node itself. -/
def stay (token : String) (s : Split) : Split := { s with more := token :: s.more }

/-- One token more for the node, which a key from another one leads to. -/
def enter (key : Key) (token : String) (s : Split) : Split :=
  ⟨[], (key, token :: s.more) :: s.steps, s.node⟩

/-- The keys that lead on from the node. -/
def keys (s : Split) : List Key := s.steps.map Prod.fst

/-- The tokens that go to each of these keys. -/
def blocks (s : Split) : List (List String) := s.steps.map Prod.snd

/-- The numbers of tokens that go to the node itself and to each key. -/
def lengths (s : Split) : List Nat := s.more.length :: s.blocks.map List.length

/-- One token more for the node on both sides does not change which split is longer. -/
lemma lengths_stay_lt_iff {token : String} {s next : Split} :
    (next.stay token).lengths < (s.stay token).lengths ↔ next.lengths < s.lengths := by
  simp [lengths, stay, blocks, List.cons_lt_cons_iff]

/-- Entering one branch on both sides does not change which split is longer. -/
lemma lengths_enter_lt_iff {key : Key} {token : String} {s next : Split} :
    (next.enter key token).lengths < (s.enter key token).lengths ↔ next.lengths < s.lengths := by
  simp [lengths, enter, blocks, List.cons_lt_cons_iff]

/-- A split of some tokens that fits the nodes from one on. -/
structure Fits {ρ : Type} (t : Trie ρ) (tokens : List String) (id : Nat) (s : Split) : Prop where
  flatten : s.more ++ s.blocks.flatten = tokens
  greedy : s.more ≠ [] → (t.node id).isGreedy = true
  takes : List.Forall₂ Key.Takes s.keys s.blocks
  leads : t.descend s.keys id = some s.node

end Split

namespace Trie

variable {ρ : Type} {t : Trie ρ}

/-- The splits of some tokens from a node on. -/
def splits (t : Trie ρ) : List String → Nat → List Split
  | [], id => [⟨[], [], id⟩]
  | token :: rest, id =>
    (if (t.node id).isGreedy then (t.splits rest id).map (.stay token) else []) ++
      (t.node id).branches.entries.reverse.flatMap fun e =>
        if e.1.accepts token then (t.splits rest e.2).map (.enter e.1 token) else []

/-- The first token of a split goes to the node itself or to one of its branches. -/
lemma mem_splits_cons_iff {token : String} {rest : List String} {id : Nat} {s : Split} :
    s ∈ t.splits (token :: rest) id ↔
      ((t.node id).isGreedy = true ∧ ∃ next ∈ t.splits rest id, s = next.stay token) ∨
      ∃ e ∈ (t.node id).branches.entries, e.1.accepts token = true ∧
        ∃ next ∈ t.splits rest e.2, s = next.enter e.1 token := by
  rw [splits, List.mem_append, List.mem_flatMap]
  apply or_congr
  · split
    · rename_i greedy
      simp [greedy, eq_comm]
    · rename_i notGreedy
      simp [notGreedy]
  · apply exists_congr
    intro e
    rw [List.mem_reverse]
    apply and_congr_right
    intro _
    split
    · rename_i accepts
      simp [accepts, eq_comm]
    · rename_i refuses
      simp [refuses]

variable {ks : List Key} {id : Nat}

/-- A node is greedy exactly if the key that leads to it is. -/
lemma Linked.isGreedy_eq (linked : Linked t) {key : Key} (at_ : t.locate (ks ++ [key]) = some id) :
    (t.node id).isGreedy = key.isGreedy := by
  rw [Node.isGreedy, linked.key at_]
  rfl

/-- The splits that are listed are those that fit. -/
lemma Linked.mem_splits_iff (linked : Linked t) (at_ : t.locate ks = some id)
    {tokens : List String} {s : Split} : s ∈ t.splits tokens id ↔ s.Fits t tokens id := by
  induction tokens generalizing ks id s with
  | nil =>
    rw [splits, List.mem_singleton]
    constructor
    · rintro rfl
      exact ⟨rfl, fun ne => absurd rfl ne, .nil, rfl⟩
    · obtain ⟨more, steps, node⟩ := s
      intro fits
      obtain ⟨flatten, greedy, takes, leads⟩ := fits
      cases steps with
      | nil =>
        obtain ⟨rfl, -⟩ := List.append_eq_nil_iff.mp flatten
        cases leads
        rfl
      | cons step steps =>
        -- the first key would take no token
        cases takes with
        | cons here takes =>
          obtain ⟨key, block⟩ := step
          have empty : block = [] := by
            have := (List.append_eq_nil_iff.mp flatten).2
            exact (List.append_eq_nil_iff.mp this).1
          exact absurd (empty ▸ here) key.not_takes_nil
  | cons token rest ih =>
    rw [mem_splits_cons_iff]
    constructor
    · rintro (⟨greedy, next, mem, rfl⟩ | ⟨e, mem, accepts, next, memNext, rfl⟩)
      · obtain ⟨flatten, -, takes, leads⟩ := (ih at_).mp mem
        exact ⟨congrArg (token :: ·) flatten, fun _ => greedy, takes, leads⟩
      · have below := (linked.mem_entries_iff at_).mp mem
        obtain ⟨flatten, greedy, takes, leads⟩ := (ih below).mp memNext
        rw [linked.isGreedy_eq below] at greedy
        refine ⟨congrArg (token :: ·) flatten, fun ne => absurd rfl ne, ?_, ?_⟩
        · exact .cons (Key.takes_cons_iff.mpr ⟨accepts, greedy⟩) takes
        · show t.descend (e.1 :: next.keys) id = some next.node
          rw [descend, (child?_eq_some_iff at_).mpr below]
          exact leads
    · obtain ⟨more, steps, node⟩ := s
      intro fits
      obtain ⟨flatten, greedy, takes, leads⟩ := fits
      -- the first token is the first one of `more`, or else of the first block
      cases more with
      | cons first more =>
        obtain ⟨rfl, tail⟩ := List.cons.inj flatten
        refine .inl ⟨greedy (List.cons_ne_nil _ _), ⟨more, steps, node⟩, ?_, rfl⟩
        exact (ih at_).mpr ⟨tail, fun _ => greedy (List.cons_ne_nil _ _), takes, leads⟩
      | nil =>
        cases steps with
        | nil => cases flatten
        | cons step steps =>
          obtain ⟨key, block⟩ := step
          cases takes with
          | cons here takes =>
            cases block with
            | nil => exact absurd here key.not_takes_nil
            | cons first more =>
              obtain ⟨rfl, tail⟩ := List.cons.inj flatten
              obtain ⟨accepts, further⟩ := Key.takes_cons_iff.mp here
              obtain ⟨child, branch, leads⟩ := Option.bind_eq_some_iff.mp leads
              have below := (child?_eq_some_iff at_).mp branch
              have mem : (key, child) ∈ _ := (linked.mem_entries_iff at_).mpr below
              refine .inr ⟨(key, child), mem, accepts, ⟨more, steps, node⟩, ?_, rfl⟩
              rw [← linked.isGreedy_eq below] at further
              exact (ih below).mpr ⟨tail, further, takes, leads⟩

/-! ### Labelled tries -/

/-- Every branch leads to a node that records its key and the depth that it leaves, and the branches of a
node have different keys, in whatever order they stand. -/
structure Labelled (t : Trie ρ) : Prop where
  root_key : (t.node root).key = none
  distinct : ∀ id, (t.node id).branches.entries.Pairwise fun e f => e.1 ≠ f.1
  key : ∀ {id e}, e ∈ (t.node id).branches.entries → (t.node e.2).key = some e.1
  position : ∀ {id e}, e ∈ (t.node id).branches.entries → (t.node e.2).position = (t.node id).depth

/-- A node lies as deep as there are keys on the way to it. -/
lemma Linked.depth_eq (linked : Linked t) (at_ : t.locate ks = some id) :
    (t.node id).depth = ks.length := by
  cases ks using List.reverseRecOn with
  | nil =>
    cases at_
    rw [Node.depth, linked.root_key]
    rfl
  | append_singleton ks k =>
    rw [Node.depth, linked.key at_, linked.position at_, List.length_append]
    rfl

/-- A linked trie is labelled. -/
lemma Linked.labelled (linked : Linked t) : Labelled t where
  root_key := linked.root_key
  distinct id := by
    apply (linked.sorted id).imp
    intro e f less same
    rw [same, Std.ReflOrd.compare_self] at less
    cases less
  key mem := by
    obtain ⟨ks, at_⟩ := linked.locate_of_mem_entries mem
    exact linked.key ((linked.mem_entries_iff at_).mp mem)
  position mem := by
    obtain ⟨ks, at_⟩ := linked.locate_of_mem_entries mem
    rw [linked.position ((linked.mem_entries_iff at_).mp mem), linked.depth_eq at_]

/-- A branch leads one key further. -/
lemma Labelled.depth_branch (labelled : Labelled t) {e : Key × Nat}
    (mem : e ∈ (t.node id).branches.entries) : (t.node e.2).depth = (t.node id).depth + 1 := by
  rw [Node.depth, labelled.key mem, labelled.position mem]

/-- No key leads to the root, so from there all tokens go to keys. -/
lemma Labelled.more_eq_nil (labelled : Labelled t) {tokens : List String} {s : Split}
    (mem : s ∈ t.splits tokens root) : s.more = [] := by
  cases tokens with
  | nil =>
    rw [List.mem_singleton.mp mem]
  | cons token rest =>
    rcases mem_splits_cons_iff.mp mem with ⟨greedy, -⟩ | ⟨e, -, -, next, -, rfl⟩
    · rw [Node.isGreedy, labelled.root_key] at greedy
      cases greedy
    · rfl

/-- A split comes before the others with the same keys whose blocks are shorter. -/
lemma Labelled.splits_pairwise (labelled : Labelled t) (tokens : List String) (id : Nat) :
    (t.splits tokens id).Pairwise fun s next => next.keys = s.keys → next.lengths < s.lengths := by
  induction tokens generalizing id with
  | nil => exact List.pairwise_singleton _ _
  | cons token rest ih =>
    rw [splits, List.pairwise_append]
    refine ⟨?_, ?_, ?_⟩
    · split
      · rw [List.pairwise_map]
        apply (ih id).imp
        intro s next less same
        exact Split.lengths_stay_lt_iff.mpr (less same)
      · exact List.Pairwise.nil
    · rw [List.pairwise_flatMap]
      refine ⟨?_, ?_⟩
      · intro e _
        split
        · rw [List.pairwise_map]
          apply (ih e.2).imp
          intro s next less same
          exact Split.lengths_enter_lt_iff.mpr (less (List.cons.inj same).2)
        · exact List.Pairwise.nil
      · -- splits that enter different branches have different keys
        rw [List.pairwise_reverse]
        apply (labelled.distinct id).imp
        intro e f differ s hs next hnext same
        exfalso
        split at hs <;> split at hnext <;> simp only [List.mem_map, List.not_mem_nil] at hs hnext
        obtain ⟨s, -, rfl⟩ := hs
        obtain ⟨next, -, rfl⟩ := hnext
        exact differ (List.cons.inj same).1
    · intro s hs next hnext same
      split at hs
      · obtain ⟨s, -, rfl⟩ := List.mem_map.mp hs
        obtain ⟨e, -, hnext⟩ := List.mem_flatMap.mp hnext
        split at hnext
        · obtain ⟨next, -, rfl⟩ := List.mem_map.mp hnext
          simp [Split.lengths, Split.stay, Split.enter, List.cons_lt_cons_iff]
        · cases hnext
      · cases hs

end Trie

end PathRouting

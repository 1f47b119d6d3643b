import PathRouting.Proofs.Trie.Updates

/-!
# The nodes that are reached

`Trie.Walk` follows the branches of a trie from the root on, without looking for any key. On a linked trie a
walk comes to the node that `Trie.locate` finds for its keys, and every key that leads to a node is walked
along (`Linked.locate_of_walk`, `Linked.exists_walk`). So a walk is known from its keys, and also from the
node that it comes to.

What `Trie.locate` finds in two linked tries is therefore enough to compare their walks
(`Linked.walk_mono`).
-/

namespace PathRouting.Trie

variable {ρ : Type} {t u : Trie ρ}

/-- The branches that lead from the root to a node. -/
inductive Walk (t : Trie ρ) : List (Key × Nat) → Nat → Prop
  | root : Walk t [] root
  | step {edges : List (Key × Nat)} {id : Nat} {e : Key × Nat} (walk : Walk t edges id)
      (mem : e ∈ (t.node id).branches.entries) : Walk t (edges ++ [e]) e.2

/-- Some walk comes to the node. -/
def Reached (t : Trie ρ) (id : Nat) : Prop := ∃ edges, t.Walk edges id

/-- A walk comes to the node that its keys lead to. -/
lemma Linked.locate_of_walk (linked : Linked t) {edges : List (Key × Nat)} {id : Nat}
    (walk : t.Walk edges id) : t.locate (edges.map Prod.fst) = some id := by
  induction walk with
  | root => rfl
  | step _ mem ih =>
    rw [List.map_append]
    exact (linked.mem_entries_iff ih).mp mem

/-- Wherever keys lead, there is a walk along them. -/
lemma Linked.exists_walk (linked : Linked t) {ks : List Key} {id : Nat} (at_ : t.locate ks = some id) :
    ∃ edges, t.Walk edges id ∧ edges.map Prod.fst = ks := by
  induction ks using List.reverseRecOn generalizing id with
  | nil =>
    cases at_
    exact ⟨[], .root, rfl⟩
  | append_singleton ks k ih =>
    have above := at_
    rw [locate_concat, Option.bind_eq_some_iff] at above
    obtain ⟨parent, above, -⟩ := above
    obtain ⟨edges, walk, keys⟩ := ih above
    have mem : (k, id) ∈ _ := (linked.mem_entries_iff above).mpr at_
    exact ⟨edges ++ [(k, id)], .step walk mem, by simp [keys]⟩

/-- A node is reached exactly if some keys lead to it. -/
lemma Linked.reached_iff (linked : Linked t) {id : Nat} :
    t.Reached id ↔ ∃ ks, t.locate ks = some id := by
  constructor
  · intro ⟨edges, walk⟩
    exact ⟨_, linked.locate_of_walk walk⟩
  · intro ⟨ks, at_⟩
    obtain ⟨edges, walk, -⟩ := linked.exists_walk at_
    exact ⟨edges, walk⟩

/-- A walk is known from its keys. -/
lemma Linked.walk_eq_of_keys (linked : Linked t) {edges others : List (Key × Nat)} {id other : Nat}
    (walk : t.Walk edges id) (along : t.Walk others other)
    (keys : edges.map Prod.fst = others.map Prod.fst) : edges = others := by
  induction walk generalizing others other with
  | root => exact (List.map_eq_nil_iff.mp keys.symm).symm
  | @step edges id e walk mem ih =>
    cases along with
    | root => simp at keys
    | @step others id' f along mem' =>
      rw [List.map_append, List.map_append] at keys
      obtain ⟨before, last⟩ := List.append_inj' keys rfl
      have key : e.1 = f.1 := (List.cons.inj last).1
      obtain rfl := ih along before
      -- the last branch is known from its key, as it leads where the keys do
      have here := linked.locate_of_walk (.step walk mem)
      have there := linked.locate_of_walk (.step along mem')
      rw [List.map_append, List.map_singleton] at here there
      rw [key, there] at here
      rw [Prod.ext key (Option.some.inj here).symm]

/-- A walk is known from the node that it comes to. -/
lemma Linked.walk_unique (linked : Linked t) {edges others : List (Key × Nat)} {id : Nat}
    (walk : t.Walk edges id) (along : t.Walk others id) : edges = others := by
  apply linked.walk_eq_of_keys walk along
  exact linked.injective (linked.locate_of_walk walk) (linked.locate_of_walk along)

/-- If all keys that lead to a node in one trie lead there in another one too, so do the walks. -/
lemma Linked.walk_mono (linked : Linked t) (linked' : Linked u)
    (kept : ∀ {ls id}, u.locate ls = some id → t.locate ls = some id) {edges : List (Key × Nat)}
    {id : Nat} (walk : u.Walk edges id) : t.Walk edges id := by
  induction walk with
  | root => exact .root
  | @step edges id e walk mem ih =>
    refine .step ih ?_
    rw [linked.mem_entries_iff (linked.locate_of_walk ih)]
    exact kept ((linked'.mem_entries_iff (linked'.locate_of_walk walk)).mp mem)

/-- A node records the last key of the walk to it. -/
lemma Linked.key_of_walk (linked : Linked t) {edges : List (Key × Nat)} {id : Nat}
    (walk : t.Walk edges id) : (t.node id).key = (edges.map Prod.fst).getLast? := by
  cases walk with
  | root => exact linked.root_key
  | step walk mem =>
    rw [List.map_append, List.map_singleton, List.getLast?_concat]
    exact linked.key ((linked.mem_entries_iff (linked.locate_of_walk walk)).mp mem)

/-- Its position is that of this key. -/
lemma Linked.position_of_walk (linked : Linked t) {edges : List (Key × Nat)} {id : Nat}
    (walk : t.Walk edges id) (ne : edges ≠ []) : (t.node id).position + 1 = edges.length := by
  cases walk with
  | root => exact absurd rfl ne
  | step walk mem =>
    have below := (linked.mem_entries_iff (linked.locate_of_walk walk)).mp mem
    rw [linked.position below, List.length_map, List.length_append, List.length_singleton]

/-- The numbers out of use are those of the other nodes. -/
lemma Linked.mem_free_iff (linked : Linked t) {id : Nat} :
    id ∈ t.free ↔ id < t.nodes.size ∧ ¬t.Reached id := by
  rw [linked.reached_iff]
  constructor
  · intro free
    exact ⟨linked.free_lt free, fun ⟨ks, at_⟩ => linked.free_apart free ks at_⟩
  · intro ⟨inRange, unreached⟩
    exact (linked.covered inRange).resolve_right unreached

end PathRouting.Trie

import PathRouting.Proofs.Table.Refinement
import PathRouting.Proofs.Trie.Walks

/-!
# The nodes of a table

A node of a table is there for the routes below it. `Table.Needs` tells which keys some registered route
passes through, and a table is `Table.Tidy` if exactly these are walked along from the root, each of them by
one walk and to one node, if every node is labelled by the walk to it, and if every route stands at the end
of the walk along its own keys. The numbers of all other nodes wait to be given out, and these nodes are
blank.

Every table is tidy (`after_tidy`). So a removal releases just the nodes that no other route needs
(`Table.Prunes`), and an insertion finds nothing in a node that it takes into use (`Table.Recycles`).
-/

namespace PathRouting

/-- The address of a pattern has the indeterminate mark exactly if its last key is greedy. -/
lemma Pattern.address_indeterminate_iff (p : Pattern) :
    p.address.trailing = .indeterminate ↔ p.address.keys.getLast?.any Key.isGreedy = true := by
  rw [Pattern.address, p.trailing_eq_indeterminate_iff, endsGreedy, List.getLast?_map, Option.any_map]
  simp only [Segment.isGreedy_key]

namespace Table

variable {α : Type} {t : Table α}

/-- The keys lead through a registered route; no key at all leads through every table. -/
def Needs (t : Table α) (ks : List Key) : Prop :=
  ks = [] ∨ ∃ r ∈ t.toList, ks <+: r.pattern.address.keys

/-- The nodes that are reached are those that the registered routes need, and all others are blank. -/
structure Tidy (t : Table α) : Prop where
  walked_iff : ∀ ks, (∃ edges id, t.trie.Walk edges id ∧ edges.map Prod.fst = ks) ↔ t.Needs ks
  /-- No two nodes have the same keys. -/
  node_unique : ∀ {edges others id other}, t.trie.Walk edges id → t.trie.Walk others other →
    edges.map Prod.fst = others.map Prod.fst → id = other
  walk_unique : ∀ {edges others id}, t.trie.Walk edges id → t.trie.Walk others id → edges = others
  key : ∀ {edges id}, t.trie.Walk edges id →
    (t.trie.node id).key = (edges.map Prod.fst).getLast?
  position : ∀ {edges id}, t.trie.Walk edges id → edges ≠ [] →
    (t.trie.node id).position + 1 = edges.length
  /-- A route stands at the end of the walk along its keys, in the slot of its mark. -/
  held_iff : ∀ {edges id}, t.trie.Walk edges id → ∀ slot r,
    (t.trie.node id).slots.get slot = some r ↔
      r ∈ t.toList ∧ r.pattern.address = ⟨edges.map Prod.fst, slot⟩
  indeterminate_iff : ∀ {edges id}, t.trie.Walk edges id → ∀ slot r,
    (t.trie.node id).slots.get slot = some r →
      (slot = .indeterminate ↔ (t.trie.node id).isGreedy = true)
  mem_free_iff : ∀ id, id ∈ t.trie.free ↔ id < t.trie.nodes.size ∧ ¬t.trie.Reached id
  free_nodup : t.trie.free.Nodup
  free_blank : ∀ id ∈ t.trie.free, t.trie.node id = .blank

/-- What a removal leaves of the nodes of a table: those that the other routes need, as they were. -/
structure Prunes (t : Table α) (pattern : Pattern) (next : Table α) : Prop where
  mem_toList_iff : ∀ r, r ∈ next.toList ↔ r ∈ t.toList ∧ r.pattern.address ≠ pattern.address
  walk_iff : ∀ edges id,
    next.trie.Walk edges id ↔ t.trie.Walk edges id ∧ next.Needs (edges.map Prod.fst)
  released : ∀ {edges id}, t.trie.Walk edges id → ¬next.Needs (edges.map Prod.fst) →
    id ∈ next.trie.free ∧ next.trie.node id = .blank

/-- What an insertion makes of the nodes of a table: those that are reached stay where they are, and a node
that was out of use, or was not there, has nothing but what the new route needs. -/
structure Recycles (t : Table α) (route : Route α) (next : Table α) : Prop where
  walk : ∀ {edges id}, t.trie.Walk edges id → next.trie.Walk edges id
  keys : ∀ {edges id}, next.trie.Walk edges id → ¬t.trie.Reached id →
    edges.map Prod.fst <+: route.pattern.address.keys
  position : ∀ {edges id}, next.trie.Walk edges id → ¬t.trie.Reached id →
    (next.trie.node id).position + 1 = edges.length
  branches : ∀ {id}, next.trie.Reached id → ¬t.trie.Reached id →
    ∀ e ∈ (next.trie.node id).branches.entries, ¬t.trie.Reached e.2
  slots : ∀ {id}, next.trie.Reached id → ¬t.trie.Reached id →
    ∀ slot r, (next.trie.node id).slots.get slot = some r → r = route

/-! ### Tidy tables -/

/-- The keys that the routes need are those that lead somewhere. -/
lemma Indexed.needs_iff (indexed : t.Indexed) {ks : List Key} :
    t.Needs ks ↔ ∃ id, t.trie.locate ks = some id := by
  constructor
  · rintro (rfl | ⟨r, mem, more, keys⟩)
    · exact ⟨_, Trie.locate_nil⟩
    · obtain ⟨id, at_, -⟩ := Trie.locate_of_get? (indexed.mem_toList_iff.mp mem)
      rw [← keys, Trie.locate, Trie.descend_append, Option.bind_eq_some_iff] at at_
      obtain ⟨id, at_, -⟩ := at_
      exact ⟨id, at_⟩
  · rintro ⟨id, at_⟩
    by_cases none : ks = []
    · exact .inl none
    · obtain ⟨address, r, below, held⟩ := indexed.wellFormed.supported at_ none
      have placed := indexed.placed held
      refine .inr ⟨r, ?_, placed ▸ below⟩
      rw [indexed.mem_toList_iff, get?, placed, held]

/-- A node at the end of a walk holds the routes whose address is that of the walk. -/
lemma Indexed.held_iff (indexed : t.Indexed) {edges : List (Key × Nat)} {id : Nat}
    (walk : t.trie.Walk edges id) (slot : Trailing) (r : Route α) :
    (t.trie.node id).slots.get slot = some r ↔
      r ∈ t.toList ∧ r.pattern.address = ⟨edges.map Prod.fst, slot⟩ := by
  have at_ := indexed.wellFormed.locate_of_walk walk
  have slots : t.trie.get? ⟨edges.map Prod.fst, slot⟩ = (t.trie.node id).slots.get slot :=
    Trie.get?_of_locate at_
  rw [← slots, indexed.mem_toList_iff, get?]
  constructor
  · intro held
    have placed := indexed.placed held
    exact ⟨placed ▸ held, placed⟩
  · rintro ⟨held, placed⟩
    exact placed ▸ held

/-- A table whose routes stand at their addresses is tidy. -/
lemma Indexed.tidy (indexed : t.Indexed) : t.Tidy := by
  have linked := indexed.wellFormed.toLinked
  constructor
  case walked_iff =>
    intro ks
    rw [indexed.needs_iff]
    constructor
    · rintro ⟨edges, id, walk, rfl⟩
      exact ⟨id, linked.locate_of_walk walk⟩
    · rintro ⟨id, at_⟩
      obtain ⟨edges, walk, keys⟩ := linked.exists_walk at_
      exact ⟨edges, id, walk, keys⟩
  case node_unique =>
    intro edges others id other walk along keys
    have here := linked.locate_of_walk walk
    rw [keys, linked.locate_of_walk along] at here
    exact (Option.some.inj here).symm
  case walk_unique => exact linked.walk_unique
  case key => exact linked.key_of_walk
  case position => exact linked.position_of_walk
  case held_iff => exact indexed.held_iff
  case indeterminate_iff =>
    intro edges id walk slot r held
    have placed := ((indexed.held_iff walk slot r).mp held).2
    have greedy := r.pattern.address_indeterminate_iff
    rw [placed] at greedy
    rw [Node.isGreedy, linked.key_of_walk walk]
    exact greedy
  case mem_free_iff => exact fun _ => linked.mem_free_iff
  case free_nodup => exact linked.free_nodup
  case free_blank => exact fun _ => linked.free_blank

/-! ### Removal -/

/-- A removal by pattern removes its address from the trie. -/
lemma trie_remove (pattern : Pattern) :
    (t.remove pattern).2.trie = (t.trie.remove pattern.address).2 := by
  rw [remove]
  cases t.trie.remove pattern.address with
  | mk value trie => cases value <;> rfl

/-- A removal keeps the routes at their addresses. -/
lemma Indexed.remove (indexed : t.Indexed) (pattern : Pattern) : (t.remove pattern).2.Indexed := by
  rcases indexed.remove_cases pattern with ⟨-, same⟩ | ⟨route, next, -, gone, indexed', -⟩
  · rw [same]
    exact indexed
  · rw [gone]
    exact indexed'

/-- A removal prunes the nodes that no other route needs. -/
lemma Indexed.prunes (indexed : t.Indexed) (pattern : Pattern) :
    t.Prunes pattern (t.remove pattern).2 := by
  have removed := indexed.wellFormed.remove pattern.address
  rw [← trie_remove] at removed
  have indexed' := indexed.remove pattern
  generalize (t.remove pattern).2 = next at removed indexed'
  have linked := indexed.wellFormed.toLinked
  have linked' := indexed'.wellFormed.toLinked
  have before : ∀ {edges id}, next.trie.Walk edges id → t.trie.Walk edges id :=
    linked.walk_mono linked' removed.reached
  have walk_iff : ∀ edges id,
      next.trie.Walk edges id ↔ t.trie.Walk edges id ∧ next.Needs (edges.map Prod.fst) := by
    intro edges id
    rw [indexed'.needs_iff]
    constructor
    · intro walk
      exact ⟨before walk, id, linked'.locate_of_walk walk⟩
    · rintro ⟨walk, other, at_⟩
      -- the walk that is left for the keys is the one that there was
      obtain ⟨others, along, keys⟩ := linked'.exists_walk at_
      obtain rfl := linked.walk_eq_of_keys walk (before along) keys.symm
      have here := linked.locate_of_walk walk
      rw [linked.locate_of_walk (before along)] at here
      obtain rfl := Option.some.inj here
      exact along
  constructor
  case mem_toList_iff =>
    intro r
    rw [indexed'.mem_toList_iff, indexed.mem_toList_iff, get?, get?, removed.get?_eq]
    by_cases here : r.pattern.address = pattern.address
    · simp [here]
    · simp [here]
  case walk_iff => exact walk_iff
  case released =>
    intro edges id walk unneeded
    have unreached : ¬next.trie.Reached id := by
      rintro ⟨others, along⟩
      obtain rfl := linked.walk_unique walk (before along)
      exact unneeded ((walk_iff _ _).mp along).2
    have inRange : id < next.trie.nodes.size := by
      rw [removed.size_eq]
      exact linked.inRange (linked.locate_of_walk walk)
    have free := linked'.mem_free_iff.mpr ⟨inRange, unreached⟩
    exact ⟨free, linked'.free_blank free⟩

/-! ### Insertion -/

/-- A registration finds nothing in the nodes that it takes into use. -/
lemma Indexed.recycles_register (indexed : t.Indexed) (pattern : Pattern) (resource : α) :
    t.Recycles ⟨pattern, resource, t.nextPriority⟩ (t.register pattern resource).2 := by
  have linked := indexed.wellFormed.toLinked
  have linked' := (indexed.register pattern resource).wellFormed.toLinked
  have kept : ∀ {ls id}, t.trie.locate ls = some id →
      (t.register pattern resource).2.trie.locate ls = some id :=
    linked.locate_insert_of_locate _ _
  have walks : ∀ {edges id}, t.trie.Walk edges id →
      (t.register pattern resource).2.trie.Walk edges id :=
    linked'.walk_mono linked kept
  -- what leads to a new node led nowhere
  have nowhere : ∀ {ls id}, (t.register pattern resource).2.trie.locate ls = some id →
      ¬t.trie.Reached id → t.trie.locate ls = none := by
    intro ls id at_ unreached
    cases old : t.trie.locate ls with
    | none => rfl
    | some other =>
      rw [kept old] at at_
      obtain rfl := Option.some.inj at_
      exact absurd (linked.reached_iff.mpr ⟨ls, old⟩) unreached
  constructor
  case walk => exact walks
  case keys =>
    intro edges id walk unreached
    have at_ := linked'.locate_of_walk walk
    rcases linked.locate_insert_cases at_ with old | pre
    · cases (nowhere at_ unreached).symm.trans old
    · exact pre
  case position =>
    intro edges id walk unreached
    apply linked'.position_of_walk walk
    rintro rfl
    cases linked'.locate_of_walk walk
    exact unreached ⟨[], .root⟩
  case branches =>
    rintro id ⟨edges, walk⟩ unreached e mem reached
    have at_ := linked'.locate_of_walk walk
    have below := (linked'.mem_entries_iff at_).mp mem
    obtain ⟨ls, old⟩ := linked.reached_iff.mp reached
    obtain rfl := linked'.injective below (kept old)
    rw [Trie.locate_concat, nowhere at_ unreached] at old
    cases old
  case slots =>
    rintro id ⟨edges, walk⟩ unreached slot r held
    have at_ := linked'.locate_of_walk walk
    have found : (t.register pattern resource).2.trie.get? ⟨edges.map Prod.fst, slot⟩ = some r :=
      (Trie.get?_of_locate at_).trans held
    rw [Table.register, linked.get?_insert] at found
    split at found
    · exact (Option.some.inj found).symm
    · rw [Trie.get?, nowhere at_ unreached] at found
      cases found

/-- Where nothing changes, no node is taken into use. -/
lemma Recycles.refl (t : Table α) (route : Route α) : t.Recycles route t where
  walk walk := walk
  keys walk unreached := absurd ⟨_, walk⟩ unreached
  position walk unreached := absurd ⟨_, walk⟩ unreached
  branches reached unreached := absurd reached unreached
  slots reached unreached := absurd reached unreached

/-- An insertion that is refused changes nothing, and any other one registers its route. -/
lemma Indexed.recycles (indexed : t.Indexed) (pattern : Pattern) (resource : α) (strict : Bool) :
    t.Recycles ⟨pattern, resource, t.nextPriority⟩ (t.insert pattern resource strict).2 := by
  have registered := indexed.recycles_register pattern resource
  cases strict with
  | false => exact registered
  | true =>
    cases h : t.get? pattern with
    | none =>
      simp only [Table.insert, h]
      exact registered
    | some existing =>
      simp only [Table.insert, h]
      exact .refl t _

/-- Every table is tidy: a removal prunes just the nodes that no route is left to need, and a node that an
insertion takes into use has nothing of what it had before. -/
theorem after_tidy (changes : List (Change α)) :
    (after changes).Tidy ∧
    (∀ pattern, (after changes).Prunes pattern ((after changes).remove pattern).2) ∧
    ∀ pattern resource strict,
      (after changes).Recycles ⟨pattern, resource, (after changes).nextPriority⟩
        ((after changes).insert pattern resource strict).2 := by
  have indexed := (valid_after changes).toIndexed
  exact ⟨indexed.tidy, indexed.prunes, indexed.recycles⟩

-- the removal releases two of the four nodes, and the last insertion takes both of them
example :
    let t : Table Nat := after [
      .insert ⟨[.literal "a"], .no, by decide, by decide, by decide⟩ 1 false,
      .insert ⟨[.literal "a", .named "b", .literal "c"], .no, by decide, by decide, by decide⟩ 2 false,
      .remove ⟨[.literal "a", .named "b", .literal "c"], .no, by decide, by decide, by decide⟩]
    let u := (t.insert ⟨[.literal "x", .literal "y"], .no, by decide, by decide, by decide⟩ 3 false).2
    t.trie.nodes.size = 4 ∧ t.trie.free = [2, 3] ∧ u.trie.nodes.size = 4 ∧ u.trie.free = [] := by
  decide +kernel

end Table

end PathRouting

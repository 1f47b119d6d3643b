import PathRouting.Proofs.Trie.Shape

/-!
# What a trie holds after a change

A trie is well-formed if it is linked and every node but the root has a value at or below it
(`Trie.WellFormed`). An insertion and a removal keep it so, change the value of one address and of no
other, and return the value that was there: `WellFormed.insert`, `Linked.fst_insert`, `Linked.get?_insert`,
`WellFormed.remove_cases`. Growing and pruning change no value at all, so the argument
about nodes ends in this module: all others speak of `Trie.get?`.
-/

namespace PathRouting.Trie

variable {ρ : Type} {t : Trie ρ}

/-! ### Values under the small steps -/

/-- An address holds what the slot of its mark holds at the node of its keys. -/
lemma get?_of_locate {address : Address} {id : Nat} (at_ : t.locate address.keys = some id) :
    t.get? address = (t.node id).slots.get address.trailing := by
  rw [get?, at_, Option.bind_some]

/-- Keys lead to a node wherever a value is held. -/
lemma locate_of_get? {address : Address} {value : ρ} (h : t.get? address = some value) :
    ∃ id, t.locate address.keys = some id ∧ (t.node id).slots.get address.trailing = some value :=
  Option.bind_eq_some_iff.mp h

/-- Tries whose keys lead alike, and to equal slots, hold the same values. -/
lemma get?_congr {u : Trie ρ} {address : Address}
    (walk : u.locate address.keys = t.locate address.keys)
    (slots : ∀ id, t.locate address.keys = some id → (u.node id).slots = (t.node id).slots) :
    u.get? address = t.get? address := by
  rw [get?, get?, walk]
  cases h : t.locate address.keys with
  | none => rfl
  | some id => simp [slots id h]

/-- Setting a slot gives its address the value, and no other address. -/
lemma Linked.get?_setSlot (linked : Linked t) {address : Address} {id : Nat}
    (at_ : t.locate address.keys = some id) (value : Option ρ) (other : Address) :
    (t.modify id fun n => n.setSlot address.trailing value).get? other =
      if other = address then value else t.get? other := by
  have inRange := linked.inRange at_
  have walks := locate_setSlot (t := t) inRange address.trailing value
  have nodes := node_modify (t := t) inRange fun n => n.setSlot address.trailing value
  by_cases same : other = address
  · subst same
    rw [if_pos rfl, get?_of_locate ((walks _).trans at_), nodes, if_pos rfl]
    exact Slots.get_set_self ..
  · rw [if_neg same]
    by_cases sameKeys : other.keys = address.keys
    · have otherMark : other.trailing ≠ address.trailing := by
        intro e
        cases other
        cases address
        exact same (by simp_all)
      rw [get?_of_locate ((walks _).trans (sameKeys ▸ at_)), nodes, if_pos rfl,
        get?_of_locate (sameKeys ▸ at_)]
      exact Slots.get_set_of_ne _ _ otherMark
    · refine get?_congr (walks _) ?_
      intro otherId h
      have otherNode : otherId ≠ id := by
        rintro rfl
        exact sameKeys (linked.injective h at_)
      rw [nodes, if_neg otherNode]

/-- A fresh node holds nothing, so no address changes. -/
lemma Linked.get?_attach (linked : Linked t) {ks : List Key} {parent : Nat} {key : Key}
    {position : Nat} (above : t.locate ks = some parent) (missing : t.child? parent key = none)
    (address : Address) : (t.attach parent key position).2.get? address = t.get? address := by
  have walk : (t.attach parent key position).2.locate address.keys = _ :=
    linked.locate_attach above missing address.keys
  by_cases isNew : address.keys = ks ++ [key]
  · rw [if_pos isNew] at walk
    rw [get?_of_locate walk, linked.node_attach_self above, get?, isNew, locate_concat, above,
      Option.bind_some, missing]
    exact Slots.get_empty _
  · rw [if_neg isNew] at walk
    refine get?_congr walk ?_
    intro id h
    have isOld : id ≠ (t.attach parent key position).1 := by
      intro e
      exact linked.locate_ne_attach _ (h.trans (congrArg some e))
    exact (linked.node_attach_of_ne above isOld).2.2

/-- A vacant node holds nothing, so releasing it changes no address. -/
lemma Linked.get?_release (linked : Linked t) {ks : List Key} {parent child : Nat} {key : Key}
    (above : t.locate ks = some parent) (at_ : t.locate (ks ++ [key]) = some child)
    (vacant : (t.node child).isVacant = true) (address : Address) :
    (t.release parent child).get? address = t.get? address := by
  have walk := linked.locate_release above at_ vacant address.keys
  by_cases isChild : address.keys = ks ++ [key]
  · rw [if_pos isChild] at walk
    rw [get?, walk, get?_of_locate (isChild ▸ at_)]
    exact ((linked.of_isVacant vacant).2 _).symm
  · rw [if_neg isChild] at walk
    refine get?_congr walk ?_
    intro id h
    have isOther : id ≠ child := by
      rintro rfl
      exact isChild (linked.injective h at_)
    exact (linked.node_release_of_ne above at_ isOther).2.2

/-! ### Well-formed tries -/

/-- Some address at or below the keys holds a value. -/
def Supports (t : Trie ρ) (ks : List Key) : Prop :=
  ∃ address value, ks <+: address.keys ∧ t.get? address = some value

/-- A linked trie without dead branches. -/
structure WellFormed (t : Trie ρ) : Prop extends Linked t where
  supported : ∀ {ks id}, t.locate ks = some id → ks ≠ [] → t.Supports ks

/-- The empty trie is well-formed. -/
lemma WellFormed.empty : WellFormed (empty : Trie ρ) where
  toLinked := Linked.empty
  supported h ne := absurd (locate_empty_eq_some_iff.mp h).1 ne

/-- The empty trie holds nothing. -/
@[simp]
lemma get?_empty (address : Address) : (empty : Trie ρ).get? address = none := by
  rw [get?, Option.bind_eq_none_iff]
  intro id _
  rw [node_empty]
  exact Slots.get_empty _

/-! ### Insertion -/

/-- What a trie becomes when the nodes are made that are missing where some keys lead. -/
structure Grown (t u : Trie ρ) (ks : List Key) (id : Nat) : Prop where
  linked : Linked u
  leads : u.locate ks = some id
  get?_eq : ∀ address, u.get? address = t.get? address
  locate_cases : ∀ {ls other}, u.locate ls = some other → t.locate ls = some other ∨ ls <+: ks
  kept : ∀ {ls other}, t.locate ls = some other → u.locate ls = some other

/-- Growing from a node makes the nodes that are missing and changes no value. -/
lemma Linked.grow (linked : Linked t) {ks : List Key} {id : Nat} (at_ : t.locate ks = some id)
    (keys : List Key) :
    Grown t (t.grow keys ks.length id).2 (ks ++ keys) (t.grow keys ks.length id).1 := by
  induction keys generalizing t ks id with
  | nil =>
    rw [List.append_nil]
    exact ⟨linked, at_, fun _ => rfl, .inl, fun h => h⟩
  | cons key keys ih =>
    have shift : ks ++ key :: keys = (ks ++ [key]) ++ keys := by simp
    have depth : ks.length + 1 = (ks ++ [key]).length := by simp
    rw [shift, Trie.grow]
    cases h : t.child? id key with
    | some child =>
      rw [depth]
      exact ih linked ((child?_eq_some_iff at_).mp h)
    | none =>
      have leads : (t.attach id key ks.length).2.locate (ks ++ [key]) = _ :=
        linked.locate_attach at_ h (ks ++ [key])
      rw [if_pos rfl] at leads
      -- the other keys grow from the new node, in the trie that has it
      have grown := ih (linked.attach at_ h) leads
      rw [← depth] at grown
      constructor
      case linked => exact grown.linked
      case leads => exact grown.leads
      case get?_eq =>
        intro address
        rw [grown.get?_eq, linked.get?_attach at_ h]
      case locate_cases =>
        intro ls other found
        rcases grown.locate_cases found with found | pre
        · rcases linked.locate_attach_cases at_ h found with ⟨rfl, -⟩ | ⟨found, -⟩
          · exact .inr (List.prefix_append _ _)
          · exact .inl found
        · exact .inr pre
      case kept =>
        intro ls other found
        apply grown.kept
        have old : ls ≠ ks ++ [key] := by
          rintro rfl
          rw [locate_concat, at_, Option.bind_some, h] at found
          cases found
        rw [linked.locate_attach at_ h, if_neg old, found]

/-- The trie that an insertion sets a slot of. -/
lemma Linked.grown (linked : Linked t) (keys : List Key) :
    Grown t (t.grow keys 0 root).2 keys (t.grow keys 0 root).1 :=
  linked.grow locate_nil keys

/-- An insertion returns the value that was there. -/
lemma Linked.fst_insert (linked : Linked t) (address : Address) (value : ρ) :
    (t.insert address value).1 = t.get? address := by
  have grown := linked.grown address.keys
  rw [← grown.get?_eq, get?_of_locate grown.leads]
  rfl

/-- After an insertion its address holds the value, and every other address what it held. -/
lemma Linked.get?_insert (linked : Linked t) (address : Address) (value : ρ) (other : Address) :
    (t.insert address value).2.get? other =
      if other = address then some value else t.get? other := by
  have grown := linked.grown address.keys
  rw [← grown.get?_eq]
  exact grown.linked.get?_setSlot grown.leads (some value) other

/-- An insertion sets a slot, so keys lead where they do in the grown trie. -/
lemma Linked.locate_insert (linked : Linked t) (address : Address) (value : ρ) (ks : List Key) :
    (t.insert address value).2.locate ks = (t.grow address.keys 0 root).2.locate ks :=
  have grown := linked.grown address.keys
  locate_setSlot (grown.linked.inRange grown.leads) _ _ ks

/-- New nodes are reached along the keys of the new address alone. -/
lemma Linked.locate_insert_cases (linked : Linked t) {address : Address} {value : ρ} {ks : List Key}
    {id : Nat} (h : (t.insert address value).2.locate ks = some id) :
    t.locate ks = some id ∨ ks <+: address.keys := by
  rw [linked.locate_insert] at h
  exact (linked.grown address.keys).locate_cases h

/-- Nodes that were reached are still where they were. -/
lemma Linked.locate_insert_of_locate (linked : Linked t) (address : Address) (value : ρ)
    {ks : List Key} {id : Nat} (h : t.locate ks = some id) :
    (t.insert address value).2.locate ks = some id := by
  rw [linked.locate_insert]
  exact (linked.grown address.keys).kept h

/-- An insertion keeps a trie well-formed, as the new value is below all new nodes. -/
lemma WellFormed.insert (wf : WellFormed t) (address : Address) (value : ρ) :
    WellFormed (t.insert address value).2 := by
  have grown := wf.grown address.keys
  refine ⟨grown.linked.setSlot grown.leads _ _, ?_⟩
  intro ks id h ne
  have stored := wf.get?_insert address value address
  rw [if_pos rfl] at stored
  rcases wf.locate_insert_cases h with old | pre
  · obtain ⟨a, v, pre, held⟩ := wf.supported old ne
    by_cases same : a = address
    · exact ⟨address, value, same ▸ pre, stored⟩
    · refine ⟨a, v, pre, ?_⟩
      rw [wf.get?_insert, if_neg same, held]
  · exact ⟨address, value, pre, stored⟩

/-! ### Removal -/

/-- The numbers of the nodes that some keys lead through from the root, the last one first. -/
inductive Climb (t : Trie ρ) : List Key → List Nat → Prop
  | root : Climb t [] [root]
  | step {ks : List Key} {k : Key} {child parent : Nat} {above : List Nat}
      (at_ : t.locate (ks ++ [k]) = some child) (climb : Climb t ks (parent :: above)) :
      Climb t (ks ++ [k]) (child :: parent :: above)

/-- A climb begins at the node that its keys lead to. -/
lemma Climb.locate {ks : List Key} {id : Nat} {above : List Nat} (climb : Climb t ks (id :: above)) :
    t.locate ks = some id := by
  cases climb with
  | root => rfl
  | step at_ _ => exact at_

/-- A climb stays one as long as its keys lead alike, all or the first of them. -/
lemma Climb.congr {u : Trie ρ} {ks : List Key} {ids : List Nat} (climb : Climb t ks ids)
    (same : ∀ ls, ls <+: ks → u.locate ls = t.locate ls) : Climb u ks ids := by
  induction climb with
  | root => exact .root
  | step at_ _ ih =>
    refine .step ((same _ (List.prefix_refl _)).trans at_) (ih ?_)
    intro ls pre
    exact same ls (pre.trans (List.prefix_append _ _))

/-- A trail from a node on is a climb to all its keys; there is none exactly if the keys lead
nowhere. -/
lemma trail_spec {ks : List Key} {id : Nat} {above : List Nat} (climb : Climb t ks (id :: above))
    (keys : List Key) :
    (∃ last rest, t.trail keys id above = some (last :: rest) ∧
      Climb t (ks ++ keys) (last :: rest)) ∨
    (t.trail keys id above = none ∧ t.locate (ks ++ keys) = none) := by
  induction keys generalizing ks id above with
  | nil => exact .inl ⟨id, above, rfl, by simpa using climb⟩
  | cons key keys ih =>
    have shift : ks ++ key :: keys = (ks ++ [key]) ++ keys := by simp
    rw [shift, trail]
    cases h : t.child? id key with
    | some child => exact ih (.step ((child?_eq_some_iff climb.locate).mp h) climb)
    | none =>
      refine .inr ⟨rfl, ?_⟩
      have nowhere : t.locate (ks ++ [key]) = none := by
        rw [locate_concat, climb.locate, Option.bind_some, h]
      rw [locate] at nowhere
      rw [locate, descend_append, nowhere, Option.bind_none]

/-- A node that is reached and is not vacant has a value at or below it, unless only keys that go on
behind it do. -/
lemma Linked.supports_of_not_isVacant (linked : Linked t) {ks : List Key} {id : Nat}
    (at_ : t.locate ks = some id) (notVacant : ¬(t.node id).isVacant = true)
    (below : ∀ {ls other}, t.locate ls = some other → ls ≠ [] → t.Supports ls ∨ ls <+: ks) :
    t.Supports ks := by
  simp only [Node.isVacant, Bool.and_eq_true, not_and_or] at notVacant
  rcases notVacant with branch | slot
  · rw [Branches.isEmpty_iff (linked.sorted id), Classical.not_forall] at branch
    obtain ⟨k, h⟩ := branch
    obtain ⟨child, h⟩ := Option.ne_none_iff_exists'.mp h
    have reached := (child?_eq_some_iff at_).mp h
    rcases below reached (by simp) with ⟨a, v, pre, held⟩ | pre
    · exact ⟨a, v, (List.prefix_append ks [k]).trans pre, held⟩
    · exact absurd pre.length_le (by simp)
  · rw [Slots.isEmpty_iff, Classical.not_forall] at slot
    obtain ⟨trailing, h⟩ := slot
    obtain ⟨value, h⟩ := Option.ne_none_iff_exists'.mp h
    exact ⟨⟨ks, trailing⟩, value, List.prefix_refl _, (get?_of_locate at_).trans h⟩

/-- What a trie becomes when dead nodes are released. -/
structure Pruned (t u : Trie ρ) : Prop where
  wellFormed : WellFormed u
  get?_eq : ∀ address, u.get? address = t.get? address
  size_eq : u.nodes.size = t.nodes.size
  reached : ∀ {ls id}, u.locate ls = some id → t.locate ls = some id

/-- Pruning along a climb whose nodes alone may be dead makes a linked trie well-formed and changes no
value. -/
lemma Linked.prune (linked : Linked t) {ks : List Key} {ids : List Nat} (climb : Climb t ks ids)
    (below : ∀ {ls other}, t.locate ls = some other → ls ≠ [] → t.Supports ls ∨ ls <+: ks) :
    Pruned t (prune ids t) := by
  induction ids generalizing t ks with
  | nil => cases climb
  | cons id ids ih =>
    cases climb with
    | root =>
      -- the climb is down to the root, which is never dead
      refine ⟨⟨linked, ?_⟩, fun _ => rfl, rfl, fun h => h⟩
      intro ls other h ne
      rcases below h ne with supports | pre
      · exact supports
      · exact absurd (List.prefix_nil.mp pre) ne
    | @step ks k _ parent above at_ climb =>
      rw [Trie.prune]
      split
      · rename_i vacant
        have next := linked.release climb.locate at_ vacant
        have walks := linked.locate_release climb.locate at_ vacant
        have values := linked.get?_release climb.locate at_ vacant
        have climb' : Climb (t.release parent id) ks (parent :: above) := by
          refine climb.congr ?_
          intro ls pre
          rw [walks, if_neg]
          rintro rfl
          exact absurd pre.length_le (by simp)
        have pruned := ih next climb' ?_
        · constructor
          case wellFormed => exact pruned.wellFormed
          case get?_eq => exact fun address => (pruned.get?_eq address).trans (values address)
          case size_eq => exact pruned.size_eq.trans (linked.size_release at_)
          case reached =>
            intro ls other h
            exact (linked.locate_of_release climb.locate at_ vacant (pruned.reached h)).1
        · intro ls other h ne
          obtain ⟨h, apart, -⟩ := linked.locate_of_release climb.locate at_ vacant h
          rcases below h ne with ⟨a, v, pre, held⟩ | pre
          · exact .inl ⟨a, v, pre, (values a).trans held⟩
          · exact .inr ((List.prefix_concat_iff.mp pre).resolve_left apart)
      · rename_i notVacant
        -- the value at or below this node keeps every node above it alive
        refine ⟨⟨linked, ?_⟩, fun _ => rfl, rfl, fun h => h⟩
        obtain ⟨a, v, long, held⟩ := linked.supports_of_not_isVacant at_ notVacant below
        intro ls other h ne
        rcases below h ne with supports | pre
        · exact supports
        · exact ⟨a, v, pre.trans long, held⟩

/-- What a trie becomes when the value of an address is taken away. -/
structure Removed (t : Trie ρ) (address : Address) (u : Trie ρ) : Prop where
  wellFormed : WellFormed u
  get?_eq : ∀ other, u.get? other = if other = address then none else t.get? other
  size_eq : u.nodes.size = t.nodes.size
  reached : ∀ {ls id}, u.locate ls = some id → t.locate ls = some id

/-- To set a slot back and prune the climb to it is to remove its address. -/
lemma Linked.removed (linked : Linked t) {address : Address} {id : Nat}
    (at_ : t.locate address.keys = some id) {next : Trie ρ}
    (pruned : Pruned (t.modify id fun n => n.setSlot address.trailing none) next) :
    t.Removed address next where
  wellFormed := pruned.wellFormed
  get?_eq other := (pruned.get?_eq other).trans (linked.get?_setSlot at_ none other)
  size_eq := pruned.size_eq.trans (size_modify id _)
  reached h := (locate_setSlot (linked.inRange at_) _ _ _).symm.trans (pruned.reached h)

/-- What a removal does: nothing where there is no value, and otherwise it takes the value of one
address away. -/
lemma WellFormed.remove_cases (wf : WellFormed t) (address : Address) :
    (t.get? address = none ∧ t.remove address = (none, t)) ∨
    (∃ value next, t.get? address = some value ∧ t.remove address = (some value, next) ∧
      t.Removed address next) := by
  rcases trail_spec (t := t) .root address.keys with ⟨id, above, trail, climb⟩ | ⟨trail, nowhere⟩
  · rw [List.nil_append] at climb
    have at_ := climb.locate
    rw [get?_of_locate at_, Trie.remove, trail]
    cases h : (t.node id).slots.get address.trailing with
    | none => exact .inl ⟨rfl, by simp [h]⟩
    | some value =>
      have linked := wf.setSlot at_ address.trailing none
      have walks := locate_setSlot (wf.inRange at_) address.trailing (none : Option ρ)
      have values := wf.get?_setSlot at_ none
      have pruned := linked.prune (climb.congr fun ls _ => walks ls) ?_
      · exact .inr ⟨value, _, rfl, by simp [h], wf.removed at_ pruned⟩
      · intro ls other reached ne
        -- a node that only the value that was taken kept alive is on the climb
        rw [walks] at reached
        obtain ⟨a, v, pre, held⟩ := wf.supported reached ne
        by_cases same : a = address
        · exact .inr (same ▸ pre)
        · refine .inl ⟨a, v, pre, ?_⟩
          rw [values, if_neg same, held]
  · rw [List.nil_append] at nowhere
    refine .inl ⟨?_, ?_⟩
    · rw [get?, nowhere, Option.bind_none]
    · simp [Trie.remove, trail]

/-- A removal takes away the value of one address. -/
lemma WellFormed.remove (wf : WellFormed t) (address : Address) :
    t.Removed address (t.remove address).2 := by
  rcases wf.remove_cases address with ⟨missing, same⟩ | ⟨value, next, -, gone, removed⟩
  · rw [same]
    refine ⟨wf, ?_, rfl, fun h => h⟩
    intro other
    split
    · rename_i here
      rw [here, missing]
    · rfl
  · rw [gone]
    exact removed

/-! ### All values -/

/-- The values in the slots of one node are related if those of different slots are. -/
lemma Slots.toList_pairwise {slots : Slots ρ} {R : ρ → ρ → Prop}
    (apart : ∀ s s' v w, s ≠ s' → slots.get s = some v → slots.get s' = some w → R v w) :
    slots.toList.Pairwise R := by
  have single : ∀ o : Option ρ, o.toList.Pairwise R := by
    intro o
    cases o <;> simp
  simp only [Slots.toList, List.pairwise_append, single, true_and, List.mem_append,
    Option.mem_toList]
  refine ⟨fun v hv w hw => apart .no .yes v w (by simp) hv hw, ?_⟩
  rintro v (hv | hv) w hw
  · exact apart .no .indeterminate v w (by simp) hv hw
  · exact apart .yes .indeterminate v w (by simp) hv hw

/-- The node of a number in range is the element of the list of nodes. -/
lemma node_eq_getElem {id : Nat} (h : id < t.nodes.toList.length) :
    t.node id = t.nodes.toList[id] := by
  have inRange : id < t.nodes.size := by simpa using h
  simp [node, inRange]

/-- A value in a slot of some node stands at an address: no node out of use holds any. -/
lemma Linked.get?_of_slot (linked : Linked t) {id : Nat} {trailing : Trailing} {value : ρ}
    (inRange : id < t.nodes.size) (held : (t.node id).slots.get trailing = some value) :
    ∃ ks, t.locate ks = some id ∧ t.get? ⟨ks, trailing⟩ = some value := by
  rcases linked.covered inRange with free | ⟨ks, at_⟩
  · rw [linked.free_blank free, Node.blank, Slots.get_empty] at held
    cases held
  · exact ⟨ks, at_, (get?_of_locate at_).trans held⟩

/-- The values of a trie are those that some address holds. -/
lemma Linked.mem_values_iff (linked : Linked t) {value : ρ} :
    value ∈ t.values ↔ ∃ address, t.get? address = some value := by
  simp only [values, List.mem_flatMap, Slots.mem_toList]
  constructor
  · rintro ⟨n, mem, trailing, held⟩
    obtain ⟨id, inRange, rfl⟩ := List.getElem_of_mem mem
    rw [← node_eq_getElem inRange] at held
    obtain ⟨ks, -, found⟩ := linked.get?_of_slot (by simpa using inRange) held
    exact ⟨⟨ks, trailing⟩, found⟩
  · rintro ⟨address, h⟩
    obtain ⟨id, at_, held⟩ := locate_of_get? h
    have inRange : id < t.nodes.toList.length := by simpa using linked.inRange at_
    rw [node_eq_getElem inRange] at held
    exact ⟨_, List.getElem_mem inRange, address.trailing, held⟩

/-- The values are related if those of different addresses are: every address is listed once. -/
lemma Linked.values_pairwise (linked : Linked t) {R : ρ → ρ → Prop}
    (apart : ∀ a b v w, a ≠ b → t.get? a = some v → t.get? b = some w → R v w) :
    t.values.Pairwise R := by
  rw [values, List.pairwise_flatMap]
  refine ⟨?_, ?_⟩
  · intro n mem
    obtain ⟨id, inRange, rfl⟩ := List.getElem_of_mem mem
    refine Slots.toList_pairwise ?_
    intro s s' v w ne hv hw
    rw [← node_eq_getElem inRange] at hv hw
    obtain ⟨ks, at_, found⟩ := linked.get?_of_slot (by simpa using inRange) hv
    refine apart ⟨ks, s⟩ ⟨ks, s'⟩ v w ?_ found ((get?_of_locate at_).trans hw)
    exact fun e => ne (congrArg Address.trailing e)
  · rw [List.pairwise_iff_getElem]
    -- different nodes are led to by different keys
    intro i j hi hj less v hv w hw
    rw [← node_eq_getElem] at hv hw
    obtain ⟨s, hv⟩ := Slots.mem_toList.mp hv
    obtain ⟨s', hw⟩ := Slots.mem_toList.mp hw
    obtain ⟨ks, ati, found⟩ := linked.get?_of_slot (by simpa using hi) hv
    obtain ⟨ls, atj, found'⟩ := linked.get?_of_slot (by simpa using hj) hw
    refine apart _ _ v w ?_ found found'
    intro e
    have same : ks = ls := congrArg Address.keys e
    subst same
    exact Nat.ne_of_lt less (Option.some.inj (ati.symm.trans atj))

end PathRouting.Trie

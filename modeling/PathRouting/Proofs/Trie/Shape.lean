import Mathlib.Data.List.Induction
import PathRouting.Proofs.Trie.Branches
import PathRouting.Trie.Basic

/-!
# The shape of a trie

The nodes that keys lead to from the root form a tree: `Trie.Linked` says that no node is reached in
two ways, that each records the last key that leads to it and the position of this key, and that the
nodes out of use are blank and are not reached at all. A trie changes in three small steps, and each
keeps it linked: a slot of a node is set (`Linked.setSlot`), a fresh node is put below another one
(`Linked.attach`), or a vacant node is released (`Linked.release`). Each step is described by what it
does to `Trie.locate` and to the slots.
-/

namespace PathRouting.Trie

variable {ρ : Type} {t : Trie ρ}

/-! ### Walks -/

/-- To descend along keys and then along others is to descend along all of them. -/
lemma descend_append (ks ls : List Key) (id : Nat) :
    t.descend (ks ++ ls) id = (t.descend ks id).bind (t.descend ls) := by
  induction ks generalizing id with
  | nil => rfl
  | cons k ks ih =>
    simp only [List.cons_append, descend]
    cases t.child? id k with
    | none => rfl
    | some child => exact ih child

/-- Without keys one stays at the root. -/
@[simp] lemma locate_nil : t.locate [] = some root := rfl

/-- The last key leads from the node of the others to one of its branches. -/
lemma locate_concat (ks : List Key) (k : Key) :
    t.locate (ks ++ [k]) = (t.locate ks).bind fun id => t.child? id k := by
  simp only [locate, descend_append, descend]
  cases t.descend ks root with
  | none => rfl
  | some id => cases h : t.child? id k <;> simp [h]

/-! ### Changes of nodes -/

/-- Changing a node adds none. -/
@[simp]
lemma size_modify (id : Nat) (change : Node ρ → Node ρ) :
    (t.modify id change).nodes.size = t.nodes.size := by
  simp [modify]

/-- A change of a node is a change of this node alone. -/
lemma node_modify {id : Nat} (inRange : id < t.nodes.size) (change : Node ρ → Node ρ) (other : Nat) :
    (t.modify id change).node other = if other = id then change (t.node id) else t.node other := by
  by_cases same : other = id
  · subst same
    simp [node, modify, Array.getElem_modify, inRange]
  · simp [node, modify, Array.getElem?_modify, same, Ne.symm same]

/-- The value of a slot is that of the slot of the node, if there is such a node. -/
lemma value?_eq_some_iff {id : Nat} {trailing : Trailing} {value : ρ} :
    t.value? id trailing = some value ↔ (t.node id).slots.get trailing = some value := by
  unfold value? node
  cases t.nodes[id]? with
  | none => simp [Node.blank]
  | some n => simp

/-- A blank node has no branches. -/
@[simp]
lemma child?_blank {id : Nat} (blank : t.node id = .blank) (k : Key) : t.child? id k = none := by
  simp [child?, blank, Node.blank]

/-! ### Linked tries -/

/-- The nodes that keys lead to form a tree, and all others are out of use. -/
structure Linked (t : Trie ρ) : Prop where
  sorted : ∀ id, (t.node id).branches.Sorted
  inRange : ∀ {ks id}, t.locate ks = some id → id < t.nodes.size
  injective : ∀ {ks ls id}, t.locate ks = some id → t.locate ls = some id → ks = ls
  root_key : (t.node root).key = none
  key : ∀ {ks k id}, t.locate (ks ++ [k]) = some id → (t.node id).key = some k
  position : ∀ {ks k id}, t.locate (ks ++ [k]) = some id → (t.node id).position = ks.length
  free_nodup : t.free.Nodup
  free_lt : ∀ {id}, id ∈ t.free → id < t.nodes.size
  free_blank : ∀ {id}, id ∈ t.free → t.node id = .blank
  free_apart : ∀ {id}, id ∈ t.free → ∀ ks, t.locate ks ≠ some id
  covered : ∀ {id}, id < t.nodes.size → id ∈ t.free ∨ ∃ ks, t.locate ks = some id

/-- All nodes of the empty trie are blank. -/
lemma node_empty (id : Nat) : (empty : Trie ρ).node id = .blank := by
  cases id <;> rfl

/-- In the empty trie nothing but the root is reached. -/
lemma locate_empty_eq_some_iff {ks : List Key} {id : Nat} :
    (empty : Trie ρ).locate ks = some id ↔ ks = [] ∧ id = root := by
  cases ks with
  | nil => simp [eq_comm]
  | cons k ks => simp [locate, descend, child?_blank (node_empty root)]

/-- The empty trie is linked. -/
lemma Linked.empty : Linked (empty : Trie ρ) where
  sorted id := by
    rw [node_empty]
    exact Branches.sorted_empty
  inRange h := by
    rw [(locate_empty_eq_some_iff.mp h).2]
    exact Nat.zero_lt_one
  injective h g := by rw [(locate_empty_eq_some_iff.mp h).1, (locate_empty_eq_some_iff.mp g).1]
  root_key := rfl
  key h := by simp [locate_empty_eq_some_iff] at h
  position h := by simp [locate_empty_eq_some_iff] at h
  free_nodup := List.nodup_nil
  free_lt mem := nomatch mem
  free_blank mem := nomatch mem
  free_apart mem := nomatch mem
  covered h := by
    refine .inr ⟨[], ?_⟩
    rw [Nat.lt_one_iff.mp h]
    rfl

/-- A branch of a node that keys lead to is where one key more leads. -/
lemma child?_eq_some_iff {ks : List Key} {k : Key} {parent id : Nat} (above : t.locate ks = some parent) :
    t.child? parent k = some id ↔ t.locate (ks ++ [k]) = some id := by
  simp [locate_concat, above]

/-- The branches of a node that is reached are the ways one key further. -/
lemma Linked.mem_entries_iff (linked : Linked t) {ks : List Key} {id : Nat}
    (at_ : t.locate ks = some id) {e : Key × Nat} :
    e ∈ (t.node id).branches.entries ↔ t.locate (ks ++ [e.1]) = some e.2 := by
  rw [← child?_eq_some_iff at_]
  exact (Branches.find?_eq_some_iff (linked.sorted id)).symm

/-- Only a node that is reached has branches. -/
lemma Linked.locate_of_mem_entries (linked : Linked t) {id : Nat} {e : Key × Nat}
    (mem : e ∈ (t.node id).branches.entries) : ∃ ks, t.locate ks = some id := by
  have notBlank : t.node id ≠ .blank := by
    intro blank
    rw [blank] at mem
    cases mem
  have inRange : id < t.nodes.size := by
    by_contra beyond
    exact notBlank (by simp [node, Array.getElem?_eq_none (Nat.le_of_not_lt beyond)])
  exact (linked.covered inRange).resolve_left fun free => notBlank (linked.free_blank free)

/-- Two tries that agree on all branches agree on where keys lead. -/
lemma locate_congr {u : Trie ρ} (same : ∀ id k, u.child? id k = t.child? id k) (ks : List Key) :
    u.locate ks = t.locate ks := by
  induction ks using List.reverseRecOn with
  | nil => rfl
  | append_singleton ks k ih => simp only [locate_concat, ih, same]

/-- Where keys lead after one branch of one node changed: only the keys of this branch lead elsewhere,
provided that neither its old node nor its new one has branches. -/
lemma Linked.locate_of_child? (linked : Linked t) {u : Trie ρ} {ks : List Key} {key : Key}
    {parent : Nat} {next : Option Nat} (above : t.locate ks = some parent)
    (same : ∀ {ls id}, t.locate ls = some id → ls ≠ ks ++ [key] → ∀ k,
      u.child? id k = if id = parent ∧ k = key then next else t.child? id k)
    (oldBare : ∀ {id}, t.locate (ks ++ [key]) = some id → ∀ k, t.child? id k = none)
    (newBare : ∀ {id}, next = some id → ∀ k, u.child? id k = none) (ls : List Key) :
    u.locate ls = if ls = ks ++ [key] then next else t.locate ls := by
  induction ls using List.reverseRecOn with
  | nil => simp
  | append_singleton ls k ih =>
    rw [locate_concat, ih]
    by_cases through : ls = ks ++ [key]
    · -- the branch itself leads on to nothing, neither before nor after
      have longer : ls ++ [k] ≠ ks ++ [key] := by
        intro e
        have := congrArg List.length e
        simp [through] at this
      rw [if_pos through, if_neg longer, locate_concat, through]
      have before : (t.locate (ks ++ [key])).bind (fun id => t.child? id k) = none := by
        cases h : t.locate (ks ++ [key]) with
        | none => rfl
        | some id => exact oldBare h k
      rw [before]
      cases h : next with
      | none => rfl
      | some id => exact newBare h k
    · rw [if_neg through]
      cases h : t.locate ls with
      | none =>
        have apart : ls ++ [k] ≠ ks ++ [key] := by
          intro e
          rw [(List.append_inj' e rfl).1, above] at h
          cases h
        rw [if_neg apart, locate_concat, h]
        rfl
      | some id =>
        have atParent : id = parent ∧ k = key ↔ ls ++ [k] = ks ++ [key] := by
          constructor
          · rintro ⟨rfl, rfl⟩
            rw [linked.injective h above]
          · intro e
            obtain ⟨rfl, last⟩ := List.append_inj' e rfl
            rw [above] at h
            exact ⟨(Option.some.inj h).symm, by simpa using last⟩
        simp only [Option.bind_some, same h through, atParent, locate_concat, h]

/-! ### Setting a slot -/

/-- Setting a slot leaves the branches of all nodes alone. -/
lemma child?_setSlot {id : Nat} (inRange : id < t.nodes.size) (trailing : Trailing)
    (value : Option ρ) (other : Nat) (k : Key) :
    (t.modify id fun n => n.setSlot trailing value).child? other k = t.child? other k := by
  unfold child?
  rw [node_modify inRange]
  split
  · rename_i same
    rw [same]
    rfl
  · rfl

/-- Setting a slot changes nothing about where keys lead. -/
lemma locate_setSlot {id : Nat} (inRange : id < t.nodes.size) (trailing : Trailing)
    (value : Option ρ) (ks : List Key) :
    (t.modify id fun n => n.setSlot trailing value).locate ks = t.locate ks :=
  locate_congr (child?_setSlot inRange trailing value) ks

/-- Setting a slot keeps a trie linked. -/
lemma Linked.setSlot (linked : Linked t) {ks : List Key} {id : Nat} (at_ : t.locate ks = some id)
    (trailing : Trailing) (value : Option ρ) :
    Linked (t.modify id fun n => n.setSlot trailing value) := by
  have inRange := linked.inRange at_
  have eq := node_modify (t := t) inRange fun n => n.setSlot trailing value
  have kept : ∀ other, ((t.modify id fun n => n.setSlot trailing value).node other).branches =
      (t.node other).branches ∧
      ((t.modify id fun n => n.setSlot trailing value).node other).key = (t.node other).key ∧
      ((t.modify id fun n => n.setSlot trailing value).node other).position =
        (t.node other).position := by
    intro other
    rw [eq]
    split
    · rename_i same
      rw [same]
      exact ⟨rfl, rfl, rfl⟩
    · exact ⟨rfl, rfl, rfl⟩
  have walks := locate_setSlot (t := t) inRange trailing value
  constructor
  case sorted =>
    intro other
    rw [(kept other).1]
    exact linked.sorted other
  case inRange =>
    intro ls other h
    rw [walks] at h
    simpa using linked.inRange h
  case injective =>
    intro ls ms other h g
    rw [walks] at h g
    exact linked.injective h g
  case root_key =>
    rw [(kept root).2.1]
    exact linked.root_key
  case key =>
    intro ls k other h
    rw [walks] at h
    rw [(kept other).2.1]
    exact linked.key h
  case position =>
    intro ls k other h
    rw [walks] at h
    rw [(kept other).2.2]
    exact linked.position h
  case free_nodup => exact linked.free_nodup
  case free_lt =>
    intro other mem
    simpa using linked.free_lt mem
  case free_blank =>
    intro other mem
    have apart : other ≠ id := fun e => linked.free_apart mem ks (e ▸ at_)
    rw [eq, if_neg apart]
    exact linked.free_blank mem
  case free_apart =>
    intro other mem ls
    rw [walks]
    exact linked.free_apart mem ls
  case covered =>
    intro other h
    simp only [walks]
    exact linked.covered (by simpa using h)

/-! ### Attaching a node -/

/-- A node is put where no other was: at a number out of use, or behind all others. -/
lemma Linked.node_allocate (linked : Linked t) (n : Node ρ) (other : Nat) :
    (t.allocate n).2.node other = if other = (t.allocate n).1 then n else t.node other := by
  unfold allocate
  split
  · rename_i id free eq
    have inRange : id < t.nodes.size := linked.free_lt (by simp [eq])
    by_cases same : other = id
    · simp [node, same, inRange]
    · simp [node, same, Array.getElem?_setIfInBounds_ne (Ne.symm same)]
  · by_cases same : other = t.nodes.size
    · simp [node, same]
    · simp [node, same, Array.getElem?_push]

/-- The number that is given out is one that no keys lead to. -/
lemma Linked.locate_ne_allocate (linked : Linked t) (n : Node ρ) (ks : List Key) :
    t.locate ks ≠ some (t.allocate n).1 := by
  unfold allocate
  split
  · rename_i id free eq
    exact linked.free_apart (by simp [eq]) ks
  · intro h
    exact Nat.lt_irrefl _ (linked.inRange h)

/-- After a number was given out, it and the earlier ones have nodes. -/
lemma Linked.lt_size_allocate_iff (linked : Linked t) (n : Node ρ) (other : Nat) :
    other < (t.allocate n).2.nodes.size ↔ other < t.nodes.size ∨ other = (t.allocate n).1 := by
  unfold allocate
  split
  · rename_i id free eq
    have inRange : id < t.nodes.size := linked.free_lt (by simp [eq])
    simp only [Array.size_setIfInBounds]
    omega
  · simp only [Array.size_push]
    omega

/-- A number that was given out is no longer free. -/
lemma Linked.mem_free_allocate_iff (linked : Linked t) (n : Node ρ) (other : Nat) :
    other ∈ (t.allocate n).2.free ↔ other ∈ t.free ∧ other ≠ (t.allocate n).1 := by
  have nodup := linked.free_nodup
  unfold allocate
  split
  · rename_i id free eq
    rw [eq, List.nodup_cons] at nodup
    simp only [eq, List.mem_cons]
    constructor
    · intro mem
      exact ⟨.inr mem, fun e => nodup.1 (e ▸ mem)⟩
    · rintro ⟨rfl | mem, ne⟩
      · exact absurd rfl ne
      · exact mem
  · rename_i eq
    simp [eq]

/-- The numbers that stay free are still different. -/
lemma Linked.nodup_free_allocate (linked : Linked t) (n : Node ρ) :
    (t.allocate n).2.free.Nodup := by
  have nodup := linked.free_nodup
  unfold allocate
  split
  · rename_i id free eq
    rw [eq, List.nodup_cons] at nodup
    exact nodup.2
  · exact nodup

section

variable {ks : List Key} {parent : Nat} {key : Key} {position : Nat}

/-- No keys lead to the new node before it is attached. -/
lemma Linked.locate_ne_attach (linked : Linked t) (ls : List Key) :
    t.locate ls ≠ some (t.attach parent key position).1 :=
  linked.locate_ne_allocate _ ls

/-- Putting a fresh node below another one changes these two nodes alone. -/
lemma Linked.node_attach (linked : Linked t) (above : t.locate ks = some parent) (id : Nat) :
    (t.attach parent key position).2.node id =
      if id = (t.attach parent key position).1 then .fresh key position
      else if id = parent then (t.node parent).link key (t.attach parent key position).1
      else t.node id := by
  have parentNe : parent ≠ (t.attach parent key position).1 := by
    intro e
    exact linked.locate_ne_attach ks (above.trans (congrArg some e))
  have parentRange : parent < (t.allocate (.fresh key position)).2.nodes.size :=
    (linked.lt_size_allocate_iff _ parent).mpr (.inl (linked.inRange above))
  have placed : ∀ other, (t.allocate (.fresh key position)).2.node other =
      if other = (t.attach parent key position).1 then .fresh key position else t.node other :=
    linked.node_allocate _
  have changed : (t.attach parent key position).2.node id =
      if id = parent then
        ((t.allocate (.fresh key position)).2.node parent).link key
          (t.attach parent key position).1
      else (t.allocate (.fresh key position)).2.node id :=
    node_modify parentRange _ id
  rw [changed, placed, placed, if_neg parentNe]
  by_cases isParent : id = parent
  · rw [if_pos isParent, isParent, if_neg parentNe, if_pos rfl]
  · rw [if_neg isParent, if_neg isParent]

/-- The new node has no branches, and it is the only new branch. -/
lemma Linked.child?_attach (linked : Linked t) (above : t.locate ks = some parent)
    (missing : t.child? parent key = none) (id : Nat) (k : Key) :
    (t.attach parent key position).2.child? id k =
      if id = (t.attach parent key position).1 then none
      else if id = parent ∧ k = key then some (t.attach parent key position).1
      else t.child? id k := by
  unfold child?
  rw [linked.node_attach above]
  by_cases isNew : id = (t.attach parent key position).1
  · rw [if_pos isNew, if_pos isNew]
    exact Branches.find?_empty k
  · rw [if_neg isNew, if_neg isNew]
    by_cases isParent : id = parent
    · rw [if_pos isParent, isParent, Node.link, Branches.find?_access (linked.sorted parent)]
      rw [show (t.node parent).branches.find? key = none from missing]
      simp
    · simp [isParent]

/-- The new keys lead to the new node, and all others lead where they did. -/
lemma Linked.locate_attach (linked : Linked t) (above : t.locate ks = some parent)
    (missing : t.child? parent key = none) (ls : List Key) :
    (t.attach parent key position).2.locate ls =
      if ls = ks ++ [key] then some (t.attach parent key position).1 else t.locate ls := by
  refine linked.locate_of_child? above ?_ ?_ ?_ ls
  · intro ls id h _ k
    have isOld : id ≠ (t.attach parent key position).1 := by
      intro e
      exact linked.locate_ne_attach ls (h.trans (congrArg some e))
    rw [linked.child?_attach above missing, if_neg isOld]
  · intro id h
    rw [locate_concat, above, Option.bind_some, missing] at h
    cases h
  · intro id h k
    rw [linked.child?_attach above missing, if_pos (Option.some.inj h).symm]

/-- What keys lead to afterwards is the new node, or a node that they led to before. -/
lemma Linked.locate_attach_cases (linked : Linked t) (above : t.locate ks = some parent)
    (missing : t.child? parent key = none) {ls : List Key} {id : Nat}
    (h : (t.attach parent key position).2.locate ls = some id) :
    (ls = ks ++ [key] ∧ id = (t.attach parent key position).1) ∨
      (t.locate ls = some id ∧ id ≠ (t.attach parent key position).1) := by
  rw [linked.locate_attach above missing] at h
  split at h
  · rename_i same
    exact .inl ⟨same, (Option.some.inj h).symm⟩
  · refine .inr ⟨h, fun e => ?_⟩
    exact linked.locate_ne_attach ls (h.trans (congrArg some e))

/-- An old node keeps its key, its position and its slots. -/
lemma Linked.node_attach_of_ne (linked : Linked t) (above : t.locate ks = some parent) {id : Nat}
    (isOld : id ≠ (t.attach parent key position).1) :
    ((t.attach parent key position).2.node id).key = (t.node id).key ∧
      ((t.attach parent key position).2.node id).position = (t.node id).position ∧
      ((t.attach parent key position).2.node id).slots = (t.node id).slots := by
  rw [linked.node_attach above, if_neg isOld]
  split
  · rename_i isParent
    rw [isParent]
    exact ⟨rfl, rfl, rfl⟩
  · exact ⟨rfl, rfl, rfl⟩

/-- The new node is fresh. -/
lemma Linked.node_attach_self (linked : Linked t) (above : t.locate ks = some parent) :
    (t.attach parent key position).2.node (t.attach parent key position).1 =
      .fresh key position := by
  rw [linked.node_attach above, if_pos rfl]

/-- Putting a fresh node below another one keeps a trie linked. -/
lemma Linked.attach (linked : Linked t) (above : t.locate ks = some parent)
    (missing : t.child? parent key = none) :
    Linked (t.attach parent key ks.length).2 := by
  have cases_ : ∀ {ls id}, (t.attach parent key ks.length).2.locate ls = some id →
      (ls = ks ++ [key] ∧ id = (t.attach parent key ks.length).1) ∨
        (t.locate ls = some id ∧ id ≠ (t.attach parent key ks.length).1) :=
    linked.locate_attach_cases above missing
  have size_iff : ∀ id, id < (t.attach parent key ks.length).2.nodes.size ↔
      id < t.nodes.size ∨ id = (t.attach parent key ks.length).1 := by
    intro id
    simpa [Trie.attach] using linked.lt_size_allocate_iff (.fresh key ks.length) id
  have free_iff : ∀ id, id ∈ (t.attach parent key ks.length).2.free ↔
      id ∈ t.free ∧ id ≠ (t.attach parent key ks.length).1 :=
    linked.mem_free_allocate_iff _
  constructor
  -- the new node has no branches, the parent has one more, and the others are as they were
  case sorted =>
    intro id
    rw [linked.node_attach above]
    split
    · exact Branches.sorted_empty
    · split
      · exact (linked.sorted parent).access ..
      · exact linked.sorted id
  case inRange =>
    intro ls id h
    rw [size_iff]
    rcases cases_ h with ⟨-, isNew⟩ | ⟨h, -⟩
    · exact .inr isNew
    · exact .inl (linked.inRange h)
  case injective =>
    intro ls ms id h g
    rcases cases_ h with ⟨rfl, isNew⟩ | ⟨h, isOld⟩ <;> rcases cases_ g with ⟨rfl, isNew'⟩ | ⟨g, isOld'⟩
    · rfl
    · exact absurd isNew isOld'
    · exact absurd isNew' isOld
    · exact linked.injective h g
  case root_key =>
    have isOld : root ≠ (t.attach parent key ks.length).1 := fun e =>
      linked.locate_ne_attach [] (congrArg some e)
    rw [(linked.node_attach_of_ne above isOld).1]
    exact linked.root_key
  case key =>
    intro ls k id h
    rcases cases_ h with ⟨same, rfl⟩ | ⟨h, isOld⟩
    · rw [linked.node_attach_self above]
      have last := (List.append_inj' same rfl).2
      rw [(List.singleton_inj.mp last : k = key)]
      rfl
    · rw [(linked.node_attach_of_ne above isOld).1]
      exact linked.key h
  case position =>
    intro ls k id h
    rcases cases_ h with ⟨same, rfl⟩ | ⟨h, isOld⟩
    · rw [linked.node_attach_self above, (List.append_inj' same rfl).1]
      rfl
    · rw [(linked.node_attach_of_ne above isOld).2.1]
      exact linked.position h
  case free_nodup => exact linked.nodup_free_allocate _
  case free_lt =>
    intro id mem
    rw [size_iff]
    exact .inl (linked.free_lt ((free_iff id).mp mem).1)
  case free_blank =>
    intro id mem
    obtain ⟨wasFree, isOld⟩ := (free_iff id).mp mem
    have notParent : id ≠ parent := fun e => linked.free_apart wasFree ks (e ▸ above)
    rw [linked.node_attach above, if_neg isOld, if_neg notParent]
    exact linked.free_blank wasFree
  case free_apart =>
    intro id mem ls h
    obtain ⟨wasFree, isOld⟩ := (free_iff id).mp mem
    rcases cases_ h with ⟨-, isNew⟩ | ⟨h, -⟩
    · exact isOld isNew
    · exact linked.free_apart wasFree ls h
  case covered =>
    intro id h
    by_cases isNew : id = (t.attach parent key ks.length).1
    · refine .inr ⟨ks ++ [key], ?_⟩
      rw [linked.locate_attach above missing, if_pos rfl, isNew]
    · rcases linked.covered (((size_iff id).mp h).resolve_right isNew) with mem | ⟨ls, h⟩
      · exact .inl ((free_iff id).mpr ⟨mem, isNew⟩)
      · refine .inr ⟨ls, ?_⟩
        have apart : ls ≠ ks ++ [key] := by
          rintro rfl
          rw [locate_concat, above, Option.bind_some, missing] at h
          cases h
        rw [linked.locate_attach above missing, if_neg apart, h]

end

/-! ### Releasing a node -/

/-- A vacant node has no branches and holds nothing. -/
lemma Linked.of_isVacant (linked : Linked t) {id : Nat} (vacant : (t.node id).isVacant = true) :
    (∀ k, t.child? id k = none) ∧ ∀ trailing, (t.node id).slots.get trailing = none := by
  simp only [Node.isVacant, Bool.and_eq_true] at vacant
  obtain ⟨noBranch, noValue⟩ := vacant
  exact ⟨(Branches.isEmpty_iff (linked.sorted id)).mp noBranch, Slots.isEmpty_iff.mp noValue⟩

section

variable {ks : List Key} {parent child : Nat} {key : Key}

/-- A node is not below itself. -/
lemma Linked.parent_ne_child (linked : Linked t) (above : t.locate ks = some parent)
    (at_ : t.locate (ks ++ [key]) = some child) : parent ≠ child := by
  rintro rfl
  have := congrArg List.length (linked.injective above at_)
  simp at this

/-- A release blanks the node, drops the branch to it and changes no other node. -/
lemma Linked.node_release (linked : Linked t) (above : t.locate ks = some parent)
    (at_ : t.locate (ks ++ [key]) = some child) (id : Nat) :
    (t.release parent child).node id =
      if id = child then .blank
      else if id = parent then (t.node parent).unlink key
      else t.node id := by
  have ne := linked.parent_ne_child above at_
  have blanked := node_modify (t := t) (linked.inRange at_) fun _ => .blank
  have parentRange : parent < (t.modify child fun _ => .blank).nodes.size := by
    simpa using linked.inRange above
  have changed : (t.release parent child).node id =
      if id = parent then ((t.modify child fun _ => .blank).node parent).unlink key
      else (t.modify child fun _ => .blank).node id := by
    rw [release, linked.key at_]
    exact node_modify parentRange _ id
  rw [changed, blanked, blanked, if_neg ne]
  by_cases isParent : id = parent
  · rw [if_pos isParent, isParent, if_neg ne, if_pos rfl]
  · rw [if_neg isParent, if_neg isParent]

/-- Releasing a node drops none. -/
lemma Linked.size_release (linked : Linked t) (at_ : t.locate (ks ++ [key]) = some child) :
    (t.release parent child).nodes.size = t.nodes.size := by
  rw [release, linked.key at_]
  simp

/-- The released number is the first to be given out again. -/
lemma Linked.free_release (linked : Linked t) (at_ : t.locate (ks ++ [key]) = some child) :
    (t.release parent child).free = child :: t.free := by
  rw [release, linked.key at_]
  rfl

/-- A released node has no branches, and the branch to it is gone. -/
lemma Linked.child?_release (linked : Linked t) (above : t.locate ks = some parent)
    (at_ : t.locate (ks ++ [key]) = some child) (id : Nat) (k : Key) :
    (t.release parent child).child? id k =
      if id = child then none
      else if id = parent ∧ k = key then none
      else t.child? id k := by
  unfold child?
  rw [linked.node_release above at_]
  by_cases isChild : id = child
  · rw [if_pos isChild, if_pos isChild]
    exact Branches.find?_empty k
  · rw [if_neg isChild, if_neg isChild]
    by_cases isParent : id = parent
    · rw [if_pos isParent, isParent, Node.unlink, Branches.find?_remove (linked.sorted parent)]
      simp
    · simp [isParent]

/-- The keys of the node lead nowhere, and all others lead where they did. -/
lemma Linked.locate_release (linked : Linked t) (above : t.locate ks = some parent)
    (at_ : t.locate (ks ++ [key]) = some child) (vacant : (t.node child).isVacant = true)
    (ls : List Key) :
    (t.release parent child).locate ls = if ls = ks ++ [key] then none else t.locate ls := by
  refine linked.locate_of_child? above ?_ ?_ ?_ ls
  · intro ls id h apart k
    have isOther : id ≠ child := by
      rintro rfl
      exact apart (linked.injective h at_)
    rw [linked.child?_release above at_, if_neg isOther]
  · intro id h
    rw [at_] at h
    rw [← Option.some.inj h]
    exact (linked.of_isVacant vacant).1
  · intro id h
    cases h

/-- Keys that still lead somewhere lead where they did, and not to the released node. -/
lemma Linked.locate_of_release (linked : Linked t) (above : t.locate ks = some parent)
    (at_ : t.locate (ks ++ [key]) = some child) (vacant : (t.node child).isVacant = true)
    {ls : List Key} {id : Nat} (h : (t.release parent child).locate ls = some id) :
    t.locate ls = some id ∧ ls ≠ ks ++ [key] ∧ id ≠ child := by
  rw [linked.locate_release above at_ vacant] at h
  split at h
  · cases h
  · rename_i apart
    refine ⟨h, apart, ?_⟩
    rintro rfl
    exact apart (linked.injective h at_)

/-- The other nodes keep their key, their position and their slots. -/
lemma Linked.node_release_of_ne (linked : Linked t) (above : t.locate ks = some parent)
    (at_ : t.locate (ks ++ [key]) = some child) {id : Nat} (isOther : id ≠ child) :
    ((t.release parent child).node id).key = (t.node id).key ∧
      ((t.release parent child).node id).position = (t.node id).position ∧
      ((t.release parent child).node id).slots = (t.node id).slots := by
  rw [linked.node_release above at_, if_neg isOther]
  split
  · rename_i isParent
    rw [isParent]
    exact ⟨rfl, rfl, rfl⟩
  · exact ⟨rfl, rfl, rfl⟩

/-- Releasing a vacant node keeps a trie linked. -/
lemma Linked.release (linked : Linked t) (above : t.locate ks = some parent)
    (at_ : t.locate (ks ++ [key]) = some child) (vacant : (t.node child).isVacant = true) :
    Linked (t.release parent child) := by
  have before : ∀ {ls id}, (t.release parent child).locate ls = some id →
      t.locate ls = some id ∧ ls ≠ ks ++ [key] ∧ id ≠ child :=
    linked.locate_of_release above at_ vacant
  have size : (t.release parent child).nodes.size = t.nodes.size := linked.size_release at_
  have free : (t.release parent child).free = child :: t.free := linked.free_release at_
  constructor
  case sorted =>
    intro id
    rw [linked.node_release above at_]
    split
    · exact Branches.sorted_empty
    · split
      · exact (linked.sorted parent).remove key
      · exact linked.sorted id
  case inRange =>
    intro ls id h
    rw [size]
    exact linked.inRange (before h).1
  case injective =>
    intro ls ms id h g
    exact linked.injective (before h).1 (before g).1
  case root_key =>
    have isOther : root ≠ child := by
      rintro rfl
      have := linked.injective (locate_nil (t := t)) at_
      simp at this
    rw [(linked.node_release_of_ne above at_ isOther).1]
    exact linked.root_key
  case key =>
    intro ls k id h
    obtain ⟨h, -, isOther⟩ := before h
    rw [(linked.node_release_of_ne above at_ isOther).1]
    exact linked.key h
  case position =>
    intro ls k id h
    obtain ⟨h, -, isOther⟩ := before h
    rw [(linked.node_release_of_ne above at_ isOther).2.1]
    exact linked.position h
  case free_nodup =>
    rw [free, List.nodup_cons]
    exact ⟨fun mem => linked.free_apart mem _ at_, linked.free_nodup⟩
  case free_lt =>
    intro id mem
    rw [size]
    rw [free, List.mem_cons] at mem
    rcases mem with rfl | mem
    · exact linked.inRange at_
    · exact linked.free_lt mem
  -- the released node is at the front of the list and blank; the others there are untouched
  case free_blank =>
    intro id mem
    rw [linked.node_release above at_]
    rw [free, List.mem_cons] at mem
    rcases mem with rfl | mem
    · rw [if_pos rfl]
    · have notParent : id ≠ parent := fun e => linked.free_apart mem ks (e ▸ above)
      rw [if_neg notParent, linked.free_blank mem, ite_self]
  case free_apart =>
    intro id mem ls h
    obtain ⟨h, -, isOther⟩ := before h
    rw [free, List.mem_cons] at mem
    exact linked.free_apart (mem.resolve_left isOther) ls h
  case covered =>
    intro id h
    rw [size] at h
    rw [free, List.mem_cons]
    by_cases isChild : id = child
    · exact .inl (.inl isChild)
    · rcases linked.covered h with mem | ⟨ls, h⟩
      · exact .inl (.inr mem)
      · refine .inr ⟨ls, ?_⟩
        have apart : ls ≠ ks ++ [key] := by
          rintro rfl
          exact isChild (Option.some.inj (h.symm.trans at_))
        rw [linked.locate_release above at_ vacant, if_neg apart, h]

end

end PathRouting.Trie

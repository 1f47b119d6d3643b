import PathRouting.Trie.Branches
import PathRouting.Trie.Slots

/-!
# Tries

A trie holds values at addresses. Its nodes stand in an array and refer to each other by their numbers;
the root has the number zero. The keys of an address lead from the root to a node, and its mark picks a
slot there. Every node records the key that leads to it and the position, in each pattern that passes
through it, of the segment with that key.

`Trie.insert` makes the nodes that are missing. `Trie.remove` unlinks the nodes that are left without a
value at or below them (`Trie.prune`); their numbers wait on a list, the latest first, and are given out
again before the array grows (`Trie.allocate`).
-/

namespace PathRouting

/-- A node of a trie. -/
structure Node (ρ : Type) where
  /-- The key that leads to the node; none leads to the root. -/
  key : Option Key
  /-- The position of the segment that leads to the node. -/
  position : Nat
  /-- The numbers of the nodes below. -/
  branches : Branches Nat
  slots : Slots ρ

namespace Node

variable {ρ : Type}

/-- A node that no key leads to and that holds nothing. -/
def blank : Node ρ := ⟨none, 0, .empty, .empty⟩

/-- A node that a key leads to and that holds nothing yet. -/
def fresh (key : Key) (position : Nat) : Node ρ := ⟨some key, position, .empty, .empty⟩

/-- Whether a greedy key leads to the node. -/
def isGreedy (n : Node ρ) : Bool := n.key.any Key.isGreedy

/-- Whether the node has neither a value nor a branch. -/
def isVacant (n : Node ρ) : Bool := n.branches.isEmpty && n.slots.isEmpty

/-- Gives a slot of the node a value, or takes its value away. -/
def setSlot (n : Node ρ) (trailing : Trailing) (value : Option ρ) : Node ρ :=
  { n with slots := n.slots.set trailing value }

/-- Leads a key to another node, unless it leads to one already. -/
def link (n : Node ρ) (key : Key) (child : Nat) : Node ρ :=
  { n with branches := n.branches.access key (key, child) id }

/-- Takes the branch of a key away. -/
def unlink (n : Node ρ) (key : Key) : Node ρ := { n with branches := (n.branches.remove key).2 }

end Node

/-- Nodes, and the numbers of those that are out of use. -/
structure Trie (ρ : Type) where
  nodes : Array (Node ρ)
  /-- The numbers to give out again, the next one first. -/
  free : List Nat

namespace Trie

variable {ρ : Type}

/-- The number of the root. -/
def root : Nat := 0

/-- The trie without values. -/
def empty : Trie ρ := ⟨#[.blank], []⟩

/-- The node of a number; a number that is out of range has a blank one. -/
def node (t : Trie ρ) (id : Nat) : Node ρ := t.nodes[id]?.getD .blank

/-- The value in a slot of a node, if there are such a node and value. -/
def value? (t : Trie ρ) (id : Nat) (trailing : Trailing) : Option ρ :=
  t.nodes[id]?.bind fun n => n.slots.get trailing

/-- Changes the node of a number. -/
def modify (t : Trie ρ) (id : Nat) (change : Node ρ → Node ρ) : Trie ρ :=
  { t with nodes := t.nodes.modify id change }

/-- The number of the node below a node that a key leads to. -/
def child? (t : Trie ρ) (id : Nat) (key : Key) : Option Nat := (t.node id).branches.find? key

/-- The number of the node that some keys lead to from a node. -/
def descend (t : Trie ρ) : List Key → Nat → Option Nat
  | [], id => some id
  | key :: keys, id => (t.child? id key).bind (descend t keys)

/-- The number of the node that some keys lead to from the root. -/
def locate (t : Trie ρ) (keys : List Key) : Option Nat := t.descend keys root

/-- The numbers of the nodes that some keys lead through from a node on, the last one first, in front of
those above the node. -/
def trail (t : Trie ρ) : List Key → Nat → List Nat → Option (List Nat)
  | [], id, above => some (id :: above)
  | key :: keys, id, above => (t.child? id key).bind fun child => trail t keys child (id :: above)

/-- The value at an address. -/
def get? (t : Trie ρ) (address : Address) : Option ρ :=
  (t.locate address.keys).bind fun id => (t.node id).slots.get address.trailing

/-- Puts a node where a number is out of use, or else behind all others; returns its number. -/
def allocate (t : Trie ρ) (node : Node ρ) : Nat × Trie ρ :=
  match t.free with
  | id :: free => (id, ⟨t.nodes.setIfInBounds id node, free⟩)
  | [] => (t.nodes.size, { t with nodes := t.nodes.push node })

/-- Puts a fresh node below another one, and returns its number. -/
def attach (t : Trie ρ) (parent : Nat) (key : Key) (position : Nat) : Nat × Trie ρ :=
  let (child, t) := t.allocate (.fresh key position)
  (child, t.modify parent fun n => n.link key child)

/-- Makes the nodes that are missing where some keys lead from a node; `depth` is the position of the
first key. Returns the number of the last node. -/
def grow : List Key → Nat → Nat → Trie ρ → Nat × Trie ρ
  | [], _, id, t => (id, t)
  | key :: keys, depth, id, t =>
    match t.child? id key with
    | some child => grow keys (depth + 1) child t
    | none =>
      let (child, t) := t.attach id key depth
      grow keys (depth + 1) child t

/-- Stores a value at an address, and returns the one that it replaces. -/
def insert (t : Trie ρ) (address : Address) (value : ρ) : Option ρ × Trie ρ :=
  let (id, t) := t.grow address.keys 0 root
  ((t.node id).slots.get address.trailing,
    t.modify id fun n => n.setSlot address.trailing (some value))

/-- Takes a node out of use and drops the branch that leads to it. -/
def release (t : Trie ρ) (parent child : Nat) : Trie ρ :=
  let node := t.node child
  let blanked := t.modify child fun _ => .blank
  let unlinked :=
    match node.key with
    | some key => blanked.modify parent fun n => n.unlink key
    | none => blanked
  { unlinked with free := child :: unlinked.free }

/-- Releases the nodes of a trail, the last one first, up to the first that is not vacant. The node that
the trail begins with is never released. -/
def prune : List Nat → Trie ρ → Trie ρ
  | child :: parent :: above, t =>
    if (t.node child).isVacant then prune (parent :: above) (t.release parent child) else t
  | _, t => t

/-- Takes the value at an address away, and returns it. -/
def remove (t : Trie ρ) (address : Address) : Option ρ × Trie ρ :=
  match t.trail address.keys root [] with
  | none => (none, t)
  | some [] => (none, t)
  | some (id :: above) =>
    match (t.node id).slots.get address.trailing with
    | none => (none, t)
    | some value =>
      (some value, prune (id :: above) (t.modify id fun n => n.setSlot address.trailing none))

/-- All values, in the order of the nodes and then of the slots. -/
def values (t : Trie ρ) : List ρ := t.nodes.toList.flatMap fun n => n.slots.toList

/-- The trie without values has no values. -/
@[simp] theorem values_empty : (empty : Trie ρ).values = [] := rfl

end Trie

end PathRouting

import PathRouting.Pattern.Address

/-!
# Branches

The branches that leave a node of a trie: a finite map from keys, kept as a list in ascending order of
the keys. Literal keys come first, by their text, then the named key and the greedy key. A key is
looked for by halving the list (`Branches.seek`), so the answers are right only as long as the keys
ascend (`Branches.Sorted`).
-/

namespace PathRouting

/-- A list of keys with their values. -/
structure Branches (β : Type) where
  entries : List (Key × β)

/-- What a search for a key comes to. -/
inductive Spot where
  /-- The key stands at the index. -/
  | taken (index : Nat)
  /-- The key is missing, and belongs at the index. -/
  | vacant (index : Nat)
  deriving DecidableEq, Repr

namespace Branches

variable {β : Type}

/-- No branches at all. -/
def empty : Branches β := ⟨[]⟩

/-- Whether there are no branches. -/
def isEmpty (b : Branches β) : Bool := b.entries.isEmpty

/-- The values in the order of their keys. -/
def values (b : Branches β) : List β := b.entries.map Prod.snd

/-- Looks for a key from the index `low` on and below the index `high`, by halving. -/
def seekBetween (key : Key) (entries : List (Key × β)) (low high : Nat)
    (bound : high ≤ entries.length) : Spot :=
  if inside : low < high then
    let middle := low + (high - low) / 2
    match compare entries[middle].1 key with
    | .eq => .taken middle
    | .lt => seekBetween key entries (middle + 1) high bound
    | .gt => seekBetween key entries low middle (by omega)
  else .vacant low
termination_by high - low

/-- Looks for a key among all entries. -/
def seek (b : Branches β) (key : Key) : Spot :=
  seekBetween key b.entries 0 b.entries.length (Nat.le_refl _)

/-- The value of a key. -/
def find? (b : Branches β) (key : Key) : Option β :=
  match b.seek key with
  | .taken index => b.entries[index]?.map Prod.snd
  | .vacant _ => none

/-- Uses the value of a key in place; a key that is missing takes the new entry first. -/
def access (b : Branches β) (key : Key) (entry : Key × β) (use : β → β) : Branches β :=
  match b.seek key with
  | .taken index => ⟨b.entries.modify index fun e => (e.1, use e.2)⟩
  | .vacant index => ⟨b.entries.insertIdx index (entry.1, use entry.2)⟩

/-- Takes a key away, and returns its value. -/
def remove (b : Branches β) (key : Key) : Option β × Branches β :=
  match b.seek key with
  | .taken index => (b.entries[index]?.map Prod.snd, ⟨b.entries.eraseIdx index⟩)
  | .vacant _ => (none, b)

/-- The keys ascend strictly. -/
def Sorted (b : Branches β) : Prop := b.entries.Pairwise fun e f => compare e.1 f.1 = .lt

/-- Where there are no branches, no key has a value. -/
@[simp] theorem find?_empty (key : Key) : (empty : Branches β).find? key = none := by
  simp [find?, seek, seekBetween, empty]

/-- The keys of no branches ascend. -/
theorem sorted_empty : (empty : Branches β).Sorted := List.Pairwise.nil

end Branches

end PathRouting

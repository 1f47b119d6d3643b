import PathRouting.Proofs.Router.Reachable
import PathRouting.Publisher.Use

/-!
# What a use does to the snapshots

A use of a publisher does one of two things to its snapshots: it puts a new one behind them
(`Session.publication?`, `Session.use_of_publication?`), or it looks something up in one of them at most
(`Session.target?`, `Session.snapshot?_use_of_none`).
-/

namespace PathRouting.Publisher

variable {α : Type}

/-! ### Reading -/

section Reading

variable (p : Publisher α) (router : Router α)

/-- The snapshots are numbered from zero up to the published one. -/
lemma length_snapshots : p.snapshots.length = p.generation + 1 :=
  (Nat.sub_add_cancel (List.length_pos_iff.mpr p.snapshots_ne_nil)).symm

/-- Changing a snapshot publishes nothing. -/
@[simp]
lemma generation_setSnapshot (number : Nat) :
    (p.setSnapshot number router).generation = p.generation := by
  simp [generation, setSnapshot]

/-- The number of the published snapshot grows by one. -/
@[simp]
lemma generation_publish : (p.publish router).generation = p.generation + 1 := by
  rw [generation, publish, List.length_append, length_snapshots]
  rfl

/-- Changing a snapshot leaves those of other numbers alone. -/
lemma snapshot?_setSnapshot (number other : Nat) :
    (p.setSnapshot number router).snapshot? other =
      if number = other then (p.snapshot? other).map fun _ => router else p.snapshot? other :=
  List.getElem?_set'

/-- A snapshot that takes the place of the published one is published. -/
lemma current_setSnapshot : (p.setSnapshot p.generation router).current = router := by
  have published := (p.setSnapshot p.generation router).snapshot?_generation
  rw [generation_setSnapshot, snapshot?_setSnapshot, if_pos rfl, p.snapshot?_generation] at published
  exact (Option.some_inj.mp published).symm

/-- Changing a superseded snapshot leaves the published one alone. -/
lemma current_setSnapshot_of_ne {number : Nat} (other : number ≠ p.generation) :
    (p.setSnapshot number router).current = p.current := by
  have published := (p.setSnapshot number router).snapshot?_generation
  rw [generation_setSnapshot, snapshot?_setSnapshot, if_neg other, p.snapshot?_generation] at published
  exact (Option.some_inj.mp published).symm

/-- There is a snapshot of every number up to that of the published one. -/
lemma snapshot?_isSome_iff (number : Nat) :
    (p.snapshot? number).isSome ↔ number ≤ p.generation := by
  rw [snapshot?, isSome_getElem?, length_snapshots, Nat.lt_succ_iff]

/-- Publishing adds a snapshot behind the others. -/
lemma snapshot?_publish (number : Nat) :
    (p.publish router).snapshot? number =
      if number = p.generation + 1 then some router else p.snapshot? number := by
  rw [snapshot?, publish, List.getElem?_append, length_snapshots]
  split
  · rename_i old
    rw [if_neg (Nat.ne_of_lt old)]
    rfl
  · rename_i new
    split
    · rename_i same
      rw [same, Nat.sub_self]
      rfl
    · rename_i other
      have beyond : p.snapshot? number = none := by
        rw [← Option.not_isSome_iff_eq_none, snapshot?_isSome_iff]
        omega
      rw [beyond, List.getElem?_eq_none]
      rw [List.length_singleton]
      omega

end Reading

/-! ### Using -/

namespace Session

/-- The router that a use publishes. -/
def publication? (s : Session α) : Use α → Option (Router α)
  | .update edit =>
    match edit.run s.publisher.current.copy with
    | (.ok _, next) => some next
    | (.error _, _) => none
  | .replace router _ => some router
  | _ => none

/-- The query that a use runs, with the number of the snapshot that it is run on. -/
def target? (s : Session α) : Use α → Option (Nat × Router.Query α)
  | .query query => some (s.publisher.generation, query)
  | .on name query => (s.named? name).map fun named => (named.1, query)
  | _ => none

/-- What a use makes of the snapshot of a number. -/
def touch (s : Session α) (use : Use α) (number : Nat) (router : Router α) : Router α :=
  match s.target? use with
  | some (target, query) => if target = number then (query.run router).2 else router
  | none => router

variable {s : Session α}

/-- An update whose edit succeeds publishes what the edit made. -/
lemma update_of_ok {edit : Edit α} {next : Router α}
    (succeeds : edit.run s.publisher.current.copy = (.ok (), next)) :
    s.use (.update edit) = (.done, { s with publisher := s.publisher.publish next }) := by
  rw [use, update, succeeds]

/-- An update that fails leaves the session as it is. -/
lemma update_of_error {edit : Edit α} {error : RouteError} {next : Router α}
    (fails : edit.run s.publisher.current.copy = (.error error, next)) :
    s.use (.update edit) = (.failed error, s) := by
  rw [use, update, fails]

/-- A name stands for the snapshot of the number that was kept under it. -/
lemma named?_eq_some_iff {name : String} {number : Nat} {router : Router α} :
    s.named? name = some (number, router) ↔
      s.kept.lookup name = some number ∧ s.publisher.snapshot? number = some router := by
  simp [named?, Option.bind_eq_some_iff]

/-- A query changes the snapshot that it is run on, and no other one. -/
lemma touch_of_target? {u : Use α} {target : Nat} {query : Router.Query α}
    (targeted : s.target? u = some (target, query)) (number : Nat) (router : Router α) :
    s.touch u number router = if target = number then (query.run router).2 else router := by
  rw [touch, targeted]

/-- A use that runs no query changes no snapshot. -/
lemma touch_of_target?_eq_none {u : Use α} (untargeted : s.target? u = none) (number : Nat) :
    s.touch u number = id := by
  funext router
  rw [touch, untargeted]
  rfl

/-- A query changes the snapshot that it is run on and no other. -/
lemma snapshot?_setSnapshot_run {p : Publisher α} {target : Nat} {router : Router α}
    (held : p.snapshot? target = some router) (query : Router.Query α) (number : Nat) :
    (p.setSnapshot target (query.run router).2).snapshot? number =
      (p.snapshot? number).map fun r => if target = number then (query.run r).2 else r := by
  rw [snapshot?_setSnapshot]
  split
  · rename_i same
    subst same
    simp [held]
  · simp

/-- What a use publishes stands behind the snapshots that were there. -/
lemma use_of_publication? {u : Use α} {router : Router α} (published : s.publication? u = some router) :
    s.target? u = none ∧ s.use u = (.done, { s with publisher := s.publisher.publish router }) := by
  cases u with
  | update edit =>
    refine ⟨rfl, ?_⟩
    rw [publication?] at published
    split at published
    · rename_i next succeeds
      cases published
      exact update_of_ok succeeds
    · cases published
  | replace built reachable =>
    cases published
    exact ⟨rfl, rfl⟩
  | _ => cases published

/-- A use that publishes nothing changes the snapshot that it looks something up in, if any. -/
lemma snapshot?_use_of_none {u : Use α} (unpublished : s.publication? u = none) :
    (s.use u).2.publisher.generation = s.publisher.generation ∧
      ∀ number, (s.use u).2.publisher.snapshot? number =
        (s.publisher.snapshot? number).map (s.touch u number) := by
  cases u with
  | update edit =>
    cases h : edit.run s.publisher.current.copy with
    | mk result next =>
      cases result with
      | ok _ => simp [publication?, h] at unpublished
      | error error =>
        rw [update_of_error h]
        simp [touch_of_target?_eq_none (u := .update edit) rfl]
  | replace router reachable => cases unpublished
  | load name => simp [touch_of_target?_eq_none (u := .load name) rfl, use]
  | query query =>
    refine ⟨generation_setSnapshot .., fun number => ?_⟩
    exact snapshot?_setSnapshot_run s.publisher.snapshot?_generation query number
  | on name query =>
    rw [use]
    cases named : s.named? name with
    | none =>
      have untargeted : s.target? (.on name query) = none := by rw [target?, named]; rfl
      simp [touch_of_target?_eq_none untargeted]
    | some held =>
      obtain ⟨target, router⟩ := held
      have targeted : s.target? (.on name query) = some (target, query) := by
        rw [target?, named]
        rfl
      refine ⟨generation_setSnapshot .., fun number => ?_⟩
      rw [funext (touch_of_target? targeted number)]
      exact snapshot?_setSnapshot_run (named?_eq_some_iff.mp named).2 query number

end Session

end PathRouting.Publisher

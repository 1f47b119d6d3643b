import Mathlib.Data.List.Sort
import PathRouting.Proofs.Table.Ledger
import PathRouting.Proofs.Trie.Updates

/-!
# A route table is its ledger

`Table.ledger` lists the routes of a table in the order of their registration. On a valid table every
change gives the answer that it gives on the ledger, and the ledger of the table that it leaves behind
is the one that it makes of the ledger (`Valid.run`). So a table goes through any list of changes as the
empty ledger does.

The numbers of the routes carry the argument. They ascend strictly along the history, so a history is
known from its members (`Indexed.history_eq`), and what becomes of the members is what
`Linked.get?_insert` and `WellFormed.remove_cases` say about the trie.
-/

namespace PathRouting.Table

variable {α : Type} {t : Table α}

/-- Routes stand at the addresses of their patterns, and no two of them have one number. -/
structure Indexed (t : Table α) : Prop where
  wellFormed : t.trie.WellFormed
  placed : ∀ {a r}, t.trie.get? a = some r → r.pattern.address = a
  numbered : ∀ {a r}, t.trie.get? a = some r → r.priority < t.nextPriority
  apart : ∀ {a b r s}, t.trie.get? a = some r → t.trie.get? b = some s →
    r.priority = s.priority → a = b

/-- A table whose size is the number of its routes. -/
structure Valid (t : Table α) : Prop extends Indexed t where
  size_eq : t.size = t.history.length

/-- The ledger of a table: its routes in the order of their registration, and its counter. -/
def ledger (t : Table α) : Ledger α := ⟨t.history, t.nextPriority⟩

/-! ### Reading -/

/-- The trie holds the routes that are found under their own patterns. -/
lemma Indexed.mem_values_iff (indexed : t.Indexed) {route : Route α} :
    route ∈ t.trie.values ↔ t.get? route.pattern = some route := by
  rw [indexed.wellFormed.mem_values_iff]
  constructor
  · intro ⟨address, h⟩
    rw [get?, indexed.placed h, h]
  · intro h
    exact ⟨_, h⟩

/-- The history has the routes that are found under their own patterns. -/
lemma Indexed.mem_history_iff (indexed : t.Indexed) {route : Route α} :
    route ∈ t.history ↔ t.get? route.pattern = some route := by
  rw [t.history_perm.mem_iff, indexed.mem_values_iff]

/-- A table lists the routes that are found under their own patterns. -/
lemma Indexed.mem_toList_iff (indexed : t.Indexed) {route : Route α} :
    route ∈ t.toList ↔ t.get? route.pattern = some route := by
  rw [t.toList_perm.mem_iff, indexed.mem_values_iff]

/-- In a list of all routes, what tells the addresses apart differs everywhere. -/
lemma Indexed.pairwise_ne (indexed : t.Indexed) {routes : List (Route α)}
    (perm : routes.Perm t.trie.values) {β : Type} {f : Route α → β}
    (apart : ∀ {a b r s}, t.trie.get? a = some r → t.trie.get? b = some s → f r = f s → a = b) :
    routes.Pairwise fun r s => f r ≠ f s := by
  apply perm.symm.pairwise
  · apply indexed.wellFormed.values_pairwise
    intro a b r s ne hr hs same
    exact ne (apart hr hs same)
  · intro r s ne same
    exact ne same.symm

/-- The numbers ascend strictly along the history. -/
lemma Indexed.history_ascending (indexed : t.Indexed) :
    t.history.Pairwise fun r s => r.priority < s.priority := by
  have ordered : t.history.Pairwise fun r s => decide (r.priority ≤ s.priority) = true := by
    apply List.pairwise_mergeSort
    · intro r s u
      simpa using Nat.le_trans
    · intro r s
      simpa using Nat.le_total r.priority s.priority
  have differ := indexed.pairwise_ne t.history_perm (f := Route.priority) indexed.apart
  apply (ordered.and differ).imp
  intro r s ⟨le, ne⟩
  exact Nat.lt_of_le_of_ne (of_decide_eq_true le) ne

/-- A history is known from its members. -/
lemma Indexed.history_eq (indexed : t.Indexed) {routes : List (Route α)}
    (ascending : routes.Pairwise fun r s => r.priority < s.priority)
    (mem : ∀ r, r ∈ routes ↔ t.get? r.pattern = some r) : t.history = routes := by
  have irrefl : Std.Irrefl fun r s : Route α => r.priority < s.priority :=
    ⟨fun r => Nat.lt_irrefl r.priority⟩
  have antisymm : Std.Antisymm fun r s : Route α => r.priority < s.priority :=
    ⟨fun r s less more => absurd more (Nat.lt_asymm less)⟩
  -- two lists that ascend strictly are equal if they have the same members
  apply List.Pairwise.eq_of_mem_iff indexed.history_ascending ascending
  intro r
  rw [indexed.mem_history_iff, mem]

/-- The routes of a history stand at different addresses. -/
lemma Indexed.addresses_nodup (indexed : t.Indexed) :
    (t.ledger.routes.map fun r => r.pattern.address).Nodup := by
  apply List.Nodup.map_on
  · intro r hr s hs same
    have hr := indexed.mem_history_iff.mp hr
    have hs := indexed.mem_history_iff.mp hs
    rw [get?, same] at hr
    exact Option.some.inj (hr.symm.trans hs)
  · apply indexed.history_ascending.imp
    intro r s less same
    exact Nat.ne_of_lt less (congrArg Route.priority same)

/-- The ledger has at each address what the trie has there. -/
lemma Indexed.lookup_ledger (indexed : t.Indexed) (address : Address) :
    t.ledger.lookup address = t.trie.get? address := by
  cases h : t.trie.get? address with
  | some route =>
    have placed := indexed.placed h
    have mem : route ∈ t.ledger.routes := by
      apply indexed.mem_history_iff.mpr
      rw [get?, placed, h]
    rw [← placed, Ledger.lookup_of_mem indexed.addresses_nodup mem]
  | none =>
    cases g : t.ledger.lookup address with
    | none => rfl
    | some route =>
      obtain ⟨mem, placed⟩ := Ledger.of_lookup g
      have held := indexed.mem_history_iff.mp mem
      rw [get?, placed, h] at held
      cases held

/-- The routes in order ascend strictly, each of them once. -/
lemma Indexed.toList_ascending (indexed : t.Indexed) :
    t.toList.Pairwise fun r s => compare r.pattern s.pattern = .lt := by
  have ordered : t.toList.Pairwise fun r s => r.pattern.le s.pattern = true := by
    apply List.pairwise_mergeSort
    · intro r s u
      exact Std.TransCmp.isLE_trans
    · intro r s
      have swap : compare r.pattern s.pattern = (compare s.pattern r.pattern).swap :=
        Std.OrientedCmp.eq_swap
      simp only [Pattern.le, swap]
      cases compare s.pattern r.pattern <;> rfl
  have differ := indexed.pairwise_ne t.toList_perm (f := Route.pattern) <| by
    intro a b r s hr hs same
    rw [← indexed.placed hr, ← indexed.placed hs, same]
  apply (ordered.and differ).imp
  intro r s ⟨le, ne⟩
  cases h : compare r.pattern s.pattern with
  | lt => rfl
  | eq => exact absurd (Std.LawfulEqOrd.eq_of_compare h) ne
  | gt =>
    rw [Pattern.le, h] at le
    cases le

/-! ### Changing -/

/-- A registration is found at its address, and every other route as before. -/
lemma Indexed.get?_register (indexed : t.Indexed) (pattern : Pattern) (resource : α) (other : Pattern) :
    (t.register pattern resource).2.get? other =
      if other.address = pattern.address then some ⟨pattern, resource, t.nextPriority⟩
      else t.get? other :=
  indexed.wellFormed.get?_insert ..

/-- A registration returns the route that it replaces. -/
lemma Indexed.fst_register (indexed : t.Indexed) (pattern : Pattern) (resource : α) :
    (t.register pattern resource).1 = t.get? pattern := by
  rw [Table.register, indexed.wellFormed.fst_insert, get?]

/-- A registration keeps the routes at their addresses and their numbers apart. -/
lemma Indexed.register (indexed : t.Indexed) (pattern : Pattern) (resource : α) :
    (t.register pattern resource).2.Indexed := by
  have held : ∀ {a r}, (t.register pattern resource).2.trie.get? a = some r →
      (a = pattern.address ∧ r = ⟨pattern, resource, t.nextPriority⟩) ∨
        (a ≠ pattern.address ∧ t.trie.get? a = some r) := by
    intro a r h
    rw [Table.register, indexed.wellFormed.get?_insert] at h
    split at h
    · rename_i here
      exact .inl ⟨here, (Option.some.inj h).symm⟩
    · rename_i elsewhere
      exact .inr ⟨elsewhere, h⟩
  constructor
  case wellFormed => exact indexed.wellFormed.insert ..
  case placed =>
    intro a r h
    rcases held h with ⟨rfl, rfl⟩ | ⟨-, h⟩
    · rfl
    · exact indexed.placed h
  case numbered =>
    intro a r h
    rcases held h with ⟨rfl, rfl⟩ | ⟨-, h⟩
    · exact Nat.lt_succ_self _
    · exact Nat.lt_succ_of_lt (indexed.numbered h)
  case apart =>
    -- the new number is above all others
    intro a b r s hr hs same
    rcases held hr with ⟨rfl, rfl⟩ | ⟨-, hr⟩ <;> rcases held hs with ⟨rfl, rfl⟩ | ⟨-, hs⟩
    · rfl
    · exact absurd same.symm (Nat.ne_of_lt (indexed.numbered hs))
    · exact absurd same (Nat.ne_of_lt (indexed.numbered hr))
    · exact indexed.apart hr hs same

/-- Striking out a route leaves the numbers in order. -/
lemma Indexed.ascending_erase (indexed : t.Indexed) (address : Address) :
    (t.ledger.erase address).routes.Pairwise fun r s => r.priority < s.priority :=
  indexed.history_ascending.filter _

/-- What is left are the routes at other addresses. -/
lemma Indexed.mem_erase_iff (indexed : t.Indexed) (address : Address) {route : Route α} :
    route ∈ (t.ledger.erase address).routes ↔
      t.get? route.pattern = some route ∧ route.pattern.address ≠ address := by
  rw [Ledger.erase, List.mem_filter, ledger, indexed.mem_history_iff, bne_iff_ne]

/-- To register a route is to record it in the ledger. -/
lemma Indexed.ledger_register (indexed : t.Indexed) (pattern : Pattern) (resource : α) :
    (t.register pattern resource).2.ledger = t.ledger.record pattern resource := by
  have history : (t.register pattern resource).2.history =
      (t.ledger.record pattern resource).routes := by
    apply (indexed.register pattern resource).history_eq
    · rw [Ledger.record, List.pairwise_append]
      refine ⟨indexed.ascending_erase _, List.pairwise_singleton _ _, ?_⟩
      intro r hr s hs
      rw [List.mem_singleton.mp hs]
      exact indexed.numbered ((indexed.mem_erase_iff _).mp hr).1
    · intro r
      rw [Ledger.record, List.mem_append, indexed.mem_erase_iff, List.mem_singleton,
        indexed.get?_register]
      by_cases here : r.pattern.address = pattern.address
      · simp [here, ledger, eq_comm]
      · have other : r ≠ ⟨pattern, resource, t.nextPriority⟩ := by
          rintro rfl
          exact here rfl
        simp [here, ledger, other]
  exact congrArg₂ Ledger.mk history rfl

/-- A removal takes the route at the address of a pattern away, or leaves the table as it is. -/
lemma Indexed.remove_cases (indexed : t.Indexed) (pattern : Pattern) :
    (t.get? pattern = none ∧ t.remove pattern = (.error (.routeNotFound pattern), t)) ∨
    (∃ route next, t.get? pattern = some route ∧ t.remove pattern = (.ok route, next) ∧
      next.Indexed ∧ next.ledger = t.ledger.erase pattern.address ∧ next.size = t.size - 1) := by
  rcases indexed.wellFormed.remove_cases pattern.address with
    ⟨missing, same⟩ | ⟨route, trie, found, gone, removed⟩
  · refine .inl ⟨missing, ?_⟩
    rw [Table.remove, same]
  · have kept : ∀ {a r}, trie.get? a = some r → a ≠ pattern.address ∧ t.trie.get? a = some r := by
      intro a r h
      rw [removed.get?_eq] at h
      split at h
      · cases h
      · rename_i elsewhere
        exact ⟨elsewhere, h⟩
    have next : Indexed ⟨trie, t.size - 1, t.nextPriority⟩ := by
      constructor
      case wellFormed => exact removed.wellFormed
      case placed => exact fun h => indexed.placed (kept h).2
      case numbered => exact fun h => indexed.numbered (kept h).2
      case apart => exact fun hr hs => indexed.apart (kept hr).2 (kept hs).2
    have history : history ⟨trie, t.size - 1, t.nextPriority⟩ =
        (t.ledger.erase pattern.address).routes := by
      apply next.history_eq (indexed.ascending_erase _)
      intro r
      rw [indexed.mem_erase_iff, get?, get?, removed.get?_eq]
      by_cases here : r.pattern.address = pattern.address
      · simp [here]
      · simp [here]
    refine .inr ⟨route, _, found, ?_, next, congrArg₂ Ledger.mk history rfl, rfl⟩
    rw [Table.remove, gone]

/-! ### Valid tables -/

/-- The empty table has every route at its address. -/
lemma Indexed.empty : (empty : Table α).Indexed where
  wellFormed := Trie.WellFormed.empty
  placed h := by simp [Table.empty] at h
  numbered h := by simp [Table.empty] at h
  apart h := by simp [Table.empty] at h

/-- The empty table has no history. -/
lemma history_empty : (empty : Table α).history = [] := by
  simp [history, empty]

/-- The ledger of the empty table is the empty ledger. -/
lemma ledger_empty : (empty : Table α).ledger = .empty := by
  rw [ledger, history_empty]
  rfl

/-- The empty table is valid. -/
lemma Valid.empty : (empty : Table α).Valid := ⟨Indexed.empty, by simp [history, Table.empty]⟩

/-- A cleared table has no history. -/
lemma history_clear : t.clear.history = [] := by
  simp [history, clear]

/-- To clear a table is to clear its ledger. -/
lemma ledger_clear : t.clear.ledger = t.ledger.clear := by
  rw [ledger, history_clear]
  rfl

/-- A cleared table is valid, whatever it was before. -/
lemma Valid.clear : t.clear.Valid where
  wellFormed := Trie.WellFormed.empty
  placed h := by simp [Table.clear] at h
  numbered h := by simp [Table.clear] at h
  apart h := by simp [Table.clear] at h
  size_eq := by simp [history, Table.clear]

/-- A registration keeps the size right. -/
lemma Valid.register (valid : t.Valid) (pattern : Pattern) (resource : α) :
    (t.register pattern resource).2.Valid := by
  refine ⟨valid.toIndexed.register pattern resource, ?_⟩
  have history : (t.register pattern resource).2.history = _ :=
    congrArg Ledger.routes (valid.ledger_register pattern resource)
  have erased := Ledger.length_erase valid.addresses_nodup pattern.address
  rw [valid.lookup_ledger] at erased
  rw [history, Ledger.record, List.length_append, List.length_singleton]
  have size : (t.register pattern resource).2.size =
      if (t.get? pattern).isSome then t.size else t.size + 1 := by
    rw [← valid.fst_register pattern resource]
    rfl
  have before : t.size = t.ledger.routes.length := valid.size_eq
  rw [size, before, ← erased, get?]
  cases t.trie.get? pattern.address <;> simp

/-- A removal that succeeds finds a positive size, and lowers it by one. -/
lemma Valid.size_remove (valid : t.Valid) {pattern : Pattern} {route : Route α}
    (found : t.get? pattern = some route) :
    t.size = (t.ledger.erase pattern.address).routes.length + 1 := by
  have erased := Ledger.length_erase valid.addresses_nodup pattern.address
  rw [valid.lookup_ledger, ← get?, found] at erased
  rw [valid.size_eq]
  exact erased.symm

/-! ### Runs -/

/-- A step of a table and one of a ledger give one answer, and the ledger of the table follows. -/
structure Follows (s : Answer α × Table α) (l : Answer α × Ledger α) : Prop where
  answer : s.1 = l.1
  valid : s.2.Valid
  ledger : s.2.ledger = l.2

/-- An insertion follows that of the ledger. -/
lemma Valid.insert (valid : t.Valid) (pattern : Pattern) (resource : α) (strict : Bool) :
    Follows (t.insert pattern resource strict) (t.ledger.insert pattern resource strict) := by
  have answer := valid.fst_register pattern resource
  have next := valid.register pattern resource
  have ledger := valid.ledger_register pattern resource
  have lookup : t.ledger.lookup pattern.address = t.get? pattern := valid.lookup_ledger _
  cases strict with
  | false =>
    simp only [Table.insert, Ledger.insert, lookup]
    exact ⟨congrArg Except.ok answer, next, ledger⟩
  | true =>
    cases h : t.get? pattern with
    | none =>
      rw [h] at answer
      simp only [Table.insert, Ledger.insert, lookup, h]
      exact ⟨congrArg Except.ok answer, next, ledger⟩
    | some existing =>
      simp only [Table.insert, Ledger.insert, lookup, h]
      exact ⟨rfl, valid, rfl⟩

/-- A removal follows that of the ledger. -/
lemma Valid.remove (valid : t.Valid) (pattern : Pattern) :
    Follows (run (.remove pattern) t) (t.ledger.remove pattern) := by
  rw [run, Ledger.remove, valid.lookup_ledger, ← get?]
  rcases valid.remove_cases pattern with
    ⟨missing, same⟩ | ⟨route, next, found, gone, indexed, ledger, size⟩
  · rw [missing, same]
    exact ⟨rfl, valid, rfl⟩
  · rw [found, gone]
    refine ⟨rfl, ⟨indexed, ?_⟩, ledger⟩
    have history := congrArg Ledger.routes ledger
    have before := valid.size_remove found
    rw [size, before, Nat.add_sub_cancel, ← history]
    rfl

/-- Registering patterns without strictness never fails. -/
lemma insertAll_eq (routes : List (Pattern × α)) (t : Table α) :
    insertAll routes t = (.ok (), routes.foldl (fun t r => (t.register r.1 r.2).2) t) := by
  induction routes generalizing t with
  | nil => rfl
  | cons route routes ih => exact ih _

/-- Registrations one after the other are recorded one after the other. -/
lemma Valid.registerAll (valid : t.Valid) (routes : List (Pattern × α)) :
    (routes.foldl (fun t r => (t.register r.1 r.2).2) t).Valid ∧
      (routes.foldl (fun t r => (t.register r.1 r.2).2) t).ledger =
        routes.foldl (fun l r => l.record r.1 r.2) t.ledger := by
  induction routes generalizing t with
  | nil => exact ⟨valid, rfl⟩
  | cons route routes ih =>
    obtain ⟨last, ledger⟩ := ih (valid.register route.1 route.2)
    refine ⟨last, ?_⟩
    rw [List.foldl_cons, ledger, valid.ledger_register, List.foldl_cons]

/-- A mount checks a route as the ledger does. -/
lemma Indexed.stage_eq (indexed : t.Indexed) (base : Pattern) (strict : Bool) :
    t.stage base strict = t.ledger.joined base strict := by
  funext route
  rw [stage, Ledger.joined]
  cases base.join route.pattern with
  | error cause => rfl
  | ok pattern => simp [contains, get?, indexed.lookup_ledger]

/-- A mount follows that of the ledgers. -/
lemma Valid.mount (valid : t.Valid) (base : Pattern) (strict : Bool) (other : Table α) :
    Follows (let (answer, next) := t.mount base other strict; (answer.map fun _ => none, next))
      (t.ledger.mount base other.ledger strict) := by
  -- both check all routes against what was there before the mount
  rw [Table.mount, Ledger.mount, valid.stage_eq, show other.ledger.routes = other.history from rfl]
  cases other.history.mapM (t.ledger.joined base strict) with
  | error error => exact ⟨rfl, valid, rfl⟩
  | ok routes =>
    obtain ⟨last, ledger⟩ := valid.registerAll routes
    simp only [insertAll_eq]
    exact ⟨rfl, last, ledger⟩

mutual

/-- Every change of a valid table follows that of its ledger. -/
lemma Valid.run {t : Table α} (valid : t.Valid) :
    ∀ change, Follows (run change t) (Ledger.run change t.ledger)
  | .insert pattern resource strict => valid.insert pattern resource strict
  | .remove pattern => valid.remove pattern
  | .mount base strict changes => by
    obtain ⟨-, -, ledger⟩ := Valid.empty.runAll changes
    rw [ledger_empty] at ledger
    rw [Ledger.run, ← ledger]
    exact valid.mount base strict _
  | .clear => ⟨rfl, .clear, ledger_clear⟩

/-- So does a list of changes. -/
lemma Valid.runAll {t : Table α} (valid : t.Valid) : ∀ changes,
    (runAll changes t).1 = (Ledger.runAll changes t.ledger).1 ∧ (runAll changes t).2.Valid ∧
      (runAll changes t).2.ledger = (Ledger.runAll changes t.ledger).2
  | [] => ⟨rfl, valid, rfl⟩
  | change :: changes => by
    obtain ⟨answer, next, ledger⟩ := valid.run change
    obtain ⟨answers, last, ledgers⟩ := next.runAll changes
    rw [ledger] at answers ledgers
    rw [Table.runAll, Ledger.runAll]
    exact ⟨congrArg₂ List.cons answer answers, last, ledgers⟩

end

/-- Any changes of the empty table leave a valid one. -/
lemma valid_after (changes : List (Change α)) : (after changes).Valid :=
  (Valid.empty.runAll changes).2.1

/-- What a table tells of its routes is what a ledger has. -/
structure Shows (t : Table α) (l : Ledger α) : Prop where
  /-- The ledger is a map: it has one route at an address. -/
  addresses_nodup : (l.routes.map fun r => r.pattern.address).Nodup
  /-- The routes stand in the order of their registration. -/
  ascending : l.routes.Pairwise fun r s => r.priority < s.priority
  get?_eq : ∀ pattern, t.get? pattern = l.lookup pattern.address
  /-- A registration changes its own address alone. -/
  get?_insert : ∀ pattern resource other, (t.insert pattern resource false).2.get? other =
    if other.address = pattern.address then some ⟨pattern, resource, l.nextPriority⟩
    else t.get? other
  /-- So does a removal. -/
  get?_remove : ∀ pattern other, (t.remove pattern).2.get? other =
    if other.address = pattern.address then none else t.get? other
  contains_eq : ∀ pattern, t.contains pattern = (l.lookup pattern.address).isSome
  size_eq : t.size = l.routes.length
  isEmpty_iff : t.isEmpty = true ↔ t.size = 0
  /-- The size never runs below zero. -/
  size_remove : ∀ {pattern route}, (t.remove pattern).1 = .ok route →
    (t.remove pattern).2.size + 1 = t.size
  history_eq : t.history = l.routes
  /-- The list of the routes ascends strictly, so it has each of them once. -/
  toList_ascending : t.toList.Pairwise fun r s => compare r.pattern s.pattern = .lt
  mem_toList_iff : ∀ {route}, route ∈ t.toList ↔ l.lookup route.pattern.address = some route
  history_perm : t.history.Perm t.toList

/-- A valid table shows what its ledger says. -/
lemma Valid.shows (valid : t.Valid) : t.Shows t.ledger where
  addresses_nodup := valid.addresses_nodup
  ascending := valid.history_ascending
  get?_eq pattern := (valid.lookup_ledger _).symm
  get?_insert := by
    intro pattern resource other
    -- what a lookup says afterwards is asked of the ledger, where a change is an equation
    obtain ⟨-, next, ledger⟩ := valid.insert pattern resource false
    rw [get?, ← next.lookup_ledger, ledger, get?, ← valid.lookup_ledger]
    exact t.ledger.lookup_record pattern resource other.address
  get?_remove := by
    intro pattern other
    rcases valid.remove_cases pattern with ⟨missing, same⟩ | ⟨_, next, -, gone, indexed, ledger, -⟩
    · rw [same]
      split
      · rename_i here
        rw [get?, here]
        exact missing
      · rfl
    · rw [gone, get?, ← indexed.lookup_ledger, ledger, get?, ← valid.lookup_ledger]
      exact t.ledger.lookup_erase pattern.address other.address
  contains_eq pattern := by rw [valid.lookup_ledger, contains, get?]
  size_eq := valid.size_eq
  isEmpty_iff := by simp [isEmpty]
  size_remove := by
    intro pattern route h
    rcases valid.remove_cases pattern with ⟨-, same⟩ | ⟨_, next, found, gone, -, -, size⟩
    · rw [same] at h
      cases h
    · have before := valid.size_remove found
      rw [gone, size]
      omega
  history_eq := rfl
  toList_ascending := valid.toList_ascending
  mem_toList_iff := by
    intro route
    rw [valid.toIndexed.mem_toList_iff, valid.lookup_ledger, get?]
  history_perm := t.history_perm.trans t.toList_perm.symm

/-- Changes of the empty table give the answers that they give on the empty ledger, and make a table
that shows the ledger they make. -/
theorem runAll_follows_ledger (changes : List (Change α)) :
    (runAll changes .empty).1 = (Ledger.runAll changes .empty).1 ∧
      (after changes).Shows (Ledger.after changes) := by
  obtain ⟨answers, valid, ledger⟩ := Valid.empty.runAll changes
  rw [ledger_empty] at answers ledger
  refine ⟨answers, ?_⟩
  rw [Ledger.after, ← ledger]
  exact valid.shows

end PathRouting.Table

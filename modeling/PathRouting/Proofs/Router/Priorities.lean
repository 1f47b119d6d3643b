import PathRouting.Proofs.Router.Failures
import PathRouting.Router.Use

/-!
# Priorities are the order of registration

The registrations that a table went through make up a log, and the counter of the table is the length of
this log. A route has the number that its registration has in the log, and no later registration in the log is
at its address (`Table.NumberedBy`). One turn is enough to see that: it makes some registrations, which get
the numbers from the counter on, and of the other routes it keeps some as they are (`Table.Registers`).
-/

namespace PathRouting

variable {α : Type}

/-! ### Logs of registrations -/

/-- A route is the registration of a number in a log, and the last one at its address. -/
structure Route.LatestIn (log : List (Pattern × α)) (number : Nat) (r : Route α) : Prop where
  entry : log[number]? = some (r.pattern, r.resource)
  last : ∀ later e, number < later → log[later]? = some e → e.1.address ≠ r.pattern.address

namespace Route.LatestIn

variable {log : List (Pattern × α)} {number : Nat} {r : Route α}

/-- Earlier registrations shift the number of a route and leave it the latest. -/
lemma append_left (latest : r.LatestIn log number) (front : List (Pattern × α)) :
    r.LatestIn (front ++ log) (front.length + number) where
  entry := by
    rw [List.getElem?_append_right (Nat.le_add_right ..), Nat.add_sub_cancel_left]
    exact latest.entry
  last := by
    intro later e less held
    rw [List.getElem?_append_right (by omega)] at held
    exact latest.last _ e (by omega) held

/-- Later registrations at other addresses leave a route the latest at its own. -/
lemma append_right (latest : r.LatestIn log number) {back : List (Pattern × α)}
    (others : ∀ e ∈ back, e.1.address ≠ r.pattern.address) : r.LatestIn (log ++ back) number where
  entry := by
    obtain ⟨within, -⟩ := List.getElem?_eq_some_iff.mp latest.entry
    rw [List.getElem?_append_left within]
    exact latest.entry
  last := by
    intro later e less held
    rw [List.getElem?_append] at held
    split at held
    · exact latest.last later e less held
    · exact others e (List.mem_of_getElem? held)

/-- A route has one latest registration. -/
lemma unique (latest : r.LatestIn log number) {other : Nat} (latest' : r.LatestIn log other) :
    number = other := by
  rcases Nat.lt_trichotomy number other with less | same | more
  · exact absurd rfl (latest.last other _ less latest'.entry)
  · exact same
  · exact absurd rfl (latest'.last number _ more latest.entry)

end Route.LatestIn

namespace Table

/-- The routes of a table are numbered by the log of its registrations. -/
structure NumberedBy (t : Table α) (log : List (Pattern × α)) : Prop where
  nextPriority_eq : t.nextPriority = log.length
  latest : ∀ route ∈ t.toList, route.LatestIn log route.priority

/-- A table comes of another one by some registrations, and it may have lost other routes. -/
structure Registers (t : Table α) (entries : List (Pattern × α)) (next : Table α) : Prop where
  nextPriority_eq : next.nextPriority = t.nextPriority + entries.length
  stored : ∀ e ∈ entries, ∃ route ∈ next.toList, route.pattern.address = e.1.address
  /-- The registrations get the numbers from the counter on, in order. -/
  origin : ∀ route ∈ next.toList,
    (∃ i, route.LatestIn entries i ∧ route.priority = t.nextPriority + i) ∨
      (route ∈ t.toList ∧ ∀ e ∈ entries, e.1.address ≠ route.pattern.address)

variable {t next : Table α} {entries log : List (Pattern × α)}

/-- Registrations that are made go to the end of the log. -/
lemma NumberedBy.registers (numbered : t.NumberedBy log) (registers : t.Registers entries next) :
    next.NumberedBy (log ++ entries) where
  nextPriority_eq := by
    rw [registers.nextPriority_eq, numbered.nextPriority_eq, List.length_append]
  latest := by
    intro route mem
    rcases registers.origin route mem with ⟨i, latest, number⟩ | ⟨old, others⟩
    · rw [number, numbered.nextPriority_eq]
      exact latest.append_left log
    · exact (numbered.latest route old).append_right others

/-! ### Registrations -/

/-- The counter is above the numbers of all routes. -/
lemma Indexed.lt_nextPriority (indexed : t.Indexed) {route : Route α} (mem : route ∈ t.toList) :
    route.priority < t.nextPriority :=
  indexed.numbered (indexed.mem_toList_iff.mp mem)

/-- No two routes have one number. -/
lemma Indexed.eq_of_priority_eq (indexed : t.Indexed) {p q : Route α} (memP : p ∈ t.toList)
    (memQ : q ∈ t.toList) (same : p.priority = q.priority) : p = q := by
  have heldP := indexed.mem_toList_iff.mp memP
  have heldQ := indexed.mem_toList_iff.mp memQ
  rw [get?, indexed.apart heldP heldQ same] at heldP
  exact Option.some_inj.mp (heldP.symm.trans heldQ)

/-- What is registered comes above all that was there. -/
lemma Registers.lt_of_mem (registers : t.Registers entries next) (indexed : t.Indexed)
    {e : Pattern × α} (mem : e ∈ entries) {old route : Route α} (memOld : old ∈ t.toList)
    (memRoute : route ∈ next.toList) (same : route.pattern.address = e.1.address) :
    old.priority < route.priority := by
  have below := indexed.lt_nextPriority memOld
  rcases registers.origin route memRoute with ⟨i, -, number⟩ | ⟨-, others⟩
  · omega
  · exact absurd same.symm (others e mem)

/-- A table that only lost routes registered nothing. -/
lemma Indexed.registers_nil (indexed : t.Indexed) (indexed' : next.Indexed)
    (counter : next.nextPriority = t.nextPriority)
    (kept : ∀ pattern route, next.get? pattern = some route → t.get? pattern = some route) :
    t.Registers [] next where
  nextPriority_eq := counter
  stored := by simp
  origin := by
    intro route mem
    refine .inr ⟨?_, by simp⟩
    rw [indexed.mem_toList_iff]
    exact kept _ _ (indexed'.mem_toList_iff.mp mem)

/-- A table comes of itself by no registration. -/
lemma Indexed.registers_self (indexed : t.Indexed) : t.Registers [] t :=
  indexed.registers_nil indexed rfl fun _ _ => id

/-- The counter counts every registration. -/
lemma nextPriority_insertAll (entries : List (Pattern × α)) (t : Table α) :
    (insertAll entries t).2.nextPriority = t.nextPriority + entries.length := by
  induction entries generalizing t with
  | nil => rfl
  | cons entry entries ih =>
    rw [insertAll_cons, ih, List.length_cons, Nat.add_comm entries.length, ← Nat.add_assoc]
    rfl

/-- Registrations at other addresses leave a route as it is. -/
lemma Valid.get?_insertAll_of_forall_ne (valid : t.Valid) {pattern : Pattern}
    (others : ∀ e ∈ entries, e.1.address ≠ pattern.address) :
    (Table.insertAll entries t).2.get? pattern = t.get? pattern := by
  induction entries generalizing t with
  | nil => rfl
  | cons entry entries ih =>
    obtain ⟨here, others⟩ := List.forall_mem_cons.mp others
    rw [insertAll_cons, ih (valid.register entry.1 entry.2) others, valid.get?_register,
      if_neg here.symm]

/-- Of several registrations at an address the last one stays, with its own number. -/
lemma Valid.get?_insertAll_of_exists (valid : t.Valid) {pattern : Pattern}
    (among : ∃ e ∈ entries, e.1.address = pattern.address) :
    ∃ i route, (Table.insertAll entries t).2.get? pattern = some route ∧
      route.LatestIn entries i ∧ route.priority = t.nextPriority + i := by
  induction entries generalizing t with
  | nil => simp at among
  | cons entry entries ih =>
    by_cases again : ∃ e ∈ entries, e.1.address = pattern.address
    · obtain ⟨i, route, held, latest, number⟩ := ih (valid.register entry.1 entry.2) again
      have next : (t.register entry.1 entry.2).2.nextPriority = t.nextPriority + 1 := rfl
      refine ⟨1 + i, route, held, latest.append_left [entry], ?_⟩
      omega
    · have others : ∀ e ∈ entries, e.1.address ≠ pattern.address :=
        fun e mem same => again ⟨e, mem, same⟩
      have here : entry.1.address = pattern.address := by
        obtain ⟨e, mem, same⟩ := among
        rcases List.mem_cons.mp mem with rfl | mem
        · exact same
        · exact absurd same (others e mem)
      refine ⟨0, ⟨entry.1, entry.2, t.nextPriority⟩, ?_, ⟨rfl, ?_⟩, rfl⟩
      · rw [insertAll_cons, (valid.register entry.1 entry.2).get?_insertAll_of_forall_ne others,
          valid.get?_register, if_pos here.symm]
      · intro later e less held
        obtain ⟨k, rfl⟩ := Nat.exists_eq_add_of_lt less
        rw [Nat.zero_add, List.getElem?_cons_succ] at held
        rw [here]
        exact others e (List.mem_of_getElem? held)

/-- Inserting patterns one after the other registers all of them. -/
lemma Valid.registers_insertAll (valid : t.Valid) (entries : List (Pattern × α)) :
    t.Registers entries (Table.insertAll entries t).2 := by
  have next := (valid.insertAll entries).toIndexed
  constructor
  case nextPriority_eq => exact nextPriority_insertAll entries t
  case stored =>
    intro e mem
    obtain ⟨-, route, held, -⟩ := valid.get?_insertAll_of_exists ⟨e, mem, rfl⟩
    exact ⟨route, next.get?_eq_some_iff.mp held⟩
  case origin =>
    intro route mem
    have held := next.mem_toList_iff.mp mem
    by_cases among : ∃ e ∈ entries, e.1.address = route.pattern.address
    · obtain ⟨i, other, held', latest, number⟩ := valid.get?_insertAll_of_exists among
      cases held.symm.trans held'
      exact .inl ⟨i, latest, number⟩
    · have others : ∀ e ∈ entries, e.1.address ≠ route.pattern.address :=
        fun e mem same => among ⟨e, mem, same⟩
      rw [valid.get?_insertAll_of_forall_ne others] at held
      exact .inr ⟨valid.mem_toList_iff.mpr held, others⟩

/-! ### Changes -/

/-- A change that succeeds makes the registrations that it asks for, and one that fails leaves the table as
it was. -/
structure Grants (t : Table α) (entries : List (Pattern × α)) {β : Type} (result : Except RouteError β)
    (next : Table α) : Prop where
  registers : t.Registers (granted result entries) next
  undone : ∀ error, result = .error error → next = t

/-- A change that made its registrations may answer anything. -/
lemma Registers.grants {β : Type} (registers : t.Registers entries next) (value : β) :
    t.Grants entries (.ok value) next :=
  ⟨registers, fun _ failed => nomatch failed⟩

/-- A change that left the table as it was may fail with anything. -/
lemma Indexed.grants_error (indexed : t.Indexed) (entries : List (Pattern × α)) {β : Type}
    (error : RouteError) : t.Grants entries (.error error : Except RouteError β) t :=
  ⟨indexed.registers_self, fun _ _ => rfl⟩

/-- What is made of an answer does not matter to the table. -/
lemma Grants.map {β γ : Type} {result : Except RouteError β} (grants : t.Grants entries result next)
    (f : β → γ) : t.Grants entries (result.map f) next := by
  cases result with
  | error error => exact ⟨grants.registers, fun _ _ => grants.undone error rfl⟩
  | ok value => exact grants.registers.grants (f value)

/-- An insertion asks for one registration. -/
lemma Valid.grants_insert (valid : t.Valid) (pattern : Pattern) (resource : α) (strict : Bool) :
    t.Grants [(pattern, resource)] (t.insert pattern resource strict).1
      (t.insert pattern resource strict).2 := by
  have registered := valid.registers_insertAll [(pattern, resource)]
  cases strict with
  | false => exact registered.grants _
  | true =>
    cases h : t.get? pattern with
    | none =>
      simp only [Table.insert, h]
      exact registered.grants _
    | some existing =>
      simp only [Table.insert, h]
      exact valid.grants_error _ _

/-- A removal asks for none. -/
lemma Valid.grants_remove (valid : t.Valid) (pattern : Pattern) :
    t.Grants [] (t.remove pattern).1 (t.remove pattern).2 := by
  rcases valid.remove_cases pattern with
    ⟨-, same⟩ | ⟨route, next, -, gone, indexed, ledger, -⟩
  · rw [same]
    exact valid.grants_error _ _
  · rw [gone]
    apply Registers.grants
    apply valid.registers_nil indexed (congrArg Ledger.nextPriority ledger)
    intro other kept held
    rw [get?, ← indexed.lookup_ledger, ledger, Ledger.lookup_erase] at held
    split at held
    · cases held
    · rwa [valid.lookup_ledger] at held

/-- Clearing a table registers nothing, and the counter stays. -/
lemma Valid.registers_clear (valid : t.Valid) : t.Registers [] t.clear := by
  apply valid.registers_nil (Valid.clear (t := t)).toIndexed rfl
  intro pattern route held
  simp [get?, Table.clear] at held

/-- What a mount checked are the routes of the other table below the base. -/
lemma filterMap_eq_of_staged {base : Pattern} {strict : Bool} {routes : List (Route α)}
    (staged : List.Forall₂ (fun q e => t.stage base strict q = .ok e) routes entries) :
    (routes.filterMap fun route =>
      (base.join route.pattern).toOption.map fun joined => (joined, route.resource)) = entries := by
  induction staged with
  | nil => rfl
  | cons here _ ih =>
    obtain ⟨joined, resource, -⟩ := stage_eq_ok_iff.mp here
    rw [List.filterMap_cons, ih, joined, ← resource]
    rfl

/-- A mount asks for the routes of the other table below the base. -/
lemma Valid.grants_mount (valid : t.Valid) (base : Pattern) (other : Table α) (strict : Bool) :
    t.Grants (base.below other) (t.mount base other strict).1 (t.mount base other strict).2 := by
  cases mounted : t.mount base other strict with
  | mk result next =>
    cases result with
    | error error =>
      have undone := undone_mount base other strict error (congrArg Prod.fst mounted)
      rw [mounted] at undone
      rw [show next = t from undone]
      exact valid.grants_error _ _
    | ok _ =>
      obtain ⟨staged, all, rfl⟩ := mount_eq_ok_iff.mp mounted
      rw [Pattern.below, filterMap_eq_of_staged all]
      exact (valid.registers_insertAll staged).grants _

/-- Every change of a table makes what it asks for, or nothing. -/
lemma Valid.grants_run (valid : t.Valid) (change : Change α) :
    t.Grants change.asks (Table.run change t).1 (Table.run change t).2 := by
  cases change with
  | insert pattern resource strict => exact valid.grants_insert pattern resource strict
  | remove pattern => exact (valid.grants_remove pattern).map some
  | mount base strict changes => exact (valid.grants_mount base _ strict).map fun _ => none
  | clear => exact valid.registers_clear.grants none

end Table

/-! ### Routers -/

namespace Router

variable {r : Router α} {entries : List (Pattern × α)} {β : Type}

/-- A router answers as the change of its table did. -/
lemma fst_settle (r : Router α) (change : Except RouteError β × Table α) :
    (r.settle change).1 = change.1 := by
  obtain ⟨result, table⟩ := change
  cases result <;> rfl

/-- What a change of the table grants, the router grants. -/
lemma grants_settle {change : Except RouteError β × Table α}
    (grants : r.table.Grants entries change.1 change.2) :
    r.table.Grants entries (r.settle change).1 (r.settle change).2.table := by
  rwa [fst_settle, table_settle]

/-- A text that is no pattern asks for nothing. -/
lemma grants_withPattern (valid : r.table.Valid) (text : String)
    {asks : Pattern → List (Pattern × α)} {next : Pattern → Except RouteError β × Router α}
    (grants : ∀ pattern, r.table.Grants (asks pattern) (next pattern).1 (next pattern).2.table) :
    r.table.Grants (whenPattern text asks) (r.withPattern text next).1
      (r.withPattern text next).2.table := by
  rw [withPattern, whenPattern, Route.parsePattern]
  cases Pattern.parse text with
  | error cause => exact valid.grants_error _ _
  | ok pattern => exact grants pattern

/-- A mount by text asks for the routes of the other router below the base. -/
lemma grants_mount (valid : r.table.Valid) (text : String) (other : Router α) :
    r.table.Grants (whenPattern text fun base => base.below other.table) (r.mount text other).1
      (r.mount text other).2.table :=
  grants_withPattern valid text fun base => grants_settle (valid.grants_mount base other.table _)

/-- Every use of a router makes the registrations that it asks for, or none. -/
lemma grants_use (valid : r.table.Valid) (use : Use α) :
    r.table.Grants (r.asks use) (r.outcome use) (r.use use).table := by
  cases use with
  | find path =>
    rw [Router.use, table_find]
    exact valid.registers_self.grants ()
  | isCached path => exact valid.registers_self.grants ()
  | insert text resource =>
    apply grants_withPattern valid
    intro pattern
    exact (grants_settle (valid.grants_insert pattern resource _)).map _
  | remove text =>
    -- a removal asks for nothing, whether its text is a pattern or not
    have nothing : (whenPattern text fun _ => []) = ([] : List (Pattern × α)) := by
      rw [whenPattern]
      split <;> rfl
    have removed : r.table.Grants (whenPattern text fun _ => []) (r.remove text).1
        (r.remove text).2.table := by
      apply grants_withPattern valid
      intro pattern
      exact (grants_settle (valid.grants_remove pattern)).map _
    rw [nothing] at removed
    exact removed.map _
  | mount text other => exact grants_mount valid text other
  | nest text build => exact grants_mount valid text _
  | clear => exact valid.registers_clear.grants ()
  | copy => exact valid.registers_self.grants ()
  | rebuild => exact valid.registers_self.grants ()

end Router

namespace Turn

variable {r : Router α}

/-- So does every turn. -/
lemma grants_run (valid : r.table.Valid) (turn : Turn α) :
    r.table.Grants (turn.asks r) (turn.run r).1 (turn.run r).2.table := by
  cases turn with
  | use use => exact Router.grants_use valid use
  | change change => exact (valid.grants_run change).map _

/-- A turn keeps the table valid. -/
lemma valid_run (valid : r.table.Valid) (turn : Turn α) : (turn.run r).2.table.Valid := by
  cases turn with
  | use use => exact Router.valid_use valid use
  | change change => exact (valid.run change).valid

/-- Every turn keeps a table numbered by its log. -/
lemma numberedBy_runAll {log : List (Pattern × α)} (valid : r.table.Valid)
    (numbered : r.table.NumberedBy log) (turns : List (Turn α)) :
    (runAll turns r).2.table.Valid ∧
      (runAll turns r).2.table.NumberedBy (log ++ (runAll turns r).1) := by
  induction turns generalizing r log with
  | nil => exact ⟨valid, (List.append_nil log).symm ▸ numbered⟩
  | cons turn turns ih =>
    have next := numbered.registers (grants_run valid turn).registers
    obtain ⟨last, all⟩ := ih (valid_run valid turn) next
    rw [List.append_assoc] at all
    exact ⟨last, all⟩

/-- After any turns the counter is the number of registrations so far, and every route has the number of its
own, the latest one at its address. So the numbers of two routes differ, and they compare as these
registrations do. A turn that fails registers nothing and leaves the table as it was; one that succeeds
numbers its registrations from the counter on, above all routes that were there. -/
theorem runAll_numbered (config : Config) (turns : List (Turn α)) :
    let log := (runAll turns (.ofConfig config)).1
    let r := (runAll turns (.ofConfig config)).2
    r.table.NumberedBy log ∧
    (∀ route ∈ r.table.toList, route.priority < r.table.nextPriority) ∧
    (∀ p ∈ r.table.toList, ∀ q ∈ r.table.toList, p.priority = q.priority → p = q) ∧
    (∀ p ∈ r.table.toList, ∀ q ∈ r.table.toList, ∀ m n, p.LatestIn log m → q.LatestIn log n →
      (p.priority < q.priority ↔ m < n)) ∧
    (r.table.history.Perm r.table.toList ∧
      r.table.history.Pairwise fun p q => p.priority < q.priority) ∧
    ∀ turn : Turn α,
      (∀ error, (turn.run r).1 = .error error →
        turn.registrations r = [] ∧ (turn.run r).2.table = r.table) ∧
      r.table.Registers (turn.registrations r) (turn.run r).2.table ∧
      ∀ e ∈ turn.registrations r, ∀ route ∈ (turn.run r).2.table.toList,
        route.pattern.address = e.1.address →
          ∀ old ∈ r.table.toList, old.priority < route.priority := by
  intro log r
  have start : (Router.ofConfig config : Router α).table.NumberedBy [] := by
    refine ⟨rfl, ?_⟩
    intro route mem
    have held := Table.Indexed.empty.mem_toList_iff.mp mem
    simp [Table.get?, Table.empty] at held
  -- the run lemma gives the log; what follows is read off it, and off one more turn
  obtain ⟨valid, numbered⟩ := numberedBy_runAll .empty start turns
  rw [List.nil_append] at numbered
  refine ⟨numbered, fun _ => valid.lt_nextPriority, fun _ memP _ => valid.eq_of_priority_eq memP, ?_,
    ⟨r.table.history_perm.trans r.table.toList_perm.symm, valid.history_ascending⟩, ?_⟩
  · intro p memP q memQ m n latestP latestQ
    rw [latestP.unique (numbered.latest p memP), latestQ.unique (numbered.latest q memQ)]
  · intro turn
    have grants := grants_run valid turn
    refine ⟨?_, grants.registers, ?_⟩
    · intro error failed
      refine ⟨?_, grants.undone error failed⟩
      rw [registrations, failed]
      rfl
    · intro e mem route memRoute same old memOld
      exact grants.registers.lt_of_mem valid.toIndexed mem memOld memRoute same

/-- A replacement, a clearing and a removal use numbers up for good. -/
theorem runAll_numbered_replaced :
    let turns : List (Turn Nat) := [.use (.insert "/a" 1), .use (.insert "/a" 2), .use .clear,
      .use .rebuild, .use (.insert "/b" 3), .use (.remove "/a"), .use (.insert "/{x}" 4)]
    ∃ route ∈ (runAll turns (.ofConfig .default)).2.table.toList, route.resource = 4 ∧
      route.LatestIn (runAll turns (.ofConfig .default)).1 3 := by
  intro turns
  have held : ((runAll turns (.ofConfig .default)).2.table.trie.values.map fun route =>
      (route.resource, route.priority)) = [(3, 2), (4, 3)] := by
    decide +kernel
  have mem : (4, 3) ∈ (runAll turns (.ofConfig .default)).2.table.trie.values.map fun route =>
      (route.resource, route.priority) := by
    rw [held]
    simp
  obtain ⟨route, mem, same⟩ := List.mem_map.mp mem
  obtain ⟨resource, priority⟩ := Prod.mk.inj same
  have mem := (runAll turns (.ofConfig .default)).2.table.toList_perm.mem_iff.mpr mem
  refine ⟨route, mem, resource, ?_⟩
  rw [← priority]
  exact (runAll_numbered .default turns).1.latest route mem

end Turn

end PathRouting

import PathRouting.Proofs.Lookup.Renumbering
import PathRouting.Proofs.Pattern.RoundTrip
import PathRouting.Proofs.Router.Priorities
import PathRouting.Proofs.Router.Reachable

/-!
# Routers that are written down and built again

A router is written down as the displays of its patterns with their resources, in the order of registration
(`Router.dump`), and built again by registering them one after the other (`Router.restore`). The patterns that a
script registers are read from texts or joined from such patterns, so all of them are legible
(`Router.legible_runSteps`). Their addresses are free in a new router, strict or not, and there they get other
numbers, but in the same order (`Router.restore_dump`).
-/

namespace PathRouting

variable {α : Type}

/-! ### Legible tables -/

namespace Table

variable {t next : Table α} {entries : List (Pattern × α)}

/-- The patterns of all routes are read back from their displays. -/
def Legible (t : Table α) : Prop := ∀ route ∈ t.toList, route.pattern.Legible

/-- A table without routes is legible. -/
lemma legible_empty : (empty : Table α).Legible := by
  intro route mem
  have held := Indexed.empty.mem_toList_iff.mp mem
  simp [get?, empty] at held

/-- Registrations of legible patterns keep a table legible. -/
lemma Legible.registers (legible : t.Legible) (registers : t.Registers entries next)
    (entries_legible : ∀ e ∈ entries, e.1.Legible) : next.Legible := by
  intro route mem
  rcases registers.origin route mem with ⟨i, latest, -⟩ | ⟨old, -⟩
  · exact entries_legible _ (List.mem_of_getElem? latest.entry)
  · exact legible route old

/-- The routes of a legible table are legible below a legible base. -/
lemma Legible.below (legible : t.Legible) {base : Pattern} (base_legible : base.Legible) :
    ∀ e ∈ base.below t, e.1.Legible := by
  intro e mem
  obtain ⟨route, registered, joins⟩ := List.mem_filterMap.mp mem
  cases joined : base.join route.pattern with
  | error cause =>
    rw [joined] at joins
    cases joins
  | ok pattern =>
    rw [joined] at joins
    cases joins
    have old := legible route (mem_toList_iff_mem_history.mpr registered)
    exact Pattern.legible_join base_legible old joined

/-- The routes of a table can be registered in the empty one. -/
lemma Indexed.free_empty (indexed : t.Indexed) : Table.empty.Free (t.history.map Route.entry) := by
  constructor
  case vacant => exact fun _ _ => Trie.get?_empty _
  case apart =>
    rw [List.map_map]
    exact indexed.addresses_nodup

/-- Where they are registered, they get other numbers. -/
lemma Valid.renumbers (valid : t.Valid) :
    t.Renumbers (Table.insertAll (t.history.map Route.entry) .empty).2 := by
  rw [Renumbers, Valid.empty.history_insertAll valid.free_empty, history_empty, List.nil_append,
    Route.map_entry_numbered]

end Table

namespace Router

variable {r : Router α}

/-! ### Scripts register legible patterns -/

/-- What a text asks for is legible if it is so for every legible pattern. -/
lemma legible_whenPattern {text : String} {entries : Pattern → List (Pattern × α)}
    (legible : ∀ pattern, pattern.Legible → ∀ e ∈ entries pattern, e.1.Legible) :
    ∀ e ∈ whenPattern text entries, e.1.Legible := by
  rw [whenPattern]
  cases read : Pattern.parse text with
  | error cause => simp
  | ok pattern => exact legible pattern (Pattern.legible_of_parse read)

/-- A use that asks for legible patterns keeps the table legible. -/
lemma legible_use (reachable : r.Reachable) (legible : r.table.Legible) (use : Use α)
    (asks : ∀ e ∈ r.asks use, e.1.Legible) : (r.use use).table.Legible := by
  apply legible.registers (grants_use reachable.valid use).registers
  intro e mem
  unfold granted at mem
  split at mem
  · cases mem
  · exact asks e mem

/-- An insertion by text keeps the table legible. -/
lemma legible_insert (reachable : r.Reachable) (legible : r.table.Legible) (text : String)
    (resource : α) : (r.insert text resource).2.table.Legible := by
  apply legible_use reachable legible (.insert text resource)
  apply legible_whenPattern
  simp

/-- So do several of them. -/
lemma legible_insertEach (reachable : r.Reachable) (legible : r.table.Legible)
    (routes : List (String × α)) : (r.insertEach routes).2.table.Legible := by
  refine (insertEach_preserves (P := fun r => r.Reachable ∧ r.table.Legible) ?_
    ⟨reachable, legible⟩ routes).2
  intro r text resource ⟨reachable, legible⟩
  exact ⟨reachable.use (.insert text resource), legible_insert reachable legible text resource⟩

/-- A mount of a legible table by text keeps the table legible. -/
lemma legible_mount (reachable : r.Reachable) (legible : r.table.Legible) (text : String)
    {other : Router α} (other_legible : other.table.Legible) :
    (r.mount text other).2.table.Legible := by
  apply legible_use reachable legible (.mount text other)
  apply legible_whenPattern
  exact fun base base_legible => other_legible.below base_legible

mutual

/-- Every step keeps the patterns legible: it reads new ones from texts, or joins them with such patterns. -/
lemma legible_next {r : Router α} (reachable : r.Reachable) (legible : r.table.Legible) :
    ∀ step : Step α, (step.next r).table.Legible
  | .query query => by
    rw [Step.next, table_query]
    exact legible
  | .insert _ text resource => legible_insert reachable legible text resource
  | .insertEach routes => legible_insertEach reachable legible routes
  | .remove text => legible_use reachable legible (.remove text) (by simp [asks])
  | .mount _ base config steps =>
    legible_mount reachable legible base (legible_runSteps (.ofConfig config) Table.legible_empty steps)
  | .nest _ base steps =>
    legible_mount reachable legible base (legible_runSteps (.ofConfig _) Table.legible_empty steps)
  | .clear => legible_use reachable legible .clear (by simp [asks])
  | .copy => legible
  | .rebuild => legible

/-- So does a script. -/
lemma legible_runSteps {r : Router α} (reachable : r.Reachable) (legible : r.table.Legible) :
    ∀ steps : List (Step α), (runSteps steps r).2.table.Legible
  | [] => legible
  | step :: steps => by
    have next : (step.run r).2.table.Legible := by
      rw [snd_run_step]
      exact legible_next reachable legible step
    rw [runSteps]
    exact legible_runSteps (reachable.step step) next steps

end

/-! ### Restoring -/

/-- The displays of the patterns with their resources, in the order of registration. -/
def dump (r : Router α) : List (String × α) :=
  r.table.history.map fun route => (route.pattern.display, route.resource)

/-- Registers what was written down in a new router. -/
def restore (config : Config) (routes : List (String × α)) : Except RouteError Unit × Router α :=
  insertEach routes (ofConfig config)

/-- The display of a legible pattern registers the pattern where its address is free. -/
lemma insert_display {pattern : Pattern} (legible : pattern.Legible)
    (vacant : r.table.get? pattern = none) (resource : α) : r.insert pattern.display resource =
      (.ok (), { r with table := (r.table.register pattern resource).2 }.invalidate) := by
  rw [insert, withPattern, Route.parsePattern, Pattern.parse_display_of_legible legible]
  show ((r.settle _).1.map _, (r.settle _).2) = _
  rw [Table.insert_of_vacant vacant]
  rfl

/-- The displays of legible patterns register the patterns where their addresses are free and differ. -/
lemma insertEach_displays {entries : List (Pattern × α)} (valid : r.table.Valid)
    (legible : ∀ e ∈ entries, e.1.Legible) (free : r.table.Free entries) :
    (insertEach (entries.map fun e => (e.1.display, e.2)) r).1 = .ok () ∧
      (insertEach (entries.map fun e => (e.1.display, e.2)) r).2.table =
        (Table.insertAll entries r.table).2 := by
  -- the addresses of the others are still free once the first one is taken
  induction entries generalizing r with
  | nil => exact ⟨rfl, rfl⟩
  | cons entry entries ih =>
    obtain ⟨here, legible⟩ := List.forall_mem_cons.mp legible
    obtain ⟨vacant, free⟩ := valid.free_cons_iff.mp free
    rw [List.map_cons, insertEach, insert_display here vacant]
    exact ih (valid.register entry.1 entry.2) legible free

/-- A dump writes the entries down in the order of registration. -/
lemma dump_eq (r : Router α) :
    r.dump = (r.table.history.map Route.entry).map fun e => (e.1.display, e.2) := by
  rw [dump, List.map_map]
  rfl

/-- A router whose patterns are legible is built again, up to the numbers of its routes. -/
lemma restore_dump_of_legible (valid : r.table.Valid) (legible : r.table.Legible) (config : Config) :
    (restore config r.dump).1 = .ok () ∧ r.table.Renumbers (restore config r.dump).2.table := by
  have entries_legible : ∀ e ∈ r.table.history.map Route.entry, e.1.Legible := by
    rw [List.forall_mem_map]
    intro route mem
    exact legible route (Table.mem_toList_iff_mem_history.mpr mem)
  have start : (ofConfig config : Router α).table.Valid := Table.Valid.empty
  obtain ⟨result, table⟩ := insertEach_displays start entries_legible valid.free_empty
  rw [restore, dump_eq]
  refine ⟨result, ?_⟩
  rw [table]
  exact valid.renumbers

/-- After any script, a router that is written down and built again in a new one, strict or not, accepts every
route. It has as many routes, lists the same, and finds the same for every path; the numbers of its routes are
others, but compare as before. -/
theorem restore_dump (config config' : Config) (steps : List (Step α)) :
    let r := (runSteps steps (ofConfig config)).2
    let result := (restore config' r.dump).1
    let restored := (restore config' r.dump).2
    result = .ok () ∧ restored.size = r.size ∧ restored.toList = r.toList ∧
    (∀ path, Option.Rel Match.Same (r.find path).1 (restored.find path).1) ∧
    r.table.Renumbers restored.table ∧
    ∀ p ∈ r.table.toList, ∀ q ∈ r.table.toList,
      ∀ p' ∈ restored.table.toList, ∀ q' ∈ restored.table.toList,
        p.pattern = p'.pattern → q.pattern = q'.pattern →
          (p.priority < q.priority ↔ p'.priority < q'.priority) := by
  intro r result restored
  have reachable : r.Reachable := Reachable.runSteps (.ofConfig config) steps
  have reachable' : restored.Reachable := Reachable.insertEach (.ofConfig config') r.dump
  have valid := reachable.valid
  have valid' := reachable'.valid
  have legible : r.table.Legible := legible_runSteps (.ofConfig config) Table.legible_empty steps
  obtain ⟨accepted, same⟩ := restore_dump_of_legible valid legible config'
  refine ⟨accepted, (same.size_eq valid valid').symm, (same.toList_eq valid valid').symm, ?_, same, ?_⟩
  · intro path
    rw [(reachable.coherent.find path).1, (reachable'.coherent.find path).1]
    exact same.find_same valid valid' path
  · intro p memP q memQ p' memP' q' memQ' sameP sameQ
    exact same.lt_iff valid valid' memP memQ memP' memQ' sameP sameQ

/-- A strict router takes back what is left after a mount and a removal. -/
theorem restore_dump_mounted :
    let steps : List (Step Nat) := [.insert .checked "/a" 1, .insert .checked "//b//\x7bx\x7d/" 2,
      .mount .checked "/b/" .default [.insert .checked "//\x7by\x7d/" 3], .remove "/a"]
    let r := (runSteps steps (ofConfig .default)).2
    let restored := (restore ⟨.disabled, true⟩ r.dump).2
    restored.size = 2 ∧ ∃ w ∈ (restored.find "/b//c/").1,
      w.route.resource = 2 ∧ w.captures.get? "x" = some (.one "c") := by
  intro steps r restored
  obtain ⟨-, size, -, finds, -⟩ := restore_dump .default ⟨.disabled, true⟩ steps
  have two : r.size = 2 := by decide +kernel
  have found : (r.find "/b//c/").1.map (fun m => (m.route.resource, m.captures.get? "x")) =
      some (2, some (.one "c")) := by
    decide +kernel
  obtain ⟨m, held, values⟩ := Option.map_eq_some_iff.mp found
  obtain ⟨resource, capture⟩ := Prod.mk.inj values
  have same := finds "/b//c/"
  rw [held] at same
  refine ⟨size.trans two, ?_⟩
  cases again : (restored.find "/b//c/").1 with
  | none =>
    rw [again] at same
    cases same
  | some w =>
    rw [again] at same
    cases same with
    | some same =>
      refine ⟨w, rfl, ?_, ?_⟩
      · exact (Route.entry_eq_iff.mp same.entry_eq).2.symm.trans resource
      · rw [← same.captures_eq]
        exact capture

end Router

end PathRouting

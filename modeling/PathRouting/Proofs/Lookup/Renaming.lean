import PathRouting.Proofs.Lookup.Twins
import PathRouting.Table.Script

/-!
# The names of placeholders

The names that placeholders bind have no part in routing. One pattern renames another one if it differs from it in
these names at most (`Pattern.Renames`); the two have one address then, and a table is changed and searched by
addresses. So two runs of a table whose patterns rename each other give answers that do, use by use
(`Table.useAll_renames`): the names alone differ in the routes and captures that they show.
-/

namespace PathRouting

variable {α : Type}

/-! ### Renaming -/

/-- A literal stays as it is, and a placeholder stays of its kind. -/
inductive Segment.Renames : Segment → Segment → Prop where
  | literal (text : String) : Renames (.literal text) (.literal text)
  | named (name other : String) : Renames (.named name) (.named other)
  | greedy (name other : String) : Renames (.greedy name) (.greedy other)

/-- One pattern is the other one with other names for its placeholders. -/
structure Pattern.Renames (p q : Pattern) : Prop where
  segments : List.Forall₂ Segment.Renames p.segments q.segments
  trailing_eq : p.trailing = q.trailing

/-- Two routes are the same registration, up to the names in its pattern. -/
structure Route.Renames (r s : Route α) : Prop where
  pattern : r.pattern.Renames s.pattern
  resource_eq : r.resource = s.resource
  priority_eq : r.priority = s.priority

/-- Two errors are of one kind, and the patterns they name rename each other. -/
inductive RouteError.Renames : RouteError → RouteError → Prop where
  | duplicateRoute {p q : Pattern} (pattern : p.Renames q) :
    Renames (.duplicateRoute p) (.duplicateRoute q)
  | routeNotFound {p q : Pattern} (pattern : p.Renames q) :
    Renames (.routeNotFound p) (.routeNotFound q)

/-- Two matches won with the same rank, and captured the same from left to right. -/
structure Match.Renames (m w : Match α) : Prop where
  route : m.route.Renames w.route
  specificity_eq : m.specificity = w.specificity
  values_eq : m.captures.entries.map Prod.snd = w.captures.entries.map Prod.snd

namespace Table

/-- Two uses are the same, up to the names in their pattern. -/
inductive Use.Renames : Use α → Use α → Prop where
  | insert {p q : Pattern} (pattern : p.Renames q) (resource : α) (strict : Bool) :
    Renames (.insert p resource strict) (.insert q resource strict)
  | remove {p q : Pattern} (pattern : p.Renames q) : Renames (.remove p) (.remove q)
  | get {p q : Pattern} (pattern : p.Renames q) : Renames (.get p) (.get q)
  | contains {p q : Pattern} (pattern : p.Renames q) : Renames (.contains p) (.contains q)
  | find (path : String) : Renames (.find path) (.find path)
  | clear : Renames .clear .clear

/-- Two answers are the same, up to the names in the routes and captures that they show. -/
inductive Reply.Renames : Reply α → Reply α → Prop where
  | failed {e f : RouteError} (error : e.Renames f) : Renames (.failed e) (.failed f)
  | inserted {r s : Option (Route α)} (previous : Option.Rel Route.Renames r s) :
    Renames (.inserted r) (.inserted s)
  | removed {r s : Route α} (route : r.Renames s) : Renames (.removed r) (.removed s)
  | route {r s : Option (Route α)} (route : Option.Rel Route.Renames r s) :
    Renames (.route r) (.route s)
  | truth (value : Bool) : Renames (.truth value) (.truth value)
  | found {m w : Option (Match α)} (result : Option.Rel Match.Renames m w) :
    Renames (.found m) (.found w)
  | done : Renames .done .done

end Table

/-- Segments rename each other if they have one key. -/
lemma Segment.renames_iff {s u : Segment} : s.Renames u ↔ s.key = u.key := by
  constructor
  · intro renames
    cases renames <;> rfl
  · intro same
    cases s <;> cases u <;> cases same <;> constructor

/-- To have one address is to differ in names at most. -/
lemma Pattern.renames_iff {p q : Pattern} : p.Renames q ↔ p.address = q.address := by
  have keys : List.Forall₂ Segment.Renames p.segments q.segments ↔
      p.segments.map Segment.key = q.segments.map Segment.key := by
    rw [← List.forall₂_eq_eq_eq, List.forall₂_map_left_iff, List.forall₂_map_right_iff]
    have same : Segment.Renames = fun s u => s.key = u.key := by
      funext s u
      exact propext Segment.renames_iff
    rw [same]
  rw [address, address, Address.mk.injEq, ← keys]
  constructor
  · rintro ⟨segments, trailing⟩
    exact ⟨segments, trailing⟩
  · rintro ⟨segments, trailing⟩
    exact ⟨segments, trailing⟩

/-- Routes that rename each other stand at one address. -/
lemma Route.Renames.address_eq {r s : Route α} (renames : r.Renames s) :
    r.pattern.address = s.pattern.address :=
  Pattern.renames_iff.mp renames.pattern

/-- Routes that rename each other rank alike. -/
lemma Route.Renames.specificity_eq {r s : Route α} (renames : r.Renames s) :
    r.specificity = s.specificity := by
  have literals := Route.literals_eq_of_address_eq renames.address_eq
  have named := Route.named_eq_of_address_eq renames.address_eq
  rw [specificity, specificity, Specificity.mk.injEq]
  exact ⟨literals, named, renames.priority_eq⟩

/-- What segments capture of a cut is told from their keys. -/
lemma Captures.map_snd_entriesOf_congr {segments others : List Segment}
    (same : segments.map Segment.key = others.map Segment.key) (blocks : List (List String)) :
    (entriesOf segments blocks).map Prod.snd = (entriesOf others blocks).map Prod.snd := by
  induction segments generalizing others blocks with
  | nil =>
    rw [List.map_eq_nil_iff.mp same.symm]
  | cons s segments ih =>
    obtain ⟨u, others, rfl, key, keys⟩ := List.map_eq_cons_iff.mp same.symm
    cases blocks with
    | nil => rfl
    | cons block blocks =>
      have here : (s.bind block).map Prod.snd = (u.bind block).map Prod.snd := by
        cases Segment.renames_iff.mpr key <;> simp [Segment.bind]
      show (s.bind block ++ entriesOf segments blocks).map Prod.snd =
        (u.bind block ++ entriesOf others blocks).map Prod.snd
      rw [List.map_append, List.map_append, here, ih keys.symm]

/-! ### Tables -/

/-- Registrations that rename each other, one by one, are found at the same addresses. -/
lemma Ledger.rel_lookup {routes routes' : List (Route α)} (renames : List.Forall₂ Route.Renames routes routes')
    (number number' : Nat) (address : Address) :
    Option.Rel Route.Renames (lookup ⟨routes, number⟩ address)
      (lookup ⟨routes', number'⟩ address) := by
  induction renames with
  | nil => exact .none
  | @cons r s routes routes' here _ ih =>
    rw [lookup, lookup, List.find?_cons, List.find?_cons, here.address_eq]
    cases s.pattern.address == address with
    | true => exact .some here
    | false => exact ih

namespace Table

variable {t u : Table α} {p q : Pattern}

/-- A strict insertion names the route that is in its place, and changes nothing. -/
lemma insert_of_held {existing : Route α} (held : t.get? p = some existing) (resource : α) :
    t.insert p resource true = (.error (.duplicateRoute existing.pattern), t) := by
  simp [insert, held]

/-- A removal that finds no route names the pattern it was given, and changes nothing. -/
lemma Valid.remove_of_vacant (valid : t.Valid) (vacant : t.get? p = none) :
    t.remove p = (.error (.routeNotFound p), t) := by
  rcases valid.remove_cases p with ⟨-, same⟩ | ⟨route, next, found, -⟩
  · exact same
  · cases vacant.symm.trans found

/-- A removal takes the route that it finds out of the ledger. -/
lemma Valid.remove_of_held (valid : t.Valid) {route : Route α} (held : t.get? p = some route) :
    ∃ next, t.remove p = (.ok route, next) ∧ next.Valid ∧ next.ledger = t.ledger.erase p.address := by
  have follows := (valid.remove p).valid
  rcases valid.remove_cases p with ⟨missing, -⟩ | ⟨other, next, found, gone, -, ledger, -⟩
  · cases missing.symm.trans held
  · cases found.symm.trans held
    rw [Table.run, gone] at follows
    exact ⟨next, gone, follows, ledger⟩

/-- Two tables hold the same registrations, up to the names in their patterns. -/
structure Renames (t u : Table α) : Prop where
  valid : t.Valid
  valid' : u.Valid
  routes : List.Forall₂ Route.Renames t.history u.history
  nextPriority_eq : t.nextPriority = u.nextPriority

namespace Renames

/-- Empty tables rename each other. -/
lemma empty : (empty : Table α).Renames .empty where
  valid := .empty
  valid' := .empty
  routes := by
    rw [history_empty]
    exact .nil
  nextPriority_eq := rfl

/-- Tables that rename each other are equally large. -/
lemma size_eq (renames : t.Renames u) : t.size = u.size := by
  rw [renames.valid.size_eq, renames.valid'.size_eq, renames.routes.length_eq]

/-- Patterns that rename each other find such routes, or both find none. -/
lemma get? (renames : t.Renames u) (pattern : p.Renames q) :
    Option.Rel Route.Renames (t.get? p) (u.get? q) := by
  rw [Table.get?, Table.get?, Pattern.renames_iff.mp pattern, ← renames.valid.lookup_ledger,
    ← renames.valid'.lookup_ledger]
  exact Ledger.rel_lookup renames.routes _ _ _

/-- Erasing one registration on each side leaves the others as they are. -/
lemma erase (renames : t.Renames u) (pattern : p.Renames q) :
    List.Forall₂ Route.Renames (t.ledger.erase p.address).routes (u.ledger.erase q.address).routes := by
  rw [Pattern.renames_iff.mp pattern]
  refine List.rel_filter ?_ renames.routes
  intro r s route
  show (r.pattern.address != q.address) = true ↔ (s.pattern.address != q.address) = true
  rw [route.address_eq]

/-- Registering one resource under both patterns keeps the tables alike. -/
lemma register (renames : t.Renames u) (pattern : p.Renames q) (resource : α) :
    (t.register p resource).2.Renames (u.register q resource).2 where
  valid := renames.valid.register p resource
  valid' := renames.valid'.register q resource
  routes := by
    have ledger := congrArg Ledger.routes (renames.valid.ledger_register p resource)
    have ledger' := congrArg Ledger.routes (renames.valid'.ledger_register q resource)
    rw [show (t.register p resource).2.history = _ from ledger,
      show (u.register q resource).2.history = _ from ledger', Ledger.record, Ledger.record]
    refine List.rel_append (renames.erase pattern) (.cons ?_ .nil)
    exact ⟨pattern, rfl, renames.nextPriority_eq⟩
  nextPriority_eq := congrArg (· + 1) renames.nextPriority_eq

/-- Clearing both tables keeps them alike. -/
lemma clear (renames : t.Renames u) : t.clear.Renames u.clear where
  valid := .clear
  valid' := .clear
  routes := by
    rw [history_clear, history_clear]
    exact .nil
  nextPriority_eq := renames.nextPriority_eq

/-- Both find the routes of one registration, in the same cut of the request. -/
lemma find (renames : t.Renames u) (path : String) :
    Option.Rel Match.Renames (t.find path) (u.find path) := by
  obtain ⟨pairs, first, second, all⟩ := exists_pairs renames.routes
  have twins : Twins t u pairs := ⟨first, second, fun e mem => (all e mem).address_eq⟩
  refine rel_imp (twins.find_rel renames.valid renames.valid' path) ?_
  intro m w ⟨pair, parallels⟩
  have route : m.route.Renames w.route := all _ pair
  obtain ⟨blocks, captures, captures'⟩ := parallels.cut
  constructor
  case route => exact route
  case specificity_eq =>
    rw [parallels.left_specificity_eq, parallels.right_specificity_eq, route.specificity_eq]
  case values_eq =>
    rw [captures, captures']
    exact Captures.map_snd_entriesOf_congr (Pattern.keys_eq_of_address_eq parallels.address_eq) blocks

/-! ### Runs -/

/-- An insertion succeeds on both sides or on neither, and keeps the tables alike. -/
lemma run_insert (renames : t.Renames u) (pattern : p.Renames q) (resource : α) (strict : Bool) :
    ((Use.insert p resource strict).run t).1.Renames ((Use.insert q resource strict).run u).1 ∧
      ((Use.insert p resource strict).run t).2.Renames ((Use.insert q resource strict).run u).2 := by
  have registered : (Reply.inserted (t.register p resource).1).Renames
      (.inserted (u.register q resource).1) := by
    rw [renames.valid.fst_register, renames.valid'.fst_register]
    exact .inserted (renames.get? pattern)
  have next := renames.register pattern resource
  rw [Use.run, Use.run]
  cases strict with
  | false => exact ⟨registered, next⟩
  | true =>
    -- a pattern and the one that renames it are vacant together or held together
    rcases rel_cases (renames.get? pattern) with ⟨vacant, vacant'⟩ | ⟨r, s, held, held', route⟩
    · rw [insert_of_vacant vacant, insert_of_vacant vacant']
      exact ⟨registered, next⟩
    · rw [insert_of_held held, insert_of_held held']
      exact ⟨.failed (.duplicateRoute route.pattern), renames⟩

/-- A removal succeeds on both sides or on neither, and keeps the tables alike. -/
lemma run_remove (renames : t.Renames u) (pattern : p.Renames q) :
    ((Use.remove p).run t).1.Renames ((Use.remove q).run u).1 ∧
      ((Use.remove p).run t).2.Renames ((Use.remove q).run u).2 := by
  rw [Use.run, Use.run]
  rcases rel_cases (renames.get? pattern) with ⟨vacant, vacant'⟩ | ⟨r, s, held, held', route⟩
  · rw [renames.valid.remove_of_vacant vacant, renames.valid'.remove_of_vacant vacant']
    exact ⟨.failed (.routeNotFound pattern), renames⟩
  · obtain ⟨next, gone, valid, ledger⟩ := renames.valid.remove_of_held held
    obtain ⟨next', gone', valid', ledger'⟩ := renames.valid'.remove_of_held held'
    rw [gone, gone']
    refine ⟨.removed route, valid, valid', ?_, ?_⟩
    · have erased := renames.erase pattern
      rw [← ledger, ← ledger'] at erased
      exact erased
    · have counter := congrArg Ledger.nextPriority ledger
      have counter' := congrArg Ledger.nextPriority ledger'
      exact counter.trans (renames.nextPriority_eq.trans counter'.symm)

/-- One use after another one answers alike, and keeps the tables alike. -/
lemma run (renames : t.Renames u) {use use' : Use α} (same : use.Renames use') :
    (use.run t).1.Renames (use'.run u).1 ∧ (use.run t).2.Renames (use'.run u).2 := by
  cases same with
  | insert pattern resource strict => exact renames.run_insert pattern resource strict
  | remove pattern => exact renames.run_remove pattern
  | get pattern => exact ⟨.route (renames.get? pattern), renames⟩
  | @contains p q pattern =>
    have same : t.contains p = u.contains q := by
      rw [Table.contains, Table.contains]
      rcases rel_cases (renames.get? pattern) with ⟨none, none'⟩ | ⟨r, s, held, held', -⟩
      · rw [none, none']
      · rw [held, held']
        rfl
    rw [Use.run, Use.run, same]
    exact ⟨.truth _, renames⟩
  | find path => exact ⟨.found (renames.find path), renames⟩
  | clear => exact ⟨.done, renames.clear⟩

/-- A run answers alike at every use, and keeps the tables alike. -/
lemma useAll (renames : t.Renames u) {uses uses' : List (Use α)}
    (same : List.Forall₂ Use.Renames uses uses') :
    List.Forall₂ (fun e f => e.1.Renames f.1 ∧ e.2 = f.2) (useAll uses t).1 (useAll uses' u).1 ∧
      (Table.useAll uses t).2.Renames (Table.useAll uses' u).2 := by
  induction same generalizing t u with
  | nil => exact ⟨.nil, renames⟩
  | cons here _ ih =>
    obtain ⟨reply, next⟩ := renames.run here
    obtain ⟨replies, last⟩ := ih next
    exact ⟨.cons ⟨reply, next.size_eq⟩ replies, last⟩

end Renames

/-- Let two runs of a table make the same uses, where the patterns of one run rename those of the other one, each as it
likes. Then every use succeeds in both or in neither, and its answers show the same resources, numbers, ranks and
captured tokens; after each use both tables have as many routes, and in the end they have the same ones. -/
theorem useAll_renames {uses uses' : List (Use α)} (same : List.Forall₂ Use.Renames uses uses') :
    List.Forall₂ (fun e f => e.1.Renames f.1 ∧ e.2 = f.2) (useAll uses .empty).1
      (useAll uses' .empty).1 ∧
    List.Forall₂ Route.Renames (useAll uses .empty).2.history (useAll uses' .empty).2.history := by
  obtain ⟨replies, last⟩ := Renames.empty.useAll same
  exact ⟨replies, last.routes⟩

/-- A name may be used for another placeholder in the other run. A strict registration is refused in both, although
its pattern is none that was registered, and a removal finds its route under a third name. -/
theorem useAll_renames_swapped :
    let p (x : String) : Pattern := ⟨[.named x, .literal "x"], .no, by simp, List.nodup_singleton x,
      by simp [endsGreedy, Segment.isGreedy]⟩
    let q : Pattern := ⟨[.named "a", .greedy "b"], .indeterminate, by decide, by decide, by decide⟩
    let q' : Pattern := ⟨[.named "b", .greedy "a"], .indeterminate, by decide, by decide, by decide⟩
    let uses : List (Use Nat) := [.insert (p "a") 0 true, .insert q 1 true, .insert (p "b") 2 true,
      .find "/c/y/z", .remove (p "c"), .contains (p "d")]
    let uses' : List (Use Nat) := [.insert (p "b") 0 true, .insert q' 1 true, .insert (p "a") 2 true,
      .find "/c/y/z", .remove (p "a"), .contains (p "b")]
    (useAll uses .empty).1.map Prod.snd = [1, 2, 2, 2, 1, 1] ∧
    List.Forall₂ (fun e f => e.1.Renames f.1 ∧ e.2 = f.2) (useAll uses .empty).1
      (useAll uses' .empty).1 := by
  intro p q q' uses uses'
  have renames (x y : String) : (p x).Renames (p y) := ⟨.cons (.named x y) (.cons (.literal "x") .nil), rfl⟩
  have renames' : q.Renames q' := ⟨.cons (.named _ _) (.cons (.greedy _ _) .nil), rfl⟩
  have same : List.Forall₂ Use.Renames uses uses' :=
    .cons (.insert (renames _ _) 0 true) <| .cons (.insert renames' 1 true) <|
    .cons (.insert (renames _ _) 2 true) <| .cons (.find _) <| .cons (.remove (renames _ _)) <|
    .cons (.contains (renames _ _)) .nil
  exact ⟨by decide +kernel, (useAll_renames same).1⟩

end Table

end PathRouting

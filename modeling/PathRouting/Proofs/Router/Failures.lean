import PathRouting.Proofs.Router.Coherence
import PathRouting.Proofs.Table.Mounting

/-!
# Failed changes of a router

A change of a router reads its pattern first and then asks the table. `Router.InsertFails`,
`Router.RemoveFails` and `Router.MountFails` say which error this comes to, in terms of the routes that
the table has. After any uses a change fails with exactly these errors, and a router that refuses a
change is the same as before, its cache and its counters included (`Router.after_fails_iff`).
-/

namespace PathRouting

variable {α : Type}

/-! ### Errors of a table -/

namespace Table

variable {t : Table α}

/-- A pattern gets the route that is listed at its address. -/
lemma Indexed.get?_eq_some_iff (indexed : t.Indexed) {pattern : Pattern} {route : Route α} :
    t.get? pattern = some route ↔
      route ∈ t.toList ∧ route.pattern.address = pattern.address := by
  rw [indexed.mem_toList_iff]
  constructor
  · intro held
    have placed := indexed.placed held
    refine ⟨?_, placed⟩
    rwa [get?, placed]
  · rintro ⟨held, placed⟩
    rwa [get?, placed] at held

/-- A pattern gets nothing exactly if no route is listed at its address. -/
lemma Indexed.get?_eq_none_iff (indexed : t.Indexed) {pattern : Pattern} :
    t.get? pattern = none ↔ ∀ route ∈ t.toList, route.pattern.address ≠ pattern.address := by
  rw [Option.eq_none_iff_forall_ne_some]
  apply forall_congr'
  intro route
  rw [ne_eq, indexed.get?_eq_some_iff, not_and]

/-- An insertion fails exactly if it is strict and the address is taken. -/
lemma insert_eq_error_iff {pattern : Pattern} {resource : α} {strict : Bool} {error : RouteError} :
    (t.insert pattern resource strict).1 = .error error ↔ strict = true ∧
      ∃ existing, t.get? pattern = some existing ∧ error = .duplicateRoute existing.pattern := by
  cases strict with
  | false => simp [insert]
  | true => cases h : t.get? pattern <;> simp [insert, h, eq_comm]

/-- A removal fails exactly if there is no route to remove. -/
lemma Indexed.remove_eq_error_iff (indexed : t.Indexed) {pattern : Pattern} {error : RouteError} :
    (t.remove pattern).1 = .error error ↔
      t.get? pattern = none ∧ error = .routeNotFound pattern := by
  rcases indexed.remove_cases pattern with ⟨missing, same⟩ | ⟨_, _, found, gone, -⟩
  · simp [missing, same, eq_comm]
  · simp [found, gone]

/-- A check fails at a name that is used twice or, if it is strict, at an address that is taken. -/
lemma stage_eq_error_iff {base : Pattern} {strict : Bool} {q : Route α} {error : RouteError} :
    t.stage base strict q = .error error ↔
      (∃ name, firstRepeat [] (base.names ++ q.pattern.names) = some name ∧
        error = .pattern (base.display ++ q.pattern.display) (.duplicateAlias name)) ∨
      strict = true ∧ ∃ joined existing, base.join q.pattern = .ok joined ∧
        t.get? joined = some existing ∧ error = .duplicateRoute joined := by
  have repeated : ∀ cause, base.join q.pattern = .error cause ↔ _ :=
    fun cause => Pattern.join_eq_error_iff
  rw [stage]
  cases h : base.join q.pattern with
  | error cause =>
    obtain ⟨name, first, rfl⟩ := (repeated cause).mp h
    simp [first, eq_comm]
  | ok joined =>
    have none : ∀ name, firstRepeat [] (base.names ++ q.pattern.names) ≠ some name := by
      intro name first
      cases h.symm.trans ((repeated _).mpr ⟨name, first, rfl⟩)
    cases strict with
    | false => simp [none]
    | true => cases g : t.get? joined <;> simp [none, contains, g, eq_comm]

end Table

namespace Router

variable {r : Router α}

/-! ### Valid tables -/

/-- A router takes over the table of a change, whether it succeeded or not. -/
lemma table_settle {ε β : Type} (r : Router α) (change : Except ε β × Table α) :
    (r.settle change).2.table = change.2 := by
  obtain ⟨result, table⟩ := change
  cases result <;> rfl

/-- A lookup leaves the routes alone. -/
lemma table_find (r : Router α) (path : String) : (r.find path).2.table = r.table := by
  simp only [find, resolve]
  split <;> rfl

/-- A router whose pattern is malformed keeps its table. -/
lemma valid_withPattern {β : Type} (valid : r.table.Valid) (text : String)
    {next : Pattern → Except RouteError β × Router α}
    (changed : ∀ pattern, (next pattern).2.table.Valid) :
    (r.withPattern text next).2.table.Valid := by
  rw [Router.withPattern]
  cases Route.parsePattern text with
  | error error => exact valid
  | ok pattern => exact changed pattern

/-- A mount keeps the table valid. -/
lemma valid_mount (valid : r.table.Valid) (base : String) (other : Router α) :
    (r.mount base other).2.table.Valid := by
  apply valid_withPattern valid
  intro pattern
  rw [table_settle]
  exact (valid.mount pattern _ other.table).valid

/-- Every use of a router keeps its table valid. -/
lemma valid_use (valid : r.table.Valid) (use : Use α) : (r.use use).table.Valid := by
  cases use with
  | find path =>
    rw [Router.use, table_find]
    exact valid
  | isCached path => exact valid
  | insert text resource =>
    apply valid_withPattern valid
    intro pattern
    rw [table_settle]
    exact (valid.insert pattern resource _).valid
  | remove text =>
    apply valid_withPattern valid
    intro pattern
    rw [table_settle]
    exact (valid.remove pattern).valid
  | mount base other => exact valid_mount valid base other
  | nest base build => exact valid_mount valid base (build r.nested)
  | clear => exact .clear
  | copy => exact valid
  | rebuild => exact valid

/-- Any uses keep the table valid. -/
lemma valid_foldl_use (valid : r.table.Valid) (uses : List (Use α)) :
    (uses.foldl Router.use r).table.Valid := by
  induction uses generalizing r with
  | nil => exact valid
  | cons use uses ih => exact ih (valid_use valid use)

/-- So the table of a router is valid after any uses. -/
lemma valid_after (config : Config) (uses : List (Use α)) : (after config uses).table.Valid :=
  valid_foldl_use .empty uses

/-! ### What fails -/

/-- The errors of a registration. -/
inductive InsertFails (r : Router α) (text : String) : RouteError → Prop where
  | malformed {cause} (malformed : Pattern.parse text = .error cause) :
    InsertFails r text (.pattern text cause)
  | taken {pattern existing} (parsed : Pattern.parse text = .ok pattern)
      (strict : r.config.strict = true) (registered : existing ∈ r.table.toList)
      (same : existing.pattern.address = pattern.address) :
    InsertFails r text (.duplicateRoute existing.pattern)

/-- The errors of a removal. -/
inductive RemoveFails (r : Router α) (text : String) : RouteError → Prop where
  | malformed {cause} (malformed : Pattern.parse text = .error cause) :
    RemoveFails r text (.pattern text cause)
  | vacant {pattern} (parsed : Pattern.parse text = .ok pattern)
      (vacant : ∀ route ∈ r.table.toList, route.pattern.address ≠ pattern.address) :
    RemoveFails r text (.routeNotFound pattern)

/-- The errors of a route that is to be mounted below a base. -/
inductive Refuses (r : Router α) (base : Pattern) (q : Route α) : RouteError → Prop where
  | clash {name} (repeated : firstRepeat [] (base.names ++ q.pattern.names) = some name) :
    Refuses r base q (.pattern (base.display ++ q.pattern.display) (.duplicateAlias name))
  | taken {joined existing} (strict : r.config.strict = true)
      (join : base.join q.pattern = .ok joined) (registered : existing ∈ r.table.toList)
      (same : existing.pattern.address = joined.address) :
    Refuses r base q (.duplicateRoute joined)

/-- The errors of a mount: of several routes that are refused, that of the first one registered. -/
inductive MountFails (r : Router α) (text : String) (other : Router α) : RouteError → Prop where
  | malformed {cause} (malformed : Pattern.parse text = .error cause) :
    MountFails r text other (.pattern text cause)
  | refused {base front q back error} (parsed : Pattern.parse text = .ok base)
      (split : other.table.history = front ++ q :: back)
      (before : ∀ s ∈ front, ∀ e, ¬Refuses r base s e) (refuses : Refuses r base q error) :
    MountFails r text other error

/-- The check of a mount refuses a route exactly for the errors of `Refuses`. -/
lemma stage_eq_error_iff_refuses (valid : r.table.Valid) {base : Pattern} {q : Route α}
    {error : RouteError} :
    r.table.stage base r.config.strict q = .error error ↔ r.Refuses base q error := by
  rw [Table.stage_eq_error_iff]
  constructor
  · rintro (⟨name, repeated, rfl⟩ | ⟨strict, joined, existing, join, held, rfl⟩)
    · exact .clash repeated
    · obtain ⟨registered, same⟩ := valid.get?_eq_some_iff.mp held
      exact .taken strict join registered same
  · intro refuses
    cases refuses with
    | clash repeated => exact .inl ⟨_, repeated, rfl⟩
    | taken strict join registered same =>
      exact .inr ⟨strict, _, _, join, valid.get?_eq_some_iff.mpr ⟨registered, same⟩, rfl⟩

/-! ### What is left -/

section Outcomes

variable {β : Type} {error : RouteError} {next : Router α}

/-- A change with a pattern fails as the reading of the pattern does, or else as itself. -/
lemma withPattern_eq_error_iff {text : String} {change : Pattern → Except RouteError β × Router α} :
    r.withPattern text change = (.error error, next) ↔
      (∃ cause, Pattern.parse text = .error cause ∧ error = .pattern text cause ∧ next = r) ∨
      ∃ pattern, Pattern.parse text = .ok pattern ∧ change pattern = (.error error, next) := by
  rw [withPattern, Route.parsePattern]
  cases Pattern.parse text with
  | error cause => simp [Except.mapError, eq_comm]
  | ok pattern => simp [Except.mapError]

/-- A router that settles a failed change of its table is as before, if the table is. -/
lemma settle_eq_error_iff {change : Except RouteError β × Table α}
    (undone : r.table.Undone change) :
    r.settle change = (.error error, next) ↔ change.1 = .error error ∧ next = r := by
  obtain ⟨result, table⟩ := change
  cases result with
  | ok value => simp [settle]
  | error refusal =>
    have same : table = r.table := undone refusal rfl
    subst same
    rw [settle, Prod.mk.injEq, eq_comm (a := next)]

/-- The value of a change that succeeds has no part in its failure. -/
lemma map_eq_error_iff {γ : Type} {f : β → γ} {change : Except RouteError β × Router α} :
    (change.1.map f, change.2) = (.error error, next) ↔ change = (.error error, next) := by
  obtain ⟨result, router⟩ := change
  cases result <;> simp [Except.map]

/-- An insertion by text fails exactly with the errors of `InsertFails`, and changes nothing then. -/
lemma insert_eq_error_iff (valid : r.table.Valid) {text : String} {resource : α} :
    r.insert text resource = (.error error, next) ↔ r.InsertFails text error ∧ next = r := by
  rw [Router.insert, withPattern_eq_error_iff]
  simp only [map_eq_error_iff, settle_eq_error_iff (Table.undone_insert _ _ _),
    Table.insert_eq_error_iff]
  constructor
  · rintro (⟨cause, malformed, rfl, rfl⟩ | ⟨p, parsed, ⟨strict, existing, held, rfl⟩, rfl⟩)
    · exact ⟨.malformed malformed, rfl⟩
    · obtain ⟨registered, same⟩ := valid.get?_eq_some_iff.mp held
      exact ⟨.taken parsed strict registered same, rfl⟩
  · rintro ⟨fails, rfl⟩
    cases fails with
    | malformed malformed => exact .inl ⟨_, malformed, rfl, rfl⟩
    | taken parsed strict registered same =>
      have held := valid.get?_eq_some_iff.mpr ⟨registered, same⟩
      exact .inr ⟨_, parsed, ⟨strict, _, held, rfl⟩, rfl⟩

/-- A removal by text fails exactly with the errors of `RemoveFails`, and changes nothing then. -/
lemma remove_eq_error_iff (valid : r.table.Valid) {text : String} :
    r.remove text = (.error error, next) ↔ r.RemoveFails text error ∧ next = r := by
  rw [Router.remove, withPattern_eq_error_iff]
  simp only [map_eq_error_iff, settle_eq_error_iff (Table.undone_remove _),
    valid.remove_eq_error_iff, valid.get?_eq_none_iff]
  constructor
  · rintro (⟨cause, malformed, rfl, rfl⟩ | ⟨p, parsed, ⟨vacant, rfl⟩, rfl⟩)
    · exact ⟨.malformed malformed, rfl⟩
    · exact ⟨.vacant parsed vacant, rfl⟩
  · rintro ⟨fails, rfl⟩
    cases fails with
    | malformed malformed => exact .inl ⟨_, malformed, rfl, rfl⟩
    | vacant parsed vacant => exact .inr ⟨_, parsed, ⟨vacant, rfl⟩, rfl⟩

/-- A mount by text fails exactly with the errors of `MountFails`, and changes nothing then. -/
lemma mount_eq_error_iff (valid : r.table.Valid) {text : String} {other : Router α} :
    r.mount text other = (.error error, next) ↔ r.MountFails text other error ∧ next = r := by
  have passed : ∀ base (s : Route α), (∃ e, r.table.stage base r.config.strict s = .ok e) ↔
      ∀ e, ¬r.Refuses base s e := by
    intro base s
    simp only [← stage_eq_error_iff_refuses valid]
    cases r.table.stage base r.config.strict s <;> simp
  rw [Router.mount, withPattern_eq_error_iff]
  simp only [settle_eq_error_iff (Table.undone_mount _ _ _), Table.mount_eq_error_iff, passed,
    stage_eq_error_iff_refuses valid]
  constructor
  · rintro (⟨cause, malformed, rfl, rfl⟩ | ⟨p, parsed, ⟨_, _, _, split, before, refuses⟩, rfl⟩)
    · exact ⟨.malformed malformed, rfl⟩
    · exact ⟨.refused parsed split before refuses, rfl⟩
  · rintro ⟨fails, rfl⟩
    cases fails with
    | malformed malformed => exact .inl ⟨_, malformed, rfl, rfl⟩
    | refused parsed split before refuses =>
      exact .inr ⟨_, parsed, ⟨_, _, _, split, before, refuses⟩, rfl⟩

end Outcomes

/-- After any uses a change fails with the errors that the routes of the router account for, and with no
other; the router that refuses it is the same as before. -/
theorem after_fails_iff (config : Config) (uses : List (Use α)) (error : RouteError)
    (next : Router α) :
    let r := after config uses
    (∀ text resource,
      r.insert text resource = (.error error, next) ↔ r.InsertFails text error ∧ next = r) ∧
    (∀ text, r.remove text = (.error error, next) ↔ r.RemoveFails text error ∧ next = r) ∧
    (∀ text other,
      r.mount text other = (.error error, next) ↔ r.MountFails text other error ∧ next = r) ∧
    ∀ text build,
      r.nest text build = (.error error, next) ↔
        r.MountFails text (build r.nested) error ∧ next = r :=
  have valid := valid_after config uses
  ⟨fun _ _ => insert_eq_error_iff valid, fun _ => remove_eq_error_iff valid,
    fun _ _ => mount_eq_error_iff valid, fun _ _ => mount_eq_error_iff valid⟩

end Router

end PathRouting

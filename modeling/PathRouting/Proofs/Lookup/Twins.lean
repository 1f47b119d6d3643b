import PathRouting.Proofs.Lookup.Mounts

/-!
# Tables with routes at the same addresses

Two tables are twins if their routes are pairs, each at one address, in the order of both registrations
(`Table.Twins`). A lookup reads of a pattern its address alone, and of the numbers their order alone: a request is cut
alike along both patterns of a pair (`Pattern.Longest.of_address_eq`), and pairs are ranked alike. So twins find
the two routes of one pair, in the same cut (`Table.Twins.find_rel`).
-/

namespace PathRouting

variable {α : Type}

/-! ### Related results -/

section

variable {β γ : Type} {R S : β → γ → Prop} {x : Option β} {y : Option γ}

/-- Of two related results none is there, or both are. -/
lemma rel_cases (related : Option.Rel R x y) :
    (x = none ∧ y = none) ∨ ∃ b c, x = some b ∧ y = some c ∧ R b c := by
  cases related with
  | none => exact .inl ⟨rfl, rfl⟩
  | some related => exact .inr ⟨_, _, rfl, rfl, related⟩

/-- Results that are related one way are related every way that follows from it. -/
lemma rel_imp (related : Option.Rel R x y) (imp : ∀ b c, R b c → S b c) : Option.Rel S x y := by
  cases related with
  | none => exact .none
  | some related => exact .some (imp _ _ related)

end

/-! ### Patterns at one address -/

namespace Pattern

variable {p q : Pattern} {request : RequestPath} {tokens : List String} {blocks : List (List String)}

/-- Patterns at one address have the same keys. -/
lemma keys_eq_of_address_eq (same : p.address = q.address) :
    p.segments.map Segment.key = q.segments.map Segment.key :=
  congrArg Address.keys same

/-- Patterns at one address have the same mark. -/
lemma trailing_eq_of_address_eq (same : p.address = q.address) : p.trailing = q.trailing :=
  congrArg Address.trailing same

/-- Patterns at one address have the same cuts. -/
lemma Cuts.of_address_eq (same : p.address = q.address) (cuts : p.Cuts tokens blocks) :
    q.Cuts tokens blocks := by
  have takes := forall₂_takes_iff.mpr cuts.takes
  rw [keys_eq_of_address_eq same] at takes
  exact ⟨forall₂_takes_iff.mp takes, cuts.flatten⟩

/-- What matches a request has every other pattern at its address match it, too. -/
lemma Matches.of_address_eq (same : p.address = q.address) (fits : p.Matches request) :
    q.Matches request := by
  obtain ⟨⟨blocks, cuts⟩, admits⟩ := fits
  rw [trailing_eq_of_address_eq same] at admits
  exact ⟨⟨blocks, cuts.of_address_eq same⟩, admits⟩

/-- Patterns at one address match the same requests. -/
lemma matches_iff_of_address_eq (same : p.address = q.address) :
    p.Matches request ↔ q.Matches request :=
  ⟨Matches.of_address_eq same, Matches.of_address_eq same.symm⟩

/-- The greedy runs of a cut are told from the keys of the segments. -/
lemma greedyRuns_congr {segments others : List Segment}
    (same : segments.map Segment.key = others.map Segment.key) (blocks : List (List String)) :
    greedyRuns segments blocks = greedyRuns others blocks := by
  induction segments generalizing others blocks with
  | nil =>
    rw [List.map_eq_nil_iff.mp same.symm]
  | cons s segments ih =>
    obtain ⟨u, others, rfl, key, keys⟩ := List.map_eq_cons_iff.mp same.symm
    have greedy : u.isGreedy = s.isGreedy := by
      rw [← Segment.isGreedy_key, key, Segment.isGreedy_key]
    cases blocks with
    | nil => rfl
    | cons block blocks => rw [greedyRuns, greedyRuns, greedy, ih keys.symm]

/-- Along patterns at one address a request has the same longest cut. -/
lemma Longest.of_address_eq (same : p.address = q.address) (longest : p.Longest tokens blocks) :
    q.Longest tokens blocks where
  cuts := longest.cuts.of_address_eq same
  longest := by
    intro others cuts
    have runs := greedyRuns_congr (keys_eq_of_address_eq same)
    rw [← runs, ← runs]
    exact longest.longest others (cuts.of_address_eq same.symm)

end Pattern

namespace Route

variable {q r q' r' : Route α}

/-- Routes at one address have equally many literals. -/
lemma literals_eq_of_address_eq (same : q.pattern.address = r.pattern.address) :
    q.specificity.literals = r.specificity.literals := by
  have counted : ∀ r : Route α,
      r.specificity.literals = (r.pattern.segments.map Segment.key).countP Key.isLiteral := by
    intro r
    rw [List.countP_map, specificity]
    simp only [Function.comp_def, Segment.isLiteral_key]
  rw [counted, counted, Pattern.keys_eq_of_address_eq same]

/-- Routes at one address have equally many named placeholders. -/
lemma named_eq_of_address_eq (same : q.pattern.address = r.pattern.address) :
    q.specificity.named = r.specificity.named := by
  have counted : ∀ r : Route α,
      r.specificity.named = (r.pattern.segments.map Segment.key).countP Key.isNamed := by
    intro r
    rw [List.countP_map, specificity]
    simp only [Function.comp_def, Segment.isNamed_key]
  rw [counted, counted, Pattern.keys_eq_of_address_eq same]

/-- Of the numbers only their order counts for the ranks. -/
lemma compare_specificity_of_address_eq (same : q.pattern.address = r.pattern.address)
    (same' : q'.pattern.address = r'.pattern.address) (alike : Alike (q, r) (q', r')) :
    compare q.specificity q'.specificity = compare r.specificity r'.specificity := by
  rw [Specificity.compare_eq, Specificity.compare_eq, literals_eq_of_address_eq same,
    literals_eq_of_address_eq same', named_eq_of_address_eq same, named_eq_of_address_eq same']
  exact congrArg _ (congrArg _ alike)

end Route

/-! ### Twins -/

/-- Two matches stand at one address, and their captures tell of one cut. -/
structure Match.Parallels (m w : Match α) : Prop where
  address_eq : m.route.pattern.address = w.route.pattern.address
  left_specificity_eq : m.specificity = m.route.specificity
  right_specificity_eq : w.specificity = w.route.specificity
  cut : ∃ blocks, m.captures = ⟨Captures.entriesOf m.route.pattern.segments blocks⟩ ∧
    w.captures = ⟨Captures.entriesOf w.route.pattern.segments blocks⟩

namespace Match.Parallels

variable {m w : Match α}

/-- Parallel matches won with equally many literals. -/
lemma literals_eq (parallels : m.Parallels w) : m.specificity.literals = w.specificity.literals := by
  rw [parallels.left_specificity_eq, parallels.right_specificity_eq]
  exact Route.literals_eq_of_address_eq parallels.address_eq

/-- Parallel matches won with equally many named placeholders. -/
lemma named_eq (parallels : m.Parallels w) : m.specificity.named = w.specificity.named := by
  rw [parallels.left_specificity_eq, parallels.right_specificity_eq]
  exact Route.named_eq_of_address_eq parallels.address_eq

end Match.Parallels

namespace Table

/-- The routes of two tables are pairs, the routes of a pair at one address. -/
structure Twins (t next : Table α) (pairs : List (Route α × Route α)) : Prop where
  first : pairs.map Prod.fst = t.history
  second : pairs.map Prod.snd = next.history
  address_eq : ∀ e ∈ pairs, e.1.pattern.address = e.2.pattern.address

namespace Twins

variable {t next : Table α} {pairs : List (Route α × Route α)} {path : String} {m w : Match α}
  (twins : Twins t next pairs) (valid : t.Valid) (valid' : next.Valid)

include twins valid valid'

/-- Twins find something for the same paths. -/
lemma isSome_find_iff (path : String) : (t.find path).isSome ↔ (next.find path).isSome := by
  rw [valid.find_isSome_iff, valid'.find_isSome_iff]
  constructor
  · rintro ⟨q, mem, fits⟩
    obtain ⟨e, memE, rfl⟩ := (mem_toList_iff_of_map twins.first).mp mem
    exact ⟨e.2, (mem_toList_iff_of_map twins.second).mpr ⟨e, memE, rfl⟩,
      (Pattern.matches_iff_of_address_eq (twins.address_eq e memE)).mp fits⟩
  · rintro ⟨r, mem, fits⟩
    obtain ⟨e, memE, rfl⟩ := (mem_toList_iff_of_map twins.second).mp mem
    exact ⟨e.1, (mem_toList_iff_of_map twins.first).mpr ⟨e, memE, rfl⟩,
      (Pattern.matches_iff_of_address_eq (twins.address_eq e memE)).mpr fits⟩

/-- The routes that twins find are a pair. -/
lemma mem_pairs_of_find (found : t.find path = some m) (found' : next.find path = some w) :
    (m.route, w.route) ∈ pairs := by
  have alike := valid.alike valid'.toIndexed twins.first twins.second
  refine mem_pairs_of_isBest twins.first twins.second ?_ ?_ (valid.isBest found)
    (valid'.isBest found')
  · intro e mem
    exact (Pattern.matches_iff_of_address_eq (twins.address_eq e mem)).symm
  · intro e memE f memF _ _
    exact Route.compare_specificity_of_address_eq (twins.address_eq e memE) (twins.address_eq f memF)
      (alike e memE f memF)

/-- The winners are a pair, and the longest cut along the one is that along the other. -/
lemma parallels_of_find (found : t.find path = some m) (found' : next.find path = some w) :
    m.Parallels w := by
  have address := twins.address_eq _ (twins.mem_pairs_of_find valid valid' found found')
  obtain ⟨blocks, longest, captures⟩ := valid.exists_longest found
  obtain ⟨blocks', longest', captures'⟩ := valid'.exists_longest found'
  -- the longest cut of the one is the longest cut of the other, and there is only one
  rw [longest'.unique (longest.of_address_eq address)] at captures'
  exact ⟨address, (valid.isBest found).specificity_eq, (valid'.isBest found').specificity_eq,
    blocks, captures, captures'⟩

/-- Twins find nothing both, or a pair. -/
lemma find_rel (path : String) :
    Option.Rel (fun m w => (m.route, w.route) ∈ pairs ∧ m.Parallels w) (t.find path)
      (next.find path) := by
  have some_iff := twins.isSome_find_iff valid valid' path
  cases found : t.find path with
  | none =>
    cases found' : next.find path with
    | none => exact .none
    | some w => simp [found, found'] at some_iff
  | some m =>
    cases found' : next.find path with
    | none => simp [found, found'] at some_iff
    | some w =>
      exact .some ⟨twins.mem_pairs_of_find valid valid' found found',
        twins.parallels_of_find valid valid' found found'⟩

end Twins

end Table

end PathRouting

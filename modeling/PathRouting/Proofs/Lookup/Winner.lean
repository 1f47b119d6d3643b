import PathRouting.Lookup.Search
import PathRouting.Proofs.Lookup.Search
import PathRouting.Proofs.Table.Refinement

/-!
# The winner of a lookup

On a valid table the complete matches of a search are the routes that match the request, with all their
cuts: `Valid.genuine` and `Valid.exists_hit`. So a lookup finds a route exactly if one matches, and the
one it finds is the most specific of them (`find_isBest`).
-/

namespace PathRouting

variable {α : Type}

/-- A hit is a route of the table with a cut of the request. -/
structure Hit.Genuine (t : Table α) (request : RequestPath) (h : Hit α) : Prop where
  stored : t.get? h.route.pattern = some h.route
  keys : h.route.pattern.segments.map Segment.key = h.split.keys
  slot : h.route.pattern.trailing = h.slot
  more : h.split.more = []
  cuts : h.route.pattern.Cuts request.tokens h.split.blocks
  trailing : h.route.pattern.trailing.Admits request.endsWithSlash

/-- The search ranks a hit as the route is ranked. -/
lemma Hit.Genuine.specificity_eq {t : Table α} {request : RequestPath} {h : Hit α}
    (genuine : h.Genuine t request) : h.found.specificity = h.route.specificity := by
  rw [Hit.found, Route.specificity, ← genuine.keys, List.countP_map, List.countP_map]
  simp only [Function.comp_def, Segment.isLiteral_key, Segment.isNamed_key]

/-- The match is the best among those of a table for a request. -/
structure Match.IsBest (t : Table α) (request : RequestPath) (m : Match α) : Prop where
  registered : m.route ∈ t.toList
  fits : m.route.pattern.Matches request
  specificity_eq : m.specificity = m.route.specificity
  above : ∀ r ∈ t.toList, r.pattern.Matches request → r ≠ m.route →
    compare r.specificity m.route.specificity = .lt

namespace Table

variable {t : Table α} {request : RequestPath}

/-- On a valid table every hit is a route of the table with a cut of the request. -/
lemma Valid.genuine (valid : t.Valid) {h : Hit α} (mem : h ∈ Search.hits t.trie request) :
    h.Genuine t request := by
  obtain ⟨split, mark, held⟩ := Search.mem_hits_iff.mp mem
  obtain ⟨flatten, -, takes, leads⟩ :=
    (valid.wellFormed.mem_splits_iff Trie.locate_nil).mp split
  have stored : t.trie.get? ⟨h.split.keys, h.slot⟩ = some h.route := by
    rw [Trie.get?, Trie.locate, leads]
    exact held
  have placed := valid.placed stored
  have keys : h.route.pattern.segments.map Segment.key = h.split.keys :=
    congrArg Address.keys placed
  have slot : h.route.pattern.trailing = h.slot := congrArg Address.trailing placed
  have none := valid.wellFormed.labelled.more_eq_nil split
  constructor
  case stored => rw [get?, placed, stored]
  case keys => exact keys
  case slot => exact slot
  case more => exact none
  case cuts =>
    rw [← keys] at takes
    rw [none] at flatten
    exact ⟨Pattern.forall₂_takes_iff.mp takes, flatten⟩
  case trailing => rwa [slot]

/-- Every cut along the pattern of a route that is registered and fits the end of the path is a hit. -/
lemma Valid.exists_hit (valid : t.Valid) {r : Route α} (stored : t.get? r.pattern = some r)
    {blocks : List (List String)} (cuts : r.pattern.Cuts request.tokens blocks)
    (trailing : r.pattern.trailing.Admits request.endsWithSlash) :
    ∃ h ∈ Search.hits t.trie request, h.route = r ∧ h.split.blocks = blocks := by
  obtain ⟨node, leads, held⟩ := Trie.locate_of_get? stored
  obtain ⟨takes, flatten⟩ := cuts
  have takes := Pattern.forall₂_takes_iff.mpr takes
  have length := takes.length_eq
  have first : ((r.pattern.segments.map Segment.key).zip blocks).map Prod.fst =
      r.pattern.segments.map Segment.key := List.map_fst_zip (Nat.le_of_eq length)
  have second : ((r.pattern.segments.map Segment.key).zip blocks).map Prod.snd = blocks :=
    List.map_snd_zip (Nat.le_of_eq length.symm)
  refine ⟨⟨⟨[], (r.pattern.segments.map Segment.key).zip blocks, node⟩, r.pattern.trailing, r⟩, ?_,
    rfl, second⟩
  rw [Search.mem_hits_iff]
  refine ⟨?_, trailing, held⟩
  rw [valid.wellFormed.mem_splits_iff Trie.locate_nil]
  constructor
  case flatten => rwa [Split.blocks, second]
  case greedy => exact fun ne => absurd rfl ne
  case takes => rwa [Split.keys, Split.blocks, first, second]
  case leads =>
    rw [Split.keys, first]
    exact leads

/-- A registered route matches a request exactly if it is hit. -/
lemma Valid.matches_iff (valid : t.Valid) {r : Route α} (stored : t.get? r.pattern = some r) :
    r.pattern.Matches request ↔ ∃ h ∈ Search.hits t.trie request, h.route = r := by
  constructor
  · intro ⟨⟨blocks, cuts⟩, trailing⟩
    obtain ⟨h, mem, same, -⟩ := valid.exists_hit stored cuts trailing
    exact ⟨h, mem, same⟩
  · rintro ⟨h, mem, rfl⟩
    have genuine := valid.genuine mem
    exact ⟨⟨_, genuine.cuts⟩, genuine.trailing⟩

/-- No two routes of a valid table are equally specific. -/
lemma Valid.specificity_inj (valid : t.Valid) {r s : Route α} (hr : t.get? r.pattern = some r)
    (hs : t.get? s.pattern = some s) (same : r.specificity = s.specificity) : r = s := by
  have address := valid.apart hr hs (congrArg Specificity.priority same)
  rw [get?, address] at hr
  exact Option.some.inj (hr.symm.trans hs)

/-- A lookup captures what the winner of the search took. -/
lemma find_of_best {path : String} {found : Found α} (best : Search.best t path = some found) :
    t.find path = some ⟨found.route, found.specificity,
      Captures.ofTrail found.route.pattern found.trail⟩ := by
  have held := Trie.value?_eq_some_iff.mpr (Search.best_held best)
  rw [find, resolve, best, Option.map_some, Option.bind_some, matchAt?]
  exact congrArg (Option.map _) held

/-- A hit wins if it is ranked above all hits before it and not below any behind it. -/
structure Wins (t : Table α) (request : RequestPath) (front : List (Hit α)) (winner : Hit α)
    (back : List (Hit α)) : Prop where
  hits_eq : Search.hits t.trie request = front ++ winner :: back
  genuine : winner.Genuine t request
  before : ∀ h ∈ front, compare h.route.specificity winner.route.specificity = .lt
  behind : ∀ h ∈ back, (compare h.route.specificity winner.route.specificity).isLE = true

/-- What a search in a valid table comes to: there is no hit, or one wins. -/
lemma Valid.best_cases (valid : t.Valid) (path : String) :
    (Search.hits t.trie (.ofString path) = [] ∧ Search.best t path = none) ∨
    ∃ front winner back, t.Wins (.ofString path) front winner back ∧
      Search.best t path = some winner.found := by
  rcases Search.best_cases valid.wellFormed.labelled path with
    ⟨none, best⟩ | ⟨front, winner, back, hits, best, before, behind⟩
  · exact .inl ⟨none, best⟩
  · have genuine : ∀ h ∈ front ++ winner :: back, h.Genuine t (.ofString path) := by
      intro h mem
      rw [← hits] at mem
      exact valid.genuine mem
    have here := genuine winner (by simp)
    refine .inr ⟨front, winner, back, ⟨hits, here, ?_, ?_⟩, best⟩
    · intro h mem
      rw [← (genuine h (by simp [mem])).specificity_eq, ← here.specificity_eq]
      exact before h mem
    · intro h mem
      rw [← (genuine h (by simp [mem])).specificity_eq, ← here.specificity_eq]
      exact behind h mem

/-- What is found is the match of a hit that wins. -/
lemma Valid.exists_wins (valid : t.Valid) {path : String} {m : Match α}
    (found : t.find path = some m) :
    ∃ front winner back, t.Wins (.ofString path) front winner back ∧
      m = ⟨winner.route, winner.found.specificity,
        Captures.ofTrail winner.route.pattern winner.found.trail⟩ := by
  rcases valid.best_cases path with ⟨-, none⟩ | ⟨front, winner, back, wins, best⟩
  · rw [find, resolve, none] at found
    cases found
  · rw [find_of_best best] at found
    exact ⟨front, winner, back, wins, (Option.some.inj found).symm⟩

/-- What a valid table finds is the best of its routes that match. -/
lemma Valid.isBest (valid : t.Valid) {path : String} {m : Match α} (found : t.find path = some m) :
    m.IsBest t (.ofString path) := by
  obtain ⟨front, winner, back, ⟨hits, genuine, before, behind⟩, rfl⟩ := valid.exists_wins found
  constructor
  case registered => exact valid.mem_toList_iff.mpr genuine.stored
  case fits => exact ⟨⟨_, genuine.cuts⟩, genuine.trailing⟩
  case specificity_eq => exact genuine.specificity_eq
  case above =>
    intro r mem fits differ
    have stored := valid.mem_toList_iff.mp mem
    obtain ⟨h, hit, rfl⟩ := (valid.matches_iff stored).mp fits
    rw [hits, List.mem_append, List.mem_cons] at hit
    rcases hit with hit | rfl | hit
    · exact before h hit
    · exact absurd rfl differ
    · -- a later hit of another route differs from the winner in its rank
      have le := behind h hit
      cases order : compare h.route.specificity winner.route.specificity with
      | lt => rfl
      | eq =>
        have same := Std.LawfulEqOrd.eq_of_compare order
        exact absurd (valid.specificity_inj stored genuine.stored same) differ
      | gt =>
        rw [order] at le
        cases le

/-- A valid table finds nothing exactly if none of its routes matches. -/
lemma Valid.find_eq_none_iff (valid : t.Valid) (path : String) :
    t.find path = none ↔ ∀ r ∈ t.toList, ¬r.pattern.Matches (.ofString path) := by
  constructor
  · intro none r mem fits
    obtain ⟨h, hit, -⟩ := (valid.matches_iff (valid.mem_toList_iff.mp mem)).mp fits
    rcases valid.best_cases path with ⟨empty, -⟩ | ⟨front, winner, back, -, best⟩
    · rw [empty] at hit
      cases hit
    · cases none.symm.trans (find_of_best best)
  · intro unmatched
    cases found : t.find path with
    | none => rfl
    | some m =>
      have best := valid.isBest found
      exact absurd best.fits (unmatched _ best.registered)

/-- A lookup finds nothing exactly if no route matches, and otherwise it finds the best match. -/
theorem find_isBest (changes : List (Change α)) (path : String) :
    ((after changes).find path = none ↔
      ∀ r ∈ (after changes).toList, ¬r.pattern.Matches (.ofString path)) ∧
    ∀ m ∈ (after changes).find path, m.IsBest (after changes) (.ofString path) :=
  ⟨(valid_after changes).find_eq_none_iff path, fun _ found => (valid_after changes).isBest found⟩

/-- A named placeholder is ranked above a greedy one, although it was registered before. -/
theorem find_isBest_named :
    let t : Table Nat := after [
      .insert ⟨[.literal "a", .named "x"], .no, by decide, by decide, by decide⟩ 0 false,
      .insert ⟨[.literal "a", .greedy "x"], .indeterminate, by decide, by decide, by decide⟩ 1 false]
    ∃ m ∈ t.find "/a/b", m.route.resource = 0 ∧ m.IsBest t (.ofString "/a/b") := by
  intro t
  have found : (t.find "/a/b").map (fun m => m.route.resource) = some 0 := by decide +kernel
  obtain ⟨m, mem, resource⟩ := Option.map_eq_some_iff.mp found
  exact ⟨m, mem, resource, (find_isBest _ _).2 m mem⟩

end Table

end PathRouting

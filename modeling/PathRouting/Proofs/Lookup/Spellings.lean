import PathRouting.Proofs.Lookup.Twins
import PathRouting.Proofs.Pattern.Grammar
import PathRouting.Proofs.Router.Failures

/-!
# Requests that spell a pattern

Patterns and requests are cut alike, so a text that is read as a pattern is matched by it: each segment takes the
token that it was read from (`Pattern.matches_of_parse`). What else matches the text has a literal for every token, and
then stands at the address of its tokens, or has fewer literals (`Pattern.Cuts.literals_cases`). So a route without
placeholders is found by its own spelling, whatever else is registered (`Table.find_spelling`).
-/

namespace PathRouting

variable {α : Type}

/-- Two paths are one request exactly if they agree but for slashes that do not count. -/
lemma RequestPath.ofString_eq_iff {s t : String} :
    RequestPath.ofString s = RequestPath.ofString t ↔ Text.Agree s t := by
  rw [ofString, ofString, RequestPath.mk.injEq, Text.agree_iff]

/-! ### The pattern of a request -/

/-- A segment takes the token that it was read from. -/
lemma Segment.Reads.takes {token : String} {s : Segment} (reads : Reads token s) : s.Takes [token] := by
  cases reads with
  | named name => exact ⟨_, rfl⟩
  | greedy name => exact List.cons_ne_nil _ _
  | literal plain => rfl

namespace Pattern

variable {p : Pattern} {text : String} {tokens : List String} {blocks : List (List String)}

/-- What is read as a pattern is cut into single tokens by it. -/
lemma cuts_of_parse (parsed : parse text = .ok p) :
    p.Cuts (Text.tokens text) (singles (Text.tokens text)) := by
  cases parse_eq_iff.mp parsed with
  | pattern parts reads marked =>
    rw [Text.parts_iff.mp parts]
    constructor
    case takes =>
      rw [singles, List.forall₂_map_right_iff]
      exact reads.flip.imp fun _ _ reads => reads.takes
    case flatten => rw [singles, ← List.flatMap_def, List.flatMap_singleton']

/-- Texts that are one request are read as one pattern. -/
lemma parse_congr {s : String} (same : RequestPath.ofString text = RequestPath.ofString s) :
    parse text = parse s := by
  obtain ⟨tokens, slash⟩ := RequestPath.mk.inj same
  rw [parse, parse, tokens, slash]

/-- A pattern admits the end of the text that it was read from. -/
lemma admits_of_parse (parsed : parse text = .ok p) :
    p.trailing.Admits (Text.endsInSlash text) := by
  cases parse_eq_iff.mp parsed with
  | pattern parts reads marked =>
    rw [← Text.endsInSlash_iff] at marked
    have own := p.trailing_eq_indeterminate_iff
    cases greedy : endsGreedy p.segments with
    | true => exact .inl (own.mpr greedy)
    | false =>
      right
      rw [trailing_eq_settle_iff.mpr marked, settleTrailing, greedy]
      cases Text.endsInSlash text <;> rfl

/-- A text that is read as a pattern is a request that the pattern matches. -/
lemma matches_of_parse (parsed : parse text = .ok p) : p.Matches (.ofString text) :=
  ⟨⟨_, cuts_of_parse parsed⟩, admits_of_parse parsed⟩

/-! ### Literals -/

/-- A token each makes as many literals as there are tokens. -/
lemma countP_isLiteral (tokens : List String) :
    (tokens.map Segment.literal).countP Segment.isLiteral = tokens.length := by
  rw [List.countP_map, ← List.countP_true]
  rfl

/-- Segments that take some tokens are a literal for each of them, or have fewer literals than there are tokens. -/
lemma literals_cases {segments : List Segment} (takes : List.Forall₂ Segment.Takes segments blocks) :
    segments = blocks.flatten.map .literal ∨
      segments.countP Segment.isLiteral < blocks.flatten.length := by
  induction takes with
  | nil => exact .inl rfl
  | @cons s block segments blocks here _ ih =>
    have others : segments.countP Segment.isLiteral ≤ blocks.flatten.length := by
      rcases ih with same | fewer
      · rw [same, countP_isLiteral]
      · exact Nat.le_of_lt fewer
    rw [List.flatten_cons, List.map_append, List.length_append]
    cases s with
    | literal text =>
      obtain rfl : block = [text] := here
      rw [List.countP_cons_of_pos rfl, List.length_singleton, Nat.add_comm 1]
      rcases ih with same | fewer
      · exact .inl (congrArg (.literal text :: ·) same)
      · exact .inr (Nat.succ_lt_succ fewer)
    | named name =>
      obtain ⟨token, rfl⟩ := here
      rw [List.countP_cons_of_neg Bool.false_ne_true, List.length_singleton]
      exact .inr (by omega)
    | greedy name =>
      have taken := List.length_pos_iff.mpr here
      rw [List.countP_cons_of_neg Bool.false_ne_true]
      exact .inr (by omega)

/-- A pattern that matches some tokens is spelled by them, or has fewer literals. -/
lemma Cuts.literals_cases (cuts : p.Cuts tokens blocks) : p.segments = tokens.map .literal ∨
    p.segments.countP Segment.isLiteral < tokens.length := by
  rw [← cuts.flatten]
  exact Pattern.literals_cases cuts.takes

/-- Without placeholders a pattern is the literals of its own tokens. -/
lemma segments_eq_of_parse (parsed : parse text = .ok p) (literal : p.names = []) :
    p.segments = (Text.tokens text).map .literal := by
  have cuts := cuts_of_parse parsed
  have all : p.segments.countP Segment.isLiteral = p.segments.length := by
    rw [List.countP_eq_length]
    intro s mem
    have nameless := List.filterMap_eq_nil_iff.mp literal s mem
    cases s with
    | literal text => rfl
    | named name => cases nameless
    | greedy name => cases nameless
  have length := cuts.takes.length_eq
  rw [singles, List.length_map] at length
  rcases cuts.literals_cases with same | fewer
  · exact same
  · omega

/-- A pattern of literals distinguishes whether a path ends in a slash. -/
lemma trailing_ne_indeterminate (segments : p.segments = tokens.map .literal) :
    p.trailing ≠ .indeterminate := by
  rw [ne_eq, p.trailing_eq_indeterminate_iff, segments, endsGreedy, List.getLast?_map, Option.any_map]
  cases tokens.getLast? <;> simp [Segment.isGreedy]

/-- Of the patterns that match a request, those with a literal for each token stand at one address. -/
lemma address_eq_of_literals {q : Pattern} {request : RequestPath} (fits : p.Matches request)
    (fits' : q.Matches request) (segments : p.segments = tokens.map .literal)
    (segments' : q.segments = tokens.map .literal) : p.address = q.address := by
  have trailing := fits.trailing.resolve_left (trailing_ne_indeterminate segments)
  have trailing' := fits'.trailing.resolve_left (trailing_ne_indeterminate segments')
  rw [address, address, segments, segments', trailing, trailing']

end Pattern

/-! ### The route of a request -/

namespace Table

variable {t : Table α} {p : Pattern} {r : Route α} {m : Match α} {path : String}

/-- If a route stands at the address of a pattern that matches, a route is found that is not below it. -/
lemma Valid.exists_above (valid : t.Valid) (held : t.get? p = some r)
    (fits : p.Matches (.ofString path)) :
    ∃ m ∈ t.find path, (compare r.specificity m.specificity).isLE = true := by
  obtain ⟨mem, address⟩ := valid.get?_eq_some_iff.mp held
  have fits := fits.of_address_eq address.symm
  obtain ⟨m, found⟩ := Option.isSome_iff_exists.mp
    ((valid.find_isSome_iff path).mpr ⟨r, mem, fits⟩)
  have best := valid.isBest found
  refine ⟨m, found, ?_⟩
  rw [best.specificity_eq, Std.OrientedOrd.eq_swap (a := r.specificity), Ordering.isLE_swap,
    Ordering.isGE_iff_ne_lt]
  exact best.not_lt mem fits

/-- No route with fewer literals than there are tokens is found in the place of one that has as many. -/
lemma Valid.literals_of_find (valid : t.Valid) (held : t.get? p = some r)
    (fits : p.Matches (.ofString path)) (segments : p.segments = (Text.tokens path).map .literal)
    (found : t.find path = some m) : m.route.pattern.segments = (Text.tokens path).map .literal := by
  obtain ⟨mem, address⟩ := valid.get?_eq_some_iff.mp held
  have best := valid.isBest found
  obtain ⟨blocks, cuts⟩ := best.fits.cut
  refine cuts.literals_cases.resolve_right fun fewer => ?_
  have literals : r.specificity.literals = (Text.tokens path).length := calc
    r.specificity.literals
    _ = p.segments.countP Segment.isLiteral :=
      Route.literals_eq_of_address_eq (r := { r with pattern := p }) address
    _ = (Text.tokens path).length := by rw [segments, Pattern.countP_isLiteral]
  have less : compare m.route.specificity.literals (Text.tokens path).length = .lt :=
    Nat.compare_eq_lt.mpr fewer
  apply best.not_lt mem (fits.of_address_eq address.symm)
  rw [Specificity.compare_eq, literals, less]
  rfl

/-- A literal binds nothing. -/
lemma Valid.captures_of_find (valid : t.Valid) (found : t.find path = some m)
    (nameless : m.route.pattern.names = []) : m.captures = .empty := by
  obtain ⟨blocks, longest, captures⟩ := valid.exists_longest found
  have none := Captures.map_fst_entriesOf longest.cuts.takes
  rw [captures, List.map_eq_nil_iff.mp (none.trans nameless)]
  rfl

/-- A route with a literal for each token is found, and nothing is bound. -/
lemma Valid.eq_of_literals (valid : t.Valid) (held : t.get? p = some r)
    (fits : p.Matches (.ofString path)) (segments : p.segments = (Text.tokens path).map .literal)
    (found : t.find path = some m) : m = ⟨r, r.specificity, .empty⟩ := by
  have best := valid.isBest found
  have segments' := valid.literals_of_find held fits segments found
  have address := Pattern.address_eq_of_literals best.fits fits segments' segments
  have held' := valid.get?_eq_some_iff.mpr ⟨best.registered, address⟩
  obtain rfl : m.route = r := Option.some.inj (held'.symm.trans held)
  have nameless : m.route.pattern.names = [] := by
    rw [Pattern.names, segments', namesOf, List.filterMap_map]
    simp
  rw [← valid.captures_of_find found nameless, ← best.specificity_eq]

/-- Paths that are one request are answered alike. -/
lemma find_congr {s : String} (same : RequestPath.ofString path = RequestPath.ofString s) :
    t.find path = t.find s := by
  rw [find, find, resolve, resolve, Search.best, Search.best, same]

/-- Two texts are cut into one request exactly if they agree, and then they find the same in every table and are read as
the same pattern. A text that is read as a pattern finds a route not below the one at its address, and this very
route if the pattern has no placeholder. -/
theorem find_spelling (s t : String) (changes : List (Change α)) (p : Pattern) (r : Route α) :
    (RequestPath.ofString s = RequestPath.ofString t ↔ Text.Agree s t) ∧
    (Text.Agree s t →
      (∀ table : Table α, table.find s = table.find t) ∧ Pattern.parse s = Pattern.parse t) ∧
    (Pattern.parse s = .ok p → (after changes).get? p = some r →
      (∃ m ∈ (after changes).find s, (compare r.specificity m.specificity).isLE = true) ∧
      (p.names = [] → (after changes).find s = some ⟨r, r.specificity, .empty⟩)) := by
  have valid := valid_after changes
  refine ⟨RequestPath.ofString_eq_iff, ?_, ?_⟩
  · intro agree
    have same := RequestPath.ofString_eq_iff.mpr agree
    exact ⟨fun table => find_congr same, Pattern.parse_congr same⟩
  · intro parsed held
    have fits := Pattern.matches_of_parse parsed
    obtain ⟨m, found, above⟩ := valid.exists_above held fits
    refine ⟨⟨m, found, above⟩, ?_⟩
    intro literal
    rw [found, valid.eq_of_literals held fits (Pattern.segments_eq_of_parse parsed literal) found]

/-- A literal is found by its spelling, with any slashes around it, although a placeholder was registered later. -/
theorem find_spelling_literal :
    let p : Pattern := ⟨[.literal "a"], .yes, by decide, by decide, by decide⟩
    let changes : List (Change Nat) := [.insert p 0 false,
      .insert ⟨[.named "x"], .yes, by decide, by decide, by decide⟩ 1 false]
    let r : Route Nat := ⟨p, 0, 0⟩
    (Text.Agree "a/" "//a//" ∧ Pattern.parse "a/" = .ok p ∧ (after changes).get? p = some r ∧
      p.names = []) ∧
    (after changes).find "//a//" = some ⟨r, r.specificity, .empty⟩ := by
  intro p changes r
  have agree : Text.Agree "a/" "//a//" := Text.agree_iff.mpr ⟨by decide, by decide⟩
  have parsed : Pattern.parse "a/" = .ok p := rfl
  have held : (after changes).get? p = some r := by decide +kernel
  have nameless : p.names = [] := rfl
  obtain ⟨-, congr, own⟩ := find_spelling "a/" "//a//" changes p r
  refine ⟨⟨agree, parsed, held, nameless⟩, ?_⟩
  rw [← (congr agree).1]
  exact (own parsed held).2 nameless

end Table

end PathRouting

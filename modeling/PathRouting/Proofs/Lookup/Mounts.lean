import Mathlib.Data.List.Pairwise
import Mathlib.Data.List.Permutation
import PathRouting.Proofs.Lookup.Bindings
import PathRouting.Proofs.Table.Mounting

/-!
# Lookups below a base

A table that is mounted under a base without greedy segments answers a request as it did before, with the
tokens of the base in front (`Table.find_mount`). Such a base takes one token for each of its segments,
so the cuts along a joined pattern are the cuts along the pattern itself (`Pattern.cuts_append_iff`), and
so are the longest ones. The routes of both tables stand in one order, and the base adds the same to the rank
of each (`Route.Below.compare_specificity`), so the winners correspond.
-/

namespace PathRouting

variable {α : Type}

/-- The segments accept the tokens, one each: a literal its own text, and a placeholder any token. -/
def Accept (segments : List Segment) (tokens : List String) : Prop :=
  List.Forall₂ (fun s token => s.key.accepts token = true) segments tokens

/-- The blocks of one token each. -/
def singles (tokens : List String) : List (List String) := tokens.map fun token => [token]

/-- A segment that is not greedy takes a single token, one that its key accepts. -/
lemma Segment.takes_iff_of_not_isGreedy {s : Segment} (plain : s.isGreedy = false)
    {block : List String} :
    s.Takes block ↔ ∃ token, block = [token] ∧ s.key.accepts token = true := by
  cases s with
  | literal text => simp [Takes, key, Key.accepts]
  | named name => simp [Takes, key, Key.accepts]
  | greedy name => cases plain

namespace Pattern

variable {front : List Segment} {tokens rest : List String}

/-! ### Cuts behind a front -/

/-- Segments that are not greedy take the first tokens, one each. -/
lemma takes_append_iff (plain : ∀ s ∈ front, s.isGreedy = false)
    (length : tokens.length = front.length) {segments : List Segment} {blocks : List (List String)} :
    (List.Forall₂ Segment.Takes (front ++ segments) blocks ∧ blocks.flatten = tokens ++ rest) ↔
      Accept front tokens ∧ ∃ behind, blocks = singles tokens ++ behind ∧
        List.Forall₂ Segment.Takes segments behind ∧ behind.flatten = rest := by
  induction front generalizing tokens blocks with
  | nil =>
    obtain rfl := List.length_eq_zero_iff.mp length
    simp [Accept, singles]
  | cons s front ih =>
    obtain ⟨token, tokens, rfl⟩ := List.exists_cons_of_length_eq_add_one length
    rw [List.forall_mem_cons] at plain
    constructor
    · rintro ⟨takes, flatten⟩
      cases takes with
      | cons first takes =>
        obtain ⟨_, rfl, accepts⟩ := (Segment.takes_iff_of_not_isGreedy plain.1).mp first
        obtain ⟨rfl, tail⟩ := List.cons.inj flatten
        obtain ⟨accept, behind, rfl, takes, rfl⟩ :=
          (ih plain.2 (Nat.succ.inj length)).mp ⟨takes, tail⟩
        exact ⟨.cons accepts accept, behind, rfl, takes, rfl⟩
    · rintro ⟨accept, behind, rfl, takes, rfl⟩
      cases accept with
      | cons accepts accept =>
        obtain ⟨takes, flatten⟩ :=
          (ih plain.2 (Nat.succ.inj length)).mpr ⟨accept, behind, rfl, takes, rfl⟩
        have first := (Segment.takes_iff_of_not_isGreedy plain.1).mpr ⟨token, rfl, accepts⟩
        exact ⟨.cons first takes, congrArg (token :: ·) flatten⟩

/-- The root matches a single empty token only. -/
lemma not_matches_of_isRoot {p : Pattern} (root : p.isRoot = true) {request : RequestPath}
    (notEmpty : request.tokens ≠ [""]) : ¬p.Matches request := by
  rintro ⟨⟨blocks, takes, flatten⟩, -⟩
  rw [isRoot_iff.mp root] at takes
  cases takes with
  | cons here none =>
    cases here
    cases none
    exact notEmpty flatten.symm

/-- A pattern that matches anything but a single empty token is not the root. -/
lemma isRoot_eq_false_of_matches {p : Pattern} {request : RequestPath} (fits : p.Matches request)
    (notEmpty : request.tokens ≠ [""]) : p.isRoot = false := by
  rw [← Bool.not_eq_true]
  exact fun root => not_matches_of_isRoot root notEmpty fits

/-- A cut behind a front without greedy segments is a token for each of them and a cut of the rest. -/
lemma cuts_append_iff (plain : ∀ s ∈ front, s.isGreedy = false)
    (length : tokens.length = front.length) {q r : Pattern}
    (segments : r.segments = front ++ q.segments) {blocks : List (List String)} :
    r.Cuts (tokens ++ rest) blocks ↔
      Accept front tokens ∧ ∃ behind, blocks = singles tokens ++ behind ∧ q.Cuts rest behind := by
  constructor
  · rintro ⟨takes, flatten⟩
    rw [segments] at takes
    obtain ⟨accept, behind, rfl, takes, flatten⟩ :=
      (takes_append_iff plain length).mp ⟨takes, flatten⟩
    exact ⟨accept, behind, rfl, ⟨takes, flatten⟩⟩
  · rintro ⟨accept, behind, rfl, ⟨takes, flatten⟩⟩
    obtain ⟨takes, flatten⟩ :=
      (takes_append_iff plain length).mpr ⟨accept, behind, rfl, takes, flatten⟩
    rw [← segments] at takes
    exact ⟨takes, flatten⟩

/-- A front without greedy segments adds no greedy run. -/
lemma greedyRuns_append (plain : ∀ s ∈ front, s.isGreedy = false)
    (length : tokens.length = front.length) (segments : List Segment)
    (behind : List (List String)) :
    greedyRuns (front ++ segments) (singles tokens ++ behind) = greedyRuns segments behind := by
  induction front generalizing tokens with
  | nil =>
    obtain rfl := List.length_eq_zero_iff.mp length
    rfl
  | cons s front ih =>
    obtain ⟨token, tokens, rfl⟩ := List.exists_cons_of_length_eq_add_one length
    rw [List.forall_mem_cons] at plain
    rw [singles, List.map_cons, List.cons_append, List.cons_append, greedyRuns, plain.1]
    exact ih plain.2 (Nat.succ.inj length)

/-! ### The longest cut -/

/-- A cut whose greedy blocks are the longest from the left. -/
structure Longest (p : Pattern) (tokens : List String) (blocks : List (List String)) : Prop where
  cuts : p.Cuts tokens blocks
  longest : ∀ others, p.Cuts tokens others →
    greedyRuns p.segments others ≤ greedyRuns p.segments blocks

/-- The lengths of the greedy blocks determine a cut. -/
lemma Longest.unique {p : Pattern} {blocks others : List (List String)}
    (first : p.Longest tokens blocks) (second : p.Longest tokens others) : blocks = others := by
  have lengths : blocks.map List.length = others.map List.length := by
    apply le_antisymm
    · apply le_of_not_gt
      intro less
      exact absurd (second.longest _ first.cuts)
        (not_le_of_gt (greedyRuns_lt first.cuts.takes second.cuts.takes less))
    · apply le_of_not_gt
      intro less
      exact absurd (first.longest _ second.cuts)
        (not_le_of_gt (greedyRuns_lt second.cuts.takes first.cuts.takes less))
  rw [List.eq_iff_flatten_eq]
  exact ⟨first.cuts.flatten.trans second.cuts.flatten.symm, lengths⟩

/-- The longest cut behind a front is the longest one without it. -/
lemma Longest.of_append (plain : ∀ s ∈ front, s.isGreedy = false)
    (length : tokens.length = front.length) {q r : Pattern}
    (segments : r.segments = front ++ q.segments) {blocks : List (List String)}
    (longest : r.Longest (tokens ++ rest) blocks) :
    ∃ behind, blocks = singles tokens ++ behind ∧ q.Longest rest behind := by
  obtain ⟨accept, behind, rfl, cuts⟩ := (cuts_append_iff plain length segments).mp longest.cuts
  refine ⟨behind, rfl, cuts, ?_⟩
  intro others cuts'
  have less := longest.longest _
    ((cuts_append_iff plain length segments).mpr ⟨accept, others, rfl, cuts'⟩)
  rwa [segments, greedyRuns_append plain length, greedyRuns_append plain length] at less

end Pattern

/-- The entries of a front stand before those of the segments behind it. -/
lemma Captures.entriesOf_append {front : List Segment} {tokens : List String}
    (length : tokens.length = front.length) (segments : List Segment) (behind : List (List String)) :
    entriesOf (front ++ segments) (singles tokens ++ behind) =
      entriesOf front (singles tokens) ++ entriesOf segments behind := by
  have lengths : front.length = (singles tokens).length := by rw [singles, List.length_map, length]
  rw [entriesOf, List.zipWith_append lengths, List.flatten_append]
  rfl

/-! ### Routes below a base -/

/-- One path has the tokens of another one behind a front with a token for each segment of a base. -/
structure Pattern.Leads (base : Pattern) (front : List String) (long short : String) : Prop where
  length_eq : front.length = base.core.length
  tokens_eq : Text.tokens long = front ++ Text.tokens short
  slash_eq : Text.endsInSlash long = Text.endsInSlash short
  /-- The other path is not that of the root. -/
  ne_root : Text.tokens short ≠ [""]

/-- A path that leads below a base has the tokens of the front and then those of the rest. -/
lemma Pattern.Leads.ofString_eq {base : Pattern} {front : List String} {long short : String}
    (leads : base.Leads front long short) :
    RequestPath.ofString long = ⟨front ++ Text.tokens short, Text.endsInSlash short⟩ := by
  rw [RequestPath.ofString, leads.tokens_eq, leads.slash_eq]

/-- The routes of two pairs have been registered in the same order on both sides. -/
def Route.Alike (e f : Route α × Route α) : Prop :=
  compare e.1.priority f.1.priority = compare e.2.priority f.2.priority

/-- A pair of routes is ordered like itself. -/
lemma Route.Alike.refl (e : Route α × Route α) : Alike e e :=
  Std.ReflOrd.compare_self.trans Std.ReflOrd.compare_self.symm

/-- The order of the two pairs does not matter. -/
instance Route.Alike.symm : Std.Symm (Alike (α := α)) where
  symm e f alike := calc
    compare f.1.priority e.1.priority
    _ = (compare e.1.priority f.1.priority).swap := (Nat.compare_swap _ _).symm
    _ = (compare e.2.priority f.2.priority).swap := congrArg Ordering.swap alike
    _ = compare f.2.priority e.2.priority := Nat.compare_swap _ _

/-- Ranks are compared by literals, then by named placeholders, then by priority. -/
lemma Specificity.compare_eq (s s' : Specificity) : compare s s' = (compare s.literals s'.literals).then
    ((compare s.named s'.named).then (compare s.priority s'.priority)) := rfl

namespace Route.Below

variable {base : Pattern} {q r q' r' : Route α} {front : List String} {long short : String}

/-- A route below a base has the core of the base before its own segments, unless it was the root. -/
lemma segments_eq (below : Below base q r) (notRoot : q.pattern.isRoot = false) :
    r.pattern.segments = base.core ++ q.pattern.segments :=
  Pattern.segments_join below.joined notRoot

/-- The base adds its literals. -/
lemma literals_eq (below : Below base q r) (notRoot : q.pattern.isRoot = false) :
    r.specificity.literals = base.core.countP Segment.isLiteral + q.specificity.literals :=
  (congrArg (List.countP Segment.isLiteral) (below.segments_eq notRoot)).trans List.countP_append

/-- The base adds its named placeholders. -/
lemma named_eq (below : Below base q r) (notRoot : q.pattern.isRoot = false) :
    r.specificity.named = base.core.countP Segment.isNamed + q.specificity.named :=
  (congrArg (List.countP Segment.isNamed) (below.segments_eq notRoot)).trans List.countP_append

/-- The base adds the same to the ranks of two routes, so they are ranked as before. -/
lemma compare_specificity (below : Below base q r) (below' : Below base q' r')
    (notRoot : q.pattern.isRoot = false) (notRoot' : q'.pattern.isRoot = false)
    (priorities : compare q.priority q'.priority = compare r.priority r'.priority) :
    compare q.specificity q'.specificity = compare r.specificity r'.specificity := by
  have added : ∀ a b c : Nat, compare (c + a) (c + b) = compare a b := by
    intro a b c
    simp [Nat.compare_eq_ite_lt]
  rw [Specificity.compare_eq, Specificity.compare_eq, below.literals_eq notRoot, below'.literals_eq notRoot',
    below.named_eq notRoot, below'.named_eq notRoot', added, added]
  exact congrArg _ (congrArg _ priorities)

/-- Behind tokens that the base accepts a route matches if it does so without the base. -/
lemma matches_iff_of_not_isRoot (below : Below base q r) (notRoot : q.pattern.isRoot = false)
    (plain : ∀ s ∈ base.core, s.isGreedy = false) (leads : base.Leads front long short) :
    r.pattern.Matches (.ofString long) ↔
      Accept base.core front ∧ q.pattern.Matches (.ofString short) := by
  have segments := below.segments_eq notRoot
  have trailing := Pattern.trailing_join below.joined notRoot
  rw [leads.ofString_eq]
  constructor
  · rintro ⟨⟨blocks, cuts⟩, admits⟩
    obtain ⟨accept, behind, -, cuts⟩ :=
      (Pattern.cuts_append_iff plain leads.length_eq segments).mp cuts
    rw [trailing] at admits
    exact ⟨accept, ⟨behind, cuts⟩, admits⟩
  · rintro ⟨accept, ⟨behind, cuts⟩, admits⟩
    rw [← trailing] at admits
    have cuts := (Pattern.cuts_append_iff plain leads.length_eq segments).mpr
      ⟨accept, behind, rfl, cuts⟩
    exact ⟨⟨_, cuts⟩, admits⟩

/-- A root takes no token below a base. -/
lemma not_matches_of_isRoot (below : Below base q r) (root : q.pattern.isRoot = true)
    (plain : ∀ s ∈ base.core, s.isGreedy = false) (leads : base.Leads front long short) :
    ¬r.pattern.Matches (.ofString long) := by
  have segments := Pattern.segments_join_root below.joined root
  have length := leads.length_eq
  rw [leads.ofString_eq]
  cases rootBase : base.isRoot with
  | true =>
    rw [Pattern.core_of_isRoot rootBase] at length
    obtain rfl := List.length_eq_zero_iff.mp length
    have root : r.pattern.isRoot = true := by rwa [Pattern.isRoot, segments]
    exact Pattern.not_matches_of_isRoot root leads.ne_root
  | false =>
    rintro ⟨⟨blocks, takes, flatten⟩, -⟩
    rw [segments, ← Pattern.core_of_not_isRoot rootBase, ← List.append_nil base.core] at takes
    obtain ⟨-, behind, -, none, last⟩ :=
      (Pattern.takes_append_iff plain length).mp ⟨takes, flatten⟩
    cases none
    exact Text.tokens_ne_nil short last.symm

/-- A route below a base matches if the base accepts the front and the route the rest. -/
lemma matches_iff (below : Below base q r) (plain : ∀ s ∈ base.core, s.isGreedy = false)
    (leads : base.Leads front long short) : r.pattern.Matches (.ofString long) ↔
      Accept base.core front ∧ q.pattern.Matches (.ofString short) := by
  cases root : q.pattern.isRoot with
  | false => exact below.matches_iff_of_not_isRoot root plain leads
  | true =>
    have mounted := below.not_matches_of_isRoot root plain leads
    have alone : ¬q.pattern.Matches (.ofString short) :=
      Pattern.not_matches_of_isRoot root leads.ne_root
    simp [mounted, alone]

end Route.Below

/-- A match below a base says what the one without it says, with the captures of the base in front. -/
structure Match.Extends (base : Pattern) (front : List String) (m w : Match α) : Prop where
  below : Route.Below base w.route m.route
  literals_eq : m.specificity.literals = base.core.countP Segment.isLiteral + w.specificity.literals
  named_eq : m.specificity.named = base.core.countP Segment.isNamed + w.specificity.named
  entries_eq : m.captures.entries =
    Captures.entriesOf base.core (singles front) ++ w.captures.entries

/-- No route that matches is ranked above the best one. -/
lemma Match.IsBest.not_lt {t : Table α} {request : RequestPath} {m : Match α}
    (best : m.IsBest t request) {r : Route α} (mem : r ∈ t.toList)
    (fits : r.pattern.Matches request) : compare m.route.specificity r.specificity ≠ .lt := by
  intro less
  by_cases same : r = m.route
  · rw [same, Std.ReflOrd.compare_self] at less
    cases less
  · have more := best.above r mem fits same
    rw [← Std.OrientedCmp.gt_iff_lt, less] at more
    cases more

namespace Table

variable {t next : Table α} {base : Pattern}

/-! ### Tables below a base -/

/-- The pairs match the routes of a table with those of another one: each is below a base, and they are
ordered alike. -/
structure Copies (base : Pattern) (t next : Table α) (pairs : List (Route α × Route α)) : Prop where
  first : pairs.map Prod.fst = t.history
  second : pairs.map Prod.snd = next.history
  below : ∀ e ∈ pairs, Route.Below base e.1 e.2
  alike : ∀ e ∈ pairs, ∀ f ∈ pairs, Route.Alike e f

/-- Two histories of which the routes are pairs are ordered alike, as both ascend. -/
lemma Indexed.alike (indexed : t.Indexed) (indexed' : next.Indexed)
    {pairs : List (Route α × Route α)} (first : pairs.map Prod.fst = t.history)
    (second : pairs.map Prod.snd = next.history) :
    ∀ e ∈ pairs, ∀ f ∈ pairs, Route.Alike e f := by
  have ascending := indexed.history_ascending
  have ascending' := indexed'.history_ascending
  rw [← first, List.pairwise_map] at ascending
  rw [← second, List.pairwise_map] at ascending'
  have alike : pairs.Pairwise Route.Alike := by
    apply (ascending.and ascending').imp
    intro e f ⟨less, less'⟩
    exact (Nat.compare_eq_lt.mpr less).trans (Nat.compare_eq_lt.mpr less').symm
  intro e memE f memF
  exact alike.forall_of_forall (fun e _ => Route.Alike.refl e) memE memF

/-- Two tables whose histories stand below one another consist of copies. -/
lemma Indexed.exists_copies (indexed : t.Indexed) (indexed' : next.Indexed)
    (below : List.Forall₂ (Route.Below base) t.history next.history) :
    ∃ pairs, Copies base t next pairs := by
  obtain ⟨pairs, first, second, below⟩ := exists_pairs below
  exact ⟨pairs, first, second, below, indexed.alike indexed' first second⟩

/-- A mount into the empty table, below a base that does not merge roots, copies a table if all patterns
can be joined. -/
lemma Valid.mount_empty (valid : t.Valid) (notGreedy : endsGreedy base.segments = false)
    (joins : ∀ q ∈ t.toList, ∃ joined, base.join q.pattern = .ok joined) (strict : Bool) :
    ∃ next pairs, (Table.empty : Table α).mount base t strict = (.ok (), next) ∧ next.Valid ∧
      Copies base t next pairs := by
  cases h : Table.empty.mount base t strict with
  | mk result next =>
  cases result with
  | error error =>
    have refused : (Table.empty.mount base t strict).1 = .error error := congrArg Prod.fst h
    obtain ⟨front, q, back, split, -, failed⟩ := mount_eq_error_iff.mp refused
    have mem : q ∈ t.toList := by
      rw [mem_toList_iff_mem_history, split]
      simp
    obtain ⟨joined, join⟩ := joins q mem
    have passed : Table.empty.stage base strict q = .ok (joined, q.resource) :=
      stage_eq_ok_iff.mpr ⟨join, rfl, fun _ => Trie.get?_empty _⟩
    cases passed.symm.trans failed
  | ok =>
    -- no address is taken in the empty table, so what is left to show is that the joined ones differ
    obtain ⟨staged, checked, rfl⟩ := mount_eq_ok_iff.mp h
    have checked := checked.imp fun q e h => stage_eq_ok_iff.mp h
    have joined := checked.imp fun q e h => And.intro h.1 h.2.1
    have free : Table.empty.Free staged := by
      constructor
      case vacant => exact fun e _ => Trie.get?_empty _
      case apart =>
        rw [valid.apart_joined_iff (joined.imp fun q e h => h.1)]
        intro merges
        cases notGreedy.symm.trans merges.1
    have next := Valid.empty.insertAll staged
    have history := Valid.empty.history_insertAll free
    have below := Route.below_numbered joined (Table.empty : Table α).nextPriority
    rw [history_empty, List.nil_append] at history
    rw [← history] at below
    obtain ⟨pairs, copies⟩ := valid.exists_copies next.toIndexed below
    exact ⟨_, pairs, rfl, next, copies⟩

/-! ### Lookups -/

/-- A valid table finds a match exactly if one of its routes matches. -/
lemma Valid.find_isSome_iff (valid : t.Valid) (path : String) :
    (t.find path).isSome ↔ ∃ r ∈ t.toList, r.pattern.Matches (.ofString path) := by
  rw [← Option.ne_none_iff_isSome, ne_eq, valid.find_eq_none_iff]
  push Not
  rfl

/-- What is found captures the longest cut along its pattern. -/
lemma Valid.exists_longest (valid : t.Valid) {path : String} {m : Match α}
    (found : t.find path = some m) : ∃ blocks, m.route.pattern.Longest (Text.tokens path) blocks ∧
      m.captures = ⟨Captures.entriesOf m.route.pattern.segments blocks⟩ := by
  obtain ⟨front, winner, back, wins, rfl⟩ := valid.exists_wins found
  have cuts := wins.genuine.cuts
  exact ⟨winner.split.blocks, ⟨cuts, fun others cuts' => valid.longest wins cuts'⟩,
    Captures.ofTrail_takenFrom cuts.takes⟩

/-- If the routes of two tables are pairs that fit their requests and are ranked alike, the winners are a pair: a
route that the winner of one table is ranked above has a partner that the partner of the winner is ranked above. -/
lemma mem_pairs_of_isBest {pairs : List (Route α × Route α)} {request request' : RequestPath}
    {w m : Match α} (first : pairs.map Prod.fst = t.history)
    (second : pairs.map Prod.snd = next.history)
    (fits : ∀ e ∈ pairs, e.2.pattern.Matches request' ↔ e.1.pattern.Matches request)
    (ranked : ∀ e ∈ pairs, ∀ f ∈ pairs, e.1.pattern.Matches request → f.1.pattern.Matches request →
      compare e.1.specificity f.1.specificity = compare e.2.specificity f.2.specificity)
    (best : w.IsBest t request) (best' : m.IsBest next request') : (w.route, m.route) ∈ pairs := by
  obtain ⟨f, memF, winner⟩ := (mem_toList_iff_of_map first).mp best.registered
  obtain ⟨e, memE, winner'⟩ := (mem_toList_iff_of_map second).mp best'.registered
  have fitsF : f.1.pattern.Matches request := winner ▸ best.fits
  have fitsE : e.1.pattern.Matches request := (fits e memE).mp (winner' ▸ best'.fits)
  have same : e.1 = f.1 := by
    by_contra differ
    have mem : e.1 ∈ t.toList := (mem_toList_iff_of_map first).mpr ⟨e, memE, rfl⟩
    have less := best.above e.1 mem fitsE (winner ▸ differ)
    rw [← winner, ranked e memE f memF fitsE fitsF, winner'] at less
    have mem' : f.2 ∈ next.toList := (mem_toList_iff_of_map second).mpr ⟨f, memF, rfl⟩
    exact best'.not_lt mem' ((fits f memF).mpr fitsF) less
  rw [← winner, ← same, ← winner']
  exact memE

namespace Copies

variable {pairs : List (Route α × Route α)} {front : List String} {long short : String}
  {e f : Route α × Route α} {w m : Match α}

/-- The routes of the first table are the first of each pair. -/
lemma mem_toList_iff (copies : Copies base t next pairs) {q : Route α} :
    q ∈ t.toList ↔ ∃ e ∈ pairs, e.1 = q := mem_toList_iff_of_map copies.first

/-- The routes of the second table are the second of each pair. -/
lemma mem_toList_iff' (copies : Copies base t next pairs) {r : Route α} :
    r ∈ next.toList ↔ ∃ e ∈ pairs, e.2 = r := mem_toList_iff_of_map copies.second

/-- Both sides of two pairs are ranked alike if the request matches them. -/
lemma compare_specificity (copies : Copies base t next pairs) (leads : base.Leads front long short)
    (memE : e ∈ pairs) (memF : f ∈ pairs) (matchedE : e.1.pattern.Matches (.ofString short))
    (matchedF : f.1.pattern.Matches (.ofString short)) :
    compare e.1.specificity f.1.specificity = compare e.2.specificity f.2.specificity :=
  (copies.below e memE).compare_specificity (copies.below f memF)
    (Pattern.isRoot_eq_false_of_matches matchedE leads.ne_root)
    (Pattern.isRoot_eq_false_of_matches matchedF leads.ne_root) (copies.alike e memE f memF)

variable (copies : Copies base t next pairs) (plain : ∀ s ∈ base.core, s.isGreedy = false)
  (leads : base.Leads front long short)

include copies plain leads

/-- A copy matches if the base accepts the front and the original matches the rest. -/
lemma matches_iff (mem : e ∈ pairs) : e.2.pattern.Matches (.ofString long) ↔
    Accept base.core front ∧ e.1.pattern.Matches (.ofString short) :=
  (copies.below e mem).matches_iff plain leads

/-- Behind tokens that the base accepts, a copy finds a route if the table does. -/
lemma find_isSome_iff (valid : t.Valid) (valid' : next.Valid) :
    (next.find long).isSome ↔ Accept base.core front ∧ (t.find short).isSome := by
  rw [valid.find_isSome_iff, valid'.find_isSome_iff]
  constructor
  · rintro ⟨r, mem, matched⟩
    obtain ⟨e, memE, rfl⟩ := copies.mem_toList_iff'.mp mem
    obtain ⟨accept, matched⟩ := (copies.matches_iff plain leads memE).mp matched
    exact ⟨accept, e.1, copies.mem_toList_iff.mpr ⟨e, memE, rfl⟩, matched⟩
  · rintro ⟨accept, q, mem, matched⟩
    obtain ⟨e, memE, rfl⟩ := copies.mem_toList_iff.mp mem
    have matched := (copies.matches_iff plain leads memE).mpr ⟨accept, matched⟩
    exact ⟨e.2, copies.mem_toList_iff'.mpr ⟨e, memE, rfl⟩, matched⟩

/-- The winners of both tables are a pair, as the base accepts the tokens in front. -/
lemma below_of_isBest (best : w.IsBest t (.ofString short))
    (best' : m.IsBest next (.ofString long)) : Route.Below base w.route m.route := by
  obtain ⟨e, memE, second⟩ := copies.mem_toList_iff'.mp best'.registered
  obtain ⟨accept, -⟩ := (copies.matches_iff plain leads memE).mp (second ▸ best'.fits)
  have pair := mem_pairs_of_isBest copies.first copies.second
    (fun e mem => (copies.matches_iff plain leads mem).trans (and_iff_right accept))
    (fun e memE f memF => copies.compare_specificity leads memE memF) best best'
  exact copies.below _ pair

/-- What a copy finds extends what the table finds. -/
lemma extends_of_find (valid : t.Valid) (valid' : next.Valid) (found : t.find short = some w)
    (found' : next.find long = some m) : m.Extends base front w := by
  have best := valid.isBest found
  have best' := valid'.isBest found'
  have below := copies.below_of_isBest plain leads best best'
  have notRoot := Pattern.isRoot_eq_false_of_matches best.fits leads.ne_root
  have segments := below.segments_eq notRoot
  constructor
  case below => exact below
  case literals_eq =>
    rw [best'.specificity_eq, best.specificity_eq]
    exact below.literals_eq notRoot
  case named_eq =>
    rw [best'.specificity_eq, best.specificity_eq]
    exact below.named_eq notRoot
  case entries_eq =>
    obtain ⟨alone, longest, captures⟩ := valid.exists_longest found
    obtain ⟨blocks, longest', captures'⟩ := valid'.exists_longest found'
    rw [leads.tokens_eq] at longest'
    obtain ⟨behind, rfl, inner⟩ := longest'.of_append plain leads.length_eq segments
    rw [captures, captures', segments, inner.unique longest]
    exact Captures.entriesOf_append leads.length_eq _ _

end Copies

/-- A table that is mounted into the empty one, below a base without greedy segments, finds what it found
without the base, and only behind tokens that the base accepts. -/
theorem find_mount (changes : List (Change α)) (base : Pattern)
    (plain : ∀ s ∈ base.segments, s.isGreedy = false)
    (joins : ∀ q ∈ (after changes).toList, ∃ joined, base.join q.pattern = .ok joined)
    (strict : Bool) :
    let other := after changes
    let mounted := empty.mount base other strict
    mounted.1 = .ok () ∧ ∀ front long short, base.Leads front long short →
      (Accept base.core front → ((mounted.2.find long).isSome ↔ (other.find short).isSome) ∧
        ∀ m ∈ mounted.2.find long, ∀ w ∈ other.find short, m.Extends base front w) ∧
      (¬Accept base.core front → mounted.2.find long = none) := by
  intro other mounted
  have valid : other.Valid := valid_after changes
  have notGreedy : endsGreedy base.segments = false := by
    rw [endsGreedy, Option.any_eq_false]
    exact fun s last => plain s (List.mem_of_getLast? last)
  have plain : ∀ s ∈ base.core, s.isGreedy = false := fun s mem => plain s (base.core_subset mem)
  obtain ⟨next, pairs, succeeds, valid', copies⟩ := valid.mount_empty notGreedy joins strict
  have result : mounted = (.ok (), next) := succeeds
  rw [result]
  refine ⟨rfl, ?_⟩
  intro front long short leads
  have found := copies.find_isSome_iff plain leads valid valid'
  constructor
  · intro accept
    refine ⟨found.trans (and_iff_right accept), ?_⟩
    intro m found' w found
    exact copies.extends_of_find plain leads valid valid' found found'
  · intro refused
    rw [← Option.not_isSome_iff_eq_none, found]
    exact fun h => refused h.1

/-- Below a literal and a placeholder the tokens of both stand in front, and the more specific of two routes
wins as before. -/
theorem find_mount_named :
    let base : Pattern := ⟨[.literal "api", .named "v"], .no, by decide, by decide, by decide⟩
    let other : Table Nat := after [
      .insert ⟨[.greedy "x"], .indeterminate, by decide, by decide, by decide⟩ 0 false,
      .insert ⟨[.named "y", .literal "z"], .no, by decide, by decide, by decide⟩ 1 false]
    let mounted := empty.mount base other false
    mounted.1 = .ok () ∧ ∃ m ∈ mounted.2.find "/api/1/a/z", ∃ w ∈ other.find "/a/z",
      w.route.resource = 1 ∧ m.Extends base ["api", "1"] w := by
  intro base other mounted
  have plain : ∀ s ∈ base.segments, s.isGreedy = false := by decide
  have joins : ∀ q ∈ other.toList, ∃ joined, base.join q.pattern = .ok joined := by
    have routes : other.toList.map Route.pattern = [
        ⟨[.named "y", .literal "z"], .no, by decide, by decide, by decide⟩,
        ⟨[.greedy "x"], .indeterminate, by decide, by decide, by decide⟩] := by
      simp only [other]
      cbv
    have all : ∀ p ∈ other.toList.map Route.pattern, ∃ joined, base.join p = .ok joined := by
      rw [routes, List.forall_mem_cons, List.forall_mem_singleton]
      exact ⟨⟨_, rfl⟩, ⟨_, rfl⟩⟩
    exact fun q mem => all q.pattern (List.mem_map_of_mem mem)
  have found : (other.find "/a/z").map (fun w => w.route.resource) = some 1 := by
    decide +kernel
  obtain ⟨w, memW, resource⟩ := Option.map_eq_some_iff.mp found
  obtain ⟨succeeds, finds⟩ := find_mount _ base plain joins false
  have leads : base.Leads ["api", "1"] "/api/1/a/z" "/a/z" := by
    constructor <;> decide
  have accept : Accept base.core ["api", "1"] := .cons rfl (.cons rfl .nil)
  obtain ⟨same, agree⟩ := (finds _ _ _ leads).1 accept
  have some : (mounted.2.find "/api/1/a/z").isSome := same.mpr (memW ▸ rfl)
  obtain ⟨m, memM⟩ := Option.isSome_iff_exists.mp some
  exact ⟨succeeds, m, memM, w, memW, resource, agree m memM w memW⟩

end Table

end PathRouting

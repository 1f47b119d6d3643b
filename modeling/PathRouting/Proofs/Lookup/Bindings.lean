import PathRouting.Proofs.Lists
import PathRouting.Proofs.Lookup.Winner

/-!
# What the placeholders of the winner took

The captures of a match are rebuilt from a trail of single tokens, which the search collected on nodes
that patterns with other names share. `Captures.ofTrail_takenFrom` finds in them the blocks of the cut
that the search made, one for each placeholder: the names of a pattern differ, so tokens of different
placeholders are never merged. The cut is the one with the longest greedy blocks, as the search comes
across the cuts of one pattern in this order and keeps the first (`find_isExact`).
-/

namespace PathRouting

variable {α : Type}

namespace Segment

/-- The entry binds what the placeholder takes to its name. -/
def Binds : Segment → String × Capture → Prop
  | literal _, _ => False
  | named name, entry => ∃ token, entry = (name, .one token)
  | greedy name, entry => ∃ block, block ≠ [] ∧ entry = (name, .many block)

/-- The entries that a block makes. -/
def bind : Segment → List String → List (String × Capture)
  | literal _, _ => []
  | named name, block => block.map fun token => (name, .one token)
  | greedy name, block => [(name, .many block)]

/-- A block makes an entry exactly for a placeholder, under its name. -/
lemma map_fst_bind {s : Segment} {block : List String} (takes : s.Takes block) :
    (s.bind block).map Prod.fst = s.name?.toList := by
  cases s with
  | literal text => rfl
  | named name =>
    obtain ⟨token, rfl⟩ := takes
    rfl
  | greedy name => rfl

end Segment

/-- The placeholder of a name that makes such captures. -/
def Capture.segment : Capture → String → Segment
  | one _, name => .named name
  | many _, name => .greedy name

/-- The name of the first segment, if it has one, comes before those of the others. -/
lemma namesOf_cons (s : Segment) (segments : List Segment) :
    namesOf (s :: segments) = s.name?.toList ++ namesOf segments := by
  cases s <;> rfl

namespace Captures

/-- The tokens of a segment: the text of a literal, and what a placeholder has by its name. -/
def block (c : Captures) : Segment → List String
  | .literal text => [text]
  | .named name => (c.getOne? name).toList
  | .greedy name => (c.getMany? name).getD []

/-- The cut that captures tell of. -/
def blocks (c : Captures) (segments : List Segment) : List (List String) := segments.map c.block

/-- The entries that a cut makes, segment by segment. -/
def entriesOf (segments : List Segment) (blocks : List (List String)) : List (String × Capture) :=
  (List.zipWith Segment.bind segments blocks).flatten

/-! ### From the trail to the entries -/

/-- A name reads nothing exactly if no entry has it. -/
lemma get?_eq_none_iff {c : Captures} {name : String} :
    c.get? name = none ↔ name ∉ c.entries.map Prod.fst := lookup_eq_none_iff

/-- Entries under other names are passed over until the one to replace. -/
lemma replaceFirst_of_not_mem {entries : List (String × Capture)} {name : String}
    (fresh : name ∉ entries.map Prod.fst) (old new : Capture) :
    replaceFirst name new (entries ++ [(name, old)]) = entries ++ [(name, new)] := by
  induction entries with
  | nil => simp [replaceFirst]
  | cons entry entries ih =>
    rw [List.map_cons, List.mem_cons, not_or] at fresh
    rw [List.cons_append, replaceFirst, if_neg (Ne.symm fresh.1), ih fresh.2, List.cons_append]

/-- Further tokens of a greedy placeholder go behind those that it has. -/
lemma foldl_extend {entries : List (String × Capture)} {name : String}
    (fresh : name ∉ entries.map Prod.fst) (block tokens : List String) :
    tokens.foldl (fun c token => extend c name token) ⟨entries ++ [(name, .many block)]⟩ =
      ⟨entries ++ [(name, .many (block ++ tokens))]⟩ := by
  induction tokens generalizing block with
  | nil => rw [List.foldl_nil, List.append_nil]
  | cons token tokens ih =>
    have held : get? ⟨entries ++ [(name, .many block)]⟩ name = some (.many block) := by
      have none : get? ⟨entries⟩ name = none := get?_eq_none_iff.mpr fresh
      rw [get?] at none ⊢
      rw [List.lookup_append, none]
      simp
    rw [List.foldl_cons, extend, held]
    simp only [replaceFirst_of_not_mem fresh]
    rw [ih, List.append_assoc, List.singleton_append]

/-- The tokens of a block, taken one after the other, come to the entry that the block makes. -/
lemma foldl_take_block {segments : List Segment} {position : Nat} {s : Segment}
    (here : segments[position]? = some s) {block : List String} (takes : s.Takes block)
    {c : Captures} (fresh : ∀ name, s.name? = some name → name ∉ c.entries.map Prod.fst) :
    (block.map (Taken.mk position)).foldl (take segments) c = ⟨c.entries ++ s.bind block⟩ := by
  rw [List.foldl_map]
  cases s with
  | literal text =>
    obtain rfl : block = [text] := takes
    simp [take, here, Segment.bind]
  | named name =>
    obtain ⟨token, rfl⟩ := takes
    simp [take, here, Segment.bind, push]
  | greedy name =>
    cases block with
    | nil => exact absurd rfl takes
    | cons token tokens =>
      have fresh := fresh name rfl
      -- the first token begins the entry, and the others go behind it
      have step : (fun c token => take segments c ⟨position, token⟩) =
          fun c token => extend c name token := by
        funext c token
        simp [take, here]
      rw [step, List.foldl_cons, extend, get?_eq_none_iff.mpr fresh]
      exact foldl_extend fresh [token] tokens

/-- The trail of a cut makes its entries, behind those of the segments before. -/
lemma foldl_take (before : List Segment) {segments : List Segment} {blocks : List (List String)}
    (takes : List.Forall₂ Segment.Takes segments blocks) (nodup : (namesOf segments).Nodup)
    {c : Captures} (fresh : ∀ name ∈ namesOf segments, name ∉ c.entries.map Prod.fst) :
    (takenFrom before.length blocks).foldl (take (before ++ segments)) c =
      ⟨c.entries ++ entriesOf segments blocks⟩ := by
  induction takes generalizing before c with
  | nil => simp [takenFrom, entriesOf]
  | @cons s block segments blocks here takes ih =>
    rw [namesOf_cons, List.nodup_append] at nodup
    obtain ⟨-, nodup, apart⟩ := nodup
    have at_ : (before ++ s :: segments)[before.length]? = some s := by simp
    -- the names of a pattern differ, so this segment begins an entry and the next ones do, too
    have own : ∀ name, s.name? = some name → name ∉ c.entries.map Prod.fst := by
      intro name h
      apply fresh
      simp [namesOf_cons, h]
    have next : ∀ name ∈ namesOf segments, name ∉ (c.entries ++ s.bind block).map Prod.fst := by
      intro name mem
      rw [List.map_append, List.mem_append, Segment.map_fst_bind here, not_or]
      refine ⟨fresh name (by simp [namesOf_cons, mem]), ?_⟩
      intro again
      exact apart name again name mem rfl
    have last := ih (before ++ [s]) nodup next
    rw [List.append_assoc, List.singleton_append, List.length_append, List.length_singleton] at last
    rw [takenFrom, List.foldl_append, foldl_take_block at_ here own, last, List.append_assoc]
    rfl

/-- The trail of a cut is turned into the entries of the cut. -/
lemma ofTrail_takenFrom {p : Pattern} {blocks : List (List String)}
    (takes : List.Forall₂ Segment.Takes p.segments blocks) :
    ofTrail p (takenFrom 0 blocks).reverse = ⟨entriesOf p.segments blocks⟩ := by
  rw [ofTrail, List.reverse_reverse]
  exact foldl_take [] takes p.names_nodup (by simp [empty])

/-! ### From the entries to the blocks -/

/-- The entries of a cut have the names of the segments, in their order. -/
lemma map_fst_entriesOf {segments : List Segment} {blocks : List (List String)}
    (takes : List.Forall₂ Segment.Takes segments blocks) :
    (entriesOf segments blocks).map Prod.fst = namesOf segments := by
  induction takes with
  | nil => rfl
  | cons here _ ih =>
    rw [namesOf_cons, ← ih, ← Segment.map_fst_bind here, ← List.map_append]
    rfl

/-- Every placeholder has one entry, in order. -/
lemma forall₂_binds {segments : List Segment} {blocks : List (List String)}
    (takes : List.Forall₂ Segment.Takes segments blocks) :
    List.Forall₂ Segment.Binds (segments.filter fun s => s.name?.isSome)
      (entriesOf segments blocks) := by
  induction takes with
  | nil => exact .nil
  | @cons s block segments blocks here _ ih =>
    cases s with
    | literal text => exact ih
    | named name =>
      obtain ⟨token, rfl⟩ := here
      exact .cons ⟨token, rfl⟩ ih
    | greedy name => exact .cons ⟨block, here, rfl⟩ ih

/-- The entries give the blocks back: the first entry of a name is the only one. -/
lemma blocks_entriesOf (before : List (String × Capture)) {segments : List Segment}
    {blocks : List (List String)} (takes : List.Forall₂ Segment.Takes segments blocks)
    (nodup : ((before ++ entriesOf segments blocks).map Prod.fst).Nodup) :
    Captures.blocks ⟨before ++ entriesOf segments blocks⟩ segments = blocks := by
  induction takes generalizing before with
  | nil => rfl
  | @cons s block segments blocks here _ ih =>
    have shift : before ++ entriesOf (s :: segments) (block :: blocks) =
        (before ++ s.bind block) ++ entriesOf segments blocks := by
      rw [List.append_assoc]
      rfl
    rw [shift] at nodup ⊢
    rw [Captures.blocks, List.map_cons]
    refine congrArg₂ List.cons ?_ (ih _ nodup)
    -- no entry before that of the segment has its name, so reading by name comes to this one
    have found : ∀ name x, s.bind block = [(name, x)] →
        get? ⟨before ++ s.bind block ++ entriesOf segments blocks⟩ name = some x := by
      intro name x one
      rw [one, List.append_assoc, List.map_append, List.singleton_append, List.map_cons,
        List.nodup_append] at nodup
      have missing : get? ⟨before⟩ name = none := by
        rw [get?_eq_none_iff]
        intro mem
        exact nodup.2.2 name mem name List.mem_cons_self rfl
      rw [get?] at missing ⊢
      rw [one, List.append_assoc, List.lookup_append, missing]
      simp
    cases s with
    | literal text => exact here.symm
    | named name =>
      obtain ⟨token, rfl⟩ := here
      rw [Captures.block, getOne?, found name (.one token) rfl]
      rfl
    | greedy name =>
      rw [Captures.block, getMany?, found name (.many block) rfl]
      rfl

/-! ### Reading by name -/

/-- Under distinct names, a name reads exactly the entry that has it. -/
lemma get?_eq_some_iff {c : Captures} (nodup : (c.entries.map Prod.fst).Nodup) {name : String}
    {capture : Capture} : c.get? name = some capture ↔ (name, capture) ∈ c.entries :=
  (single_of_nodup nodup).lookup_eq_some_iff

/-- The segments with an entry are the placeholders. -/
lemma mem_entriesOf_iff {segments : List Segment} {blocks : List (List String)}
    (takes : List.Forall₂ Segment.Takes segments blocks) {name : String} {s : Segment}
    (named : s.name? = some name) :
    (∃ capture, (name, capture) ∈ entriesOf segments blocks ∧ capture.segment name = s) ↔
      s ∈ segments := by
  induction takes with
  | nil => simp [entriesOf]
  | @cons other block segments blocks here _ ih =>
    simp only [entriesOf, List.zipWith_cons_cons, List.flatten_cons, List.mem_append] at ih ⊢
    simp only [or_and_right, exists_or]
    rw [ih, List.mem_cons]
    apply or_congr_left
    cases other with
    | literal text =>
      have differ : s ≠ .literal text := by
        rintro rfl
        cases named
      simp [Segment.bind, differ]
    | named other =>
      obtain ⟨token, rfl⟩ := here
      cases s <;> simp_all [Segment.bind, Capture.segment]
    | greedy other => cases s <;> simp_all [Segment.bind, Capture.segment]

/-- A single token is read where the capture is that of a named placeholder. -/
lemma getOne?_isSome_iff {c : Captures} {name : String} :
    (c.getOne? name).isSome ↔
      ∃ capture, c.get? name = some capture ∧ capture.segment name = .named name := by
  rw [getOne?]
  cases h : c.get? name with
  | none => simp
  | some capture => cases capture <;> simp [Capture.one?, Capture.segment]

/-- A list of tokens is read where the capture is that of a greedy placeholder. -/
lemma getMany?_isSome_iff {c : Captures} {name : String} :
    (c.getMany? name).isSome ↔
      ∃ capture, c.get? name = some capture ∧ capture.segment name = .greedy name := by
  rw [getMany?]
  cases h : c.get? name with
  | none => simp
  | some capture => cases capture <;> simp [Capture.many?, Capture.segment]

end Captures

/-! ### The longest cut -/

/-- The captures of a match are exact for a request: they tell of a cut of it along the pattern, and no
cut has longer greedy blocks. -/
structure Match.IsExact (request : RequestPath) (m : Match α) : Prop where
  /-- Every placeholder has one entry, in order. -/
  entries : List.Forall₂ Segment.Binds
    (m.route.pattern.segments.filter fun s => s.name?.isSome) m.captures.entries
  cuts : m.route.pattern.Cuts request.tokens (m.captures.blocks m.route.pattern.segments)
  longest : ∀ blocks, m.route.pattern.Cuts request.tokens blocks →
    Pattern.greedyRuns m.route.pattern.segments blocks ≤
      Pattern.greedyRuns m.route.pattern.segments (m.captures.blocks m.route.pattern.segments)
  getOne?_isSome_iff : ∀ name,
    (m.captures.getOne? name).isSome ↔ .named name ∈ m.route.pattern.segments
  getMany?_isSome_iff : ∀ name,
    (m.captures.getMany? name).isSome ↔ .greedy name ∈ m.route.pattern.segments

namespace Table

variable {t : Table α}

/-- No cut of the request along the pattern of the winner has longer greedy blocks than the winner's. -/
lemma Valid.longest (valid : t.Valid) {request : RequestPath} {front back : List (Hit α)}
    {winner : Hit α} (wins : t.Wins request front winner back) {blocks : List (List String)}
    (cuts : winner.route.pattern.Cuts request.tokens blocks) :
    Pattern.greedyRuns winner.route.pattern.segments blocks ≤
      Pattern.greedyRuns winner.route.pattern.segments winner.split.blocks := by
  obtain ⟨hits, genuine, before, -⟩ := wins
  obtain ⟨h, mem, route, rfl⟩ := valid.exists_hit genuine.stored cuts genuine.trailing
  have other := valid.genuine mem
  have keys : h.split.keys = winner.split.keys := by rw [← other.keys, ← genuine.keys, route]
  -- the winner is more specific than all before it, so none of these is of its route
  have behind : h ∉ front := by
    intro mem
    have less := before h mem
    rw [route, Std.ReflOrd.compare_self] at less
    cases less
  rcases Search.split_cases valid.wellFormed.labelled hits mem behind keys with same | shorter
  · rw [same]
  · rw [Split.lengths, Split.lengths, other.more, genuine.more, List.cons_lt_cons_iff] at shorter
    have less := shorter.resolve_left (Nat.lt_irrefl _)
    exact le_of_lt (Pattern.greedyRuns_lt genuine.cuts.takes cuts.takes less.2)

/-- A match that a valid table finds is exact. -/
lemma Valid.isExact (valid : t.Valid) {path : String} {m : Match α} (found : t.find path = some m) :
    m.IsExact (.ofString path) := by
  obtain ⟨front, winner, back, wins, rfl⟩ := valid.exists_wins found
  have genuine := wins.genuine
  have takes := genuine.cuts.takes
  have captures : Captures.ofTrail winner.route.pattern winner.found.trail =
      ⟨Captures.entriesOf winner.route.pattern.segments winner.split.blocks⟩ :=
    Captures.ofTrail_takenFrom takes
  have nodup := winner.route.pattern.names_nodup
  rw [← Captures.map_fst_entriesOf takes] at nodup
  have blocks := Captures.blocks_entriesOf [] takes nodup
  rw [captures]
  constructor
  case entries => exact Captures.forall₂_binds takes
  case cuts => exact blocks.symm ▸ genuine.cuts
  case longest =>
    intro others cuts
    have longest := valid.longest wins cuts
    exact blocks.symm ▸ longest
  case getOne?_isSome_iff =>
    intro name
    rw [Captures.getOne?_isSome_iff, ← Captures.mem_entriesOf_iff takes rfl]
    exact exists_congr fun _ => and_congr_left' (Captures.get?_eq_some_iff nodup)
  case getMany?_isSome_iff =>
    intro name
    rw [Captures.getMany?_isSome_iff, ← Captures.mem_entriesOf_iff takes rfl]
    exact exists_congr fun _ => and_congr_left' (Captures.get?_eq_some_iff nodup)

/-- The trail of a cut points at none but its blocks. -/
lemma position_lt_of_mem_takenFrom {start : Nat} {blocks : List (List String)} {taken : Taken}
    (mem : taken ∈ takenFrom start blocks) : taken.position < start + blocks.length := by
  induction blocks generalizing start with
  | nil => cases mem
  | cons block blocks ih =>
    rw [List.length_cons]
    rcases List.mem_append.mp mem with mem | mem
    · obtain ⟨token, -, rfl⟩ := List.mem_map.mp mem
      show start < start + (blocks.length + 1)
      omega
    · have := ih mem
      omega

/-- The trail of the winner names segments of its own pattern. -/
lemma Valid.position_lt (valid : t.Valid) {path : String} {found : Found α}
    (best : Search.best t path = some found) {taken : Taken} (mem : taken ∈ found.trail) :
    taken.position < found.route.pattern.segments.length := by
  rcases valid.best_cases path with ⟨-, none⟩ | ⟨front, winner, back, wins, some⟩
  · cases none.symm.trans best
  · cases some.symm.trans best
    have below := position_lt_of_mem_takenFrom (List.mem_reverse.mp mem)
    rw [Nat.zero_add, ← wins.genuine.cuts.takes.length_eq] at below
    exact below

/-- A lookup captures exactly what the placeholders of its pattern take, in the cut whose greedy blocks
are the longest from the left; and it never looks for a segment that the pattern does not have. -/
theorem find_isExact (changes : List (Change α)) (path : String) :
    (∀ m ∈ (after changes).find path, m.IsExact (.ofString path)) ∧
      ∀ found ∈ Search.best (after changes) path, ∀ taken ∈ found.trail,
        taken.position < found.route.pattern.segments.length :=
  ⟨fun _ found => (valid_after changes).isExact found,
    fun _ best _ mem => (valid_after changes).position_lt best mem⟩

/-- A greedy placeholder takes all tokens that the segments behind it leave. -/
theorem find_isExact_greedy :
    let t : Table Unit := after [
      .insert ⟨[.greedy "x", .literal "b", .named "y"], .no, by decide, by decide, by decide⟩ () false]
    ∃ m ∈ t.find "/a/b/b/c", m.captures.getMany? "x" = some ["a", "b"] ∧
      m.IsExact (.ofString "/a/b/b/c") := by
  intro t
  have found : (t.find "/a/b/b/c").map (fun m => m.captures.getMany? "x") = some (some ["a", "b"]) := by
    decide +kernel
  obtain ⟨m, mem, tokens⟩ := Option.map_eq_some_iff.mp found
  exact ⟨m, mem, tokens, (find_isExact _ _).1 m mem⟩

end Table

end PathRouting

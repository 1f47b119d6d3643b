import PathRouting.Proofs.Pattern.Grammar
import PathRouting.Proofs.Pattern.Join

/-!
# Patterns that are read as they are written

A pattern is legible if its segments keep their meaning when they are written as tokens with slashes between them
(`Pattern.Legible`). The display of a legible pattern is read as that pattern again, and that of no other one is.
Whatever is read from a text is legible, and so is the join of legible patterns (`Pattern.parse_display_iff`).
-/

namespace PathRouting

namespace Pattern

open Text (Parts)

/-- Each segment stays one token when it is written, each literal stays a literal, and no empty token is lost at
either end. -/
structure Legible (p : Pattern) : Prop where
  slashFree : ∀ s ∈ p.segments, '/' ∉ s.text.toList
  literal : ∀ text, .literal text ∈ p.segments → Segment.parse text = .ok (.literal text)
  ends : p.segments.length = 1 ∨
    p.segments.head? ≠ some (.literal "") ∧ p.segments.getLast? ≠ some (.literal "")

variable {p q r : Pattern}

/-! ### Tokens and segments -/

/-- A token has a slash if the text of its segment does. -/
lemma slash_mem_display_iff {s : Segment} : '/' ∈ s.display.toList ↔ '/' ∈ s.text.toList := by
  cases s <;> simp [Segment.display, Segment.text]

/-- Only the empty literal is written as an empty token. -/
lemma display_eq_empty_iff {s : Segment} : s.display = "" ↔ s = .literal "" := by
  cases s with
  | literal text => simp [Segment.display]
  | named name => simp [Segment.display, ← String.toList_inj]
  | greedy name => simp [Segment.display, ← String.toList_inj]

/-- The first token is empty if the first segment is the empty literal. -/
lemma head?_map_display_iff {segments : List Segment} :
    (segments.map Segment.display).head? = some "" ↔ segments.head? = some (.literal "") := by
  simp [List.head?_map, display_eq_empty_iff]

/-- The last token is empty if the last segment is the empty literal. -/
lemma getLast?_map_display_iff {segments : List Segment} :
    (segments.map Segment.display).getLast? = some "" ↔ segments.getLast? = some (.literal "") := by
  simp [List.getLast?_map, display_eq_empty_iff]

/-- Segments are read from no tokens but those that they are written as. -/
lemma forall₂_reads_iff {tokens : List String} {segments : List Segment} :
    List.Forall₂ Segment.Reads tokens segments ↔
      tokens = segments.map Segment.display ∧ ∀ s ∈ segments, Segment.Reads s.display s := by
  constructor
  · intro reads
    have tokens_eq : tokens = segments.map Segment.display := by
      induction reads with
      | nil => rfl
      | cons read _ ih => rw [List.map_cons, read.display_eq, ← ih]
    rw [tokens_eq, List.forall₂_map_left_iff, List.forall₂_same] at reads
    exact ⟨tokens_eq, reads⟩
  · rintro ⟨rfl, each⟩
    rwa [List.forall₂_map_left_iff, List.forall₂_same]

/-- A placeholder is always read as it is written, and a literal if its text is read as a literal. -/
lemma reads_display_iff {s : Segment} (slashFree : '/' ∉ s.text.toList) :
    Segment.Reads s.display s ↔ ∀ text, s = .literal text → Segment.parse text = .ok (.literal text) := by
  constructor
  · rintro reads text rfl
    exact Segment.parse_eq_ok_iff.mpr ⟨slashFree, reads⟩
  · intro literal
    cases s with
    | literal text => exact (Segment.parse_eq_ok_iff.mp (literal text rfl)).2
    | named name => exact .named name
    | greedy name => exact .greedy name

/-- The tokens of a text are segments of a pattern if it is the text of each of them. -/
lemma parse_eq_ok_iff {text : String} : parse text = .ok p ↔
    Parts text (p.segments.map Segment.display) ∧ (∀ s ∈ p.segments, Segment.Reads s.display s) ∧
      (p.trailing = .yes ↔ endsGreedy p.segments = false ∧ text.toList.getLast? = some '/' ∧
        1 < text.utf8ByteSize) := by
  rw [parse_eq_iff]
  constructor
  · intro read
    cases read with
    | pattern parts reads marked =>
      obtain ⟨rfl, each⟩ := forall₂_reads_iff.mp reads
      exact ⟨parts, each, marked⟩
  · intro ⟨parts, each, marked⟩
    exact .pattern parts (forall₂_reads_iff.mpr ⟨rfl, each⟩) marked

/-- A pattern whose tokens are the parts of a text is legible. -/
lemma legible_of_parts {text : String} (parts : Parts text (p.segments.map Segment.display))
    (reads : ∀ s ∈ p.segments, Segment.Reads s.display s) : p.Legible := by
  have slashFree : ∀ s ∈ p.segments, '/' ∉ s.text.toList := by
    intro s mem
    rw [← slash_mem_display_iff]
    exact parts.slashFree s.display (List.mem_map_of_mem mem)
  constructor
  case slashFree => exact slashFree
  case literal =>
    intro text mem
    exact (reads_display_iff (slashFree _ mem)).mp (reads _ mem) text rfl
  case ends =>
    have first := (not_congr (Text.head?_intercalate_iff parts.slashFree)).mp parts.first
    have last := (not_congr (Text.getLast?_intercalate_iff parts.slashFree)).mp parts.last
    rw [head?_map_display_iff, List.length_map] at first
    rw [getLast?_map_display_iff, List.length_map] at last
    by_cases one : p.segments.length = 1
    · exact .inl one
    · exact .inr ⟨fun empty => first ⟨empty, one⟩, fun empty => last ⟨empty, one⟩⟩

/-! ### The display -/

/-- Slashes before the segments are one slash before all of them and one between each two. -/
lemma join_slashes {segments : List Segment} (ne : segments ≠ []) :
    String.join (segments.map fun s => "/" ++ s.display) =
      "/" ++ "/".intercalate (segments.map Segment.display) := by
  induction segments with
  | nil => exact absurd rfl ne
  | cons s rest ih =>
    cases rest with
    | nil => simp
    | cons t rest =>
      have tail := ih (List.cons_ne_nil t rest)
      rw [List.map_cons, String.join_cons, tail]
      simp [String.intercalate_cons_cons, String.append_assoc]

/-- A pattern is written with one slash before its tokens, and one behind them for its mark. -/
lemma toList_display (p : Pattern) : p.display.toList =
    List.replicate 1 '/' ++ ("/".intercalate (p.segments.map Segment.display)).toList ++
      List.replicate (if p.trailing = .yes then 1 else 0) '/' := by
  rw [display, join_slashes p.segments_ne_nil]
  split <;> simp

/-- The display of a legible pattern falls into the tokens of its segments. -/
lemma Legible.parts (legible : p.Legible) : Parts p.display (p.segments.map Segment.display) := by
  have slashFree : ∀ token ∈ p.segments.map Segment.display, '/' ∉ token.toList := by
    rw [List.forall_mem_map]
    intro s mem
    rw [slash_mem_display_iff]
    exact legible.slashFree s mem
  constructor
  case ne_nil => exact (not_congr List.map_eq_nil_iff).mpr p.segments_ne_nil
  case slashFree => exact slashFree
  case between => exact ⟨1, _, toList_display p⟩
  case first =>
    rw [ne_eq, Text.head?_intercalate_iff slashFree, head?_map_display_iff, List.length_map]
    rintro ⟨empty, several⟩
    exact (legible.ends.resolve_left several).1 empty
  case last =>
    rw [ne_eq, Text.getLast?_intercalate_iff slashFree, getLast?_map_display_iff, List.length_map]
    rintro ⟨empty, several⟩
    exact (legible.ends.resolve_left several).2 empty

/-- The slash for the mark is taken for one. -/
lemma Legible.marked (legible : p.Legible) : p.trailing = .yes ↔ endsGreedy p.segments = false ∧
    p.display.toList.getLast? = some '/' ∧ 1 < p.display.utf8ByteSize := by
  have last := legible.parts.last
  have own := p.trailing_eq_indeterminate_iff
  rw [← Text.endsInSlash_iff, Text.endsInSlash, toList_display]
  generalize ("/".intercalate (p.segments.map Segment.display)).toList = middle at last
  cases mark : p.trailing with
  | yes =>
    have determinate : endsGreedy p.segments = false := by simpa [mark] using own
    simp [determinate, List.getLast?_cons]
  | indeterminate => simp [own.mp mark]
  | no =>
    rcases List.eq_nil_or_concat' middle with rfl | ⟨front, c, rfl⟩
    · simp
    · -- the tokens do not end in a slash, so without a mark there is none at the end
      have other : c ≠ '/' := by simpa using last
      simp [other, List.getLast?_cons]

/-- A legible pattern is read as it is written. -/
lemma parse_display_of_legible (legible : p.Legible) : parse p.display = .ok p := by
  refine parse_eq_ok_iff.mpr ⟨legible.parts, ?_, legible.marked⟩
  intro s mem
  rw [reads_display_iff (legible.slashFree s mem)]
  rintro text rfl
  exact legible.literal text mem

/-- What is read from a text is legible. -/
lemma legible_of_parse {text : String} (ok : parse text = .ok p) : p.Legible := by
  obtain ⟨parts, reads, -⟩ := parse_eq_ok_iff.mp ok
  exact legible_of_parts parts reads

/-! ### Joins -/

/-- The core of a legible pattern neither begins nor ends with the empty literal. -/
lemma ends_iff_core : (p.segments.length = 1 ∨
    p.segments.head? ≠ some (.literal "") ∧ p.segments.getLast? ≠ some (.literal "")) ↔
      p.core.head? ≠ some (.literal "") ∧ p.core.getLast? ≠ some (.literal "") := by
  cases root : p.isRoot with
  | true => simp [core_of_isRoot root, isRoot_iff.mp root]
  | false =>
    rw [core_of_not_isRoot root]
    constructor
    · rintro (one | ends)
      · obtain ⟨s, single⟩ := List.length_eq_one_iff.mp one
        have other : s ≠ .literal "" := by
          rintro rfl
          rw [isRoot_iff.mpr single] at root
          cases root
        simp [single, other]
      · exact ends
    · exact .inr

/-- The segments of a join are those of the joined patterns. -/
lemma mem_segments_join {s : Segment} (joined : p.join q = .ok r) (mem : s ∈ r.segments) :
    s ∈ p.segments ∨ s ∈ q.segments := by
  cases root : q.isRoot with
  | true =>
    rw [segments_join_root joined root] at mem
    exact .inl mem
  | false =>
    rw [segments_join joined root, List.mem_append] at mem
    exact mem.imp_left fun mem => p.core_subset mem

/-- The join of legible patterns is legible. -/
lemma legible_join (hp : p.Legible) (hq : q.Legible) (joined : p.join q = .ok r) : r.Legible := by
  constructor
  case slashFree =>
    intro s mem
    rcases mem_segments_join joined mem with mem | mem
    · exact hp.slashFree s mem
    · exact hq.slashFree s mem
  case literal =>
    intro text mem
    rcases mem_segments_join joined mem with mem | mem
    · exact hp.literal text mem
    · exact hq.literal text mem
  case ends =>
    have front := ends_iff_core.mp hp.ends
    have back := ends_iff_core.mp hq.ends
    -- the ends of both cores together are ends of one of them
    rw [ends_iff_core, core_join joined, List.head?_append, List.getLast?_append]
    constructor
    · intro empty
      rcases Option.or_eq_some_iff.mp empty with first | ⟨-, first⟩
      · exact front.1 first
      · exact back.1 first
    · intro empty
      rcases Option.or_eq_some_iff.mp empty with last | ⟨-, last⟩
      · exact back.2 last
      · exact front.2 last

/-- A slash-free text is read as itself if it is too short for brackets or does without them. -/
lemma parse_eq_literal_iff {text : String} (slashFree : '/' ∉ text.toList) :
    Segment.parse text = .ok (.literal text) ↔ text.utf8ByteSize < 2 ∨ ¬Segment.Bracketed text := by
  rw [Segment.parse_eq_ok_iff, and_iff_right slashFree]
  constructor
  · intro reads
    cases reads with
    | literal plain => exact plain
  · exact .literal

/-- A pattern is read back from its display if and only if it is legible. The patterns that are read from texts are
legible, and joins of legible patterns are. -/
theorem parse_display_iff (p : Pattern) :
    (parse p.display = .ok p ↔ p.Legible) ∧
    (∀ text, '/' ∉ text.toList → (Segment.parse text = .ok (.literal text) ↔
      text.utf8ByteSize < 2 ∨ ¬Segment.Bracketed text)) ∧
    (∀ text, parse text = .ok p → p.Legible ∧ parse p.display = .ok p) ∧
    (∀ q pq, p.Legible → q.Legible → p.join q = .ok pq →
      pq.Legible ∧ parse pq.display = .ok pq) := by
  refine ⟨⟨legible_of_parse, parse_display_of_legible⟩, ?_, ?_, ?_⟩
  · intro text slashFree
    exact parse_eq_literal_iff slashFree
  · intro text ok
    have legible := legible_of_parse ok
    exact ⟨legible, parse_display_of_legible legible⟩
  · intro q pq hp hq joined
    have legible := legible_join hp hq joined
    exact ⟨legible, parse_display_of_legible legible⟩

/-- An empty token within a pattern and the mark of a root are kept, and a bracket alone is a literal. -/
theorem parse_display_iff_inner :
    let p : Pattern := ⟨[.literal "a", .literal "", .literal "\x7b"], .no, by decide, by decide, by decide⟩
    let root : Pattern := ⟨[.literal ""], .yes, by decide, by decide, by decide⟩
    let q : Pattern := ⟨[.literal "a", .literal "", .literal "\x7b"], .yes, by decide, by decide, by decide⟩
    root.display = "//" ∧ parse root.display = .ok root ∧
      Segment.parse "\x7b" = .ok (.literal "\x7b") ∧ p.join root = .ok q ∧
      q.display = "/a//\x7b/" ∧ parse q.display = .ok q := by
  intro p root q
  obtain ⟨-, -, read_root, -⟩ := parse_display_iff root
  obtain ⟨-, plain, read, joins⟩ := parse_display_iff p
  obtain ⟨legible_root, root_again⟩ := read_root "//" rfl
  obtain ⟨legible, -⟩ := read "a//\x7b" rfl
  have joined : p.join root = .ok q := rfl
  refine ⟨rfl, root_again, (plain _ (by decide)).mpr (.inl (by decide)), joined, rfl, ?_⟩
  exact (joins root q legible legible_root joined).2

end Pattern

end PathRouting

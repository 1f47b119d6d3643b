import PathRouting.Pattern.Basic
import PathRouting.Proofs.Lists
import PathRouting.Proofs.Text.Slashes

/-!
# The grammar of patterns

`Segment.Reads` says which token is which segment, and `Segment.Mismatched` which token is none, both without
the scan of `Segment.parse`. `Pattern.Outcome` says the same for a whole text: tokens are looked at before names,
and of several faults of one kind the first one counts. Reading follows the grammar on every text
(`Pattern.parse_follows_grammar`).
-/

namespace PathRouting

/-! ### Segments -/

namespace Segment

/-- The token opens with a bracket or closes with one. -/
def Bracketed (token : String) : Prop :=
  token.toList.head? ∈ [some '{', some '<'] ∨ token.toList.getLast? ∈ [some '}', some '>']

/-- The token is that of the segment: one between brackets of one kind is a placeholder, and any other one is a
literal if it is too short to hold two brackets or does without them. -/
inductive Reads : String → Segment → Prop where
  | named (name : String) : Reads ("\x7b" ++ name ++ "\x7d") (.named name)
  | greedy (name : String) : Reads ("<" ++ name ++ ">") (.greedy name)
  | literal {token : String} (plain : token.utf8ByteSize < 2 ∨ ¬Bracketed token) :
    Reads token (.literal token)

/-- The token has a bracket at one end, and nothing at the other one that matches it. -/
structure Mismatched (token : String) : Prop where
  long : 2 ≤ token.utf8ByteSize
  bracketed : Bracketed token
  not_named : ∀ name, token ≠ "\x7b" ++ name ++ "\x7d"
  not_greedy : ∀ name, token ≠ "<" ++ name ++ ">"

variable {token : String} {s : Segment}

/-- A segment is written as the token that it was read from. -/
lemma Reads.display_eq (reads : Reads token s) : s.display = token := by
  cases reads <;> rfl

/-- Every token is a segment, or its brackets do not match. -/
lemma reads_or_mismatched (token : String) : (∃ s, Reads token s) ∨ Mismatched token := by
  by_cases plain : token.utf8ByteSize < 2 ∨ ¬Bracketed token
  · exact .inl ⟨_, .literal plain⟩
  · rw [not_or, not_lt, not_not] at plain
    by_cases named : ∃ name, token = "\x7b" ++ name ++ "\x7d"
    · obtain ⟨name, rfl⟩ := named
      exact .inl ⟨_, .named name⟩
    · by_cases greedy : ∃ name, token = "<" ++ name ++ ">"
      · obtain ⟨name, rfl⟩ := greedy
        exact .inl ⟨_, .greedy name⟩
      · exact .inr ⟨plain.1, plain.2, not_exists.mp named, not_exists.mp greedy⟩

/-- How a token of more than one character is read: by its ends. -/
lemma parse_of_toList {first last : Char} {inner : List Char} (slashFree : '/' ∉ token.toList)
    (chars : token.toList = first :: (inner ++ [last])) : parse token =
      if first = '{' ∧ last = '}' then .ok (.named (String.ofList inner))
      else if first = '<' ∧ last = '>' then .ok (.greedy (String.ofList inner))
      else if isOpening first || isClosing last then .error (.mismatchedBrackets token)
      else .ok (.literal token) := by
  obtain ⟨second, rest, tail⟩ := List.exists_cons_of_ne_nil (List.append_ne_nil_of_right_ne_nil inner
    (List.cons_ne_nil last []))
  have ends : (second :: rest).getLast (List.cons_ne_nil second rest) = last := by
    simp only [← tail, List.getLast_concat]
  have middle : (second :: rest).dropLast = inner := by
    rw [← tail, List.dropLast_concat]
  rw [tail] at chars
  rw [parse, if_neg slashFree, chars]
  simp only [ends, middle]

/-- The characters of a token: none, one that is both ends of it, or two ends and what is between them. -/
lemma toList_cases (token : String) : token.toList = [] ∨ (∃ c, token.toList = [c]) ∨
    ∃ first inner last, token.toList = first :: (inner ++ [last]) := by
  cases token.toList with
  | nil => exact .inl rfl
  | cons first rest =>
    rcases List.eq_nil_or_concat' rest with rfl | ⟨inner, last, rfl⟩
    · exact .inr (.inl ⟨first, rfl⟩)
    · exact .inr (.inr ⟨first, inner, last, rfl⟩)

/-- A token with two ends is bracketed if one of them is a bracket of its side. -/
lemma bracketed_iff {first last : Char} {inner : List Char}
    (chars : token.toList = first :: (inner ++ [last])) :
    Bracketed token ↔ (isOpening first || isClosing last) = true := by
  have back : (first :: (inner ++ [last])).getLast? = some last := by
    rw [← List.cons_append, List.getLast?_concat]
  rw [Bracketed, chars, back]
  simp [isOpening, isClosing]

/-- A token with two ends has at least two bytes. -/
lemma long_of_toList {first last : Char} {inner : List Char}
    (chars : token.toList = first :: (inner ++ [last])) : ¬token.utf8ByteSize < 2 := by
  rw [Text.utf8ByteSize_lt_two_iff, chars]
  simp

/-- A token whose brackets do not match has two ends. -/
lemma Mismatched.exists_ends (mismatched : Mismatched token) :
    ∃ first inner last, token.toList = first :: (inner ++ [last]) := by
  obtain ⟨long, bracketed, -, -⟩ := mismatched
  rcases toList_cases token with none | ⟨c, one⟩ | more
  · exact absurd (Text.utf8ByteSize_lt_two_iff.mpr (.inl none)) (Nat.not_lt.mpr long)
  · -- a bracket takes one byte, so it would be too short alone
    have plain : c.utf8Size = 1 := by
      simp only [Bracketed, one, List.head?_cons, List.getLast?_singleton, List.mem_cons,
        Option.some.injEq, List.not_mem_nil, or_false] at bracketed
      rcases bracketed with (rfl | rfl) | (rfl | rfl) <;> rfl
    exact absurd (Text.utf8ByteSize_lt_two_iff.mpr (.inr ⟨c, one, plain⟩)) (Nat.not_lt.mpr long)
  · exact more

/-- A token whose brackets do not match is refused for them. -/
lemma Mismatched.parse_eq (mismatched : Mismatched token) (slashFree : '/' ∉ token.toList) :
    parse token = .error (.mismatchedBrackets token) := by
  obtain ⟨first, inner, last, chars⟩ := mismatched.exists_ends
  have same : token = String.ofList (first :: (inner ++ [last])) := by
    rw [← chars, String.ofList_toList]
  rw [parse_of_toList slashFree chars, if_neg, if_neg, if_pos]
  · exact (bracketed_iff chars).mp mismatched.bracketed
  · rintro ⟨rfl, rfl⟩
    apply mismatched.not_greedy (String.ofList inner)
    rw [same, ← String.toList_inj]
    simp
  · rintro ⟨rfl, rfl⟩
    apply mismatched.not_named (String.ofList inner)
    rw [same, ← String.toList_inj]
    simp

/-- A token of a segment is read as this segment. -/
lemma Reads.parse_eq (reads : Reads token s) (slashFree : '/' ∉ token.toList) :
    parse token = .ok s := by
  cases reads with
  | named name =>
    have chars : ("\x7b" ++ name ++ "\x7d").toList = '{' :: (name.toList ++ ['}']) := by simp
    rw [parse_of_toList slashFree chars, if_pos ⟨rfl, rfl⟩, String.ofList_toList]
  | greedy name =>
    have chars : ("<" ++ name ++ ">").toList = '<' :: (name.toList ++ ['>']) := by simp
    rw [parse_of_toList slashFree chars, if_neg (by decide), if_pos ⟨rfl, rfl⟩, String.ofList_toList]
  | literal plain =>
    rcases toList_cases token with none | ⟨c, one⟩ | ⟨first, inner, last, chars⟩
    · rw [parse, if_neg slashFree, none]
    · rw [parse, if_neg slashFree, one]
    · have bare := (not_congr (bracketed_iff chars)).mp (plain.resolve_left (long_of_toList chars))
      rw [Bool.or_eq_true, not_or] at bare
      rw [parse_of_toList slashFree chars, if_neg, if_neg, if_neg]
      · simp [bare]
      · rintro ⟨rfl, -⟩
        exact bare.1 rfl
      · rintro ⟨rfl, -⟩
        exact bare.1 rfl

/-- A token with a slash is refused for it. -/
lemma parse_of_slash (slash : '/' ∈ token.toList) : parse token = .error (.slashInSegment token) := by
  rw [parse, if_pos slash]

/-- A token is read as a segment exactly if it has no slash and is the token of that segment. -/
theorem parse_eq_ok_iff : parse token = .ok s ↔ '/' ∉ token.toList ∧ Reads token s := by
  constructor
  · intro ok
    by_cases slash : '/' ∈ token.toList
    · cases (parse_of_slash slash).symm.trans ok
    · refine ⟨slash, ?_⟩
      rcases reads_or_mismatched token with ⟨t, reads⟩ | mismatched
      · cases (reads.parse_eq slash).symm.trans ok
        exact reads
      · cases (mismatched.parse_eq slash).symm.trans ok
  · intro ⟨slashFree, reads⟩
    exact reads.parse_eq slashFree

/-- A token is refused for a slash in it, or else for brackets that do not match. -/
theorem parse_eq_error_iff {cause : PatternError} : parse token = .error cause ↔
    '/' ∈ token.toList ∧ cause = .slashInSegment token ∨
      '/' ∉ token.toList ∧ Mismatched token ∧ cause = .mismatchedBrackets token := by
  constructor
  · intro failed
    by_cases slash : '/' ∈ token.toList
    · cases (parse_of_slash slash).symm.trans failed
      exact .inl ⟨slash, rfl⟩
    · rcases reads_or_mismatched token with ⟨t, reads⟩ | mismatched
      · cases (reads.parse_eq slash).symm.trans failed
      · cases (mismatched.parse_eq slash).symm.trans failed
        exact .inr ⟨slash, mismatched, rfl⟩
  · rintro (⟨slash, rfl⟩ | ⟨slashFree, mismatched, rfl⟩)
    · exact parse_of_slash slash
    · exact mismatched.parse_eq slashFree

/-- The brackets of a token that is a segment match. -/
lemma Reads.not_mismatched (reads : Reads token s) : ¬Mismatched token := by
  intro mismatched
  cases reads with
  | named name => exact mismatched.not_named name rfl
  | greedy name => exact mismatched.not_greedy name rfl
  | literal plain =>
    rcases plain with short | bare
    · exact Nat.not_lt.mpr mismatched.long short
    · exact bare mismatched.bracketed

end Segment

/-! ### Patterns -/

namespace Pattern

open Text (Parts)

/-- What the grammar makes of a text. A token that is no segment is reported before a name that is used twice; of
several such tokens it is the first one, and of several such names the first one that is used again. -/
inductive Outcome (text : String) : Except PatternError Pattern → Prop where
  | mismatched {front back : List String} {token : String} (parts : Parts text (front ++ token :: back))
      (matched : ∀ earlier ∈ front, ¬Segment.Mismatched earlier) (here : Segment.Mismatched token) :
    Outcome text (.error (.mismatchedBrackets token))
  | repeated {tokens : List String} {segments : List Segment} {front back : List String} {name : String}
      (parts : Parts text tokens) (reads : List.Forall₂ Segment.Reads tokens segments)
      (names : namesOf segments = front ++ name :: back) (distinct : front.Nodup) (again : name ∈ front) :
    Outcome text (.error (.duplicateAlias name))
  | pattern {tokens : List String} {p : Pattern} (parts : Parts text tokens)
      (reads : List.Forall₂ Segment.Reads tokens p.segments)
      (marked : p.trailing = .yes ↔ endsGreedy p.segments = false ∧ text.toList.getLast? = some '/' ∧
        1 < text.utf8ByteSize) :
    Outcome text (.ok p)

variable {text : String} {p : Pattern}

/-- Tokens without slashes are read one by one. -/
lemma mapM_parse_eq_ok_iff {tokens : List String} {segments : List Segment}
    (slashFree : ∀ token ∈ tokens, '/' ∉ token.toList) :
    tokens.mapM Segment.parse = .ok segments ↔ List.Forall₂ Segment.Reads tokens segments := by
  rw [mapM_eq_ok_iff]
  constructor
  · intro parsed
    exact parsed.imp fun _ _ ok => (Segment.parse_eq_ok_iff.mp ok).2
  · intro reads
    rw [List.forall₂_iff_get] at reads ⊢
    refine ⟨reads.1, fun i left right => Segment.parse_eq_ok_iff.mpr ⟨?_, reads.2 i left right⟩⟩
    exact slashFree _ (List.getElem_mem left)

/-- Tokens without slashes are refused for the first one whose brackets do not match. -/
lemma mapM_parse_eq_error_iff {tokens : List String} {cause : PatternError}
    (slashFree : ∀ token ∈ tokens, '/' ∉ token.toList) :
    tokens.mapM Segment.parse = .error cause ↔ ∃ front token back, tokens = front ++ token :: back ∧
      (∀ earlier ∈ front, ¬Segment.Mismatched earlier) ∧ Segment.Mismatched token ∧
      cause = .mismatchedBrackets token := by
  rw [mapM_eq_error_iff]
  constructor
  · rintro ⟨front, token, back, rfl, passed, failed⟩
    refine ⟨front, token, back, rfl, ?_, ?_⟩
    · intro earlier mem
      obtain ⟨s, ok⟩ := passed earlier mem
      exact (Segment.parse_eq_ok_iff.mp ok).2.not_mismatched
    · rcases Segment.parse_eq_error_iff.mp failed with ⟨slash, -⟩ | ⟨-, here⟩
      · exact absurd slash (slashFree token (by simp))
      · exact here
  · rintro ⟨front, token, back, rfl, matched, here, rfl⟩
    refine ⟨front, token, back, rfl, ?_, here.parse_eq (slashFree token (by simp))⟩
    intro earlier mem
    obtain ⟨s, reads⟩ := (Segment.reads_or_mismatched earlier).resolve_right (matched earlier mem)
    exact ⟨s, reads.parse_eq (slashFree earlier (by simp [mem]))⟩

/-- A pattern settles for a mark or for none if it has the mark exactly as it is asked for, where it does not end
in a greedy segment. -/
lemma trailing_eq_settle_iff {slash : Bool} :
    p.trailing = settleTrailing p.segments (.ofBool slash) ↔
      (p.trailing = .yes ↔ endsGreedy p.segments = false ∧ slash = true) := by
  have own := p.trailing_eq_indeterminate_iff
  cases greedy : endsGreedy p.segments <;> cases mark : p.trailing <;> cases slash <;>
    simp_all [settleTrailing, Trailing.ofBool]

/-- A list that has a segment stands for itself. -/
lemma rooted_of_ne_nil {segments : List Segment} (ne : segments ≠ []) : rooted segments = segments :=
  if_neg ne

/-- What reading makes of a text is an outcome of the grammar. -/
lemma outcome_parse (text : String) : Outcome text (parse text) := by
  have parts := Text.parts_tokens text
  rw [parse]
  cases scanned : (Text.tokens text).mapM Segment.parse with
  | error cause =>
    obtain ⟨front, token, back, split, matched, here, rfl⟩ :=
      (mapM_parse_eq_error_iff parts.slashFree).mp scanned
    rw [split] at parts
    exact .mismatched parts matched here
  | ok segments =>
    have reads := (mapM_parse_eq_ok_iff parts.slashFree).mp scanned
    -- there is a token at least, so the segments do not stand for the root by being none
    have rooted : rooted segments = segments := by
      apply rooted_of_ne_nil
      rintro rfl
      exact parts.ne_nil (List.forall₂_nil_right_iff.mp reads)
    show Outcome text (ofSegments segments (.ofBool (Text.endsInSlash text)))
    cases built : ofSegments segments (.ofBool (Text.endsInSlash text)) with
    | error cause =>
      obtain ⟨name, first, rfl⟩ := ofSegments_eq_error_iff.mp built
      obtain ⟨front, back, names, distinct, -, again⟩ := firstRepeat_eq_some_iff.mp first
      rw [rooted] at names
      exact .repeated parts reads names distinct (by simpa using again)
    | ok p =>
      obtain ⟨-, segs, trailing⟩ := ofSegments_eq_ok_iff.mp built
      rw [rooted] at segs trailing
      rw [← segs] at reads trailing
      refine .pattern parts reads ?_
      rw [← Text.endsInSlash_iff]
      exact trailing_eq_settle_iff.mp trailing

/-- The grammar leaves a text no other outcome than the one that reading gives. -/
lemma Outcome.parse_eq {outcome : Except PatternError Pattern} (h : Outcome text outcome) :
    parse text = outcome := by
  rw [parse]
  cases h with
  | mismatched parts matched here =>
    rw [Text.parts_iff.mp parts,
      (mapM_parse_eq_error_iff parts.slashFree).mpr ⟨_, _, _, rfl, matched, here, rfl⟩]
    rfl
  | @repeated tokens segments front back name parts reads names distinct again =>
    rw [Text.parts_iff.mp parts, (mapM_parse_eq_ok_iff parts.slashFree).mpr reads]
    apply ofSegments_eq_error_iff.mpr
    refine ⟨name, ?_, rfl⟩
    rw [rooted_of_ne_nil, firstRepeat_eq_some_iff]
    · exact ⟨front, back, names, distinct, by simp, .inr again⟩
    · rintro rfl
      exact parts.ne_nil (List.forall₂_nil_right_iff.mp reads)
  | @pattern tokens p parts reads marked =>
    rw [Text.parts_iff.mp parts, (mapM_parse_eq_ok_iff parts.slashFree).mpr reads]
    apply ofSegments_eq_ok_iff.mpr
    rw [rooted_of_ne_nil p.segments_ne_nil]
    rw [← Text.endsInSlash_iff] at marked
    exact ⟨p.names_nodup, rfl, trailing_eq_settle_iff.mpr marked⟩

/-- Reading a text gives exactly the outcome of the grammar. -/
theorem parse_eq_iff {outcome : Except PatternError Pattern} :
    parse text = outcome ↔ Outcome text outcome := by
  constructor
  · rintro rfl
    exact outcome_parse text
  · exact Outcome.parse_eq

/-- Every text is read as the grammar has it, and no text is refused for a slash within a token. The patterns that
are built have a segment, distinct names, and an indeterminate mark exactly if they end in a greedy segment. -/
theorem parse_follows_grammar (text : String) :
    (∀ outcome, parse text = outcome ↔ Outcome text outcome) ∧
    (∀ token, parse text ≠ .error (.slashInSegment token)) ∧
    (∀ p : Pattern, p.segments ≠ [] ∧ p.names.Nodup ∧
      (p.trailing = .indeterminate ↔ ∃ name, p.segments.getLast? = some (.greedy name))) := by
  refine ⟨fun outcome => parse_eq_iff, ?_, ?_⟩
  · intro token refused
    cases parse_eq_iff.mp refused
  · intro p
    refine ⟨p.segments_ne_nil, p.names_nodup, ?_⟩
    rw [p.trailing_eq_indeterminate_iff, endsGreedy, Option.any_eq_true]
    constructor
    · rintro ⟨s, last, greedy⟩
      obtain ⟨name, rfl⟩ := Segment.isGreedy_iff.mp greedy
      exact ⟨name, last⟩
    · rintro ⟨name, last⟩
      exact ⟨.greedy name, last, rfl⟩

/-- A token without its closing bracket counts more than a name that is used twice before it. -/
example : parse "/\x7bx\x7d/\x7bx\x7d/<y" = .error (.mismatchedBrackets "<y") ∧
    parse "/\x7bx\x7d/\x7bx\x7d/<y>" = .error (.duplicateAlias "x") := ⟨rfl, rfl⟩

end Pattern

end PathRouting

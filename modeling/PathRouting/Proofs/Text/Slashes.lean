import Mathlib.Data.List.Basic
import Mathlib.Data.List.TakeWhile
import Mathlib.Tactic.Lemma
import PathRouting.RequestPath

/-!
# What the slashes of a text part

`Parts` says what the tokens of a text are, without a scan: with slashes between them, and further slashes at
both ends, they give the text back, and there is no way to take a slash off either end of what is between.
Every text is parted into its tokens and into no others (`parts_iff`).
-/

namespace PathRouting.Text

/-- The slashes of a text part it into the tokens; those at both ends part nothing. -/
structure Parts (text : String) (tokens : List String) : Prop where
  ne_nil : tokens ≠ []
  slashFree : ∀ token ∈ tokens, '/' ∉ token.toList
  between : ∃ front back, text.toList =
    List.replicate front '/' ++ ("/".intercalate tokens).toList ++ List.replicate back '/'
  first : ("/".intercalate tokens).toList.head? ≠ some '/'
  last : ("/".intercalate tokens).toList.getLast? ≠ some '/'

/-! ### Slashes at the ends -/

/-- The slash is the only character that parts a text. -/
lemma isSlash_iff {c : Char} : isSlash c = true ↔ c = '/' := beq_iff_eq

/-- Slashes in front make no difference once slashes are dropped there. -/
lemma dropWhile_replicate (n : Nat) (cs : List Char) :
    (List.replicate n '/' ++ cs).dropWhile isSlash = cs.dropWhile isSlash := by
  apply List.dropWhile_append_of_pos
  intro c mem
  exact isSlash_iff.mpr (List.eq_of_mem_replicate mem)

/-- Where no slash is in front none is dropped. -/
lemma dropWhile_eq_self {cs : List Char} (first : cs.head? ≠ some '/') :
    cs.dropWhile isSlash = cs := by
  cases cs with
  | nil => rfl
  | cons c cs =>
    have other : isSlash c = false := by
      rw [← Bool.not_eq_true, isSlash_iff]
      rintro rfl
      exact first rfl
    rw [List.dropWhile_cons, other]
    rfl

/-- No slash is left in front. -/
lemma head?_dropWhile (cs : List Char) : (cs.dropWhile isSlash).head? ≠ some '/' := by
  intro slash
  have other := List.head?_dropWhile_not isSlash cs
  rw [slash] at other
  cases other

/-- What is dropped in front is slashes. -/
lemma exists_leading (cs : List Char) :
    ∃ n, cs = List.replicate n '/' ++ cs.dropWhile isSlash := by
  have leading : cs.takeWhile isSlash = List.replicate (cs.takeWhile isSlash).length '/' := by
    apply List.eq_replicate_of_mem
    intro c mem
    exact isSlash_iff.mp (List.mem_takeWhile_imp mem)
  refine ⟨(cs.takeWhile isSlash).length, ?_⟩
  rw [← leading, List.takeWhile_append_dropWhile]

/-- What is trimmed away behind is slashes. -/
lemma exists_closing (cs : List Char) :
    ∃ n, cs.dropWhile isSlash = trimSlashes cs ++ List.replicate n '/' := by
  obtain ⟨n, leading⟩ := exists_leading (cs.dropWhile isSlash).reverse
  refine ⟨n, ?_⟩
  rw [← List.reverse_inj, List.reverse_append, List.reverse_replicate, trimSlashes,
    List.reverse_reverse, ← leading]

/-- What is trimmed away are slashes at both ends. -/
lemma exists_trimSlashes (cs : List Char) : ∃ front back,
    cs = List.replicate front '/' ++ trimSlashes cs ++ List.replicate back '/' := by
  obtain ⟨front, leading⟩ := exists_leading cs
  obtain ⟨back, closing⟩ := exists_closing cs
  refine ⟨front, back, ?_⟩
  rw [List.append_assoc, ← closing, ← leading]

/-- A trimmed text does not begin with a slash. -/
lemma head?_trimSlashes (cs : List Char) : (trimSlashes cs).head? ≠ some '/' := by
  intro slash
  obtain ⟨back, closing⟩ := exists_closing cs
  have first := head?_dropWhile cs
  rw [closing, List.head?_append, slash] at first
  exact first rfl

/-- Nor does it end in one. -/
lemma getLast?_trimSlashes (cs : List Char) : (trimSlashes cs).getLast? ≠ some '/' := by
  rw [trimSlashes, List.getLast?_reverse]
  exact head?_dropWhile _

/-- Slashes at the ends of what neither begins nor ends in one are trimmed away. -/
lemma trimSlashes_eq {middle : List Char} (first : middle.head? ≠ some '/')
    (last : middle.getLast? ≠ some '/') (front back : Nat) :
    trimSlashes (List.replicate front '/' ++ middle ++ List.replicate back '/') = middle := by
  rw [trimSlashes, List.append_assoc, dropWhile_replicate]
  -- with nothing in the middle the slashes behind are in front as well
  cases middle with
  | nil =>
    have bare := dropWhile_replicate back []
    rw [List.append_nil] at bare
    rw [List.nil_append, bare]
    rfl
  | cons c middle =>
    have stays : (c :: middle ++ List.replicate back '/').head? ≠ some '/' := first
    rw [dropWhile_eq_self stays, List.reverse_append, List.reverse_replicate, dropWhile_replicate,
      dropWhile_eq_self (by rwa [List.head?_reverse]), List.reverse_reverse]

/-! ### Tokens -/

/-- What stands between slashes has none. -/
lemma slashFree_of_mem_splitOn {cs block : List Char} (mem : block ∈ cs.splitOn '/') :
    '/' ∉ block := by
  induction cs generalizing block with
  | nil =>
    rw [List.splitOn_nil, List.mem_singleton] at mem
    rw [mem]
    exact List.not_mem_nil
  | cons c cs ih =>
    rw [List.splitOn_cons_eq_if_modifyHead] at mem
    split at mem
    · rcases List.mem_cons.mp mem with rfl | mem
      · exact List.not_mem_nil
      · exact ih mem
    · rename_i other
      cases blocks : cs.splitOn '/' with
      | nil => exact absurd blocks (List.splitOn_ne_nil '/' cs)
      | cons first rest =>
        rw [blocks] at mem ih
        rcases List.mem_cons.mp mem with rfl | mem
        · rw [List.mem_cons, not_or]
          exact ⟨fun slash => other (slash ▸ beq_self_eq_true _), ih List.mem_cons_self⟩
        · exact ih (List.mem_cons_of_mem first mem)

/-- The tokens with slashes between them are the text without the slashes at its ends. -/
lemma toList_intercalate_tokens (text : String) :
    ("/".intercalate (tokens text)).toList = trimSlashes text.toList := by
  have chars : (tokens text).map String.toList = (trimSlashes text.toList).splitOn '/' := by
    simp [tokens, Function.comp_def]
  rw [String.toList_intercalate, chars]
  exact List.intercalate_splitOn '/'

/-- The slashes of a text part it into its tokens. -/
lemma parts_tokens (text : String) : Parts text (tokens text) := by
  have middle := toList_intercalate_tokens text
  constructor
  case ne_nil => exact tokens_ne_nil text
  case slashFree =>
    intro token mem
    obtain ⟨block, block_mem, rfl⟩ := List.mem_map.mp mem
    rw [String.toList_ofList]
    exact slashFree_of_mem_splitOn block_mem
  case between =>
    rw [middle]
    exact exists_trimSlashes text.toList
  case first =>
    rw [middle]
    exact head?_trimSlashes text.toList
  case last =>
    rw [middle]
    exact getLast?_trimSlashes text.toList

/-- The slashes of a text part it into its tokens, and into nothing else. -/
theorem parts_iff {text : String} {parts : List String} : Parts text parts ↔ tokens text = parts := by
  constructor
  · intro ⟨ne, slashFree, ⟨front, back, between⟩, first, last⟩
    have chars : (parts.map String.toList).map String.ofList = parts := by
      simp [Function.comp_def]
    rw [tokens, between, trimSlashes_eq first last, String.toList_intercalate]
    rw [show "/".toList = ['/'] from rfl, List.splitOn_intercalate '/', chars]
    · intro block mem
      obtain ⟨token, token_mem, rfl⟩ := List.mem_map.mp mem
      exact slashFree token token_mem
    · exact (not_congr List.map_eq_nil_iff).mpr ne
  · rintro rfl
    exact parts_tokens text

/-- Texts have the same tokens exactly if the same is left of them without the slashes at their ends. -/
lemma tokens_eq_iff {s t : String} :
    tokens s = tokens t ↔ trimSlashes s.toList = trimSlashes t.toList := by
  constructor
  · intro same
    rw [← toList_intercalate_tokens, ← toList_intercalate_tokens, same]
  · exact tokens_congr

/-! ### Tokens at the ends -/

/-- Tokens with slashes between them begin with a slash if the first one is empty and not the only one. -/
lemma head?_intercalate_iff {tokens : List String} (slashFree : ∀ token ∈ tokens, '/' ∉ token.toList) :
    ("/".intercalate tokens).toList.head? = some '/' ↔ tokens.head? = some "" ∧ tokens.length ≠ 1 := by
  cases tokens with
  | nil => simp
  | cons token rest =>
    have free := slashFree token List.mem_cons_self
    have here : token.toList.head? ≠ some '/' := fun slash => free (List.mem_of_head? slash)
    cases rest with
    | nil => simp [here]
    | cons next rest =>
      rw [String.intercalate_cons_cons]
      by_cases empty : token = ""
      · simp [empty]
      · have ne : token.toList ≠ [] := by rwa [ne_eq, String.toList_eq_nil_iff]
        obtain ⟨c, cs, split⟩ := List.exists_cons_of_ne_nil ne
        have other : c ≠ '/' := by
          rintro rfl
          exact here (congrArg List.head? split)
        simp [empty, split, other]

/-- Likewise they end in a slash if the last one is. -/
lemma getLast?_intercalate_iff {tokens : List String}
    (slashFree : ∀ token ∈ tokens, '/' ∉ token.toList) :
    ("/".intercalate tokens).toList.getLast? = some '/' ↔
      tokens.getLast? = some "" ∧ tokens.length ≠ 1 := by
  rcases List.eq_nil_or_concat' tokens with rfl | ⟨rest, token, rfl⟩
  · simp
  · have free := slashFree token (by simp)
    have here : token.toList.getLast? ≠ some '/' := fun slash => free (List.mem_of_getLast? slash)
    cases rest with
    | nil => simp [here]
    | cons next rest =>
      rw [String.intercalate_append_of_ne_nil (List.cons_ne_nil _ _) (List.cons_ne_nil _ _),
        String.intercalate_singleton]
      rw [List.getLast?_concat, String.toList_append, String.toList_append]
      by_cases empty : token = ""
      · simp [empty]
      · have ne : token.toList ≠ [] := by rwa [ne_eq, String.toList_eq_nil_iff]
        obtain ⟨cs, c, split⟩ := (List.eq_nil_or_concat' token.toList).resolve_left ne
        have other : c ≠ '/' := by
          rintro rfl
          rw [split, List.getLast?_append, List.getLast?_singleton] at here
          exact here rfl
        rw [split, ← List.append_assoc, List.getLast?_concat]
        simp [empty, other]

/-! ### Bytes -/

/-- A text of less than two bytes has one character at most, and that is a plain one. -/
lemma utf8ByteSize_lt_two_iff {text : String} :
    text.utf8ByteSize < 2 ↔ text.toList = [] ∨ ∃ c, text.toList = [c] ∧ c.utf8Size = 1 := by
  have bytes : text.utf8ByteSize = (String.ofList text.toList).utf8ByteSize := by
    rw [String.ofList_toList]
  rw [bytes]
  cases text.toList with
  | nil => simp
  | cons c rest =>
    have one := c.utf8Size_pos
    rw [String.ofList_cons, String.utf8ByteSize_append, String.utf8ByteSize_singleton]
    cases rest with
    | nil =>
      simp only [String.ofList_nil, String.utf8ByteSize_empty, Nat.add_zero, List.cons_ne_nil,
        List.cons.injEq, and_true, exists_eq_left', false_or]
      omega
    | cons d rest =>
      have two := d.utf8Size_pos
      rw [String.ofList_cons, String.utf8ByteSize_append, String.utf8ByteSize_singleton]
      simp only [List.cons_ne_nil, List.cons.injEq, and_false, false_and, exists_const, or_self,
        iff_false]
      omega

/-- A text is marked by the slash at its end unless it has no other byte. -/
lemma endsInSlash_iff {text : String} : endsInSlash text = true ↔
    text.toList.getLast? = some '/' ∧ 1 < text.utf8ByteSize := by
  have bytes : 1 < text.utf8ByteSize ↔ ¬text.utf8ByteSize < 2 := by omega
  rw [endsInSlash, Bool.and_eq_true, decide_eq_true_eq, beq_iff_eq, and_comm, bytes,
    utf8ByteSize_lt_two_iff]
  apply and_congr_right
  intro slash
  cases chars : text.toList with
  | nil => simp
  | cons c rest =>
    cases rest with
    | nil =>
      rw [chars] at slash
      obtain rfl : c = '/' := by simpa using slash
      have plain : ('/' : Char).utf8Size = 1 := rfl
      simp [plain]
    | cons d rest => simp

/-! ### Marks -/

/-- Where more than slashes is left, any slash at the end is a mark. -/
lemma endsInSlash_iff_of_ne_nil {text : String} (left : trimSlashes text.toList ≠ []) :
    endsInSlash text = true ↔ text.toList.getLast? = some '/' := by
  rw [endsInSlash_iff, and_iff_left_of_imp]
  intro slash
  by_contra notLong
  have short : text.utf8ByteSize < 2 := by omega
  rcases utf8ByteSize_lt_two_iff.mp short with none | ⟨c, one, -⟩
  · cases (congrArg List.getLast? none).symm.trans slash
  · rw [one] at slash left
    cases slash
    exact left rfl

/-- Where only slashes are left, all but a lone one and none at all are a mark. -/
lemma endsInSlash_iff_of_eq_nil {text : String} (nothing : trimSlashes text.toList = []) :
    endsInSlash text = true ↔ 1 < text.utf8ByteSize := by
  rw [endsInSlash_iff, and_iff_right_of_imp]
  intro long
  obtain ⟨front, back, slashes⟩ := exists_trimSlashes text.toList
  rw [nothing, List.append_nil, List.replicate_append_replicate] at slashes
  have ne : front + back ≠ 0 := by
    intro zero
    rw [zero] at slashes
    have := utf8ByteSize_lt_two_iff.mpr (.inl slashes)
    omega
  rw [slashes, List.getLast?_replicate, if_neg ne]

/-- Two texts are the same but for slashes at their ends, and these are a mark in both or in neither: behind anything
else every slash at the end is one, and slashes alone are one from the second byte on. -/
structure Agree (s t : String) : Prop where
  trimmed : trimSlashes s.toList = trimSlashes t.toList
  slash : trimSlashes s.toList ≠ [] → (s.toList.getLast? = some '/' ↔ t.toList.getLast? = some '/')
  long : trimSlashes s.toList = [] → (1 < s.utf8ByteSize ↔ 1 < t.utf8ByteSize)

/-- Texts agree exactly if they are cut alike. -/
lemma agree_iff {s t : String} : Agree s t ↔ tokens s = tokens t ∧ endsInSlash s = endsInSlash t := by
  rw [tokens_eq_iff, Bool.eq_iff_iff]
  by_cases nothing : trimSlashes s.toList = []
  · constructor
    · rintro ⟨trimmed, -, long⟩
      rw [endsInSlash_iff_of_eq_nil nothing, endsInSlash_iff_of_eq_nil (trimmed ▸ nothing)]
      exact ⟨trimmed, long nothing⟩
    · rintro ⟨trimmed, marked⟩
      rw [endsInSlash_iff_of_eq_nil nothing, endsInSlash_iff_of_eq_nil (trimmed ▸ nothing)] at marked
      exact ⟨trimmed, fun left => absurd nothing left, fun _ => marked⟩
  · constructor
    · rintro ⟨trimmed, slash, -⟩
      rw [endsInSlash_iff_of_ne_nil nothing, endsInSlash_iff_of_ne_nil (trimmed ▸ nothing)]
      exact ⟨trimmed, slash nothing⟩
    · rintro ⟨trimmed, marked⟩
      rw [endsInSlash_iff_of_ne_nil nothing, endsInSlash_iff_of_ne_nil (trimmed ▸ nothing)] at marked
      exact ⟨trimmed, fun _ => marked, fun none => absurd none nothing⟩

end PathRouting.Text

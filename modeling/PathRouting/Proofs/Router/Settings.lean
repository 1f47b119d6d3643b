import PathRouting.Proofs.Lists
import PathRouting.Router.Settings

/-!
# The grammar of settings

`Config.Reads` says which documents write settings, and which settings these are, without the reader: a
record in which each setting is written by the one field of its name, or is the default if there is no such
field. `Capacity.Reads` has one constructor for each form of a capacity. The reader accepts these documents
and no others (`Config.ofDocument?_eq_some_iff`). What is written is read back, also from fields that vary
it (`Document.Varies`): in another order, among fields of other names, or without those that write a default.
-/

namespace PathRouting

/-! ### Fields -/

namespace Document

variable {β : Type} {fields : List (String × Document)} {name : String}

/-- A setting that some fields make: that of the field of its name, or the default where there is none. -/
inductive Sets (fields : List (String × Document)) (name : String) (reads : Document → β → Prop)
    (default : β) : β → Prop where
  | present {content value} (mem : (name, content) ∈ fields) (written : reads content value) :
    Sets fields name reads default value
  | absent (missing : name ∉ fields.map Prod.fst) : Sets fields name reads default default

/-- Fields that vary others: they stand in any order and among fields of other names, and some may be left
out that are implied. -/
def Varies (written implied fields : List (String × Document)) : Prop :=
  ∃ kept others, kept.Sublist written ∧ (∀ field ∈ written, field ∉ kept → field ∈ implied) ∧
    (∀ field ∈ others, field.1 ∉ written.map Prod.fst) ∧ fields.Perm (kept ++ others)

/-- The one field of a name writes the setting. -/
lemma Sets.reads_of_mem {reads : Document → β → Prop} {default value : β}
    (sets : Sets fields name reads default value) (single : Single fields name) {content : Document}
    (mem : (name, content) ∈ fields) : reads content value := by
  cases sets with
  | present mem' written => rwa [single _ _ mem mem']
  | absent missing => exact absurd (List.mem_map_of_mem mem) missing

/-- A setting is read from the content of its field alone. -/
lemma sets_iff (single : Single fields name) {read? : Option Document → Option β}
    {reads : Document → β → Prop} {default value : β} (absent : read? none = some default)
    (present : ∀ content, read? (some content) = some value ↔ reads content value) :
    read? (fields.lookup name) = some value ↔ Sets fields name reads default value := by
  cases found : fields.lookup name with
  | none =>
    have missing := lookup_eq_none_iff.mp found
    rw [absent, Option.some_inj]
    constructor
    · rintro rfl
      exact .absent missing
    · intro sets
      cases sets with
      | present mem => exact absurd (List.mem_map_of_mem mem) missing
      | absent => rfl
  | some content =>
    have mem := mem_of_lookup found
    rw [present]
    constructor
    · exact .present mem
    · intro sets
      exact sets.reads_of_mem single mem

/-- Of a name that is written, the fields have no other content than what is written. -/
lemma Varies.mem_written {written implied : List (String × Document)} (varies : Varies written implied fields)
    (known : name ∈ written.map Prod.fst) {content : Document} (mem : (name, content) ∈ fields) :
    (name, content) ∈ written := by
  obtain ⟨kept, others, sublist, -, foreign, perm⟩ := varies
  rcases List.mem_append.mp (perm.mem_iff.mp mem) with mem | mem
  · exact sublist.subset mem
  · exact absurd known (foreign _ mem)

/-- A name that is written once is the name of one field at most. -/
lemma Varies.single {written implied : List (String × Document)} (varies : Varies written implied fields)
    (nodup : (written.map Prod.fst).Nodup) (known : name ∈ written.map Prod.fst) : Single fields name := by
  intro content other mem mem'
  exact single_of_nodup nodup _ _ (varies.mem_written known mem) (varies.mem_written known mem')

/-- What is written is set, if it is the default wherever it may be left out. -/
lemma Varies.sets {written implied : List (String × Document)} (varies : Varies written implied fields)
    (nodup : (written.map Prod.fst).Nodup) {content : Document} (mem : (name, content) ∈ written)
    {reads : Document → β → Prop} {default value : β} (reads_value : reads content value)
    (unwritten : (name, content) ∈ implied → value = default) : Sets fields name reads default value := by
  obtain ⟨kept, others, sublist, dropped, foreign, perm⟩ := varies
  by_cases isKept : (name, content) ∈ kept
  · exact .present (perm.mem_iff.mpr (List.mem_append_left others isKept)) reads_value
  · have isWritten : name ∈ written.map Prod.fst := List.mem_map_of_mem mem
    rw [unwritten (dropped _ mem isKept)]
    refine .absent fun known => ?_
    obtain ⟨⟨_, other⟩, memFields, rfl⟩ := List.mem_map.mp known
    rcases List.mem_append.mp (perm.mem_iff.mp memFields) with memKept | memOthers
    · rw [single_of_nodup nodup _ _ mem (sublist.subset memKept)] at isKept
      exact isKept memKept
    · exact foreign _ memOthers isWritten

end Document

/-! ### Capacities -/

namespace Capacity

/-- The forms of a capacity: a word, a record of one bound that 64 bits hold, or a word as the one field of a
record with nothing in it. -/
inductive Reads : Document → Capacity → Prop where
  | disabled : Reads (.text "disabled") .disabled
  | unbounded : Reads (.text "unbounded") .unbounded
  | bounded {limit : Nat} (within : limit < UInt64.size) :
    Reads (.record [("bounded", .integer limit)]) (.bounded (.ofNat limit))
  | disabledField : Reads (.record [("disabled", .null)]) .disabled
  | unboundedField : Reads (.record [("unbounded", .null)]) .unbounded

/-- Two words are read as a capacity. -/
lemma ofWord?_eq_some_iff {word : String} {c : Capacity} :
    ofWord? word = some c ↔
      (word = "disabled" ∧ c = .disabled) ∨ (word = "unbounded" ∧ c = .unbounded) := by
  rw [ofWord?]
  split
  · rename_i isDisabled
    simp [isDisabled, eq_comm]
  · rename_i notDisabled
    split <;> simp_all [eq_comm]

/-- A bound is read from a number that 64 bits hold. -/
lemma ofBound?_eq_some_iff {content : Document} {c : Capacity} :
    ofBound? content = some c ↔
      ∃ limit : Nat, limit < UInt64.size ∧ content = .integer limit ∧ c = .bounded (.ofNat limit) := by
  constructor
  · intro read
    cases content with
    | integer value =>
      rw [ofBound?] at read
      split at read
      · rename_i range
        obtain ⟨nonneg, below⟩ := range
        have exact : (value.toNat : Int) = value := Int.toNat_of_nonneg nonneg
        refine ⟨value.toNat, ?_, by rw [exact], (Option.some.inj read).symm⟩
        exact (Int.toNat_lt nonneg).mpr below
      · cases read
    | _ => cases read
  · rintro ⟨limit, within, rfl, rfl⟩
    have range : (0 : Int) ≤ limit ∧ (limit : Int) < UInt64.size :=
      ⟨Int.natCast_nonneg limit, Int.ofNat_lt.mpr within⟩
    rw [ofBound?, if_pos range, Int.toNat_natCast]

/-- A capacity is read from the documents of its grammar, and from no others. -/
lemma ofDocument?_eq_some_iff {d : Document} {c : Capacity} : ofDocument? d = some c ↔ Reads d c := by
  constructor
  · intro read
    rw [ofDocument?.eq_def] at read
    split at read
    · rcases ofWord?_eq_some_iff.mp read with ⟨rfl, rfl⟩ | ⟨rfl, rfl⟩
      · exact .disabled
      · exact .unbounded
    · split at read
      · rename_i isBounded
        obtain ⟨limit, within, rfl, rfl⟩ := ofBound?_eq_some_iff.mp read
        rw [isBounded]
        exact .bounded within
      · split at read
        · rcases ofWord?_eq_some_iff.mp read with ⟨rfl, rfl⟩ | ⟨rfl, rfl⟩
          · exact .disabledField
          · exact .unboundedField
        · cases read
    · cases read
  · intro reads
    cases reads with
    | disabled => rfl
    | unbounded => rfl
    | bounded within =>
      have bound := ofBound?_eq_some_iff.mpr ⟨_, within, rfl, rfl⟩
      simpa [ofDocument?] using bound
    | disabledField => rfl
    | unboundedField => rfl

/-- A capacity is read from what is written of it, whatever its bound. -/
lemma reads_document (c : Capacity) : Reads c.document c := by
  cases c with
  | disabled => exact .disabled
  | bounded limit =>
    have reads := Reads.bounded limit.toNat_lt
    rwa [UInt64.ofNat_toNat] at reads
  | unbounded => exact .unbounded

/-- Different capacities are written as different documents. -/
lemma document_inj {c other : Capacity} : c.document = other.document ↔ c = other := by
  constructor
  · intro same
    have read := ofDocument?_eq_some_iff.mpr c.reads_document
    rw [same, ofDocument?_eq_some_iff.mpr other.reads_document] at read
    exact (Option.some.inj read).symm
  · rintro rfl
    rfl

end Capacity

/-! ### Settings -/

namespace Config

/-- The documents that write settings: records whose fields set each of them. -/
inductive Reads : Document → Config → Prop where
  | record {fields c}
    (capacity : Document.Sets fields "cache_capacity" Capacity.Reads default.capacity c.capacity)
    (strict : Document.Sets fields "strict" (fun content value => content = .truth value)
      default.strict c.strict) :
    Reads (.record fields) c

/-- The field for strictness is read from a truth value alone. -/
lemma strictOf?_eq_some_iff {content : Document} {value : Bool} :
    strictOf? (some content) = some value ↔ content = .truth value := by
  cases content <;> simp [strictOf?]

/-- A record is read by its grammar if it has one field at most for each setting. -/
lemma ofDocument?_record_iff {fields : List (String × Document)}
    (capacity : Single fields "cache_capacity") (strict : Single fields "strict")
    {c : Config} : ofDocument? (.record fields) = some c ↔ Reads (.record fields) c := by
  have capacitySet : capacityOf? (fields.lookup "cache_capacity") = some c.capacity ↔
      Document.Sets fields "cache_capacity" Capacity.Reads default.capacity c.capacity :=
    Document.sets_iff capacity rfl fun _ => Capacity.ofDocument?_eq_some_iff
  have strictSet : strictOf? (fields.lookup "strict") = some c.strict ↔
      Document.Sets fields "strict" (fun content value => content = .truth value) default.strict
        c.strict :=
    Document.sets_iff strict rfl fun _ => strictOf?_eq_some_iff
  have both : ofDocument? (.record fields) = some c ↔
      capacityOf? (fields.lookup "cache_capacity") = some c.capacity ∧
        strictOf? (fields.lookup "strict") = some c.strict := by
    obtain ⟨limit, mode⟩ := c
    simp [ofDocument?, Option.bind_eq_some_iff]
  rw [both, capacitySet, strictSet]
  constructor
  · rintro ⟨capacity, strict⟩
    exact .record capacity strict
  · intro reads
    cases reads with
    | record capacity strict => exact ⟨capacity, strict⟩

/-- A document that is no list, and names no field twice, is read exactly if it writes settings. -/
lemma ofDocument?_eq_some_iff {d : Document}
    (distinct : ∀ fields, d = .record fields → (fields.map Prod.fst).Nodup)
    (noList : ∀ items, d ≠ .list items) {c : Config} : ofDocument? d = some c ↔ Reads d c := by
  cases d with
  | record fields =>
    have nodup := distinct fields rfl
    exact ofDocument?_record_iff (single_of_nodup nodup) (single_of_nodup nodup)
  | list items => exact absurd rfl (noList items)
  | _ =>
    constructor
    · intro read
      cases read
    · intro reads
      cases reads

/-- What is written is read back, also from fields that vary it. -/
lemma ofDocument?_of_varies {c : Config} {written implied fields : List (String × Document)}
    (isWritten : c.document = .record written) (isImplied : default.document = .record implied)
    (varies : Document.Varies written implied fields) : ofDocument? (.record fields) = some c := by
  cases isWritten
  cases isImplied
  have nodup : ([("cache_capacity", c.capacity.document), ("strict", .truth c.strict)].map
      Prod.fst).Nodup := by
    simp
  have capacity : Single fields "cache_capacity" := varies.single nodup (by simp)
  have strict : Single fields "strict" := varies.single nodup (by simp)
  rw [ofDocument?_record_iff capacity strict]
  constructor
  case capacity =>
    refine varies.sets nodup (by simp) c.capacity.reads_document fun mem => ?_
    exact Capacity.document_inj.mp (by simpa using mem)
  case strict =>
    refine varies.sets nodup (by simp) rfl fun mem => ?_
    simpa using mem

/-- Settings are read back from the document that they are written as. -/
lemma ofDocument?_document (c : Config) : ofDocument? c.document = some c :=
  ofDocument?_of_varies rfl rfl ⟨_, [], List.Sublist.refl _, by simp, by simp, by simp⟩

/-- Null writes no setting. -/
lemma ofDocument?_eq_none_of_null {fields : List (String × Document)}
    (nodup : (fields.map Prod.fst).Nodup) {name : String} (known : name ∈ ["cache_capacity", "strict"])
    (mem : (name, .null) ∈ fields) : ofDocument? (.record fields) = none := by
  have single : ∀ name, Single fields name := fun name => single_of_nodup nodup
  rw [Option.eq_none_iff_forall_ne_some]
  intro c read
  cases (ofDocument?_record_iff (single _) (single _)).mp read with
  | record capacity strict =>
    rcases List.mem_cons.mp known with rfl | known
    · cases capacity.reads_of_mem (single _) mem
    · rw [List.mem_singleton.mp known] at mem
      cases strict.reads_of_mem (single _) mem

/-- Settings are read back from what is written of them, however it is varied. Of all documents that are no
lists and name no field twice, those are read that write settings, and nothing else is read from them; so
null stands neither for settings nor for one of them. -/
theorem ofDocument?_follows_grammar :
    (∀ c : Config, ofDocument? c.document = some c) ∧
    (∀ (c : Config) (written implied fields : List (String × Document)),
      c.document = .record written → default.document = .record implied →
      Document.Varies written implied fields → ofDocument? (.record fields) = some c) ∧
    (∀ d : Document, (∀ fields, d = .record fields → (fields.map Prod.fst).Nodup) →
      (∀ items, d ≠ .list items) → ∀ c, ofDocument? d = some c ↔ Reads d c) ∧
    ofDocument? .null = none ∧
    ∀ fields : List (String × Document), (fields.map Prod.fst).Nodup →
      ∀ name ∈ ["cache_capacity", "strict"], (name, .null) ∈ fields →
        ofDocument? (.record fields) = none := by
  refine ⟨ofDocument?_document, ?_, ?_, rfl, ?_⟩
  · intro c written implied fields isWritten isImplied varies
    exact ofDocument?_of_varies isWritten isImplied varies
  · intro d distinct noList c
    exact ofDocument?_eq_some_iff distinct noList
  · intro fields nodup name known mem
    exact ofDocument?_eq_none_of_null nodup known mem

/-- A setting that is the default is left out, and a field of another name stands in front. -/
theorem ofDocument?_follows_grammar_varied :
    let d : Document := .record [("note", .list []), ("cache_capacity", .text "unbounded")]
    ofDocument? d = some ⟨.unbounded, false⟩ ∧ Reads d ⟨.unbounded, false⟩ := by
  intro d
  have varies : Document.Varies
      [("cache_capacity", .text "unbounded"), ("strict", .truth false)]
      [("cache_capacity", default.capacity.document), ("strict", .truth false)]
      [("note", .list []), ("cache_capacity", .text "unbounded")] :=
    ⟨[("cache_capacity", .text "unbounded")], [("note", .list [])], by simp, by simp, by simp,
      List.Perm.swap ..⟩
  have read : ofDocument? d = some ⟨.unbounded, false⟩ :=
    ofDocument?_follows_grammar.2.1 _ _ _ _ rfl rfl varies
  have distinct : ∀ fields, d = .record fields → (fields.map Prod.fst).Nodup := by
    intro fields same
    rw [← Document.record.inj same]
    simp
  exact ⟨read, (ofDocument?_follows_grammar.2.2.1 d distinct nofun _).mp read⟩

end Config

end PathRouting

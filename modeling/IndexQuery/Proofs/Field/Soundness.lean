import IndexQuery.FieldRecord
set_option autoImplicit false

/-! # Sound fields

`Field.SoundParts` says which parts make a field: a name that is not blank, a key of the form
`[A-Za-z_$][A-Za-z0-9_.$]*`, and vector parameters for vector fields only, with components and with
a number of links for HNSW graphs only. `Field.build` makes a field of sound parts and of no others
(`exists_build_iff`), and keeps the parts as they are (`build_eq_ok_iff`). Vector parameters made
step by step are refused for one reason only, that vectors would have no components
(`exists_vector_iff`). -/

namespace IndexQuery

/-! ## Keys -/

/-- A character of the class `[A-Za-z_$]`. -/
def KeyStart (c : Char) : Prop :=
  ('A' ≤ c ∧ c ≤ 'Z') ∨ ('a' ≤ c ∧ c ≤ 'z') ∨ c = '_' ∨ c = '$'

/-- A character of the class `[A-Za-z0-9_.$]`. -/
def KeyPart (c : Char) : Prop :=
  ('A' ≤ c ∧ c ≤ 'Z') ∨ ('a' ≤ c ∧ c ≤ 'z') ∨ ('0' ≤ c ∧ c ≤ '9') ∨ c = '_' ∨ c = '.' ∨ c = '$'

/-- The texts that `[A-Za-z_$][A-Za-z0-9_.$]*` matches in full. -/
inductive KeyPattern : List Char → Prop where
  | cons {c : Char} {rest : List Char} (hc : KeyStart c) (hrest : ∀ d ∈ rest, KeyPart d) :
      KeyPattern (c :: rest)

theorem isUpper_iff (c : Char) : c.isUpper = true ↔ 'A' ≤ c ∧ c ≤ 'Z' := by
  have hrange : c.isUpper = decide ('A' ≤ c ∧ c ≤ 'Z') := rfl
  rw [hrange, decide_eq_true_iff]

theorem isLower_iff (c : Char) : c.isLower = true ↔ 'a' ≤ c ∧ c ≤ 'z' := by
  have hrange : c.isLower = (decide ('a' ≤ c) && decide (c ≤ 'z')) := rfl
  rw [hrange, Bool.and_eq_true, decide_eq_true_iff, decide_eq_true_iff]

theorem isDigit_iff (c : Char) : c.isDigit = true ↔ '0' ≤ c ∧ c ≤ '9' := by
  have hrange : c.isDigit = (decide ('0' ≤ c) && decide (c ≤ '9')) := rfl
  rw [hrange, Bool.and_eq_true, decide_eq_true_iff, decide_eq_true_iff]

theorem isIdentifierStart_iff (c : Char) : isIdentifierStart c = true ↔ KeyStart c := by
  have hletter : c.isAlpha = (c.isUpper || c.isLower) := rfl
  simp only [isIdentifierStart, KeyStart, hletter, Bool.or_eq_true, isUpper_iff, isLower_iff,
    beq_iff_eq, or_assoc]

theorem isIdentifierPart_iff (c : Char) : isIdentifierPart c = true ↔ KeyPart c := by
  have hclass : c.isAlphanum = ((c.isUpper || c.isLower) || c.isDigit) := rfl
  simp only [isIdentifierPart, KeyPart, hclass, Bool.or_eq_true, isUpper_iff, isLower_iff,
    isDigit_iff, beq_iff_eq, or_assoc]

theorem isIdentifier_iff (s : List Char) : isIdentifier s = true ↔ KeyPattern s := by
  constructor
  · intro h
    cases s with
    | nil => cases h
    | cons c rest =>
        simp only [isIdentifier, Bool.and_eq_true, List.all_eq_true] at h
        exact .cons ((isIdentifierStart_iff c).mp h.1)
          fun d hd => (isIdentifierPart_iff d).mp (h.2 d hd)
  · rintro ⟨hc, hrest⟩
    simp only [isIdentifier, Bool.and_eq_true, List.all_eq_true]
    exact ⟨(isIdentifierStart_iff _).mpr hc, fun d hd => (isIdentifierPart_iff d).mpr (hrest d hd)⟩

/-! ## Vector parameters -/

namespace VectorParams

/-- All numbers among the parameters are of the unsigned 64-bit range, as sizes are. -/
structure Fits (p : VectorParams) : Prop where
  dimension_lt : p.dimension < 2 ^ 64
  capacity_lt : ∀ n ∈ p.initialCapacity, n < 2 ^ 64
  links_lt : ∀ n ∈ p.links, n < 2 ^ 64

/-- Parameters made step by step from a dimension and a metric. -/
inductive Built : VectorParams → Prop where
  | new {dimension : Nat} (h : dimension < 2 ^ 64) (metric : DistanceMetric) :
      Built (new dimension metric)
  | hnsw {p : VectorParams} (hp : Built p) {links : Nat} (h : links < 2 ^ 64) :
      Built (p.hnsw links)
  | withElementType {p : VectorParams} (hp : Built p) (elementType : VectorElementType) :
      Built (p.withElementType elementType)
  | withInitialCapacity {p : VectorParams} (hp : Built p) {capacity : Nat}
      (h : capacity < 2 ^ 64) : Built (p.withInitialCapacity capacity)

theorem Built.fits {p : VectorParams} (hp : p.Built) : p.Fits := by
  induction hp with
  | new h => exact ⟨h, nofun, nofun⟩
  | hnsw _ h ih => exact ⟨ih.dimension_lt, ih.capacity_lt, fun _ hn => Option.some.inj hn ▸ h⟩
  | withElementType _ _ ih => exact ⟨ih.dimension_lt, ih.capacity_lt, ih.links_lt⟩
  | withInitialCapacity _ h ih =>
      exact ⟨ih.dimension_lt, fun _ hn => Option.some.inj hn ▸ h, ih.links_lt⟩

/-- The step that sets a number of links also chooses the algorithm, and no other step undoes
that. -/
theorem Built.links_hnsw {p : VectorParams} (hp : p.Built) :
    p.links.isSome = true → p.algorithm = .hnsw := by
  induction hp with
  | new => exact nofun
  | hnsw => exact fun _ => rfl
  | withElementType _ _ ih => exact ih
  | withInitialCapacity _ _ ih => exact ih

end VectorParams

/-! ## Kinds -/

namespace FieldKind

theorem isSome_vectorParams_iff (kind : FieldKind) :
    kind.vectorParams.isSome = true ↔ kind.type = .vector := by
  cases kind <;> simp [vectorParams, type]

theorem isValid_iff (kind : FieldKind) : kind.isValid = true ↔
    ∀ p ∈ kind.vectorParams, 0 < p.dimension ∧ (p.links.isSome = true → p.algorithm = .hnsw) := by
  cases kind with
  | vector p =>
      have hlinks : (p.links.isNone || p.algorithm == .hnsw) = true ↔
          (p.links.isSome = true → p.algorithm = .hnsw) := by
        cases p.links <;> simp
      simp [isValid, VectorParams.isValid, vectorParams, hlinks, Nat.pos_iff_ne_zero]
  | _ => simp [isValid, vectorParams]

end FieldKind

namespace Field

variable {name key : String} {type : FieldType} {vector : Option VectorParams} {sortable : Bool}
  {f : Field}

theorem kindOf_parts (kind : FieldKind) : kindOf kind.type kind.vectorParams = .ok kind := by
  cases kind <;> rfl

theorem parts_of_kindOf {kind : FieldKind} (h : kindOf type vector = .ok kind) :
    kind.type = type ∧ kind.vectorParams = vector := by
  unfold kindOf at h
  split at h <;> cases h <;> exact ⟨rfl, rfl⟩

/-- A type and vector parameters make a kind when they go together. -/
theorem exists_kindOf_iff :
    (∃ kind, kindOf type vector = .ok kind) ↔ (vector.isSome = true ↔ type = .vector) := by
  constructor
  · rintro ⟨kind, h⟩
    obtain ⟨rfl, rfl⟩ := parts_of_kindOf h
    exact kind.isSome_vectorParams_iff
  · intro h
    cases vector with
    | none =>
        cases type with
        | vector => cases h.mpr rfl
        | _ => exact ⟨_, rfl⟩
    | some p =>
        rw [h.mp rfl]
        exact ⟨_, rfl⟩

/-! ## Fields -/

/-- The parts that make a field. -/
structure SoundParts (name key : String) (type : FieldType) (vector : Option VectorParams) :
    Prop where
  /-- the name has a character that is not a blank -/
  name_visible : ∃ c ∈ name.toList, Text.isBlank c = false
  /-- the key has the form of index identifiers -/
  key_pattern : KeyPattern key.toList
  /-- vector fields have vector parameters, and they only -/
  vector_iff : vector.isSome = true ↔ type = .vector
  /-- vectors have components -/
  dimension_pos : ∀ p ∈ vector, 0 < p.dimension
  /-- a number of links goes with the HNSW algorithm -/
  links_hnsw : ∀ p ∈ vector, p.links.isSome = true → p.algorithm = .hnsw

theorem isBlankText_eq_false_iff (s : List Char) :
    Text.isBlankText s = false ↔ ∃ c ∈ s, Text.isBlank c = false := by
  simp [Text.isBlankText]

/-- A field is made again of its parts. -/
theorem build_parts (f : Field) :
    build f.name f.key f.type f.vectorParams f.sortable = .ok f := by
  have hkind : kindOf f.type f.vectorParams = .ok f.kind := kindOf_parts f.kind
  rw [build, dif_pos f.name_visible, dif_pos f.key_identifier, hkind]
  exact dif_pos f.kind_valid

/-- What is made has the parts it was made of, and they are sound. -/
theorem build_eq_ok_iff : build name key type vector sortable = .ok f ↔
    SoundParts name key type vector ∧ f.name = name ∧ f.key = key ∧ f.type = type ∧
      f.vectorParams = vector ∧ f.sortable = sortable := by
  constructor
  · intro h
    unfold build at h
    -- every check that is passed gives one part of what is claimed
    split at h
    · next hname =>
      split at h
      · next hkey =>
        split at h
        · cases h
        · next kind hkind =>
          obtain ⟨rfl, rfl⟩ := parts_of_kindOf hkind
          split at h
          · next hvalid =>
              cases Except.ok.inj h
              have hparams := kind.isValid_iff.mp hvalid
              exact ⟨⟨(isBlankText_eq_false_iff _).mp hname, (isIdentifier_iff _).mp hkey,
                kind.isSome_vectorParams_iff, fun p hp => (hparams p hp).1,
                fun p hp => (hparams p hp).2⟩, rfl, rfl, rfl, rfl, rfl⟩
          · cases h
      · cases h
    · cases h
  · rintro ⟨-, rfl, rfl, rfl, rfl, rfl⟩
    exact build_parts f

/-- Fields are made of sound parts, and of no others. -/
theorem exists_build_iff :
    (∃ f, build name key type vector sortable = .ok f) ↔ SoundParts name key type vector := by
  constructor
  · exact fun ⟨_, h⟩ => (build_eq_ok_iff.mp h).1
  · intro h
    obtain ⟨kind, hkind⟩ := exists_kindOf_iff.mpr h.vector_iff
    obtain ⟨rfl, rfl⟩ := parts_of_kindOf hkind
    have hvalid := kind.isValid_iff.mpr fun p hp => ⟨h.dimension_pos p hp, h.links_hnsw p hp⟩
    exact ⟨_, build_parts ⟨name, key, kind, sortable,
      (isBlankText_eq_false_iff _).mpr h.name_visible, (isIdentifier_iff _).mpr h.key_pattern,
      hvalid⟩⟩

/-- Of parameters made step by step only the dimension is left to check. -/
theorem exists_vector_iff {p : VectorParams} (hp : p.Built) :
    (∃ f, Field.vector name key p = .ok f) ↔
      (∃ c ∈ name.toList, Text.isBlank c = false) ∧ KeyPattern key.toList ∧ 0 < p.dimension := by
  unfold Field.vector
  rw [exists_build_iff]
  constructor
  · exact fun h => ⟨h.name_visible, h.key_pattern, h.dimension_pos p rfl⟩
  · rintro ⟨hname, hkey, hdimension⟩
    refine ⟨hname, hkey, iff_of_true rfl rfl, ?_, ?_⟩
    · rintro q ⟨rfl⟩
      exact hdimension
    · rintro q ⟨rfl⟩
      exact hp.links_hnsw

end Field

end IndexQuery

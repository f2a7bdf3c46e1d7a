import IndexQuery.Proofs.Data.JsonRoundTrip
import IndexQuery.Proofs.Encoding.Sources
import IndexQuery.Proofs.Field.Soundness
set_option autoImplicit false

/-! # Fields read back

A field comes from a constructor, from `makeSortable`, or from data of either format (`Obtained`).
Whichever way it came, its parts are sound and its record, written as JSON text in either form, is
read back as the same field. For this the numbers among the vector parameters have to be of the
unsigned 64-bit range (`VectorParams.Fits`), as sizes are, and as numbers that were read are. The
reader looks entries up by their keys, so it does not notice that reading puts them in order. -/

namespace IndexQuery

/-! ## Reading data -/

namespace Datum

theorem natBelow?_ofNat {bound n : Nat} (h : n < bound) : (nat n).natBelow? bound = some n := by
  simp [nat, natBelow?, h]

theorem nat64?_nat {n : Nat} (h : n < 2 ^ 64) : (nat n).nat64? = some n := by
  rw [nat64?, natBelow?_ofNat h]

theorem lt_of_natBelow? {bound n : Nat} {d : Datum} (h : d.natBelow? bound = some n) :
    n < bound := by
  unfold natBelow? at h
  split at h
  · split at h
    · next hrange =>
        have hsome := Option.some.inj h
        simp only [Bool.and_eq_true, decide_eq_true_eq] at hrange
        omega
    · cases h
  · cases h

section Entries

variable {α : Type} {entries : List (String × Datum)} {key : String} {value? : Datum → Option α}

theorem exists_of_required? {a : α} (h : required? entries key value? = some a) :
    ∃ d, value? d = some a := by
  obtain ⟨d, -, hd⟩ := Option.bind_eq_some_iff.mp h
  exact ⟨d, hd⟩

theorem exists_of_nullable? {d : Datum} {a : α} (h : nullable? value? d = some (some a)) :
    value? d = some a := by
  cases d with
  | null => cases h
  | _ => simpa [nullable?] using h

/-- An optional value that was read stood in the data. -/
theorem exists_of_withDefault? {a : α}
    (h : withDefault? entries key (nullable? value?) none = some (some a)) :
    ∃ d, value? d = some a := by
  unfold withDefault? at h
  split at h
  · cases h
  · next d hd => exact ⟨d, exists_of_nullable? h⟩

theorem required?_of_lookup {d : Datum} {a : α} (hd : entries.lookup key = some d)
    (ha : value? d = some a) : required? entries key value? = some a := by
  rw [required?, hd, Option.bind_some, ha]

theorem withDefault?_of_lookup {d : Datum} {a : α} (hd : entries.lookup key = some d)
    (ha : value? d = some a) (default : α) :
    withDefault? entries key value? default = some a := by
  rw [withDefault?, hd]
  exact ha

theorem nullable?_of_some {d : Datum} {a : α} (hd : d ≠ .null) (ha : value? d = some a) :
    nullable? value? d = some (some a) := by
  cases d with
  | null => exact absurd rfl hd
  | _ => exact congrArg (Option.map some) ha

theorem nullable?_orNull {write : α → Datum} {o : Option α}
    (h : ∀ a ∈ o, write a ≠ .null ∧ value? (write a) = some a) :
    nullable? value? (orNull write o) = some o := by
  cases o with
  | none => rfl
  | some a => exact nullable?_of_some (h a rfl).1 (h a rfl).2

end Entries

/-- Nothing is put in order inside values without entries, so the same stands under every key. -/
theorem lookup_entriesInOrder_of_plain {entries : List (String × Datum)}
    (hkeys : (entries.map Prod.fst).Nodup) (hplain : ∀ entry ∈ entries, entry.2.inOrder = entry.2)
    (key : String) : (entriesInOrder [] entries).lookup key = entries.lookup key := by
  rw [lookup_entriesInOrder hkeys, List.lookup_nil, Option.or_none]
  cases hfound : entries.lookup key with
  | none => rfl
  | some d =>
      obtain ⟨before, after, rfl, -⟩ := List.lookup_eq_some_iff.mp hfound
      exact congrArg some (hplain (key, d) (by simp))

theorem readable_nat {n : Nat} (h : n < 2 ^ 64) (depth : Nat) : Readable depth (nat n) :=
  .int (by omega)

theorem readable_orNull {o : Option Nat} (h : ∀ n ∈ o, n < 2 ^ 64) (depth : Nat) :
    Readable depth (orNull nat o) := by
  cases o with
  | none => exact .null
  | some n => exact readable_nat (h n rfl) depth

end Datum

/-! ## Vector parameters -/

namespace VectorParams

variable {p : VectorParams} {format : DataFormat}

/-- Numbers that were read are of the range. -/
theorem fits_of_ofDatum? {d : Datum} (h : ofDatum? format d = some p) : p.Fits := by
  simp only [ofDatum?, Option.bind_eq_bind, Option.bind_eq_some_iff, Option.some.injEq] at h
  obtain ⟨entries, -, dimension, hdimension, algorithm, -, elementType, -, metric, -, capacity,
    hcapacity, links, hlinks, rfl⟩ := h
  obtain ⟨_, hread⟩ := Datum.exists_of_required? hdimension
  refine ⟨Datum.lt_of_natBelow? hread, ?_, ?_⟩
  · rintro n rfl
    obtain ⟨_, hread⟩ := Datum.exists_of_withDefault? hcapacity
    exact Datum.lt_of_natBelow? hread
  · rintro n rfl
    obtain ⟨_, hread⟩ := Datum.exists_of_withDefault? hlinks
    exact Datum.lt_of_natBelow? hread

theorem algorithm_word (a : VectorAlgorithm) : VectorAlgorithm.ofWord? a.word = some a := by
  cases a <;> decide

theorem elementType_word (t : VectorElementType) : VectorElementType.ofWord? t.word = some t := by
  cases t <;> decide

theorem metric_word (m : DistanceMetric) : DistanceMetric.ofWord? m.word = some m := by
  cases m <;> decide

/-- Parameters are read from any record with their entries, whatever the order of these. -/
theorem ofDatum?_of_get? (hp : p.Fits) {entries : List (String × Datum)}
    (h : ∀ key, entries.lookup key = p.toDatum.get? key) :
    ofDatum? format (.record entries) = some p := by
  have hsize : ∀ n, n < 2 ^ 64 → Datum.nat n ≠ .null ∧ (Datum.nat n).nat64? = some n :=
    fun n hn => ⟨nofun, Datum.nat64?_nat hn⟩
  have hdimension : Datum.required? entries "dimension" Datum.nat64? = some p.dimension :=
    Datum.required?_of_lookup ((h _).trans rfl) (Datum.nat64?_nat hp.dimension_lt)
  have halgorithm : Datum.withDefault? entries "algorithm"
      (fun d => (d.word? format).bind VectorAlgorithm.ofWord?) .flat = some p.algorithm :=
    Datum.withDefault?_of_lookup ((h _).trans rfl) (algorithm_word p.algorithm) _
  have helements : Datum.withDefault? entries "element_type"
      (fun d => (d.word? format).bind VectorElementType.ofWord?) .float32 = some p.elementType :=
    Datum.withDefault?_of_lookup ((h _).trans rfl) (elementType_word p.elementType) _
  have hmetric : Datum.withDefault? entries "distance_metric"
      (fun d => (d.word? format).bind DistanceMetric.ofWord?) .l2 = some p.metric :=
    Datum.withDefault?_of_lookup ((h _).trans rfl) (metric_word p.metric) _
  have hcapacity : Datum.withDefault? entries "initial_capacity" (Datum.nullable? Datum.nat64?) none
      = some p.initialCapacity :=
    Datum.withDefault?_of_lookup ((h _).trans rfl)
      (Datum.nullable?_orNull fun n hn => hsize n (hp.capacity_lt n hn)) _
  have hlinks : Datum.withDefault? entries "m" (Datum.nullable? Datum.nat64?) none
      = some p.links :=
    Datum.withDefault?_of_lookup ((h _).trans rfl)
      (Datum.nullable?_orNull fun n hn => hsize n (hp.links_lt n hn)) _
  have hrecord : (Datum.record entries).entries? format keys = some entries := rfl
  rw [ofDatum?, hrecord]
  simp only [hdimension, halgorithm, helements, hmetric, hcapacity, hlinks, Option.bind_eq_bind,
    Option.bind_some]

/-- Parameters are read back from their record. -/
theorem ofDatum?_toDatum (hp : p.Fits) : ofDatum? format p.toDatum = some p :=
  ofDatum?_of_get? hp fun _ => rfl

/-- Parameters are read back from their record with its entries in order. -/
theorem ofDatum?_inOrder (hp : p.Fits) : ofDatum? format p.toDatum.inOrder = some p := by
  have hcount : ∀ o : Option Nat, (Datum.orNull .nat o).inOrder = .orNull .nat o := by
    rintro (_ | n) <;> rfl
  rw [toDatum, Datum.inOrder]
  refine ofDatum?_of_get? hp fun key => Datum.lookup_entriesInOrder_of_plain ?_ ?_ key
  · show ["dimension", "algorithm", "element_type", "distance_metric", "initial_capacity",
      "m"].Nodup
    decide
  · simp only [List.forall_mem_cons]
    exact ⟨rfl, rfl, rfl, rfl, hcount _, hcount _, nofun⟩

theorem readable_toDatum (hp : p.Fits) (depth : Nat) : Datum.Readable (depth + 1) p.toDatum := by
  refine .record ?_
  simp only [List.forall_mem_cons]
  exact ⟨Datum.readable_nat hp.dimension_lt _, .text _, .text _, .text _,
    Datum.readable_orNull hp.capacity_lt _, Datum.readable_orNull hp.links_lt _, nofun⟩

end VectorParams

/-! ## Records of fields -/

namespace Field

variable {f : Field}

theorem type_word (t : FieldType) : FieldType.ofWord? t.word = some t := by
  cases t <;> decide

/-- What stands in the record of a field: a key and vector parameters only where they say more than
the name and the type do. -/
theorem get?_toDatum (f : Field) :
    f.toDatum.get? "name" = some (.text f.name) ∧
      f.toDatum.get? "alias" = (if f.key = f.name then none else some (.text f.key)) ∧
      f.toDatum.get? "type" = some (.text f.type.word) ∧
      f.toDatum.get? "vector" = f.vectorParams.map VectorParams.toDatum ∧
      f.toDatum.get? "sortable" = some (.bool f.sortable) := by
  unfold toDatum
  by_cases hkey : f.key = f.name
  · rw [if_pos hkey, if_pos hkey]
    cases f.vectorParams with
    | none => exact ⟨rfl, rfl, rfl, rfl, rfl⟩
    | some p => exact ⟨rfl, rfl, rfl, rfl, rfl⟩
  · rw [if_neg hkey, if_neg hkey]
    cases f.vectorParams with
    | none => exact ⟨rfl, rfl, rfl, rfl, rfl⟩
    | some p => exact ⟨rfl, rfl, rfl, rfl, rfl⟩

theorem toDatum_eq_record (f : Field) :
    ∃ entries, f.toDatum = .record entries ∧ (entries.map Prod.fst).Sublist keys := by
  refine ⟨_, rfl, ?_⟩
  by_cases hkey : f.key = f.name
  · rw [if_pos hkey]
    cases f.vectorParams with
    | none =>
        show ["name", "type", "sortable"].Sublist keys
        decide
    | some p =>
        show ["name", "type", "vector", "sortable"].Sublist keys
        decide
  · rw [if_neg hkey]
    cases f.vectorParams with
    | none =>
        show ["name", "alias", "type", "sortable"].Sublist keys
        decide
    | some p => exact List.Sublist.refl _

/-- A field is read from any record with its entries, whatever the order of these, and in whatever
way the vector parameters are written. -/
theorem ofDatum_of_lookup (write : VectorParams → Datum) {format : DataFormat}
    {entries : List (String × Datum)}
    (hname : entries.lookup "name" = some (.text f.name))
    (hkey : entries.lookup "alias" = if f.key = f.name then none else some (.text f.key))
    (htype : entries.lookup "type" = some (.text f.type.word))
    (hvector : entries.lookup "vector" = f.vectorParams.map write)
    (hsortable : entries.lookup "sortable" = some (.bool f.sortable))
    (hwrite : ∀ p ∈ f.vectorParams, VectorParams.ofDatum? format (write p) = some p) :
    ofDatum format (.record entries) = .ok f := by
  have hrecord : (Datum.record entries).entries? format keys = some entries := rfl
  have hname : Datum.required? entries "name" Datum.text? = some f.name :=
    Datum.required?_of_lookup hname rfl
  have htype : Datum.required? entries "type" (fun d => (d.word? format).bind FieldType.ofWord?)
      = some f.type := Datum.required?_of_lookup htype (type_word f.type)
  have hsortable : Datum.withDefault? entries "sortable" Datum.bool? false = some f.sortable :=
    Datum.withDefault?_of_lookup hsortable (by rfl) _
  -- a key that is left out is read as the name, and only then was it left out
  obtain ⟨key, hkey, hdefault⟩ : ∃ key,
      Datum.withDefault? entries "alias" (Datum.nullable? Datum.text?) none = some key ∧
        key.getD f.name = f.key := by
    by_cases hsame : f.key = f.name
    · rw [if_pos hsame] at hkey
      exact ⟨none, by rw [Datum.withDefault?, hkey], hsame.symm⟩
    · rw [if_neg hsame] at hkey
      exact ⟨some f.key, Datum.withDefault?_of_lookup hkey (by rfl) _, rfl⟩
  have hvector : Datum.withDefault? entries "vector"
      (Datum.nullable? (VectorParams.ofDatum? format)) none = some f.vectorParams := by
    cases hparams : f.vectorParams with
    | none =>
        rw [hparams] at hvector
        rw [Datum.withDefault?, hvector]
        rfl
    | some p =>
        rw [hparams] at hvector
        have hread := hwrite p hparams
        have hnull : write p ≠ .null := by
          intro h
          rw [h] at hread
          cases hread
        exact Datum.withDefault?_of_lookup hvector (Datum.nullable?_of_some hnull hread) _
  have hparts : partsOf? format (.record entries)
      = some (f.name, f.key, f.type, f.vectorParams, f.sortable) := by
    rw [partsOf?, hrecord]
    simp only [hname, hkey, htype, hvector, hsortable, hdefault, Option.bind_eq_bind,
      Option.bind_some]
  rw [ofDatum, hparts]
  show (build f.name f.key f.type f.vectorParams f.sortable).mapError _ = _
  rw [build_parts]
  rfl

/-- A field is read back from its record. -/
theorem ofDatum_toDatum {format : DataFormat} (hf : ∀ p ∈ f.vectorParams, p.Fits) :
    ofDatum format f.toDatum = .ok f := by
  obtain ⟨entries, hrecord, -⟩ := f.toDatum_eq_record
  obtain ⟨hname, hkey, htype, hvector, hsortable⟩ := f.get?_toDatum
  rw [hrecord] at hname hkey htype hvector hsortable ⊢
  exact ofDatum_of_lookup VectorParams.toDatum hname hkey htype hvector hsortable
    fun p hp => VectorParams.ofDatum?_toDatum (hf p hp)

/-- A field is read back from its record with the entries in order. -/
theorem ofDatum_inOrder {format : DataFormat} (hf : ∀ p ∈ f.vectorParams, p.Fits) :
    ofDatum format f.toDatum.inOrder = .ok f := by
  obtain ⟨entries, hrecord, hkeys⟩ := f.toDatum_eq_record
  have hnodup : (entries.map Prod.fst).Nodup := hkeys.nodup (by decide)
  have hlookup : ∀ key, (Datum.entriesInOrder [] entries).lookup key
      = (f.toDatum.get? key).map Datum.inOrder := by
    intro key
    rw [Datum.lookup_entriesInOrder hnodup, List.lookup_nil, Option.or_none, hrecord]
    rfl
  obtain ⟨hname, hkey, htype, hvector, hsortable⟩ := f.get?_toDatum
  have horder : f.toDatum.inOrder = .record (Datum.entriesInOrder [] entries) := by
    rw [hrecord, Datum.inOrder]
  rw [horder]
  refine ofDatum_of_lookup (fun p => p.toDatum.inOrder) ?_ ?_ ?_ ?_ ?_ fun p hp =>
    VectorParams.ofDatum?_inOrder (hf p hp)
  · rw [hlookup, hname]
    rfl
  · rw [hlookup, hkey, apply_ite (Option.map Datum.inOrder)]
    rfl
  · rw [hlookup, htype]
    rfl
  · rw [hlookup, hvector, Option.map_map]
    rfl
  · rw [hlookup, hsortable]
    rfl

theorem readable_toDatum (hf : ∀ p ∈ f.vectorParams, p.Fits) (depth : Nat) :
    Datum.Readable (depth + 2) f.toDatum := by
  refine .record ?_
  intro entry hentry
  simp only [List.mem_append, List.mem_singleton] at hentry
  rcases hentry with (((rfl | hkey) | rfl) | hvector) | rfl
  · exact .text _
  · split at hkey
    · cases hkey
    · rw [List.mem_singleton.mp hkey]
      exact .text _
  · exact .text _
  · split at hvector
    · cases hvector
    · next p hp =>
        rw [List.mem_singleton.mp hvector]
        exact VectorParams.readable_toDatum (hf p hp) depth
  · exact .bool _

/-! ## Where fields come from -/

/-- The fields that constructors, `makeSortable` and the readers of data give. The numbers among
given vector parameters are sizes. -/
inductive Obtained : Field → Prop where
  | new {name key : String} {type : FieldType} {f : Field} (h : new name key type = .ok f) :
      Obtained f
  | named {name : String} {type : FieldType} {f : Field} (h : named name type = .ok f) : Obtained f
  | vector {name key : String} {params : VectorParams} {f : Field} (hparams : params.Fits)
      (h : vector name key params = .ok f) : Obtained f
  | sortable {f : Field} (hf : Obtained f) : Obtained f.makeSortable
  | read {format : DataFormat} {d : Datum} {f : Field} (h : ofDatum format d = .ok f) : Obtained f

/-- What was read was made of the parts in the data, and the numbers among them are sizes. -/
theorem parts_of_ofDatum {format : DataFormat} {d : Datum} (h : ofDatum format d = .ok f) :
    ∃ name key type vector sortable, build name key type vector sortable = .ok f ∧
      ∀ p ∈ vector, p.Fits := by
  unfold ofDatum at h
  split at h
  · cases h
  · next name key type vector sortable hparts =>
      refine ⟨name, key, type, vector, sortable, mapError_eq_ok_iff.mp h, ?_⟩
      simp only [partsOf?, Option.bind_eq_bind, Option.bind_eq_some_iff, Option.some.injEq,
        Prod.mk.injEq] at hparts
      obtain ⟨_, -, _, -, _, -, _, -, _, hvector, _, -, -, -, -, rfl, -⟩ := hparts
      rintro p rfl
      obtain ⟨_, hread⟩ := Datum.exists_of_withDefault? hvector
      exact VectorParams.fits_of_ofDatum? hread

/-- Every field is made of sound parts, among which the numbers are sizes. The induction is on
where the field comes from; being open to sorting is no part that is checked. -/
theorem Obtained.exists_build (hf : f.Obtained) :
    ∃ name key type vector sortable, build name key type vector sortable = .ok f ∧
      ∀ p ∈ vector, p.Fits := by
  induction hf with
  | new h => exact ⟨_, _, _, _, _, h, nofun⟩
  | named h => exact ⟨_, _, _, _, _, h, nofun⟩
  | vector hparams h => exact ⟨_, _, _, _, _, h, fun p hp => Option.some.inj hp ▸ hparams⟩
  | @sortable f _ ih =>
      obtain ⟨name, key, type, vector, sortable, h, hfits⟩ := ih
      obtain ⟨-, -, -, -, hvector, -⟩ := build_eq_ok_iff.mp h
      exact ⟨_, _, _, _, _, build_parts f.makeSortable, hvector ▸ hfits⟩
  | read h => exact parts_of_ofDatum h

/-- Every field has sound parts. Its record leaves out a key that is the name, and vector parameters
of a field without any. The same field is read back from the record, and from its JSON text, be it
compact or pretty. -/
theorem obtained_sound_and_read_back (hf : f.Obtained) :
    SoundParts f.name f.key f.type f.vectorParams ∧
      f.toDatum.get? "alias" = (if f.key = f.name then none else some (.text f.key)) ∧
      f.toDatum.get? "vector" = f.vectorParams.map VectorParams.toDatum ∧
      ofDatum .json f.toDatum = .ok f ∧
      ∀ text ∈ [f.toDatum.compact, f.toDatum.pretty],
        (Datum.ofJson? text).map (ofDatum .json) = some (.ok f) := by
  obtain ⟨_, _, _, _, _, hbuild, hfits⟩ := hf.exists_build
  obtain ⟨hsound, rfl, rfl, rfl, rfl, rfl⟩ := build_eq_ok_iff.mp hbuild
  obtain ⟨-, hkey, -, hvector, -⟩ := f.get?_toDatum
  refine ⟨hsound, hkey, hvector, ofDatum_toDatum hfits, ?_⟩
  have hreadable := readable_toDatum hfits 125
  intro text htext
  have hread : Datum.ofJson? text = some f.toDatum.inOrder := by
    rcases List.mem_cons.mp htext with rfl | htext
    · exact Datum.ofJson?_compact hreadable
    · rw [List.mem_singleton.mp htext]
      exact Datum.ofJson?_pretty hreadable
  rw [hread, Option.map_some, ofDatum_inOrder hfits]

theorem obtained_sound_and_read_back_embedding :
    ∃ f, vector "embedding" "$.vec" ((VectorParams.new 4 .cosine).hnsw 16) = .ok f ∧
      f.makeSortable.Obtained ∧
      SoundParts f.name f.key f.type f.vectorParams ∧
      f.makeSortable.toDatum.get? "alias" = some (.text "$.vec") ∧
      ∀ text ∈ [f.makeSortable.toDatum.compact, f.makeSortable.toDatum.pretty],
        (Datum.ofJson? text).map (ofDatum .json) = some (.ok f.makeSortable) := by
  have hbuilt : ((VectorParams.new 4 .cosine).hnsw 16).Built :=
    .hnsw (.new (by decide) .cosine) (by decide)
  have hvisible : ∃ c ∈ "embedding".toList, Text.isBlank c = false :=
    ⟨'e', by decide, by decide⟩
  have hpattern : KeyPattern "$.vec".toList := (isIdentifier_iff _).mp (by decide)
  obtain ⟨f, hf⟩ := (exists_vector_iff hbuilt).mpr ⟨hvisible, hpattern, by decide⟩
  have hobtained : f.makeSortable.Obtained := .sortable (.vector hbuilt.fits hf)
  obtain ⟨hsound, halias, -, -, hread⟩ := obtained_sound_and_read_back hobtained
  obtain ⟨-, hname, hkey, -, -, -⟩ := build_eq_ok_iff.mp hf
  have hne : f.makeSortable.key ≠ f.makeSortable.name := by
    show f.key ≠ f.name
    rw [hkey, hname]
    decide
  rw [if_neg hne] at halias
  exact ⟨f, hf, hobtained, hsound, halias.trans (congrArg (some ∘ Datum.text) hkey), hread⟩

end Field

end IndexQuery

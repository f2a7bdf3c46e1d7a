import IndexQuery.Proofs.QueryText.Conjuncts
import IndexQuery.Proofs.Schema
set_option autoImplicit false

/-! # Which lists of fields make a schema

Going through a list of fields and comparing each with the ones before it finds out whether all
names and all keys are distinct: either they are, or there is a first field that repeats an earlier
one, and this field is the one reported (`firstRepeated_eq_none_iff`, `firstRepeated_eq_some_iff`).
In a schema a name stands for one field at most, and so does a reference to a key in a query,
because the escapes in a reference can be taken back: no key has a backslash of its own
(`fieldRef_inj`). -/

namespace IndexQuery

open QueryText (fieldRef)

namespace QueryText

/-- Index identifiers with the same reference are the same. -/
theorem fieldRef_inj {key key' : List Char} (hkey : isIdentifier key = true)
    (hkey' : isIdentifier key' = true) (h : fieldRef key = fieldRef key') : key = key' :=
  unambiguous_key.eq (isKey_of_isIdentifier hkey) (isKey_of_isIdentifier hkey')
    (List.cons.inj h).2

end QueryText

namespace Schema

/-! ## Repetitions -/

/-- No two fields share a name, and no two share a key. -/
def Distinct (fields : List Field) : Prop :=
  (fields.map Field.name).Nodup ∧ (fields.map Field.key).Nodup

/-- What is wrong with a field that repeats the name or the key of an earlier one. The key is
looked at only if the name is new. -/
inductive Repeats (index : String) (earlier : List Field) (f : Field) : QueryError → Prop where
  | name (h : f.name ∈ earlier.map Field.name) :
      Repeats index earlier f (.invalidDescriptor f.name (.duplicateName index))
  | key (hname : f.name ∉ earlier.map Field.name) (hkey : f.key ∈ earlier.map Field.key) :
      Repeats index earlier f (.invalidDescriptor f.name (.duplicateKey f.key index))

variable {index : String} {earlier before rest fields : List Field} {f : Field} {e : QueryError}

theorem distinct_nil : Distinct [] := ⟨.nil, .nil⟩

theorem distinct_append_singleton :
    Distinct (earlier ++ [f]) ↔
      Distinct earlier ∧ f.name ∉ earlier.map Field.name ∧ f.key ∉ earlier.map Field.key := by
  have hmore : ∀ part : Field → String, ((earlier ++ [f]).map part).Nodup ↔
      (earlier.map part).Nodup ∧ part f ∉ earlier.map part := by
    intro part
    rw [List.map_append, List.nodup_append_comm, List.map_singleton, List.singleton_append,
      List.nodup_cons, and_comm]
  rw [Distinct, Distinct, hmore, hmore]
  tauto

theorem Distinct.of_append (h : Distinct (earlier ++ rest)) : Distinct earlier := by
  unfold Distinct at h ⊢
  rw [List.map_append, List.map_append] at h
  exact ⟨(List.nodup_append.mp h.1).1, (List.nodup_append.mp h.2).1⟩

theorem any_name_iff : earlier.any (·.name = f.name) = true ↔ f.name ∈ earlier.map Field.name := by
  simp

theorem any_key_iff : earlier.any (·.key = f.key) = true ↔ f.key ∈ earlier.map Field.key := by
  simp

/-! ## The search for a repetition -/

/-- A field that repeats an earlier one ends the search. -/
theorem firstRepeated_of_repeats (h : Repeats index earlier f e) :
    firstRepeated index earlier (f :: rest) = some e := by
  rw [firstRepeated]
  cases h with
  | name hname => rw [if_pos (any_name_iff.mpr hname)]
  | key hname hkey =>
      rw [if_neg (mt any_name_iff.mp hname), if_pos (any_key_iff.mpr hkey)]

/-- A field that repeats nothing is compared with the later ones. -/
theorem firstRepeated_cons (h : Distinct (earlier ++ [f])) :
    firstRepeated index earlier (f :: rest) = firstRepeated index (earlier ++ [f]) rest := by
  obtain ⟨-, hname, hkey⟩ := distinct_append_singleton.mp h
  rw [firstRepeated, if_neg (mt any_name_iff.mp hname), if_neg (mt any_key_iff.mp hkey)]

/-- The search goes through fields that repeat nothing. -/
theorem firstRepeated_append (h : Distinct (earlier ++ before)) :
    firstRepeated index earlier (before ++ rest)
      = firstRepeated index (earlier ++ before) rest := by
  induction before generalizing earlier with
  | nil => simp
  | cons f before ih =>
      have hstep : earlier ++ f :: before = earlier ++ [f] ++ before := by simp
      rw [hstep] at h ⊢
      rw [List.cons_append, firstRepeated_cons h.of_append, ih h]

/-- Fields are distinct, or there is a first one that repeats an earlier one. The induction is on
the fields that are left, those before them being distinct. -/
theorem distinct_or_repeats (index : String) (hearlier : Distinct earlier) (fields : List Field) :
    Distinct (earlier ++ fields) ∨
      ∃ before f rest e, fields = before ++ f :: rest ∧ Distinct (earlier ++ before) ∧
        Repeats index (earlier ++ before) f e := by
  induction fields generalizing earlier with
  | nil => exact .inl (by simpa using hearlier)
  | cons f fields ih =>
      have hfirst : ∀ e, Repeats index earlier f e → ∃ before g rest e',
          f :: fields = before ++ g :: rest ∧ Distinct (earlier ++ before) ∧
            Repeats index (earlier ++ before) g e' :=
        fun e h => ⟨[], f, fields, e, rfl, by simpa using hearlier, by simpa using h⟩
      by_cases hname : f.name ∈ earlier.map Field.name
      · exact .inr (hfirst _ (.name hname))
      · by_cases hkey : f.key ∈ earlier.map Field.key
        · exact .inr (hfirst _ (.key hname hkey))
        · have hnew := distinct_append_singleton.mpr ⟨hearlier, hname, hkey⟩
          have hsplit : ∀ before, earlier ++ [f] ++ before = earlier ++ f :: before := by simp
          rcases ih hnew with h | ⟨before, g, rest, e, rfl, hbefore, hg⟩
          · exact .inl (hsplit fields ▸ h)
          · rw [hsplit] at hbefore hg
            exact .inr ⟨f :: before, g, rest, e, rfl, hbefore, hg⟩

theorem distinct_or_first_repeats (index : String) (fields : List Field) :
    Distinct fields ∨ ∃ before f rest e, fields = before ++ f :: rest ∧ Distinct before ∧
      Repeats index before f e := by
  simpa using distinct_or_repeats index distinct_nil fields

theorem firstRepeated_of_distinct (h : Distinct fields) : firstRepeated index [] fields = none := by
  have hall : firstRepeated index [] (fields ++ []) = firstRepeated index ([] ++ fields) [] :=
    firstRepeated_append h
  simpa [firstRepeated] using hall

theorem firstRepeated_of_first (hbefore : Distinct before) (hf : Repeats index before f e) :
    firstRepeated index [] (before ++ f :: rest) = some e := by
  rw [firstRepeated_append (by simpa using hbefore)]
  exact firstRepeated_of_repeats hf

/-- Nothing is reported about distinct fields, and only about them. -/
theorem firstRepeated_eq_none_iff : firstRepeated index [] fields = none ↔ Distinct fields := by
  constructor
  · intro h
    rcases distinct_or_first_repeats index fields with
      hdistinct | ⟨before, f, rest, e, rfl, hbefore, hf⟩
    · exact hdistinct
    · rw [firstRepeated_of_first hbefore hf] at h
      cases h
  · exact firstRepeated_of_distinct

/-- What is reported is wrong with the first field that repeats an earlier one. -/
theorem firstRepeated_eq_some_iff : firstRepeated index [] fields = some e ↔
    ∃ before f rest, fields = before ++ f :: rest ∧ Distinct before ∧ Repeats index before f e := by
  constructor
  · intro h
    rcases distinct_or_first_repeats index fields with
      hdistinct | ⟨before, f, rest, e', rfl, hbefore, hf⟩
    · rw [firstRepeated_of_distinct hdistinct] at h
      cases h
    · have hfirst : firstRepeated index [] (before ++ f :: rest) = some e' :=
        firstRepeated_of_first hbefore hf
      exact ⟨before, f, rest, rfl, hbefore, Option.some.inj (hfirst.symm.trans h) ▸ hf⟩
  · rintro ⟨before, f, rest, rfl, hbefore, hf⟩
    exact firstRepeated_of_first hbefore hf

/-! ## Making a schema -/

variable {idField : String} {schema : Schema}

theorem build_eq_ok_iff : build index idField fields = .ok schema ↔
    Text.isBlankText index.toList = false ∧ Distinct fields ∧
      schema = ⟨index, idField, fields⟩ := by
  have hnone : firstRepeated index [] fields = none ↔ Distinct fields := firstRepeated_eq_none_iff
  rw [← hnone, build]
  cases Text.isBlankText index.toList with
  | true => simp
  | false =>
      cases firstRepeated index [] fields with
      | none => simp [eq_comm]
      | some e => simp

theorem build_eq_error_iff : build index idField fields = .error e ↔
    (Text.isBlankText index.toList = true ∧ e = .invalidDescriptor "" .blankIndex) ∨
      (Text.isBlankText index.toList = false ∧
        ∃ before f rest, fields = before ++ f :: rest ∧ Distinct before ∧
          Repeats index before f e) := by
  rw [← firstRepeated_eq_some_iff, build]
  cases Text.isBlankText index.toList with
  | true => simp [eq_comm]
  | false =>
      cases firstRepeated index [] fields with
      | none => simp
      | some e => simp

/-- The fields of a schema have different references in queries. -/
theorem pairwise_fieldRef (h : build index idField fields = .ok schema) :
    schema.fields.Pairwise fun f g => fieldRef f.key.toList ≠ fieldRef g.key.toList := by
  apply (pairwise_of_build h).2.imp
  intro f g hne href
  exact hne.2 (String.toList_inj.mp
    (QueryText.fieldRef_inj f.key_identifier g.key_identifier href))

/-- A name finds the field of that name. -/
theorem field_eq_ok_iff_mem (h : build index idField fields = .ok schema) {name : String} :
    schema.field name = .ok f ↔ f ∈ schema.fields ∧ f.name = name := by
  constructor
  · intro hfield
    obtain ⟨before, after, hfields, hname, -⟩ := field_eq_ok_iff.mp hfield
    exact ⟨by simp [hfields], hname⟩
  · rintro ⟨hf, rfl⟩
    exact field_name h hf

/-- Which lists of fields make a schema, what is reported about the others, and how the fields of a
schema are told apart. -/
theorem build_tells_fields_apart (index idField : String) (fields : List Field) :
    (∀ schema, build index idField fields = .ok schema ↔
      Text.isBlankText index.toList = false ∧ (fields.map Field.name).Nodup ∧
        (fields.map Field.key).Nodup ∧ schema = ⟨index, idField, fields⟩) ∧
    (∀ e, build index idField fields = .error e ↔
      (Text.isBlankText index.toList = true ∧ e = .invalidDescriptor "" .blankIndex) ∨
        (Text.isBlankText index.toList = false ∧
          ∃ before f rest, fields = before ++ f :: rest ∧ (before.map Field.name).Nodup ∧
            (before.map Field.key).Nodup ∧ Repeats index before f e)) ∧
    ∀ schema, build index idField fields = .ok schema →
      (∀ name f, schema.field name = .ok f ↔ f ∈ schema.fields ∧ f.name = name) ∧
      (∀ name e, schema.field name = .error e ↔
        (∀ f ∈ schema.fields, f.name ≠ name) ∧ e = .unknownField schema.index name) ∧
      schema.fields.Pairwise fun f g => fieldRef f.key.toList ≠ fieldRef g.key.toList := by
  refine ⟨fun schema => ?_, fun e => ?_, fun schema h => ⟨?_, ?_, pairwise_fieldRef h⟩⟩
  · rw [build_eq_ok_iff, Distinct, and_assoc]
  · simp only [build_eq_error_iff, Distinct, and_assoc]
  · exact fun name f => field_eq_ok_iff_mem h
  · exact fun name e => field_eq_error_iff

/-- The name of one field may be the key of another. -/
theorem build_tells_fields_apart_prices :
    let listed : Field := ⟨"list price", "price", .numeric, false, by decide, by decide, by decide⟩
    let net : Field := ⟨"price", "$.price", .numeric, true, by decide, by decide, by decide⟩
    let schema : Schema := ⟨"shop", "id", [listed, net]⟩
    build "shop" "id" [listed, net] = .ok schema ∧
      schema.field "price" = .ok net ∧
      schema.field "$.price" = .error (.unknownField "shop" "$.price") ∧
      fieldRef "price".toList ≠ fieldRef "$.price".toList := by
  intro listed net schema
  obtain ⟨hok, -, haccepted⟩ := build_tells_fields_apart "shop" "id" [listed, net]
  have hbuild : build "shop" "id" [listed, net] = .ok schema :=
    (hok schema).mpr ⟨by decide, by decide, by decide, rfl⟩
  obtain ⟨hfield, hunknown, hrefs⟩ := haccepted schema hbuild
  have hnet : net ∈ schema.fields := by decide
  exact ⟨hbuild, (hfield "price" net).mpr ⟨hnet, rfl⟩,
    (hunknown "$.price" _).mpr ⟨by decide, rfl⟩,
    (List.pairwise_cons.mp hrefs).1 net (List.mem_singleton_self net)⟩

end Schema

end IndexQuery

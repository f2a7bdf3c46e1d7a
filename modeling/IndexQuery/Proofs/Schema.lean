import IndexQuery.Schema
import Mathlib.Data.List.Basic
import Mathlib.Data.List.Nodup
set_option autoImplicit false

/-! # Schemas tell their fields apart

The fields of a schema that was built differ in their names and in their keys
(`pairwise_of_build`), so a key belongs to one field at most, and the name of a field finds the
field (`field_name`). -/

namespace IndexQuery

namespace Schema

/-- Fields without repetition differ from the ones before them, and from each other. -/
theorem pairwise_of_firstRepeated {index : String} {earlier fields : List Field}
    (h : firstRepeated index earlier fields = none) :
    (∀ f ∈ fields, ∀ e ∈ earlier, e.name ≠ f.name ∧ e.key ≠ f.key) ∧
      fields.Pairwise fun f g => f.name ≠ g.name ∧ f.key ≠ g.key := by
  induction fields generalizing earlier with
  | nil => exact ⟨by simp, .nil⟩
  | cons f rest ih =>
      rw [firstRepeated] at h
      split at h
      · cases h
      · next hname =>
          split at h
          · cases h
          · next hkey =>
              obtain ⟨hearlier, hrest⟩ := ih h
              have hfirst : ∀ e ∈ earlier, e.name ≠ f.name ∧ e.key ≠ f.key := by
                simpa [forall_and] using And.intro hname hkey
              refine ⟨?_, .cons ?_ hrest⟩
              · intro g hg e he
                rcases List.mem_cons.mp hg with rfl | hg
                · exact hfirst e he
                · exact hearlier g hg e (List.mem_append_left _ he)
              · intro g hg
                exact hearlier g hg f (List.mem_append_right _ (List.mem_singleton_self f))

/-- A schema keeps its fields, and no two of them share a name or a key. -/
theorem pairwise_of_build {index idField : String} {fields : List Field} {schema : Schema}
    (h : build index idField fields = .ok schema) :
    schema.fields = fields ∧
      schema.fields.Pairwise fun f g => f.name ≠ g.name ∧ f.key ≠ g.key := by
  unfold build at h
  split at h
  · cases h
  · split at h
    · cases h
    · next hrepeated =>
        cases Except.ok.inj h
        exact ⟨rfl, (pairwise_of_firstRepeated hrepeated).2⟩

/-- No field is declared twice, so a field has one place in a schema. -/
theorem place_unique {index idField : String} {fields : List Field} {schema : Schema}
    (h : build index idField fields = .ok schema) {f : Field}
    {before after before' after' : List Field} (hfields : schema.fields = before ++ f :: after)
    (hfields' : schema.fields = before' ++ f :: after') : before = before' ∧ after = after' := by
  have hnodup : schema.fields.Nodup :=
    (pairwise_of_build h).2.imp fun hne heq => hne.1 (congrArg Field.name heq)
  rw [hfields, List.nodup_middle, List.nodup_cons] at hnodup
  obtain ⟨hbefore, hafter⟩ := not_or.mp (mt List.mem_append.mpr hnodup.1)
  obtain ⟨hb, -, ha⟩ :=
    (List.append_cons_inj_of_notMem hbefore hafter).mp (hfields.symm.trans hfields')
  exact ⟨hb, ha⟩

/-- A key belongs to one field of a schema. -/
theorem eq_of_key {index idField : String} {fields : List Field} {schema : Schema}
    (h : build index idField fields = .ok schema) {f g : Field} (hf : f ∈ schema.fields)
    (hg : g ∈ schema.fields) (hkey : f.key = g.key) : f = g := by
  have hapart := (pairwise_of_build h).2
  -- fields at different places differ in their keys, whichever comes first
  have hdetermined : ∀ f ∈ schema.fields, ∀ g ∈ schema.fields, f.key = g.key → f = g := by
    apply List.Pairwise.forall_of_forall_of_flip
    · exact fun _ _ _ => rfl
    · exact hapart.imp fun hne hkey => absurd hkey hne.2
    · exact hapart.imp fun hne hkey => absurd hkey.symm hne.2
  exact hdetermined f hf g hg hkey

/-! ## Names -/

theorem field_eq_ok_iff {schema : Schema} {name : String} {f : Field} :
    schema.field name = .ok f ↔
      ∃ before after, schema.fields = before ++ f :: after ∧ f.name = name ∧
        ∀ e ∈ before, e.name ≠ name := by
  have hfind : schema.field name = .ok f ↔ schema.fields.find? (·.name = name) = some f := by
    unfold field
    cases schema.fields.find? (·.name = name) <;> simp
  rw [hfind, List.find?_eq_some_iff_append]
  constructor
  · rintro ⟨hname, before, after, hfields, hbefore⟩
    exact ⟨before, after, hfields, by simpa using hname, by simpa using hbefore⟩
  · rintro ⟨before, after, hfields, hname, hbefore⟩
    exact ⟨by simpa using hname, before, after, hfields, by simpa using hbefore⟩

/-- Only a name that no field has is unknown. -/
theorem field_eq_error_iff {schema : Schema} {name : String} {e : QueryError} :
    schema.field name = .error e ↔
      (∀ f ∈ schema.fields, f.name ≠ name) ∧ e = .unknownField schema.index name := by
  have hnone : schema.fields.find? (·.name = name) = none ↔ ∀ f ∈ schema.fields, f.name ≠ name := by
    simp
  unfold field
  cases hfound : schema.fields.find? (·.name = name) with
  | none =>
      constructor
      · intro h
        exact ⟨hnone.mp hfound, (Except.error.inj h).symm⟩
      · rintro ⟨-, rfl⟩
        rfl
  | some f =>
      constructor
      · intro h
        cases h
      · rintro ⟨hunknown, -⟩
        rw [hnone.mpr hunknown] at hfound
        cases hfound

/-- The name of a field finds the field itself. -/
theorem field_name {index idField : String} {fields : List Field} {schema : Schema}
    (h : build index idField fields = .ok schema) {f : Field} (hf : f ∈ schema.fields) :
    schema.field f.name = .ok f := by
  obtain ⟨before, after, hfields⟩ := List.append_of_mem hf
  have hapart := (pairwise_of_build h).2
  rw [hfields] at hapart
  have hbefore := (List.pairwise_append.mp hapart).2.2
  exact field_eq_ok_iff.mpr
    ⟨before, after, hfields, rfl, fun e he => (hbefore e he f List.mem_cons_self).1⟩

end Schema

end IndexQuery

import IndexQuery.Proofs.Filter.AllOrNothing
import IndexQuery.Proofs.Filter.Parts
set_option autoImplicit false

/-! # Which fields textual filters reach

Fields may have any name that is not blank, but a textual filter can only spell names without a
colon and without blanks around them (`hasPlainName_of_ofText`): its field ends at the first colon,
and blanks around it are not part of it. A field with such a name is found by it, so that the name
followed by `:missing` asks whether this field is absent. No textual filter asks anything of the
other fields (`filter_by_own_name`). -/

namespace IndexQuery

/-- The name has no colon, and no blanks around it. -/
def Field.HasPlainName (f : Field) : Prop :=
  ':' ∉ f.name.toList ∧ Text.trim f.name.toList = f.name.toList

namespace Filter

variable {raw : String} {filter : Filter} {f : Field} {p : Predicate}

/-- The field of a filter that was read has no colon in its name, and no blanks around it. -/
theorem hasPlainName_of_ofText (h : ofText raw = .ok filter) :
    ':' ∉ filter.field.toList ∧ Text.trim filter.field.toList = filter.field.toList := by
  obtain ⟨field, op, value, hwritten, -, rfl⟩ := ofText_eq_ok_iff.mp h
  have hcolon : ':' ∉ field := by
    cases hwritten with
    | valued _ hfield _ _ => exact hfield
    | bare _ hfield _ _ => exact hfield
  have hname : (ofWritten field op value).field.toList = Text.trim field := String.toList_ofList
  rw [hname]
  exact ⟨fun hmem => hcolon (Text.mem_of_mem_trim hmem), Text.trim_trim field⟩

/-- The predicate of a filter asks about the field it was made for. -/
theorem field_of_predicate (h : filter.predicate f = .ok p) : p.field = f := by
  obtain ⟨c, -, hp⟩ := bind_eq_ok h
  exact (Predicate.of_eq_ok hp).1

/-- A plain name with the word for absent values is a filter on the field of this name. -/
theorem ofText_missing (hplain : f.HasPlainName) :
    ofText (f.name ++ ":missing") = .ok ⟨f.name, .missing, []⟩ := by
  obtain ⟨hcolon, htrimmed⟩ := hplain
  have htext : (f.name ++ ":missing").toList = f.name.toList ++ ':' :: "missing".toList := by
    rw [String.toList_append]
    rfl
  have hwritten : Written (f.name ++ ":missing") f.name.toList .missing [] :=
    .bare htext hcolon (by decide) (by decide)
  have hread : ofWritten f.name.toList .missing [] = ⟨f.name, .missing, []⟩ := by
    rw [ofWritten, htrimmed, String.ofList_toList]
    rfl
  exact ofText_eq_ok_iff.mpr ⟨_, _, _, hwritten, f.name_visible, hread.symm⟩

end Filter

namespace FilterQuery

/-- Every field with a plain name can be filtered by its own name: with `:missing` behind it, the
name asks whether this field is absent. A field with any other name is out of reach: no textual
filter asks anything of it. -/
theorem filter_by_own_name {index idField : String} {fields : List Field} {schema : Schema}
    {f : Field} (hbuild : Schema.build index idField fields = .ok schema)
    (hf : f ∈ schema.fields) :
    (f.HasPlainName → ∀ (q : FilterQuery) (config : SearchConfig), SortFits schema q.sortBy →
      q.filters = [f.name ++ ":missing"] →
      ∃ s, q.stream schema config = .ok s ∧ s.predicates = [⟨f, .isMissing, .term .missing⟩]) ∧
    (¬ f.HasPlainName → ∀ raw p, AsksFor schema raw p → p.field ≠ f) := by
  constructor
  · intro hplain q config hsort hfilters
    have hasks : AsksFor schema (f.name ++ ":missing") ⟨f, .isMissing, .term .missing⟩ := by
      refine .intro (Filter.ofText_missing hplain) (Schema.field_name hbuild hf) ?_
      exact Predicate.of_eq_ok_iff.mpr ⟨by cases f.type <;> rfl, _, rfl, rfl⟩
    obtain ⟨sort, hkey⟩ := sortKey_succeeds_iff.mpr hsort
    have hpredicates : q.filters.mapM (predicateOf schema)
        = .ok [⟨f, .isMissing, .term .missing⟩] := by
      rw [hfilters, List.mapM_cons, predicateOf_eq_ok_iff.mpr hasks]
      rfl
    exact ⟨_, stream_eq_ok_iff.mpr ⟨sort, _, hkey, hpredicates, rfl⟩, rfl⟩
  · rintro hname raw p ⟨hfilter, hfield, hp⟩ heq
    obtain ⟨-, -, -, hcalled, -⟩ := Schema.field_eq_ok_iff.mp hfield
    -- the field of the predicate has the name of the filter, which is plain
    have hplain := Filter.hasPlainName_of_ofText hfilter
    rw [← hcalled, ← Filter.field_of_predicate hp, heq] at hplain
    exact hname hplain

/-- Three fields, of which only one has a plain name. -/
theorem filter_by_own_name_among_others :
    let padded : Field := ⟨" age", "padded", .numeric, false, by decide, by decide, by decide⟩
    let age : Field := ⟨"age", "age", .numeric, false, by decide, by decide, by decide⟩
    let parted : Field := ⟨"age:in", "parted", .tag, false, by decide, by decide, by decide⟩
    let schema : Schema := ⟨"people", "id", [padded, age, parted]⟩
    let q : FilterQuery := { filters := ["age:missing"] }
    Schema.build "people" "id" [padded, age, parted] = .ok schema ∧ age.HasPlainName ∧
      (∃ s, q.stream schema .default = .ok s ∧ s.predicates = [⟨age, .isMissing, .term .missing⟩]) ∧
      ¬ padded.HasPlainName ∧ ¬ parted.HasPlainName ∧
      ∀ raw p, AsksFor schema raw p → p.field = age := by
  intro padded age parted schema q
  have hbuild : Schema.build "people" "id" [padded, age, parted] = .ok schema := by decide
  have hage : age ∈ schema.fields := by simp [schema]
  have hplain : age.HasPlainName := ⟨by decide, by decide⟩
  have hpadded : ¬ padded.HasPlainName := fun h => absurd h.2 (by decide)
  have hparted : ¬ parted.HasPlainName := fun h => absurd h.1 (by decide)
  refine ⟨hbuild, hplain, ?_, hpadded, hparted, ?_⟩
  · exact (filter_by_own_name hbuild hage).1 hplain q .default (fun _ h => nomatch h) rfl
  · intro raw p hasks
    have hmem : p.field ∈ schema.fields := by
      obtain ⟨hfilter, hfield, hp⟩ := hasks
      obtain ⟨before, after, hfields, -⟩ := Schema.field_eq_ok_iff.mp hfield
      simp [hfields, Filter.field_of_predicate hp]
    have hnot : ∀ f ∈ schema.fields, ¬ f.HasPlainName → p.field ≠ f := fun f hf hname =>
      (filter_by_own_name hbuild hf).2 hname raw p hasks
    have hcases : p.field = padded ∨ p.field = age ∨ p.field = parted := by
      simpa [schema] using hmem
    rcases hcases with h | h | h
    · exact absurd h (hnot padded (by simp [schema]) hpadded)
    · exact h
    · exact absurd h (hnot parted (by simp [schema]) hparted)

/-- Names that are not plain do not reach their fields: a name with a blank in front asks about the
field without the blank, and a name with a colon is cut there. -/
theorem own_name_reaches_other_field :
    let padded : Field := ⟨" age", "padded", .numeric, false, by decide, by decide, by decide⟩
    let age : Field := ⟨"age", "age", .numeric, false, by decide, by decide, by decide⟩
    let parted : Field := ⟨"age:now", "parted", .numeric, false, by decide, by decide, by decide⟩
    let schema : Schema := ⟨"people", "id", [padded, age, parted]⟩
    let query (f : Field) : FilterQuery := { filters := [f.name ++ ":missing"] }
    Schema.build "people" "id" [padded, age, parted] = .ok schema ∧
      (∃ s, (query padded).stream schema .default = .ok s ∧
        s.predicates = [⟨age, .isMissing, .term .missing⟩]) ∧ age ≠ padded ∧
      (query parted).stream schema .default
        = .error (.invalidRequest (.unknownOperator "now")) := by
  intro padded age parted schema query
  have hpadded : (query padded).stream schema .default
      = .ok { (query padded).window schema .default with
          predicates := [⟨age, .isMissing, .term .missing⟩] } := by
    decide +kernel
  exact ⟨by decide, ⟨_, hpadded, rfl⟩, by decide, by decide +kernel⟩

end FilterQuery

end IndexQuery

import IndexQuery.Proofs.Number.Octets
import IndexQuery.Proofs.QueryText.Conjuncts
import IndexQuery.Proofs.Schema
set_option autoImplicit false

/-! # Queries with the same text select the same documents

The text of a compiled list of predicates determines its conjuncts, and with the octets of its
parameter also its clause (`parts_of_rendered`): the key tells the field, the field the metric and
the element type, and these the vector. So predicates on the fields of one schema that are written
alike select alike, whatever texts, tags, keys and numbers they hold (`select_of_rendered`). -/

namespace IndexQuery

open IndexQuery.Tree Matching QueryText
open Double (isNaN_of_isFinite)

namespace Predicate

/-- A predicate of a condition on a field of the schema. -/
def BuiltOn (schema : Schema) (p : Predicate) : Prop :=
  ∃ f ∈ schema.fields, ∃ condition, of f condition = .ok p

variable {schema : Schema} {ps : List Predicate}

/-! ## Parts of compiled lists -/

/-- The conditions of an encoded criterion. -/
theorem encodedLeaf_of_mem {p : Predicate} (hp : p.criterion.IsEncoded p.field) {t : Tree}
    (ht : t ∈ p.leaves) : EncodedLeaf t := by
  have hkey := p.field.key_identifier
  unfold leaves at ht
  cases hc : p.criterion with
  | unconstrained => simp [hc] at ht
  | term literal =>
      rw [hc] at ht hp
      rw [List.mem_singleton.mp ht]
      exact .term hkey hp
  | anyOf literals =>
      rw [hc] at ht hp
      rw [List.mem_singleton.mp ht]
      exact .union hkey hp.1 hp.2
  | allOf literals =>
      rw [hc] at ht hp
      obtain ⟨literal, hliteral, rfl⟩ := List.mem_map.mp ht
      exact .term hkey (hp.2 literal hliteral)
  | noneOf literals =>
      rw [hc] at ht hp
      rw [List.mem_singleton.mp ht]
      exact .negatedUnion hkey hp.1 hp.2
  | nearest clause => simp [hc] at ht

/-- The clause of an encoded criterion belongs to the field. -/
theorem isEncoded_of_clause? {p : Predicate} (hp : p.criterion.IsEncoded p.field)
    {clause : KnnClause} (h : p.clause? = some clause) : clause.IsEncoded p.field := by
  unfold clause? at h
  split at h
  · next hcriterion =>
      cases Option.some.inj h
      rw [hcriterion] at hp
      exact hp
  · cases h

theorem BuiltOn.isEncoded {p : Predicate} (hp : p.BuiltOn schema) :
    p.criterion.IsEncoded p.field := by
  obtain ⟨f, _, condition, hof⟩ := hp
  obtain ⟨rfl, hencoded⟩ := isEncoded_of hof
  exact hencoded

theorem encodedLeaf_of_mem_flatMap (hps : ∀ p ∈ ps, p.BuiltOn schema) {t : Tree}
    (ht : t ∈ ps.flatMap leaves) : EncodedLeaf t := by
  obtain ⟨p, hp, ht⟩ := List.mem_flatMap.mp ht
  exact encodedLeaf_of_mem (hps p hp).isEncoded ht

/-- The last clause belongs to a field of the schema. -/
theorem isEncoded_lastClause (hps : ∀ p ∈ ps, p.BuiltOn schema) {clause : KnnClause}
    (h : lastClause ps = some clause) : ∃ f ∈ schema.fields, clause.IsEncoded f := by
  obtain ⟨p, hp, hclause⟩ := List.mem_filterMap.mp (List.mem_of_getLast? h)
  have hclause := isEncoded_of_clause? (hps p hp).isEncoded hclause
  obtain ⟨f, hf, condition, hof⟩ := hps p hp
  obtain ⟨rfl, _⟩ := isEncoded_of hof
  exact ⟨p.field, hf, hclause⟩

end Predicate

/-! ## Searches for neighbours -/

namespace QueryText

theorem isName_of_validated {config : SearchConfig} (h : config.validated = .ok config) :
    SearchConfig.isName config.vectorParam.toList = true := by
  unfold SearchConfig.validated at h
  split at h
  · cases h
  · split at h
    · cases h
    · split at h
      · cases h
      · split at h
        · cases h
        · split at h
          · cases h
          · next hname => simpa using hname

/-- The bound on the distance is a valid conjunct if the parameter has a name. -/
theorem isValid_boundConjunct {config : SearchConfig}
    (hname : SearchConfig.isName config.vectorParam.toList = true) {clause : KnnClause}
    (hkey : Atom.IsKey clause.key.toList) (threshold : Double) :
    (boundConjunct config clause threshold).IsValid := by
  have hparam : ∀ c ∈ '$' :: config.vectorParam.toList, c ∉ [' ', ']'] := by
    have hends : ∀ c ∈ [' ', ']'], (c.isAlphanum || c == '_') = false := by simp
    simp only [SearchConfig.isName, Bool.and_eq_true, List.all_eq_true] at hname
    intro c hc hmem
    rcases List.mem_cons.mp hc with rfl | hc
    · exact absurd hmem (by decide)
    · have hchar := hname.2 c hc
      rw [hends c hmem] at hchar
      cases hchar
  have hword : ∀ c ∈ "VECTOR_RANGE".toList, c ∉ [' ', ']'] := by simp
  refine ⟨List.cons_ne_nil _ _, fun a ha => ?_⟩
  rw [List.mem_singleton.mp ha]
  refine ⟨hkey, List.cons_ne_nil _ _, fun item hitem => ?_⟩
  simp only [List.mem_cons, List.not_mem_nil, or_false] at hitem
  rcases hitem with rfl | rfl | rfl
  · exact hword
  · exact bracket_numberText threshold
  · exact hparam

theorem isValid_conjuncts {xs : List Tree} (hx : ∀ t ∈ xs, EncodedLeaf t) :
    ∀ c ∈ xs.map conjunct, c.IsValid := by
  intro c hc
  obtain ⟨t, ht, rfl⟩ := List.mem_map.mp hc
  exact isValid_conjunct (hx t ht)

theorem isValid_searchConjuncts {config : SearchConfig}
    (hname : SearchConfig.isName config.vectorParam.toList = true) {xs : List Tree}
    (hx : ∀ t ∈ xs, EncodedLeaf t) {clause : KnnClause} (hkey : Atom.IsKey clause.key.toList) :
    ∀ c ∈ searchConjuncts config xs clause, c.IsValid := by
  intro c hc
  rcases List.mem_append.mp hc with hc | hc
  · obtain ⟨threshold, _, rfl⟩ := Option.map_eq_some_iff.mp (Option.mem_toList.mp hc)
    exact isValid_boundConjunct hname hkey threshold
  · exact isValid_conjuncts hx c hc

/-- A bound has three items, as no literal has. -/
theorem conjunct_ne_boundConjunct {config : SearchConfig} {clause : KnnClause} {threshold : Double}
    (t : Tree) : conjunct t ≠ boundConjunct config clause threshold := by
  have hatom : ∀ (key key' : List Char) (l : Literal) (a b c : List Char),
      atom key l ≠ .field key' (.bracket [a, b, c]) := by
    intro key key' l a b c h
    rcases atom_eq_bracket h with ⟨range, _, hitems⟩ | ⟨circle, _, hitems⟩
    · cases (List.cons.inj (List.cons.inj hitems).2).2
    · simp [circleItems] at hitems
  have hatoms : ∀ (key key' : List Char) (ls : List Literal) (a b c : List Char),
      atoms key ls ≠ [.field key' (.bracket [a, b, c])] := by
    intro key key' ls a b c h
    unfold atoms at h
    split at h
    · cases (Atom.field.inj (List.cons.inj h).1).2
    · obtain ⟨l, rest, _, hone, _⟩ := List.map_eq_cons_iff.mp h
      exact hatom _ _ _ _ _ _ hone
  intro h
  cases t with
  | term key l => exact hatom _ _ _ _ _ _ (List.cons.inj (Conjunct.mk.inj h).2).1
  | union key ls => exact hatoms _ _ _ _ _ _ (Conjunct.mk.inj h).2
  | negatedUnion key ls => exact absurd (Conjunct.mk.inj h).1 (by decide)
  | _ => cases (Conjunct.mk.inj h).2

/-- Searches with the same conjuncts have the same bound and the same conditions. -/
theorem searchConjuncts_inj {config : SearchConfig} {xs ys : List Tree} {c d : KnnClause}
    (hc : ∀ bound, c.threshold = some bound → bound.isFinite = true)
    (hd : ∀ bound, d.threshold = some bound → bound.isFinite = true)
    (h : searchConjuncts config xs c = searchConjuncts config ys d) :
    c.threshold = d.threshold ∧ xs.map conjunct = ys.map conjunct := by
  have hapart : ∀ {xs : List Tree} {clause : KnnClause} {threshold : Double} {rest : List Conjunct},
      xs.map conjunct ≠ boundConjunct config clause threshold :: rest := by
    intro xs clause threshold rest h
    obtain ⟨t, _, _, ht, _⟩ := List.map_eq_cons_iff.mp h
    exact conjunct_ne_boundConjunct t ht
  unfold searchConjuncts at h
  -- a bound can only be the first conjunct, so both searches have one or none has
  cases hct : c.threshold with
  | none =>
      cases hdt : d.threshold with
      | none =>
          rw [hct, hdt] at h
          exact ⟨rfl, h⟩
      | some y =>
          rw [hct, hdt] at h
          exact absurd h hapart
  | some x =>
      cases hdt : d.threshold with
      | none =>
          rw [hct, hdt] at h
          exact absurd h.symm hapart
      | some y =>
          rw [hct, hdt] at h
          obtain ⟨hbound, hrest⟩ := List.cons.inj h
          have hatom := (List.cons.inj (Conjunct.mk.inj hbound).2).1
          have hitems := Comparand.bracket.inj (Atom.field.inj hatom).2
          have htext : numberText x = numberText y := (List.cons.inj (List.cons.inj hitems).2).1
          have hsame := numberText_inj (isNaN_of_isFinite (hc x hct)) (isNaN_of_isFinite (hd y hdt))
            htext
          exact ⟨by rw [hsame], hrest⟩

end QueryText

/-! ## Rendered trees -/

namespace Tree

theorem rendered_of_clause?_eq_none {t : Tree} (ht : t.clause? = none) (config : SearchConfig) :
    t.rendered config = ⟨String.ofList (t.text true), []⟩ := by
  cases t with
  | knn filter clause => cases ht
  | _ => rfl

/-- Without a clause the text is the one of the conjuncts, and there is no parameter. -/
theorem rendered_ofParts_none {xs : List Tree} (hx : ∀ t ∈ xs, EncodedLeaf t)
    (config : SearchConfig) :
    (ofParts xs none).rendered config = ⟨String.ofList (conjunction (xs.map conjunct)), []⟩ := by
  have hnone : (ofParts xs none).clause? = none := clause?_ofLeaves fun t ht => (hx t ht).isLeaf
  rw [rendered_of_clause?_eq_none hnone, ← text_ofLeaves hx]
  rfl

/-- With a clause the text is the one of a search, and the vector is the parameter. -/
theorem rendered_ofParts_some {xs : List Tree} (hx : ∀ t ∈ xs, EncodedLeaf t)
    (config : SearchConfig) (clause : KnnClause) :
    (ofParts xs (some clause)).rendered config
      = ⟨String.ofList (neighbours config (searchConjuncts config xs clause) clause.k
          clause.key.toList), [(config.vectorParam, clause.blob)]⟩ := by
  rw [← knnText_ofLeaves hx]
  rfl

/-- Conditions with the same conjuncts accept the same documents. -/
theorem all_accepts_of_conjuncts {xs ys : List Tree} (hx : ∀ t ∈ xs, EncodedLeaf t)
    (hy : ∀ t ∈ ys, EncodedLeaf t) (h : xs.map conjunct = ys.map conjunct) (d : Datum) :
    xs.all (·.accepts d) = ys.all (·.accepts d) := by
  have haccepts := map_eq_map_of_imp (Tree.accepts · d) (Tree.accepts · d) h
    fun t ht u hu hconjunct => accepts_of_conjunct (hx t ht) (hy u hu) hconjunct d
  have hall := congrArg (List.all · id) haccepts
  simp only [List.all_map] at hall
  exact hall

end Tree

namespace Predicate

variable {schema : Schema} {ps qs : List Predicate}

/-- Clauses on fields of one schema are the same when their keys, numbers of neighbours, octets and
bounds are. -/
theorem clause_eq {index idField : String} {fields : List Field}
    (hschema : Schema.build index idField fields = .ok schema) {c d : KnnClause}
    (hc : ∃ f ∈ schema.fields, c.IsEncoded f) (hd : ∃ f ∈ schema.fields, d.IsEncoded f)
    (hkey : c.key = d.key) (hk : c.k = d.k) (hblob : c.blob = d.blob)
    (hthreshold : c.threshold = d.threshold) : c = d := by
  obtain ⟨f, hf, hc⟩ := hc
  obtain ⟨g, hg, hd⟩ := hd
  -- the key tells the field, and the field how the octets are read
  have hfield : f = g :=
    Schema.eq_of_key hschema hf hg (hc.key.symm.trans (hkey.trans hd.key))
  subst hfield
  obtain ⟨params, hparams, helement, hmetric⟩ := hc.params
  obtain ⟨params', hparams', helement', hmetric'⟩ := hd.params
  cases Option.some.inj (hparams.symm.trans hparams')
  have hvector : c.vector = d.vector := by
    unfold KnnClause.blob at hblob
    rw [helement, helement'] at hblob
    exact vectorBlob_inj hc.vector hd.vector hblob
  cases c
  cases d
  simp only [KnnClause.mk.injEq] at *
  exact ⟨hkey, hk, hvector, helement.trans helement'.symm, hmetric.trans hmetric'.symm, hthreshold⟩

/-- A rendered list determines its conjuncts and its clause. -/
theorem parts_of_rendered {index idField : String} {fields : List Field}
    (hschema : Schema.build index idField fields = .ok schema) {config : SearchConfig}
    (hconfig : config.validated = .ok config) (hps : ∀ p ∈ ps, p.BuiltOn schema)
    (hqs : ∀ q ∈ qs, q.BuiltOn schema)
    (h : (compile ps).rendered config = (compile qs).rendered config) :
    (ps.flatMap leaves).map conjunct = (qs.flatMap leaves).map conjunct ∧
      lastClause ps = lastClause qs := by
  have hx : ∀ t ∈ ps.flatMap leaves, EncodedLeaf t := fun t => encodedLeaf_of_mem_flatMap hps
  have hy : ∀ t ∈ qs.flatMap leaves, EncodedLeaf t := fun t => encodedLeaf_of_mem_flatMap hqs
  have hkeys : ∀ {f : Field} {c : KnnClause}, c.IsEncoded f → Atom.IsKey c.key.toList := by
    intro f c hc
    rw [hc.key]
    exact isKey_of_isIdentifier f.key_identifier
  have hname := isName_of_validated hconfig
  rw [compile_eq_ofParts, compile_eq_ofParts] at h
  -- only a search has a parameter, so both lists have a clause or none has
  cases hc : lastClause ps with
  | none =>
      cases hd : lastClause qs with
      | none =>
          rw [hc, hd, rendered_ofParts_none hx, rendered_ofParts_none hy] at h
          have htext := String.ofList_injective (RenderedQuery.mk.inj h).1
          have hconjuncts := conjunction_unambiguous.eq (isValid_conjuncts hx)
            (isValid_conjuncts hy) htext
          exact ⟨hconjuncts, rfl⟩
      | some d =>
          rw [hc, hd, rendered_ofParts_none hx, rendered_ofParts_some hy] at h
          cases (RenderedQuery.mk.inj h).2
  | some c =>
      cases hd : lastClause qs with
      | none =>
          rw [hc, hd, rendered_ofParts_some hx, rendered_ofParts_none hy] at h
          cases (RenderedQuery.mk.inj h).2
      | some d =>
          rw [hc, hd, rendered_ofParts_some hx, rendered_ofParts_some hy] at h
          obtain ⟨htext, hparams⟩ := RenderedQuery.mk.inj h
          obtain ⟨f, hf, hcf⟩ := isEncoded_lastClause hps hc
          obtain ⟨g, hg, hdg⟩ := isEncoded_lastClause hqs hd
          obtain ⟨hconjuncts, hk, hkey⟩ := neighbours_inj
            (isValid_searchConjuncts hname hx (hkeys hcf))
            (isValid_searchConjuncts hname hy (hkeys hdg))
            (hkeys hcf) (hkeys hdg) (String.ofList_injective htext)
          obtain ⟨hthreshold, hconditions⟩ :=
            searchConjuncts_inj hcf.threshold hdg.threshold hconjuncts
          have hblob : c.blob = d.blob := (Prod.mk.inj (List.cons.inj hparams).1).2
          have hclause := clause_eq hschema ⟨f, hf, hcf⟩ ⟨g, hg, hdg⟩ (String.toList_inj.mp hkey) hk
            hblob hthreshold
          exact ⟨hconditions, by rw [hclause]⟩

/-- Lists of predicates on the fields of a schema that are rendered alike select the same documents,
in the same order. -/
theorem select_of_rendered {index idField : String} {fields : List Field} {schema : Schema}
    (hschema : Schema.build index idField fields = .ok schema) {config : SearchConfig}
    (hconfig : config.validated = .ok config) {ps qs : List Predicate}
    (hps : ∀ p ∈ ps, p.BuiltOn schema) (hqs : ∀ q ∈ qs, q.BuiltOn schema)
    (h : (compile ps).rendered config = (compile qs).rendered config) (docs : List Datum) :
    (compile ps).select docs = (compile qs).select docs := by
  obtain ⟨hconjuncts, hclause⟩ := parts_of_rendered hschema hconfig hps hqs h
  have hx : ∀ t ∈ ps.flatMap leaves, EncodedLeaf t := fun t => encodedLeaf_of_mem_flatMap hps
  have hy : ∀ t ∈ qs.flatMap leaves, EncodedLeaf t := fun t => encodedLeaf_of_mem_flatMap hqs
  apply select_congr
  · intro d
    rw [compile_eq_ofParts, compile_eq_ofParts, accepts_ofParts, accepts_ofParts, hclause,
      all_accepts_of_conjuncts hx hy hconjuncts]
  · rw [clause?_compile, clause?_compile, hclause]

/-- Separators between words and the number of ways to ask for one tag leave no trace in the text,
and none in the documents. -/
theorem select_of_rendered_separators :
    let title : Field := ⟨"title", "title", .text, false, by decide, by decide, by decide⟩
    let shelf : Field := ⟨"shelf", "shelf", .tag, false, by decide, by decide, by decide⟩
    let schema : Schema := ⟨"books", "id", [title, shelf]⟩
    let config : SearchConfig := .default
    let ps : List Predicate := [⟨title, .startsWith, .term (.text .starts "red-bl")⟩,
      ⟨shelf, .isIn, .anyOf [.tag .exact "a|b"]⟩]
    let qs : List Predicate := [⟨title, .startsWith, .term (.text .starts "red / bl")⟩,
      ⟨shelf, .equal, .term (.tag .exact "a|b")⟩]
    let docs : List Datum := [.record [("title", .text "Red, blue"), ("shelf", .text "A|B")],
      .record [("title", .text "Red"), ("shelf", .text "a")]]
    Schema.build "books" "id" [title, shelf] = .ok schema ∧ config.validated = .ok config ∧
      (∀ p ∈ ps, p.BuiltOn schema) ∧ (∀ q ∈ qs, q.BuiltOn schema) ∧ ps ≠ qs ∧
      (compile ps).rendered config = (compile qs).rendered config ∧
      (compile ps).select docs = (compile qs).select docs := by
  intro title shelf schema config ps qs docs
  have hschema : Schema.build "books" "id" [title, shelf] = .ok schema := by decide
  have hconfig : config.validated = .ok config := by decide
  have hps : ∀ p ∈ ps, p.BuiltOn schema := by
    intro p hp
    simp only [ps, List.mem_cons, List.not_mem_nil, or_false] at hp
    rcases hp with rfl | rfl
    · exact ⟨title, by simp [schema], .startsWith (.text "red-bl"), rfl⟩
    · exact ⟨shelf, by simp [schema], .isIn (.list [.text "a|b"]), rfl⟩
  have hqs : ∀ q ∈ qs, q.BuiltOn schema := by
    intro q hq
    simp only [qs, List.mem_cons, List.not_mem_nil, or_false] at hq
    rcases hq with rfl | rfl
    · exact ⟨title, by simp [schema], .startsWith (.text "red / bl"), rfl⟩
    · exact ⟨shelf, by simp [schema], .equal (.text "a|b"), rfl⟩
  have hrendered : (compile ps).rendered config = (compile qs).rendered config := by
    rw [compile_eq_ofParts, compile_eq_ofParts]
    rfl
  exact ⟨hschema, hconfig, hps, hqs, by decide, hrendered,
    select_of_rendered hschema hconfig hps hqs hrendered docs⟩

end Predicate

end IndexQuery

import IndexQuery.Proofs.Matching.Conjunction
import IndexQuery.Proofs.QueryText.Faithful
set_option autoImplicit false

/-! # No clause of a query is empty

The text of a tree has *content*: besides parentheses and blanks it has a character that says
something. The text of a literal has an at sign, alternatives without literals are written as all
documents or none, and a conjunction has the content of its children. So whatever tree is written,
only one thing can leave a clause empty, a conjunction without children: it is the only tree whose
query is empty, in a conjunction it leaves an empty group, and in front of a search for neighbours
it leaves no filter (`clauses_empty_iff_empty_conjunction`). -/

namespace IndexQuery

namespace QueryText

/-! ## Content -/

/-- Some character is neither a parenthesis nor a blank. -/
def HasContent (s : List Char) : Prop := ∃ c ∈ s, c ∉ ['(', ')', ' ']

variable {s t : List Char}

theorem HasContent.mono (hs : HasContent s) (hst : ∀ c ∈ s, c ∈ t) : HasContent t := by
  obtain ⟨c, hc, hsays⟩ := hs
  exact ⟨c, hst c hc, hsays⟩

theorem HasContent.ne_nil (hs : HasContent s) : s ≠ [] := by
  obtain ⟨c, hc, -⟩ := hs
  exact List.ne_nil_of_mem hc

theorem not_hasContent_nil : ¬ HasContent [] := fun h => h.ne_nil rfl

theorem hasContent_of_at (hs : '@' ∈ s) : HasContent s := ⟨'@', hs, by decide⟩

theorem hasContent_enclosed (hs : HasContent s) : HasContent ('(' :: s ++ [')']) :=
  hs.mono fun c hc => by simp [hc]

theorem mem_intercalate {separator : List Char} {ss : List (List Char)} (hs : s ∈ ss) {c : Char}
    (hc : c ∈ s) : c ∈ separator.intercalate ss := by
  induction ss with
  | nil => cases hs
  | cons first rest ih =>
      cases rest with
      | nil =>
          rw [List.intercalate_singleton]
          exact List.mem_singleton.mp hs ▸ hc
      | cons second rest =>
          rw [List.intercalate_cons_cons]
          rcases List.mem_cons.mp hs with rfl | hs
          · simp [hc]
          · simp [ih hs]

theorem hasContent_intercalate {separator : List Char} {ss : List (List Char)} (hne : ss ≠ [])
    (h : ∀ s ∈ ss, HasContent s) : HasContent (separator.intercalate ss) := by
  obtain ⟨first, rest, rfl⟩ := List.exists_cons_of_ne_nil hne
  exact (h first List.mem_cons_self).mono fun c hc => mem_intercalate List.mem_cons_self hc

/-! ## Literals -/

theorem at_mem_fieldRef (key : List Char) : '@' ∈ fieldRef key := List.mem_cons_self

theorem at_mem_term (key : String) (l : Literal) : '@' ∈ term key l := by
  have hfield := at_mem_fieldRef key.toList
  rw [← write_atom]
  cases l with
  | missing => exact List.mem_append_left _ (List.mem_append_right _ hfield)
  | _ => exact List.mem_append_left _ hfield

/-- Alternatives refer to their key at least once. -/
theorem at_mem_alternatives (key : String) (ls : List Literal) : '@' ∈ alternatives key ls := by
  unfold alternatives
  split
  · exact at_mem_term key _
  · split
    · exact List.mem_append_left _ (at_mem_fieldRef _)
    · next htags =>
        cases ls with
        | nil => cases htags
        | cons l ls =>
            have hfirst : '@' ∈ ['|'].intercalate ((l :: ls).map (term key)) :=
              mem_intercalate List.mem_cons_self (at_mem_term key l)
            exact List.mem_append_left _ (List.mem_cons_of_mem _ hfirst)

theorem at_mem_distanceBound (config : SearchConfig) (clause : KnnClause) (threshold : Double) :
    '@' ∈ Tree.distanceBound config clause threshold := by
  simp [Tree.distanceBound, fieldRef]

end QueryText

open QueryText

namespace Tree

/-! ## Clauses in a conjunction -/

/-- In a conjunction no tree is written as nothing: one without children is an empty group. -/
theorem text_false_ne_nil : ∀ t : Tree, t.text false ≠ []
  | root => by simp [text]
  | term key literal => by
      rw [text]
      exact List.ne_nil_of_mem (at_mem_term key literal)
  | intersect [] => by simp [text, childTexts]
  | intersect [child] => by
      rw [text, childTexts, childTexts]
      simpa using text_false_ne_nil child
  | intersect (first :: second :: rest) => by simp [text, childTexts]
  | union key literals => by
      rw [text]
      split
      · simp
      · exact List.ne_nil_of_mem (at_mem_alternatives key literals)
  | negatedUnion key literals => by
      rw [text]
      split
      · simp
      · simp
  | knn filter clause => by
      rw [text]
      exact text_false_ne_nil filter

/-- Outside a conjunction only a conjunction without children is written as nothing. -/
theorem text_true_eq_nil_iff (t : Tree) : t.text true = [] ↔ t.core = intersect [] := by
  induction t using peelInduction with
  | search filter clause ih => rw [text, core, ih]
  | plain t ht =>
      rw [core_of_clause?_eq_none ht]
      have hcondition : ∀ leaf : Tree, leaf.text true = leaf.text false → leaf ≠ intersect [] →
          (leaf.text true = [] ↔ leaf = intersect []) := by
        intro leaf htext hne
        exact iff_of_false (htext ▸ text_false_ne_nil leaf) hne
      cases t with
      | knn filter clause => cases ht
      | intersect children =>
          rw [text, childTexts_eq_map, Bool.true_or, if_pos rfl]
          rcases children with _ | ⟨child, _ | ⟨second, rest⟩⟩
          · simp
          · simpa using text_false_ne_nil child
          · simp [List.intercalate_cons_cons]
      | root => exact hcondition _ (by rw [text, text]) (by simp)
      | term key literal => exact hcondition _ (by rw [text, text]) (by simp)
      | union key literals => exact hcondition _ (by rw [text, text]) (by simp)
      | negatedUnion key literals => exact hcondition _ (by rw [text, text]) (by simp)

/-! ## Trees without an empty conjunction -/

/-- Neither the tree nor a tree in it is a conjunction without children. -/
def NoEmptyConjunction (t : Tree) : Prop := ∀ s, s = t ∨ Below s t → s ≠ intersect []

theorem NoEmptyConjunction.of_below {s t : Tree} (ht : t.NoEmptyConjunction) (hst : Below s t) :
    s.NoEmptyConjunction := by
  rintro u (rfl | hus)
  · exact ht u (.inr hst)
  · exact ht u (.inr (hus.trans hst))

mutual

/-- Clauses have content, because conjunctions have children. -/
theorem hasContent_text : ∀ (t : Tree) (_ : t.NoEmptyConjunction) (outermost : Bool),
    HasContent (t.text outermost)
  | root, _, _ => by
      rw [text]
      exact ⟨'*', by simp, by decide⟩
  | term key literal, _, _ => by
      rw [text]
      exact hasContent_of_at (at_mem_term key literal)
  | intersect children, h, outermost => by
      have hchildren :=
        hasContent_childTexts children fun child hchild => h.of_below (.child hchild)
      have hne : childTexts children ≠ [] := by
        rw [childTexts_eq_map]
        intro hnil
        exact h _ (.inl rfl) (by rw [List.map_eq_nil_iff.mp hnil])
      have hjoined : HasContent ([' '].intercalate (childTexts children)) :=
        hasContent_intercalate hne hchildren
      rw [text]
      split
      · exact hjoined
      · exact hasContent_enclosed hjoined
  | union key literals, _, _ => by
      rw [text]
      split
      · exact ⟨'*', by simp, by decide⟩
      · exact hasContent_of_at (at_mem_alternatives key literals)
  | negatedUnion key literals, _, _ => by
      rw [text]
      split
      · exact ⟨'*', by simp, by decide⟩
      · exact ⟨'-', by simp, by decide⟩
  | knn filter clause, h, outermost => by
      rw [text]
      exact hasContent_text filter (h.of_below (.filter filter clause)) outermost

theorem hasContent_childTexts : ∀ (children : List Tree)
    (_ : ∀ child ∈ children, child.NoEmptyConjunction), ∀ s ∈ childTexts children, HasContent s
  | [], _ => by simp [childTexts]
  | child :: rest, h => by
      rw [childTexts]
      exact List.forall_mem_cons.mpr
        ⟨hasContent_text child (h child List.mem_cons_self) false,
          hasContent_childTexts rest fun c hc => h c (List.mem_cons_of_mem _ hc)⟩

end

/-! ## Queries -/

variable {config : SearchConfig}

/-- Nothing stands in front of a search for neighbours if there is no bound on the distance and the
filter is written as nothing. -/
theorem intercalate_knnFilters_eq_nil_iff (filter : Tree) (clause : KnnClause) :
    [' '].intercalate (knnFilters config filter clause) = [] ↔
      clause.threshold = none ∧ filter.core = intersect [] := by
  rw [knnFilters]
  cases clause.threshold with
  | none => simp [text_true_eq_nil_iff]
  | some threshold =>
      refine iff_of_false ?_ (by simp)
      exact List.ne_nil_of_mem
        (mem_intercalate List.mem_cons_self (at_mem_distanceBound config clause threshold))

theorem hasContent_of_mem_knnFilters {filter : Tree} (h : filter.NoEmptyConjunction)
    {clause : KnnClause} {s : List Char} (hs : s ∈ knnFilters config filter clause) :
    HasContent s := by
  unfold knnFilters at hs
  split at hs
  · rw [List.mem_singleton.mp hs]
    exact hasContent_text filter h true
  · next threshold _ =>
      rcases List.mem_cons.mp hs with rfl | hs
      · exact hasContent_of_at (at_mem_distanceBound config clause threshold)
      · split at hs
        · cases hs
        · rw [List.mem_singleton.mp hs]
          exact hasContent_text filter h true

/-- Only the conjunction without children has no query at all. -/
theorem query_eq_empty_iff (t : Tree) : (t.rendered config).query = "" ↔ t = intersect [] := by
  rw [← String.toList_eq_nil_iff]
  cases hclause : t.clause? with
  | none =>
      rw [rendered_of_clause?_eq_none hclause, String.toList_ofList, text_true_eq_nil_iff,
        core_of_clause?_eq_none hclause]
  | some clause =>
      cases t with
      | knn filter clause =>
          rw [rendered, String.toList_ofList]
          exact iff_of_false (by simp [knnText]) (by simp)
      | _ => cases hclause

theorem hasContent_query {t : Tree} (h : t.NoEmptyConjunction) :
    HasContent (t.rendered config).query.toList := by
  cases hclause : t.clause? with
  | none =>
      rw [rendered_of_clause?_eq_none hclause, String.toList_ofList]
      exact hasContent_text t h true
  | some clause =>
      cases t with
      | knn filter clause =>
          rw [rendered, String.toList_ofList]
          exact hasContent_of_at (by simp [knnText, at_mem_fieldRef])
      | _ => cases hclause

/-- A tree is written with content: as a query, as a clause, and in front of a search. -/
structure WrittenWithContent (config : SearchConfig) (t : Tree) : Prop where
  query : HasContent (t.rendered config).query.toList
  clause : ∀ outermost, HasContent (t.text outermost)
  filters : ∀ filter clause, t = knn filter clause →
    ∀ s ∈ knnFilters config filter clause, HasContent s

theorem NoEmptyConjunction.writtenWithContent {t : Tree} (h : t.NoEmptyConjunction) :
    t.WrittenWithContent config where
  query := hasContent_query h
  clause := hasContent_text t h
  filters := by
    rintro filter clause rfl s hs
    exact hasContent_of_mem_knnFilters (h.of_below (.filter filter clause)) hs

/-- Conjunctions without children are what leaves clauses empty, and nothing else. A tree and all
trees in it are written with content unless one of them is such a conjunction; it is the only tree
with an empty query, and inside clauses the only filter that leaves nothing in front of a search
without a bound on the distance. In a conjunction every tree is written as something. -/
theorem clauses_empty_iff_empty_conjunction (config : SearchConfig) (t : Tree) :
    ((∀ s, s = t ∨ Below s t → s.WrittenWithContent config) ↔
      ∀ s, s = t ∨ Below s t → s ≠ intersect []) ∧
    ((t.rendered config).query = "" ↔ t = intersect []) ∧
    (∀ filter clause, t = knn filter clause →
      ([' '].intercalate (knnFilters config filter clause) = [] ↔
        clause.threshold = none ∧ filter.core = intersect [])) ∧
    t.text false ≠ [] := by
  refine ⟨⟨?_, ?_⟩, query_eq_empty_iff t, ?_, text_false_ne_nil t⟩
  · rintro h s hs rfl
    have hclause := (h _ hs).clause true
    rw [(text_true_eq_nil_iff _).mpr rfl] at hclause
    exact not_hasContent_nil hclause
  · intro h s hs
    have hs : s.NoEmptyConjunction := by
      rcases hs with rfl | hs
      · exact h
      · exact NoEmptyConjunction.of_below h hs
    exact hs.writtenWithContent
  · rintro filter clause rfl
    exact intercalate_knnFilters_eq_nil_iff filter clause

/-- The conjunction without children has an empty query; it is an empty group in another
conjunction, and an empty filter in front of a search. -/
theorem empty_conjunction_rendered :
    ((intersect []).rendered .default).query = "" ∧
      ((intersect [intersect [], root]).rendered .default).query = "() *" ∧
      ((knn (intersect []) ⟨"place", 1, [], .float32, .l2, none⟩).rendered .default).query
        = "()=>[KNN 1 @place $vector_blob AS __score]" := by
  decide +kernel

end Tree

end IndexQuery

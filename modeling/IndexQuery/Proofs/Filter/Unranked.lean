import IndexQuery.Proofs.Encoding.Sources
import IndexQuery.Proofs.Filter.AllOrNothing
import IndexQuery.Proofs.Filter.Shape
import IndexQuery.Proofs.Matching.Selecting
set_option autoImplicit false

/-! # Textual filters rank nothing

No operator of textual filters asks for neighbours (`operator_of_asks`), so the tree of a query in
textual form has no clause (`clause?_of_stream`). What such a query selects is never ranked, and
there always is a selection, in the order of the documents (`select_of_stream`). -/

namespace IndexQuery

/-- Only a search for neighbours has a clause. -/
theorem Predicate.clause?_of_operator {f : Field} {c : Condition} {p : Predicate}
    (h : Predicate.of f c = .ok p) (hop : c.operator ≠ .vectorSimilarity) : p.clause? = none := by
  have hsource := Predicate.comesFrom_criterionOf (Predicate.of_eq_ok h).2.2
  unfold Predicate.clause?
  cases hc : p.criterion with
  | nearest clause =>
      rw [hc] at hsource
      cases hsource with
      | nearest hnearest _ => exact absurd hnearest hop
  | _ => rfl

/-- What pieces of text ask is not a search for neighbours. -/
theorem Filter.operator_of_asks {f : Field} {op : FilterOperator} {raws : List (List Char)}
    {c : Condition} (h : Filter.Asks f op raws c) : c.operator ≠ .vectorSimilarity := by
  cases h with
  | value hmake _ => cases op <;> cases hmake <;> exact Operator.noConfusion
  | list hmake _ => cases op <;> cases hmake <;> exact Operator.noConfusion
  | text hmake => cases op <;> cases hmake <;> exact Operator.noConfusion
  | @truth _ b _ => cases b <;> exact Operator.noConfusion
  | _ => exact Operator.noConfusion

namespace FilterQuery

variable {q : FilterQuery} {schema : Schema} {config : SearchConfig} {s : SearchStream}

theorem clause?_of_asksFor {raw : String} {p : Predicate} (h : AsksFor schema raw p) :
    p.clause? = none := by
  obtain ⟨-, -, hp⟩ := h
  obtain ⟨c, hc, hp⟩ := bind_eq_ok hp
  exact Predicate.clause?_of_operator hp (Filter.operator_of_asks (Filter.asks_of_condition hc))

theorem clause?_of_stream (h : q.stream schema config = .ok s) : s.compile.clause? = none := by
  obtain ⟨sort, ps, -, hps, rfl⟩ := stream_eq_ok_iff.mp h
  have hnone : ps.filterMap Predicate.clause? = [] := List.filterMap_eq_nil_iff.mpr fun p hp => by
    obtain ⟨raw, -, hraw⟩ := exists_of_mem_mapM hps hp
    exact clause?_of_asksFor (predicateOf_eq_ok_iff.mp hraw)
  show (Predicate.compile ps).clause? = none
  rw [Predicate.clause?_compile, Predicate.lastClause, hnone]
  rfl

/-- A query in textual form selects the documents it accepts. -/
theorem select_of_stream (h : q.stream schema config = .ok s) (docs : List Datum) :
    s.compile.select docs = some (docs.filter fun d => s.compile.accepts d) :=
  Tree.selectBy_of_clause?_eq_none (clause?_of_stream h) id docs

end FilterQuery

end IndexQuery

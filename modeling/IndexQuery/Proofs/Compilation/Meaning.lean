import IndexQuery.Matching.Selection
import IndexQuery.Proofs.Compilation.Parts
set_option autoImplicit false

/-! # What a compiled list of predicates selects

A tree in normal form accepts a document when all of its conditions do and the document lies within
the distance of its clause (`accepts_ofParts`). For a compiled list this means: every predicate
without a clause accepts the document on its own, and the last clause decides about the distance
(`accepts_compile`). What a tree selects depends on its acceptance and on its clause only
(`select_congr`), so predicates may change places as long as those with a clause keep their
order. -/

namespace IndexQuery

open Matching

namespace Tree

/-! ## Acceptance of parts -/

theorem acceptsAll_eq_all (xs : List Tree) (d : Datum) :
    acceptsAll xs d = xs.all (·.accepts d) := by
  induction xs with
  | nil => rw [acceptsAll, List.all_nil]
  | cons x xs ih => rw [acceptsAll, ih, List.all_cons]

theorem accepts_ofLeaves (xs : List Tree) (d : Datum) :
    (ofLeaves xs).accepts d = xs.all (·.accepts d) := by
  match xs with
  | [] => rw [ofLeaves, accepts, List.all_nil]
  | [x] => rw [ofLeaves, List.all_cons, List.all_nil, Bool.and_true]
  | x :: y :: xs =>
      show (intersect (x :: y :: xs)).accepts d = _
      rw [accepts, acceptsAll_eq_all]

theorem accepts_ofParts (xs : List Tree) (c : Option KnnClause) (d : Datum) :
    (ofParts xs c).accepts d = (xs.all (·.accepts d) && c.all (withinThreshold · d)) := by
  cases c with
  | none => rw [ofParts, accepts_ofLeaves, Option.all_none, Bool.and_true]
  | some clause => rw [ofParts, accepts, accepts_ofLeaves, Option.all_some]

/-! ## Selection -/

/-- Selection, by whether there is a clause. -/
theorem selectBy_eq {α : Type} (document : α → Datum) (t : Tree) (items : List α) :
    t.selectBy document items =
      match t.clause? with
      | some clause =>
        (ranked ((items.filter fun item => t.accepts (document item)).filterMap fun item =>
          (distance clause (document item)).map fun d => (d, item))).map fun sorted =>
            (sorted.take clause.k).map (·.2)
      | none => some (items.filter fun item => t.accepts (document item)) := by
  cases t <;> rfl

/-- Trees that accept the same documents and have the same clause select the same documents. -/
theorem select_congr {t u : Tree} (haccepts : ∀ d, t.accepts d = u.accepts d)
    (hclause : t.clause? = u.clause?) (docs : List Datum) : t.select docs = u.select docs := by
  simp only [select, selectBy_eq, hclause, haccepts]

end Tree

/-! ## Criteria -/

/-- Whether a document meets a criterion on a key. A search is judged by its bound on the
distance. -/
def Criterion.accepts (key : String) (criterion : Criterion) (d : Datum) : Bool :=
  match criterion with
  | unconstrained => true
  | term literal => termMatches key literal d
  | anyOf literals => literals.any (termMatches key · d)
  | allOf literals => literals.all (termMatches key · d)
  | noneOf literals => !literals.any (termMatches key · d)
  | nearest clause => withinThreshold clause d

namespace Predicate

open IndexQuery.Tree

/-! ## Acceptance of a compiled list -/

/-- A single predicate without a clause accepts what its conditions accept. -/
theorem accepts_compile_singleton {p : Predicate} (hp : p.clause? = none) (d : Datum) :
    (compile [p]).accepts d = p.leaves.all (·.accepts d) := by
  have hlast : lastClause [p] = none := by rw [lastClause_cons, hp]; rfl
  rw [compile_eq_ofParts, hlast, accepts_ofParts, List.flatMap_singleton, Option.all_none,
    Bool.and_true]

/-- A predicate on its own selects the documents that meet its criterion. -/
theorem accepts_compile_one (p : Predicate) (d : Datum) :
    (compile [p]).accepts d = p.criterion.accepts p.field.key d := by
  obtain ⟨f, op, criterion⟩ := p
  cases criterion with
  | unconstrained => rfl
  | allOf literals =>
      rw [accepts_compile_singleton rfl]
      exact List.all_map
  | nearest clause => exact Bool.true_and _
  | _ =>
      rw [accepts_compile_singleton rfl]
      exact Bool.and_true _

/-- Every predicate without a clause has to accept the document on its own, and the last clause has
to admit its distance. -/
theorem accepts_compile (ps : List Predicate) (d : Datum) :
    (compile ps).accepts d = true ↔
      (∀ p ∈ ps, p.clause? = none → (compile [p]).accepts d = true) ∧
      ∀ clause, lastClause ps = some clause → withinThreshold clause d = true := by
  rw [compile_eq_ofParts, accepts_ofParts, Bool.and_eq_true, List.all_flatMap, List.all_eq_true,
    Option.all_eq_true]
  have hconditions : (∀ p ∈ ps, p.leaves.all (·.accepts d) = true) ↔
      ∀ p ∈ ps, p.clause? = none → (compile [p]).accepts d = true := by
    refine forall₂_congr fun p hp => ?_
    cases hc : p.clause? with
    | none => simp [accepts_compile_singleton hc]
    -- a predicate with a clause has no conditions
    | some clause => simp [leaves_eq_nil_of_clause? hc]
  rw [hconditions]

theorem withinThreshold_iff (clause : KnnClause) (d : Datum) :
    withinThreshold clause d = true ↔ ∀ bound, clause.threshold = some bound →
      ∃ x, distance clause d = some x ∧ x.le bound = true := by
  unfold withinThreshold
  cases clause.threshold with
  | none => simp
  | some bound => simp [Option.any_eq_true]

/-! ## Order of predicates -/

theorem lastClause_congr {ps qs : List Predicate}
    (h : ps.filter (·.clause?.isSome) = qs.filter (·.clause?.isSome)) :
    lastClause ps = lastClause qs := by
  -- predicates without a clause contribute nothing to the list of clauses
  have hfilter : ∀ ps : List Predicate,
      ps.filterMap clause? = (ps.filter (·.clause?.isSome)).filterMap clause? := by
    intro ps
    induction ps with
    | nil => rfl
    | cons p ps ih =>
        cases hp : p.clause? with
        | none => simp [hp, ih]
        | some clause => simp [hp, ih]
  rw [lastClause, lastClause, hfilter ps, hfilter qs, h]

/-- A permutation that keeps the order of the predicates with a clause changes nothing. -/
theorem select_compile_perm {ps qs : List Predicate} (hperm : ps.Perm qs)
    (horder : ps.filter (·.clause?.isSome) = qs.filter (·.clause?.isSome)) (docs : List Datum) :
    (compile ps).select docs = (compile qs).select docs := by
  apply select_congr
  · intro d
    rw [Bool.eq_iff_iff, accepts_compile, accepts_compile, lastClause_congr horder]
    simp only [hperm.mem_iff]
  · rw [clause?_compile, clause?_compile, lastClause_congr horder]

/-- The meaning of a compiled list: the predicates without a clause as if each stood alone, and the
distance bound of the last clause. Hence only the order of the predicates with a clause matters. -/
theorem compile_means_each_and_last_clause :
    (∀ (ps : List Predicate) (d : Datum), (compile ps).accepts d = true ↔
      (∀ p ∈ ps, p.clause? = none → (compile [p]).accepts d = true) ∧
      ∀ clause, (ps.filterMap clause?).getLast? = some clause →
        ∀ bound, clause.threshold = some bound →
          ∃ x, distance clause d = some x ∧ x.le bound = true) ∧
    ∀ ps qs : List Predicate, ps.Perm qs →
      ps.filter (·.clause?.isSome) = qs.filter (·.clause?.isSome) →
      ∀ docs : List Datum, (compile ps).select docs = (compile qs).select docs := by
  refine ⟨fun ps d => ?_, fun ps qs hperm horder docs => select_compile_perm hperm horder docs⟩
  rw [accepts_compile]
  simp only [withinThreshold_iff]
  rfl

/-- Two predicates on an age around a search for neighbours may all move, the search included. -/
theorem compile_means_each_and_last_clause_moved :
    let age : Field := ⟨"age", "age", .numeric, false, by decide, by decide, by decide⟩
    let place : Field := ⟨"place", "place", .vector { dimension := 1 }, false,
      by decide, by decide, by decide⟩
    let present : Predicate := ⟨age, .notEqual, .noneOf [.missing]⟩
    let adult : Predicate := ⟨age, .greaterThan, .term (.numeric (.greaterThan (.ofInt 18)))⟩
    let near : Predicate :=
      ⟨place, .vectorSimilarity, .nearest ⟨"place", 2, [⟨0⟩], .float32, .l2, none⟩⟩
    let docs : List Datum := [.record [("age", .int 30), ("place", .list [.int 1])]]
    [present, near, adult].Perm [adult, present, near] ∧
    [present, near, adult].filter (·.clause?.isSome)
      = [adult, present, near].filter (·.clause?.isSome) ∧
    (compile [present, near, adult]).select docs = (compile [adult, present, near]).select docs := by
  intro age place present adult near docs
  have hperm : ([present, near] ++ [adult]).Perm ([adult] ++ [present, near]) :=
    List.perm_append_comm
  have horder : [present, near, adult].filter (·.clause?.isSome)
      = [adult, present, near].filter (·.clause?.isSome) := rfl
  exact ⟨hperm, horder, compile_means_each_and_last_clause.2 _ _ hperm horder docs⟩

end Predicate

end IndexQuery

import IndexQuery.Proofs.Compilation.Meaning
set_option autoImplicit false

/-! # What a conjunction accepts

Whatever a tree looks like, it is a core without a clause, inside the clauses of searches that are
nested in each other. It accepts what its core accepts within the bounds of all these clauses
(`accepts_eq`). Conjunction joins the cores (`core_and`) and lays the clauses of the second tree
over those of the first, from the outside: a clause that is covered is lost, and every other one
stays, once (`clauses_and`). So a conjunction accepts what both sides accept unless both are
searches (`accepts_and`), and `accepts_and_iff` says what is accepted in any case. -/

namespace IndexQuery

open Matching

namespace Tree

/-! ## Trees without a clause -/

theorem acceptsAll_append (xs ys : List Tree) (d : Datum) :
    acceptsAll (xs ++ ys) d = (acceptsAll xs d && acceptsAll ys d) := by
  rw [acceptsAll_eq_all, acceptsAll_eq_all, acceptsAll_eq_all, List.all_append]

theorem accepts_join (a b : Tree) (d : Datum) :
    (join a b).accepts d = (a.accepts d && b.accepts d) := by
  cases b with
  | root => rw [join_root, accepts, Bool.and_true]
  | intersect ys =>
      cases a with
      | root => rw [root_join, accepts, Bool.true_and]
      | intersect xs => exact acceptsAll_append xs ys d
      | _ => rfl
  | _ =>
      cases a with
      | root => rw [root_join, accepts, Bool.true_and]
      | intersect xs =>
          refine (acceptsAll_append xs [_] d).trans ?_
          rw [acceptsAll, acceptsAll, Bool.and_true]
          rfl
      | _ =>
          show acceptsAll [_, _] d = _
          rw [acceptsAll, acceptsAll, acceptsAll, Bool.and_true]

/-! ## Cores and clauses -/

/-- The tree inside all clauses. -/
def core : Tree → Tree
  | knn filter _ => filter.core
  | t => t

/-- The clauses around the core, the outermost first. -/
def clauses : Tree → List KnnClause
  | knn filter clause => clause :: filter.clauses
  | _ => []

variable {a b t : Tree}

theorem core_of_clause?_eq_none (ht : t.clause? = none) : t.core = t := by
  cases t with
  | knn filter clause => cases ht
  | _ => rfl

theorem clauses_eq_nil_iff : t.clauses = [] ↔ t.clause? = none := by
  cases t with
  | knn filter clause => exact iff_of_false (List.cons_ne_nil _ _) (Option.some_ne_none _)
  | _ => exact iff_of_true rfl rfl

/-- A tree accepts what its core accepts within the bounds of all its clauses. -/
theorem accepts_eq (t : Tree) (d : Datum) :
    t.accepts d = (t.core.accepts d && t.clauses.all (withinThreshold · d)) := by
  induction t using peelInduction with
  | plain t ht =>
      rw [core_of_clause?_eq_none ht, clauses_eq_nil_iff.mpr ht, List.all_nil, Bool.and_true]
  | search filter clause ih =>
      rw [accepts, ih, core, clauses, List.all_cons, Bool.and_assoc]
      congr 1
      exact Bool.and_comm _ _

/-! ## Conjunctions -/

/-- The core of a conjunction is the conjunction of the cores. -/
theorem core_and (a b : Tree) : (a.and b).core = join a.core b.core := by
  induction a using peelInduction generalizing b with
  | plain a ha =>
      induction b using peelInduction with
      | plain b hb =>
          rw [and_eq_join ha hb, core_of_clause?_eq_none (clause?_join ha hb),
            core_of_clause?_eq_none ha, core_of_clause?_eq_none hb]
      | search g d ih => rw [and_knn ha, core, ih, core]
  | search f c ih =>
      cases b using peelInduction with
      | plain b hb => rw [knn_and f c hb, core, ih, core]
      | search g d => rw [knn_and_knn, core, ih, core, core]

/-- The clauses of the second tree cover as many of the first, from the outside. -/
theorem clauses_and (a b : Tree) :
    (a.and b).clauses = b.clauses ++ a.clauses.drop b.clauses.length := by
  induction a using peelInduction generalizing b with
  | plain a ha =>
      rw [clauses_eq_nil_iff.mpr ha, List.drop_nil, List.append_nil]
      induction b using peelInduction with
      | plain b hb => rw [clauses_eq_nil_iff.mpr (clause?_and ha hb), clauses_eq_nil_iff.mpr hb]
      | search g d ih => rw [and_knn ha, clauses, ih, clauses]
  | search f c ih =>
      cases b using peelInduction with
      | plain b hb =>
          have hnone := clauses_eq_nil_iff.mpr hb
          rw [knn_and f c hb, clauses, ih, hnone]
          rfl
      -- one clause comes off each side, and the one of the second tree stays
      | search g d => rw [knn_and_knn, clauses, ih, clauses, clauses]; rfl

/-- What a conjunction accepts, whatever both sides are: both cores accept the document, and it lies
within the bounds of the clauses that are left. -/
theorem accepts_and_iff (a b : Tree) (d : Datum) :
    (a.and b).accepts d = true ↔ a.core.accepts d = true ∧ b.core.accepts d = true ∧
      ∀ clause ∈ b.clauses ++ a.clauses.drop b.clauses.length, withinThreshold clause d = true := by
  rw [accepts_eq, core_and, clauses_and, accepts_join, Bool.and_eq_true, Bool.and_eq_true,
    List.all_eq_true]
  constructor
  · rintro ⟨⟨ha, hb⟩, hclauses⟩
    exact ⟨ha, hb, hclauses⟩
  · rintro ⟨ha, hb, hclauses⟩
    exact ⟨⟨ha, hb⟩, hclauses⟩

/-- A conjunction accepts what both sides accept, unless both have a clause: then one of the bounds
on the distance is dropped. -/
theorem accepts_and (h : a.clause? = none ∨ b.clause? = none) (d : Datum) :
    (a.and b).accepts d = (a.accepts d && b.accepts d) := by
  -- without clauses on one side, none of the other side is covered
  have hclauses : (a.and b).clauses = b.clauses ++ a.clauses := by
    rw [clauses_and]
    rcases h with ha | hb
    · rw [clauses_eq_nil_iff.mpr ha, List.drop_nil]
    · rw [clauses_eq_nil_iff.mpr hb]
      rfl
  calc (a.and b).accepts d
      = ((a.core.accepts d && b.core.accepts d) &&
          (b.clauses.all (withinThreshold · d) && a.clauses.all (withinThreshold · d))) := by
        rw [accepts_eq, core_and, accepts_join, hclauses, List.all_append]
    _ = ((a.core.accepts d && a.clauses.all (withinThreshold · d)) &&
          (b.core.accepts d && b.clauses.all (withinThreshold · d))) := by ac_rfl
    _ = (a.accepts d && b.accepts d) := by rw [← accepts_eq a, ← accepts_eq b]

/-! ## Conjunction and both sides -/

/-- Intersection is conjunction. Unless both trees are searches for neighbours, it accepts exactly
what both of them accept, however deep searches are nested in them. Of two searches among trees that
are none, it accepts what both filters accept within the bound of the second. In general the cores
of both trees decide, with every clause that is not covered by one of the second tree. -/
theorem intersection_accepts :
    (∀ (a b : Tree) (d : Datum), ¬ (a.clause?.isSome ∧ b.clause?.isSome) →
      ((a.and b).accepts d = true ↔ a.accepts d = true ∧ b.accepts d = true)) ∧
    (∀ (f g : Tree) (c c' : KnnClause) (d : Datum), f.clause? = none → g.clause? = none →
      (((knn f c).and (knn g c')).accepts d = true ↔
        f.accepts d = true ∧ g.accepts d = true ∧ withinThreshold c' d = true)) ∧
    ∀ (a b : Tree) (d : Datum), (a.and b).accepts d = true ↔
      a.core.accepts d = true ∧ b.core.accepts d = true ∧
        ∀ clause ∈ b.clauses ++ a.clauses.drop b.clauses.length,
          withinThreshold clause d = true := by
  refine ⟨fun a b d h => ?_, fun f g c c' d hf hg => ?_, accepts_and_iff⟩
  · have hplain : a.clause? = none ∨ b.clause? = none := by
      rw [← Option.not_isSome_iff_eq_none, ← Option.not_isSome_iff_eq_none]
      exact Decidable.not_and_iff_not_or_not.mp h
    rw [accepts_and hplain, Bool.and_eq_true]
  · have hleft : (knn f c).clauses = [c] := by rw [clauses, clauses_eq_nil_iff.mpr hf]
    have hright : (knn g c').clauses = [c'] := by rw [clauses, clauses_eq_nil_iff.mpr hg]
    rw [accepts_and_iff, hleft, hright, core, core, core_of_clause?_eq_none hf,
      core_of_clause?_eq_none hg]
    simp

/-- A search inside a search with a condition beside it, and two searches of which the second has
the wider bound. -/
theorem intersection_accepts_nested :
    let adult : Tree := .term "age" (.numeric (.atLeast (Double.ofInt 18)))
    let within (bound : Int) : KnnClause :=
      ⟨"place", 1, [⟨0⟩], .float32, .l2, some (Double.ofInt bound)⟩
    let nested : Tree := .knn (.knn .root (within 4)) (within 9)
    let d : Datum := .record [("age", .int 30), ("place", .list [.int 2])]
    ¬ (nested.clause?.isSome ∧ adult.clause?.isSome) ∧
      (nested.and adult).accepts d = true ∧
      adult.clause? = none ∧ root.clause? = none ∧
      ((knn adult (within 1)).and (knn root (within 4))).accepts d = true ∧
      ¬ (knn adult (within 1)).accepts d = true := by
  intro adult within nested d
  have hplain : ¬ (nested.clause?.isSome ∧ adult.clause?.isSome) := fun h => nomatch h.2
  have hnested : nested.accepts d = true ∧ adult.accepts d = true := by decide +kernel
  have hsearches : adult.accepts d = true ∧ root.accepts d = true ∧
      withinThreshold (within 4) d = true := by decide +kernel
  exact ⟨hplain, (intersection_accepts.1 nested adult d hplain).mpr hnested, rfl, rfl,
    (intersection_accepts.2.1 adult root (within 1) (within 4) d rfl rfl).mpr hsearches,
    by decide +kernel⟩

end Tree

end IndexQuery

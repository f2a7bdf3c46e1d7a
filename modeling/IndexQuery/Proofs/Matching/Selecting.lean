import IndexQuery.Proofs.Matching.Conjunction
import IndexQuery.Proofs.Matching.Ranking
import Mathlib.Data.List.FinRange
set_option autoImplicit false

/-! # Selection in stages

A conjunction accepts what both of its sides accept, so a query without a clause selects in stages:
first by one side, then by the other. A search for neighbours first selects by its filter and then
ranks what is left (`selectBy_knn`), whether the filter was there before the clause or joined it
later. What is selected are items of the list, each of them at most once (`selectBy_subperm`), and
wherever they stand in a list of documents (`exists_positions`). The main statement is
`selection_composes`. -/

namespace IndexQuery

open Matching

/-! ## Neighbours -/

namespace Matching

variable {α β : Type}

/-- The items that have a distance, with their distances. -/
def measured (clause : KnnClause) (document : α → Datum) (items : List α) : List (Double × α) :=
  items.filterMap fun item => (distance clause (document item)).map fun d => (d, item)

theorem mem_measured {clause : KnnClause} {document : α → Datum} {items : List α}
    {x : Double × α} :
    x ∈ measured clause document items ↔
      x.2 ∈ items ∧ distance clause (document x.2) = some x.1 := by
  simp only [measured, List.mem_filterMap, Option.map_eq_some_iff]
  constructor
  · rintro ⟨item, hitem, d, hd, rfl⟩
    exact ⟨hitem, hd⟩
  · rintro ⟨hitem, hd⟩
    exact ⟨x.2, hitem, x.1, hd, rfl⟩

theorem map_snd_measured (clause : KnnClause) (document : α → Datum) (items : List α) :
    (measured clause document items).map (·.2)
      = items.filter fun item => (distance clause (document item)).isSome := by
  induction items with
  | nil => rfl
  | cons item items ih =>
      unfold measured at ih ⊢
      cases hd : distance clause (document item) with
      | none => simp [hd, ih]
      | some d => simp [hd, ih]

theorem measured_map (clause : KnnClause) (document : β → Datum) (g : α → β) (items : List α) :
    measured clause document (items.map g)
      = (measured clause (document ∘ g) items).map (Prod.map id g) := by
  simp only [measured, List.filterMap_map, List.map_filterMap, Option.map_map]
  rfl

/-- The items that have a distance, the nearest first, up to the number that is wanted. -/
def nearest (clause : KnnClause) (document : α → Datum) (items : List α) : Option (List α) :=
  (ranked (measured clause document items)).map fun sorted => (sorted.take clause.k).map (·.2)

theorem nearest_map (clause : KnnClause) (document : β → Datum) (g : α → β) (items : List α) :
    nearest clause document (items.map g)
      = (nearest clause (document ∘ g) items).map (List.map g) := by
  unfold nearest
  rw [measured_map, ranked_map, Option.map_map, Option.map_map]
  congr 1
  funext sorted
  simp only [Function.comp_apply, ← List.map_take, List.map_map]
  rfl

section

variable {clause : KnnClause} {document : α → Datum} {items : List α}
  {sorted : List (Double × α)}

/-- A ranking holds all items that have a distance. -/
theorem map_snd_ranked_perm (h : ranked (measured clause document items) = some sorted) :
    (sorted.map (·.2)).Perm
      (items.filter fun item => (distance clause (document item)).isSome) := by
  rw [← map_snd_measured]
  exact (ranked_perm h).map _

/-- The nearest items, and the others that have a distance. -/
theorem exists_others {selected : List α} (h : nearest clause document items = some selected) :
    ∃ others, (selected ++ others).Perm
        (items.filter fun item => (distance clause (document item)).isSome) ∧
      selected.length
        = min clause.k (items.countP fun item => (distance clause (document item)).isSome) := by
  obtain ⟨sorted, hsorted, rfl⟩ := Option.map_eq_some_iff.mp h
  have hperm := map_snd_ranked_perm hsorted
  refine ⟨(sorted.drop clause.k).map (·.2), ?_, ?_⟩
  · rwa [← List.map_append, List.take_append_drop]
  · rw [List.length_map, List.length_take, List.countP_eq_length_filter, ← hperm.length_eq,
      List.length_map]

/-- A few items have a ranking, and so have any whose distances are numbers. -/
theorem isSome_nearest
    (h : (items.countP fun item => (distance clause (document item)).isSome) ≤ 20 ∨
      ∀ item ∈ items, ∀ x, distance clause (document item) = some x → x.isNaN = false) :
    (nearest clause document items).isSome = true := by
  rw [nearest, Option.isSome_map]
  rcases h with hfew | hnumbers
  · refine isSome_ranked_of_length_le ?_
    rwa [List.countP_eq_length_filter, ← map_snd_measured, List.length_map] at hfew
  · obtain ⟨sorted, hsorted, -⟩ := ranked_sorted fun x hx =>
      hnumbers x.2 (mem_measured.mp hx).1 x.1 (mem_measured.mp hx).2
    rw [hsorted]
    rfl

end

end Matching

namespace Tree

variable {α β : Type}

/-! ## Selection -/

theorem selectBy_of_clause? {t : Tree} {clause : KnnClause} (ht : t.clause? = some clause)
    (document : α → Datum) (items : List α) :
    t.selectBy document items
      = nearest clause document (items.filter fun item => t.accepts (document item)) := by
  rw [selectBy_eq, ht]
  rfl

theorem selectBy_of_clause?_eq_none {t : Tree} (ht : t.clause? = none) (document : α → Datum)
    (items : List α) :
    t.selectBy document items = some (items.filter fun item => t.accepts (document item)) := by
  rw [selectBy_eq, ht]

/-- Selection looks at documents only. -/
theorem selectBy_map (t : Tree) (document : β → Datum) (g : α → β) (items : List α) :
    t.selectBy document (items.map g) = (t.selectBy (document ∘ g) items).map (List.map g) := by
  cases ht : t.clause? with
  | none =>
      rw [selectBy_of_clause?_eq_none ht, selectBy_of_clause?_eq_none ht, List.filter_map]
      rfl
  | some clause =>
      rw [selectBy_of_clause? ht, selectBy_of_clause? ht, List.filter_map, nearest_map]
      rfl

/-- What is selected is in the list, at most as often as there, and accepted. -/
theorem selectBy_subperm {t : Tree} {document : α → Datum} {items selected : List α}
    (h : t.selectBy document items = some selected) :
    selected.Subperm (items.filter fun item => t.accepts (document item)) := by
  cases ht : t.clause? with
  | none =>
      rw [selectBy_of_clause?_eq_none ht] at h
      cases h
      exact .refl _
  | some clause =>
      rw [selectBy_of_clause? ht] at h
      obtain ⟨others, hperm, -⟩ := exists_others h
      have hfront := (List.sublist_append_left selected others).subperm
      exact (hfront.trans hperm.subperm).trans List.filter_sublist.subperm

/-- Selecting documents is selecting positions. -/
theorem select_eq_map_get (t : Tree) (docs : List Datum) :
    t.select docs
      = (t.selectBy docs.get (List.finRange docs.length)).map (List.map docs.get) := by
  have hget := t.selectBy_map id docs.get (List.finRange docs.length)
  rw [List.map_get_finRange] at hget
  exact hget

/-- The selected documents stand at different positions of the list. -/
theorem exists_positions {t : Tree} {docs selected : List Datum}
    (h : t.select docs = some selected) :
    ∃ positions : List (Fin docs.length), positions.Nodup ∧
      selected = positions.map docs.get := by
  rw [select_eq_map_get] at h
  obtain ⟨positions, hpositions, rfl⟩ := Option.map_eq_some_iff.mp h
  refine ⟨positions, ?_, rfl⟩
  obtain ⟨kept, hperm, hsub⟩ := selectBy_subperm hpositions
  exact hperm.nodup_iff.mp (((List.nodup_finRange _).filter _).sublist hsub)

/-- A query without a clause selects in stages. -/
theorem selectBy_and {a b : Tree} (ha : a.clause? = none) (hb : b.clause? = none)
    (document : α → Datum) (items : List α) :
    (a.and b).selectBy document items
      = (a.selectBy document items).bind (b.selectBy document) := by
  rw [selectBy_of_clause?_eq_none (clause?_and ha hb), selectBy_of_clause?_eq_none ha,
    Option.bind_some, selectBy_of_clause?_eq_none hb, List.filter_filter]
  congr 2
  funext item
  rw [accepts_and (.inl ha), Bool.and_comm]

theorem withClause_eq_knn {t : Tree} (ht : t.clause? = none) (clause : KnnClause) :
    t.withClause clause = knn t clause := by
  rw [withClause_eq_and, and_knn ht, and_root]

/-- A filter joins a search as if it had been there before. -/
theorem withClause_and {t u : Tree} (ht : t.clause? = none) (hu : u.clause? = none)
    (clause : KnnClause) : (t.withClause clause).and u = (t.and u).withClause clause := by
  rw [withClause_eq_knn ht, withClause_eq_knn (clause?_and ht hu), knn_and t clause hu]

/-- Neighbours are searched for among the items the filter selects. -/
theorem selectBy_knn {t : Tree} (ht : t.clause? = none) (clause : KnnClause)
    (document : α → Datum) (items : List α) :
    (knn t clause).selectBy document items
      = (t.selectBy document items).bind ((root.withClause clause).selectBy document) := by
  rw [withClause_eq_knn rfl, selectBy_of_clause? rfl, selectBy_of_clause?_eq_none ht,
    Option.bind_some, selectBy_of_clause? rfl, List.filter_filter]
  congr 2
  funext item
  rw [accepts, accepts, accepts, Bool.true_and, Bool.and_comm]

/-- Whether a document can be among the neighbours: the filter accepts it, it lies within the bound
on the distance, and it has a distance. -/
def isEligible (t : Tree) (clause : KnnClause) (d : Datum) : Bool :=
  t.accepts d && withinThreshold clause d && (distance clause d).isSome

theorem isEligible_eq (t : Tree) (clause : KnnClause) (d : Datum) :
    isEligible t clause d = ((knn t clause).accepts d && (distance clause d).isSome) := by
  rw [accepts]
  rfl

theorem isEligible_of_accepts {t : Tree} {clause : KnnClause} {d : Datum} {x : Double}
    (haccepts : (knn t clause).accepts d = true) (hx : distance clause d = some x) :
    isEligible t clause d = true := by
  rw [isEligible_eq, haccepts, hx]
  rfl

/-- The eligible documents are the accepted ones that have a distance. -/
theorem filter_isEligible (t : Tree) (clause : KnnClause) (docs : List Datum) :
    (docs.filter fun d => (knn t clause).accepts d).filter (fun d => (distance clause d).isSome)
      = docs.filter (isEligible t clause) := by
  rw [List.filter_filter]
  refine List.filter_congr fun d _ => ?_
  rw [isEligible_eq, Bool.and_comm]

theorem countP_isEligible (t : Tree) (clause : KnnClause) (docs : List Datum) :
    ((docs.filter fun d => (knn t clause).accepts d).countP fun d => (distance clause d).isSome)
      = docs.countP (isEligible t clause) := by
  rw [List.countP_eq_length_filter, filter_isEligible, List.countP_eq_length_filter]

theorem length_select_knn {t : Tree} {clause : KnnClause} {docs selected : List Datum}
    (h : (knn t clause).select docs = some selected) :
    selected.length = min clause.k (docs.countP (isEligible t clause)) := by
  rw [select, selectBy_of_clause? rfl] at h
  obtain ⟨-, -, hlength⟩ := exists_others h
  rw [hlength]
  exact congrArg (min clause.k) (countP_isEligible t clause docs)

/-- Neighbours are found among a few documents, and among any at distances that are numbers. -/
theorem isSome_select_knn {t : Tree} {clause : KnnClause} {docs : List Datum}
    (h : docs.countP (isEligible t clause) ≤ 20 ∨
      ∀ d ∈ docs, isEligible t clause d = true →
        ∀ x, distance clause d = some x → x.isNaN = false) :
    ((knn t clause).select docs).isSome = true := by
  rw [select, selectBy_of_clause? rfl]
  refine isSome_nearest (h.imp (fun hfew => ?_) fun hnumbers d hd x hx => ?_)
  · exact (countP_isEligible t clause docs).trans_le hfew
  · obtain ⟨hmem, haccepts⟩ := List.mem_filter.mp hd
    exact hnumbers d hmem (isEligible_of_accepts haccepts hx) x hx

/-- With fewer neighbours wanted, the first of them are selected. -/
theorem select_knn_take (t : Tree) (clause : KnnClause) {k : Nat} (hk : clause.k ≤ k)
    (docs : List Datum) :
    (knn t clause).select docs
      = ((knn t { clause with k := k }).select docs).map (List.take clause.k) := by
  rw [select, select, selectBy_of_clause? rfl, selectBy_of_clause? rfl, nearest, nearest,
    Option.map_map]
  refine congrArg (Option.map · (ranked _)) (funext fun sorted => ?_)
  rw [Function.comp_apply, ← List.map_take, List.take_take, Nat.min_eq_left hk]

/-- Selection composes. What is selected are accepted documents at different positions of the list.
A conjunction of queries without a clause at their root, as all queries without a search for
neighbours are, selects in stages and keeps the order of the list. A search for neighbours ranks
what its filters select, those that were there first and those that joined it; it selects as many
of the eligible documents as are wanted, and with fewer wanted the first of them. A ranking may be
given up, but not of a few documents, and not of documents at distances that are numbers. -/
theorem selection_composes (t : Tree) (docs : List Datum) :
    (∀ selected, t.select docs = some selected →
      (∃ positions : List (Fin docs.length), positions.Nodup ∧
        selected = positions.map docs.get) ∧
      ∀ d ∈ selected, t.accepts d = true) ∧
    (t.clause? = none → ∀ u : Tree, u.clause? = none →
      (t.and u).select docs = (t.select docs).bind u.select ∧
      ∃ selected, (t.and u).select docs = some selected ∧ selected.Sublist docs) ∧
    (t.clause? = none → ∀ clause : KnnClause,
      (t.withClause clause).select docs = (t.select docs).bind (root.withClause clause).select ∧
      (∀ u : Tree, u.clause? = none → ((t.withClause clause).and u).select docs
        = ((t.select docs).bind u.select).bind (root.withClause clause).select) ∧
      (∀ selected, (t.withClause clause).select docs = some selected →
        selected.length = min clause.k (docs.countP (isEligible t clause))) ∧
      (∀ k, clause.k ≤ k → (t.withClause clause).select docs
        = ((t.withClause { clause with k := k }).select docs).map (List.take clause.k)) ∧
      (docs.countP (isEligible t clause) ≤ 20 ∨
        (∀ d ∈ docs, isEligible t clause d = true →
          ∀ x, distance clause d = some x → x.isNaN = false) →
        ((t.withClause clause).select docs).isSome = true)) := by
  refine ⟨fun selected h => ⟨exists_positions h, fun d hd => ?_⟩, fun ht u hu => ?_,
    fun ht clause => ?_⟩
  · exact (List.mem_filter.mp ((selectBy_subperm h).subset hd)).2
  · exact ⟨selectBy_and ht hu id docs, _,
      selectBy_of_clause?_eq_none (clause?_and ht hu) id docs, List.filter_sublist⟩
  · have hsearch : ∀ v : Tree, v.clause? = none →
        (v.withClause clause).select docs
          = (v.select docs).bind (root.withClause clause).select := by
      intro v hv
      rw [withClause_eq_knn hv]
      exact selectBy_knn hv clause id docs
    refine ⟨hsearch t ht, fun u hu => ?_, fun selected hselected => ?_, fun k hk => ?_,
      fun hnumbers => ?_⟩
    · rw [withClause_and ht hu, hsearch _ (clause?_and ht hu)]
      exact congrArg (Option.bind · _) (selectBy_and ht hu id docs)
    · rw [withClause_eq_knn ht] at hselected
      exact length_select_knn hselected
    · rw [withClause_eq_knn ht, withClause_eq_knn ht]
      exact select_knn_take t clause hk docs
    · rw [withClause_eq_knn ht]
      exact isSome_select_knn hnumbers

/-- Two filters and a search for neighbours on four documents, of which one has no vector. -/
theorem selection_composes_four_documents :
    let adult : Tree := .term "age" (.numeric (.atLeast (Double.ofInt 18)))
    let active : Tree := .term "active" (.boolean true)
    let clause : KnnClause := ⟨"place", 1, [⟨0⟩], .float32, .l2, none⟩
    let person (age : Int) (flag : Bool) (place : List Datum) : Datum :=
      .record [("age", .int age), ("active", .bool flag), ("place", .list place)]
    let first : Datum := person 30 true [.int 5]
    let last : Datum := person 50 true [.int 2]
    let docs : List Datum := [first, person 40 true [], person 17 true [.int 0], last]
    adult.clause? = none ∧ active.clause? = none ∧
      (adult.and active).select docs = (adult.select docs).bind active.select ∧
      (adult.withClause clause).select docs
        = (adult.select docs).bind (root.withClause clause).select ∧
      ((adult.withClause clause).and active).select docs
        = ((adult.select docs).bind active.select).bind (root.withClause clause).select ∧
      docs.countP (isEligible adult clause) = 2 ∧ clause.k ≤ 2 ∧
      (∃ selected, (adult.withClause clause).select docs = some selected ∧ selected.length = 1 ∧
        (∀ d ∈ selected, (adult.withClause clause).accepts d = true)) ∧
      (adult.withClause clause).select docs
        = ((adult.withClause { clause with k := 2 }).select docs).map (List.take 1) := by
  intro adult active clause person first last docs
  have hadult : adult.clause? = none := rfl
  have hactive : active.clause? = none := rfl
  have hcount : docs.countP (isEligible adult clause) = 2 := by decide +kernel
  have hmore : clause.k ≤ 2 := by decide
  obtain ⟨-, hstaged, hranked⟩ := selection_composes adult docs
  have hstages := (hstaged hadult active hactive).1
  obtain ⟨hsearch, hjoined, hlength, hfewer, hsome⟩ := hranked hadult clause
  obtain ⟨selected, hselected⟩ := Option.isSome_iff_exists.mp (hsome (.inl (by omega)))
  have haccepts := ((selection_composes _ docs).1 selected hselected).2
  have hone : selected.length = 1 := by
    rw [hlength selected hselected, hcount]
    rfl
  exact ⟨hadult, hactive, hstages, hsearch, hjoined active hactive, hcount, hmore,
    ⟨selected, hselected, hone, haccepts⟩, hfewer 2 hmore⟩

/-- Twenty-one documents with an inner product each, of which one is not a number: it adds
infinities of both signs. Ranking them is given up, so no neighbour is selected. -/
theorem ranking_given_up :
    let ten : Single := Single.ofDecimal false 10 0
    let huge : Double := Double.ofDecimal false 1 308
    let clause : KnnClause := ⟨"place", 1, [ten, ten], .float32, .ip, none⟩
    let stored (x y : Datum) : Datum := .record [("place", .list [x, y])]
    let along (start n : Nat) : List Datum :=
      (List.range' start n).map fun i => stored (.int i) (.int 0)
    let docs : List Datum := along 0 5 ++ stored (.float huge) (.float huge.neg) :: along 5 15
    docs.countP (isEligible root clause) = 21 ∧
      (root.withClause clause).select docs = none := by
  intro ten huge clause stored along docs
  let items := measured clause id (docs.filter fun d => (root.withClause clause).accepts d)
  have hblock : (Sorting.sortBlock? nearer (items.take Sorting.blockSize)).isNone = true := by
    decide +kernel
  have hranked : ranked items = none :=
    Sorting.stableSort?_eq_none (by decide +kernel) (by decide +kernel) (by decide +kernel)
      (Option.isNone_iff_eq_none.mp hblock)
  refine ⟨by decide +kernel, ?_⟩
  rw [select, selectBy_of_clause? rfl, nearest]
  exact congrArg (Option.map _) hranked

end Tree

end IndexQuery

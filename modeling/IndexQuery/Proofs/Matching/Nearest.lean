import IndexQuery.Proofs.Data.JsonNumbers
import IndexQuery.Proofs.Encoding.Encoded
import IndexQuery.Proofs.Matching.Selecting
import Mathlib
set_option autoImplicit false

/-! # The nearest documents

A search for neighbours selects the nearest of the eligible documents, the nearest first, as long as
all their distances are numbers (`nearest_sorted`); there is a selection then. This is so if the
search bounds the distance, because what is not a number lies within no bound
(`isNaN_of_withinThreshold`), and if the distance is the squared one, because the vector of a
predicate is finite and documents hold numbers only (`isNaN_squared`). The other distances add terms
of both signs, whose sum may be undefined; a document with such a distance keeps the ones behind it
from being ranked before the ones in front of it, and one that is farther away can then be selected
in place of a nearer one (`nearer_document_left_out`). The main statement is `selects_nearest`. -/

namespace IndexQuery

open Matching

/-! ## Stored vectors -/

namespace Datum.HoldsNumbers

theorem of_get? {key : String} {d value : Datum} (hd : d.HoldsNumbers)
    (hvalue : d.get? key = some value) : value.HoldsNumbers := by
  cases hd with
  | record h =>
      obtain ⟨before, after, rfl, _⟩ := List.lookup_eq_some_iff.mp hvalue
      exact h (key, value) (by simp)
  | _ => cases hvalue

theorem isNaN {d : Datum} {x : Double} (hd : d.HoldsNumbers) (hx : d.double? = some x) :
    x.isNaN = false := by
  cases hd with
  | int n =>
      cases Option.some.inj hx
      exact Double.isNaN_ofInt n
  | float h =>
      cases Option.some.inj hx
      exact h
  | _ => cases hx

theorem isNaN_of_mem_mapM {items : List Datum} (hitems : ∀ item ∈ items, item.HoldsNumbers)
    {xs : List Double} (hxs : items.mapM Datum.double? = some xs) :
    ∀ x ∈ xs, x.isNaN = false := by
  induction items generalizing xs with
  | nil =>
      cases Option.some.inj hxs
      simp
  | cons item items ih =>
      obtain ⟨hitem, hrest⟩ := List.forall_mem_cons.mp hitems
      rw [List.mapM_cons] at hxs
      simp only [Option.bind_eq_bind, Option.bind_eq_some_iff, Option.pure_def] at hxs
      obtain ⟨y, hy, ys, hys, hpair⟩ := hxs
      cases Option.some.inj hpair
      exact List.forall_mem_cons.mpr ⟨hitem.isNaN hy, ih hrest hys⟩

/-- The numbers of a stored vector. -/
theorem isNaN_of_mem {d : Datum} {xs : List Double} (hd : d.HoldsNumbers)
    (hxs : d.listOf? Datum.double? = some xs) : ∀ x ∈ xs, x.isNaN = false := by
  cases hd with
  | list h => exact isNaN_of_mem_mapM h hxs
  | _ => cases hxs

end Datum.HoldsNumbers

namespace Matching

variable {α : Type} {clause : KnnClause} {d : Datum} {x : Double}

/-! ## Distances that are numbers -/

/-- What is not a number lies within no bound. -/
theorem isNaN_of_withinThreshold {bound : Double} (hbound : clause.threshold = some bound)
    (hd : withinThreshold clause d = true) (hx : distance clause d = some x) :
    x.isNaN = false := by
  obtain ⟨y, hy, hle⟩ := (Predicate.withinThreshold_iff clause d).mp hd bound hbound
  cases Option.some.inj (hx.symm.trans hy)
  exact (Double.le_iff.mp hle).1

/-- The squared distance of a document that holds numbers only from a finite vector. -/
theorem isNaN_squared (hmetric : clause.metric = .l2)
    (hvector : ∀ y ∈ clause.vector, y.isFinite = true) (hd : d.HoldsNumbers)
    (hx : distance clause d = some x) : x.isNaN = false := by
  unfold distance at hx
  simp only [Option.bind_eq_bind, Option.bind_eq_some_iff] at hx
  obtain ⟨value, hvalue, stored, hstored, hx⟩ := hx
  split at hx
  · cases hx
  · rw [hmetric] at hx
    refine isNaN_l2 (fun y hy => ?_) ((hd.of_get? hvalue).isNaN_of_mem hstored) hx
    obtain ⟨single, hsingle, rfl⟩ := List.mem_map.mp hy
    exact Single.isFinite_toDouble (hvector single hsingle)

/-! ## The order of what is selected -/

/-- Both documents have a distance, and that of the first is at most that of the second. -/
def NotFarther (clause : KnnClause) (d e : Datum) : Prop :=
  ∃ x y, distance clause d = some x ∧ distance clause e = some y ∧ x.le y = true

/-- If all distances are numbers, the nearest items are selected, the nearest first, and what is
left out is not nearer. -/
theorem nearest_sorted (document : α → Datum) {items : List α}
    (hnumbers : ∀ item ∈ items, ∀ x, distance clause (document item) = some x → x.isNaN = false) :
    ∃ selected others, nearest clause document items = some selected ∧
      (selected ++ others).Perm
        (items.filter fun item => (distance clause (document item)).isSome) ∧
      (selected ++ others).Pairwise fun a b => NotFarther clause (document a) (document b) := by
  obtain ⟨sorted, hsorted, horder⟩ := ranked_sorted fun x hx =>
    hnumbers x.2 (mem_measured.mp hx).1 x.1 (mem_measured.mp hx).2
  have hmeasured : ∀ {a : Double × α}, a ∈ sorted → distance clause (document a.2) = some a.1 :=
    fun ha => (mem_measured.mp ((ranked_perm hsorted).mem_iff.mp ha)).2
  refine ⟨_, (sorted.drop clause.k).map (·.2), congrArg (Option.map _) hsorted, ?_⟩
  rw [← List.map_append, List.take_append_drop, List.pairwise_map]
  refine ⟨map_snd_ranked_perm hsorted, horder.imp_of_mem fun ha hb hle => ?_⟩
  exact ⟨_, _, hmeasured ha, hmeasured hb, hle⟩

end Matching

namespace Tree

/-- If the eligible documents are at distances that are numbers, the nearest of them are selected,
the nearest first, and none of the others is nearer. -/
theorem select_knn_sorted {filter : Tree} {clause : KnnClause} {docs : List Datum}
    (hnumbers : ∀ d ∈ docs, filter.isEligible clause d = true →
      ∀ x, distance clause d = some x → x.isNaN = false) :
    ∃ selected, (knn filter clause).select docs = some selected ∧
      selected.Pairwise (NotFarther clause) ∧
      ∃ others : List Datum,
        (selected ++ others).Perm (docs.filter (filter.isEligible clause)) ∧
        ∀ d ∈ selected, ∀ e ∈ others, NotFarther clause d e := by
  have haccepted : ∀ d ∈ docs.filter fun d => (knn filter clause).accepts d,
      ∀ x, distance clause d = some x → x.isNaN = false := by
    intro d hd x hx
    obtain ⟨hmem, haccepts⟩ := List.mem_filter.mp hd
    exact hnumbers d hmem (isEligible_of_accepts haccepts hx) x hx
  obtain ⟨selected, others, hselected, hperm, horder⟩ := nearest_sorted id haccepted
  obtain ⟨hpairwise, -, hcross⟩ := List.pairwise_append.mp horder
  exact ⟨selected, (selectBy_of_clause? rfl id docs).trans hselected, hpairwise, others,
    hperm.trans (.of_eq (filter_isEligible filter clause docs)), hcross⟩

end Tree

namespace Predicate

open Encoding

variable {f : Field} {v : Operand} {k : Nat} {threshold : Option Double} {p : Predicate}

/-! ## What a search for neighbours selects -/

theorem criterion_of_nearest (h : of f (.nearest v k threshold) = .ok p) :
    ∃ clause, knnClause f .vectorSimilarity v k threshold = .ok clause ∧
      p.criterion = .nearest clause := by
  obtain ⟨_, _, hcriterion⟩ := of_eq_ok h
  have hcriterion : (if v.isEmpty then .error (missing f .vectorSimilarity)
      else (knnClause f .vectorSimilarity v k threshold).map .nearest) = .ok p.criterion :=
    hcriterion
  split at hcriterion
  · cases hcriterion
  · obtain ⟨clause, hclause, hp⟩ := map_eq_ok hcriterion
    exact ⟨clause, hclause, hp.symm⟩

theorem exists_filter {clause : KnnClause} (hp : p.criterion = .nearest clause) (t : Tree) :
    ∃ filter, p.apply t = .knn filter clause := by
  unfold apply
  rw [hp]
  cases t with
  | knn filter _ => exact ⟨filter, rfl⟩
  | _ => exact ⟨_, rfl⟩

/-- The search for the neighbours of an accepted vector, among the documents of any filter, selects
the nearest of the eligible documents, the nearest first, and none of the others is nearer. This
holds if the search bounds the distance, if the distance is the squared one and the documents hold
numbers only, as what is read from JSON does, and for any list of documents whose eligible ones are
at distances that are numbers. -/
theorem selects_nearest (f : Field) (v : Operand) (k : Nat) (threshold : Option Double)
    (p : Predicate) (h : of f (.nearest v k threshold) = .ok p) :
    ∃ clause : KnnClause, (∀ t : Tree, ∃ filter, p.apply t = .knn filter clause) ∧
      clause.k = k ∧ clause.threshold = threshold ∧
      (∀ (text : List Char) (d : Datum), Datum.ofJson? text = some d → d.HoldsNumbers) ∧
      ∀ (filter : Tree) (docs : List Datum),
        (threshold ≠ none ∨ (clause.metric = .l2 ∧ ∀ d ∈ docs, d.HoldsNumbers) ∨
          ∀ d ∈ docs, filter.isEligible clause d = true →
            ∀ x, distance clause d = some x → x.isNaN = false) →
        ∃ selected, (Tree.knn filter clause).select docs = some selected ∧
          selected.Pairwise (NotFarther clause) ∧
          ∃ others : List Datum,
            (selected ++ others).Perm (docs.filter (filter.isEligible clause)) ∧
            selected.length = min k (docs.countP (filter.isEligible clause)) ∧
            ∀ d ∈ selected, ∀ e ∈ others, NotFarther clause d e := by
  obtain ⟨clause, hclause, hp⟩ := criterion_of_nearest h
  obtain ⟨params, vector, _, _, hparts, _, _, hvector, _⟩ := knnClause_eq_ok hclause
  have hk : clause.k = k := by rw [hparts]
  have hthreshold : clause.threshold = threshold := by rw [hparts]
  have hfinite : ∀ y ∈ clause.vector, y.isFinite = true := by
    rw [hparts]
    exact hvector
  refine ⟨clause, exists_filter hp, hk, hthreshold, fun _ _ => Datum.holdsNumbers_ofJson?,
    fun filter docs hdocs => ?_⟩
  have hnumbers : ∀ d ∈ docs, filter.isEligible clause d = true →
      ∀ x, distance clause d = some x → x.isNaN = false := by
    intro d hd heligible x hx
    rcases hdocs with hbounded | ⟨hmetric, hholds⟩ | hnumbers
    · obtain ⟨bound, hbound⟩ := Option.ne_none_iff_exists'.mp hbounded
      simp only [Tree.isEligible, Bool.and_eq_true] at heligible
      exact isNaN_of_withinThreshold (hthreshold.trans hbound) heligible.1.2 hx
    · exact isNaN_squared hmetric hfinite (hholds d hd) hx
    · exact hnumbers d hd heligible x hx
  obtain ⟨selected, hselected, hsorted, others, hperm, hothers⟩ :=
    Tree.select_knn_sorted hnumbers
  have hlength := Tree.length_select_knn hselected
  rw [hk] at hlength
  exact ⟨selected, hselected, hsorted, others, hperm, hlength, hothers⟩

/-- The nearer of two documents that are read from a JSON text. -/
theorem selects_nearest_one_of_two :
    let place : Field := ⟨"place", "p", .vector { dimension := 1 }, false,
      by decide, by decide, by decide⟩
    let clause : KnnClause := ⟨"p", 1, [⟨0⟩], .float32, .l2, none⟩
    let text : String := "[\x7b\"p\":[5]\x7d,\x7b\"p\":[-1]\x7d]"
    let docs : List Datum := [5, -1].map fun n => .record [("p", .list [.int n])]
    Datum.ofJson? text.toList = some (.list docs) ∧
      (clause.metric = .l2 ∧ ∀ d ∈ docs, d.HoldsNumbers) ∧
      ∃ p, of place (.nearest (.vector [⟨0⟩]) 1 none) = .ok p ∧
        p.apply .root = .knn .root clause ∧
        ∃ selected, (Tree.knn .root clause).select docs = some selected ∧
          selected.Pairwise (NotFarther clause) ∧
          ∃ others : List Datum, (selected ++ others).Perm docs ∧ selected.length = 1 ∧
            ∀ d ∈ selected, ∀ e ∈ others, NotFarther clause d e := by
  intro place clause text docs
  have hread : Datum.ofJson? text.toList = some (.list docs) := by cbv
  have hp : of place (.nearest (.vector [⟨0⟩]) 1 none)
      = .ok ⟨place, .vectorSimilarity, .nearest clause⟩ := rfl
  obtain ⟨clause', hfilter, -, -, hjson, hselect⟩ := selects_nearest place _ 1 none _ hp
  obtain ⟨filter, hfilter⟩ := hfilter .root
  obtain ⟨rfl, rfl⟩ := Tree.knn.inj hfilter
  have hholds : ∀ d ∈ docs, d.HoldsNumbers := by
    cases hjson _ _ hread with
    | list h => exact h
  obtain ⟨selected, hselected, hsorted, others, hperm, hlength, hothers⟩ :=
    hselect .root docs (.inr (.inl ⟨rfl, hholds⟩))
  exact ⟨hread, ⟨rfl, hholds⟩, _, hp, rfl, selected, hselected, hsorted, others, hperm,
    hlength.trans (by decide +kernel), hothers⟩

/-- Three documents, of which the second is at no distance that is a number from the vector: the
inner product adds infinities of both signs. The first one is selected, although the third one is
nearer. -/
theorem nearer_document_left_out :
    let place : Field := ⟨"place", "place", .vector { dimension := 2, metric := .ip }, false,
      by decide, by decide, by decide⟩
    let ten : Single := Single.ofDecimal false 10 0
    let huge : Double := Double.ofDecimal false 1 308
    let clause : KnnClause := ⟨"place", 1, [ten, ten], .float32, .ip, none⟩
    let stored (x y : Datum) : Datum := .record [("place", .list [x, y])]
    let far : Datum := stored (.int 0) (.int 0)
    let near : Datum := stored (.int 1) (.int 0)
    let docs : List Datum := [far, stored (.float huge) (.float huge.neg), near]
    ∃ p, of place (.nearest (.vector [ten, ten]) 1 none) = .ok p ∧
      p.apply .root = .knn .root clause ∧
      (Tree.knn .root clause).select docs = some [far] ∧
      distance clause far = some (Double.ofInt 1) ∧
      Tree.root.isEligible clause near = true ∧
      distance clause near = some (Double.ofInt (-9)) ∧
      (Double.ofInt (-9)).lt (Double.ofInt 1) = true := by
  intro place ten huge clause stored far near docs
  have hfirst : (Tree.knn .root clause).selectBy docs.get (List.finRange 3) = some [0] := by
    decide +kernel
  refine ⟨_, rfl, rfl, ?_, by decide +kernel, by decide +kernel, by decide +kernel,
    by decide +kernel⟩
  rw [Tree.select_eq_map_get]
  exact congrArg (Option.map (List.map docs.get)) hfirst

end Predicate

end IndexQuery

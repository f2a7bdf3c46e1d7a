import IndexQuery.Proofs.Data.JsonTexts
import IndexQuery.Proofs.Encoding.Fitting
import IndexQuery.Proofs.QueryText.Faithful
import IndexQuery.Tree.Data
set_option autoImplicit false

/-! # Trees can be told from their dumps

As data a tree keeps its shape, its keys, its texts and all its numbers, except that an end of a
range at either infinity is the absent value. `Tree.mergeInfinities` makes all infinite ends one,
and the data of two trees are the same exactly when the trees are the same after that
(`Tree.toDatum_eq_iff`). This holds of trees whose bounds are numbers and whose circles, vectors and
bounds on distances are finite (`Tree.IsEncoded`), as they are in every compiled tree
(`isEncoded_compile`). All floating-point numbers in the data are finite, so it also holds of their
JSON texts. -/

namespace IndexQuery

open QueryText (map_eq_map_of_imp unitWord_inj)

variable {x y : Double}

/-! ## Numbers -/

namespace Double

/-- Positive infinity in place of negative infinity. -/
def mergeInfinities (x : Double) : Double := if x.isInfinite then infinite false else x

theorem isInfinite_of_not_isFinite (hnan : x.isNaN = false) (hx : x.isFinite = false) :
    x.isInfinite = true := by
  simp only [isNaN, isFinite, isInfinite, decide_eq_false_iff_not, beq_iff_eq] at *
  omega

theorem mergeInfinities_of_not_isFinite (hnan : x.isNaN = false) (hx : x.isFinite = false) :
    x.mergeInfinities = infinite false := by
  rw [mergeInfinities, isInfinite_of_not_isFinite hnan hx, if_pos rfl]

end Double

namespace Datum

theorem number_of_isFinite (hx : x.isFinite = true) : number x = .float x := if_pos hx

theorem number_mergeInfinities (x : Double) : number x.mergeInfinities = number x := by
  rw [Double.mergeInfinities]
  split
  · next hinfinite =>
      have hfinite : x.isFinite = false := by
        simp only [Double.isInfinite, Double.isFinite, beq_iff_eq, decide_eq_false_iff_not] at *
        omega
      rw [number, number, hfinite]
      rfl
  · rfl

/-- Data keep numbers apart, except for the two infinities. -/
theorem mergeInfinities_eq_of_number (hx : x.isNaN = false) (hy : y.isNaN = false)
    (h : number x = number y) : x.mergeInfinities = y.mergeInfinities := by
  unfold number at h
  cases hfinite : x.isFinite with
  | true =>
      cases hfinite' : y.isFinite with
      | true =>
          rw [hfinite, hfinite', if_pos rfl, if_pos rfl] at h
          rw [Datum.float.inj h]
      | false =>
          rw [hfinite, hfinite', if_pos rfl, if_neg Bool.false_ne_true] at h
          cases h
  | false =>
      cases hfinite' : y.isFinite with
      | true =>
          rw [hfinite, hfinite', if_pos rfl, if_neg Bool.false_ne_true] at h
          cases h
      | false =>
          rw [Double.mergeInfinities_of_not_isFinite hx hfinite,
            Double.mergeInfinities_of_not_isFinite hy hfinite']

theorem eq_of_number (hx : x.isFinite = true) (hy : y.isFinite = true)
    (h : number x = number y) : x = y := by
  rw [number_of_isFinite hx, number_of_isFinite hy] at h
  exact Datum.float.inj h

end Datum

/-! ## Literals -/

/-- The bound with positive infinity in place of negative infinity. -/
def Bound.mergeInfinities : Bound → Bound
  | unbounded => unbounded
  | inclusive x => inclusive x.mergeInfinities
  | exclusive x => exclusive x.mergeInfinities

/-- The range with the infinities of its ends made one. -/
def NumericRange.mergeInfinities (r : NumericRange) : NumericRange :=
  ⟨r.lower.mergeInfinities, r.upper.mergeInfinities⟩

/-- The literal with the infinities of a range made one. -/
def Literal.mergeInfinities : Literal → Literal
  | numeric r => numeric r.mergeInfinities
  | other => other

theorem Bound.toDatum_mergeInfinities (b : Bound) : b.mergeInfinities.toDatum = b.toDatum := by
  cases b with
  | unbounded => rfl
  | inclusive x => rw [mergeInfinities, toDatum, toDatum, Datum.number_mergeInfinities]
  | exclusive x => rw [mergeInfinities, toDatum, toDatum, Datum.number_mergeInfinities]

theorem Literal.toDatum_mergeInfinities (l : Literal) : l.mergeInfinities.toDatum = l.toDatum := by
  cases l with
  | numeric r =>
      rw [mergeInfinities, toDatum, toDatum, NumericRange.mergeInfinities, NumericRange.entries,
        NumericRange.entries, Bound.toDatum_mergeInfinities, Bound.toDatum_mergeInfinities]
  | _ => rfl

theorem Bound.mergeInfinities_eq {a b : Bound} (ha : a.IsNumber) (hb : b.IsNumber)
    (h : a.toDatum = b.toDatum) : a.mergeInfinities = b.mergeInfinities := by
  cases a with
  | unbounded =>
      cases b with
      | unbounded => rfl
      | _ => simp [toDatum] at h
  | inclusive x =>
      cases b with
      | inclusive y =>
          simp only [toDatum, Datum.record.injEq, List.cons.injEq, Prod.mk.injEq, true_and,
            and_true] at h
          rw [mergeInfinities, Datum.mergeInfinities_eq_of_number ha hb h, mergeInfinities]
      | _ => simp [toDatum] at h
  | exclusive x =>
      cases b with
      | exclusive y =>
          simp only [toDatum, Datum.record.injEq, List.cons.injEq, Prod.mk.injEq, true_and,
            and_true] at h
          rw [mergeInfinities, Datum.mergeInfinities_eq_of_number ha hb h, mergeInfinities]
      | _ => simp [toDatum] at h

theorem TextMode.word_inj {a b : TextMode} (h : a.word = b.word) : a = b := by
  revert h
  cases a <;> cases b <;> decide

theorem TagMode.word_inj {a b : TagMode} (h : a.word = b.word) : a = b := by
  revert h
  cases a <;> cases b <;> decide

theorem GeoCircle.eq_of_entries {c d : GeoCircle} (hc : c.IsEncoded) (hd : d.IsEncoded)
    (h : c.entries = d.entries) : c = d := by
  simp only [entries, List.cons.injEq, Prod.mk.injEq, Datum.record.injEq, Datum.text.injEq,
    true_and, and_true] at h
  obtain ⟨⟨hlon, hlat⟩, hradius, hunit⟩ := h
  have hlon := Datum.eq_of_number hc.lon hd.lon hlon
  have hlat := Datum.eq_of_number hc.lat hd.lat hlat
  have hradius := Datum.eq_of_number hc.radius hd.radius hradius
  have hunit := unitWord_inj (congrArg String.toList hunit)
  obtain ⟨⟨lon, lat⟩, radius, unit⟩ := c
  simp only at hlon hlat hradius hunit
  rw [hlon, hlat, hradius, hunit]

namespace Literal

theorem mergeInfinities_eq {l m : Literal} (hl : l.IsEncoded) (hm : m.IsEncoded)
    (h : l.toDatum = m.toDatum) : l.mergeInfinities = m.mergeInfinities := by
  cases l with
  | text mode value =>
      cases m with
      | text mode' value' =>
          simp only [toDatum, Datum.record.injEq, List.cons.injEq, Prod.mk.injEq,
            Datum.text.injEq, true_and, and_true] at h
          rw [TextMode.word_inj h.1, h.2]
      | _ => simp [toDatum] at h
  | tag mode value =>
      cases m with
      | tag mode' value' =>
          simp only [toDatum, Datum.record.injEq, List.cons.injEq, Prod.mk.injEq,
            Datum.text.injEq, true_and, and_true] at h
          rw [TagMode.word_inj h.1, h.2]
      | _ => simp [toDatum] at h
  | numeric r =>
      cases m with
      | numeric r' =>
          simp only [toDatum, NumericRange.entries, Datum.record.injEq, List.cons.injEq,
            Prod.mk.injEq, true_and, and_true] at h
          have hlower := Bound.mergeInfinities_eq hl.lower hm.lower h.1
          have hupper := Bound.mergeInfinities_eq hl.upper hm.upper h.2
          rw [mergeInfinities, NumericRange.mergeInfinities, hlower, hupper]
          rfl
      | _ => simp [toDatum] at h
  | geo c =>
      cases m with
      | geo c' =>
          simp only [toDatum, Datum.record.injEq, List.cons.injEq, true_and] at h
          rw [GeoCircle.eq_of_entries hl hm h]
      | _ => simp [toDatum] at h
  | missing =>
      cases m with
      | missing => rfl
      | _ => simp [toDatum] at h

/-- Lists of literals are told apart one by one. -/
theorem map_mergeInfinities_eq {ls ms : List Literal} (hls : ∀ l ∈ ls, l.IsEncoded)
    (hms : ∀ m ∈ ms, m.IsEncoded) (h : ls.map toDatum = ms.map toDatum) :
    ls.map mergeInfinities = ms.map mergeInfinities :=
  map_eq_map_of_imp mergeInfinities mergeInfinities h fun l hl m hm heq =>
    mergeInfinities_eq (hls l hl) (hms m hm) heq

end Literal

/-! ## Searches for neighbours -/

theorem VectorElementType.word_inj {a b : VectorElementType} (h : a.word = b.word) : a = b := by
  revert h
  cases a <;> cases b <;> decide

theorem DistanceMetric.word_inj {a b : DistanceMetric} (h : a.word = b.word) : a = b := by
  revert h
  cases a <;> cases b <;> decide

theorem Datum.eq_of_orNull_number {a b : Option Double}
    (ha : ∀ bound, a = some bound → bound.isFinite = true)
    (hb : ∀ bound, b = some bound → bound.isFinite = true)
    (h : orNull number a = orNull number b) : a = b := by
  cases a with
  | none =>
      cases b with
      | none => rfl
      | some y =>
          rw [orNull, orNull, number_of_isFinite (hb y rfl)] at h
          cases h
  | some x =>
      cases b with
      | none =>
          rw [orNull, orNull, number_of_isFinite (ha x rfl)] at h
          cases h
      | some y => rw [eq_of_number (ha x rfl) (hb y rfl) h]

/-- A clause with finite numbers can be told from its data. -/
theorem KnnClause.eq_of_toDatum {f g : Field} {c d : KnnClause} (hc : c.IsEncoded f)
    (hd : d.IsEncoded g) (h : c.toDatum = d.toDatum) : c = d := by
  simp only [toDatum, Datum.nat, Datum.record.injEq, List.cons.injEq, Prod.mk.injEq,
    Datum.text.injEq, Datum.int.injEq, Datum.list.injEq, Int.natCast_inj, true_and, and_true] at h
  obtain ⟨hkey, hk, hvector, helement, hmetric, hthreshold⟩ := h
  have hvector : c.vector.map id = d.vector.map id := by
    refine map_eq_map_of_imp id id hvector fun x hx y hy hxy => ?_
    have hx := hc.vector x hx
    have hy := hd.vector y hy
    exact Single.toDouble_inj hx hy
      (Datum.eq_of_number (Single.isFinite_toDouble hx) (Single.isFinite_toDouble hy) hxy)
  rw [List.map_id, List.map_id] at hvector
  have helement := VectorElementType.word_inj helement
  have hmetric := DistanceMetric.word_inj hmetric
  have hthreshold := Datum.eq_of_orNull_number hc.threshold hd.threshold hthreshold
  cases c
  cases d
  simp only at hkey hk hvector helement hmetric hthreshold
  rw [hkey, hk, hvector, helement, hmetric, hthreshold]

/-! ## Trees -/

namespace Tree

mutual

/-- The tree with the infinities of its ranges made one. -/
def mergeInfinities : Tree → Tree
  | root => root
  | term key literal => term key literal.mergeInfinities
  | intersect children => intersect (mergeChildren children)
  | union key literals => union key (literals.map Literal.mergeInfinities)
  | negatedUnion key literals => negatedUnion key (literals.map Literal.mergeInfinities)
  | knn filter clause => knn filter.mergeInfinities clause

/-- The children of a conjunction with the infinities of their ranges made one. -/
def mergeChildren : List Tree → List Tree
  | [] => []
  | child :: rest => child.mergeInfinities :: mergeChildren rest

end

theorem mergeChildren_eq (children : List Tree) :
    mergeChildren children = children.map mergeInfinities := by
  induction children with
  | nil => rfl
  | cons child rest ih => rw [mergeChildren, ih, List.map_cons]

theorem childData_eq (children : List Tree) : childData children = children.map toDatum := by
  induction children with
  | nil => rfl
  | cons child rest ih => rw [childData, ih, List.map_cons]

/-- Literals are encoded, and clauses belong to a field. -/
inductive IsEncoded : Tree → Prop
  | root : IsEncoded root
  | term {key : String} {literal : Literal} (hliteral : literal.IsEncoded) :
      IsEncoded (term key literal)
  | intersect {children : List Tree} (hchildren : ∀ t ∈ children, IsEncoded t) :
      IsEncoded (intersect children)
  | union {key : String} {literals : List Literal} (hliterals : ∀ l ∈ literals, l.IsEncoded) :
      IsEncoded (union key literals)
  | negatedUnion {key : String} {literals : List Literal}
      (hliterals : ∀ l ∈ literals, l.IsEncoded) : IsEncoded (negatedUnion key literals)
  | knn {filter : Tree} {clause : KnnClause} (hfilter : IsEncoded filter) {f : Field}
      (hclause : clause.IsEncoded f) : IsEncoded (knn filter clause)

mutual

/-- Data do not tell the infinities apart. -/
theorem toDatum_mergeInfinities : ∀ t : Tree, t.mergeInfinities.toDatum = t.toDatum
  | root => rfl
  | term key literal => by
      rw [mergeInfinities, toDatum, toDatum, Literal.toDatum_mergeInfinities]
  | intersect children => by
      rw [mergeInfinities, toDatum, toDatum, childData_mergeChildren children]
  | union key literals => by
      simp only [mergeInfinities, toDatum, List.map_map, Function.comp_def,
        Literal.toDatum_mergeInfinities]
  | negatedUnion key literals => by
      simp only [mergeInfinities, toDatum, List.map_map, Function.comp_def,
        Literal.toDatum_mergeInfinities]
  | knn filter clause => by
      rw [mergeInfinities, toDatum, toDatum, toDatum_mergeInfinities filter]

theorem childData_mergeChildren :
    ∀ children : List Tree, childData (mergeChildren children) = childData children
  | [] => rfl
  | child :: rest => by
      rw [mergeChildren, childData, childData, toDatum_mergeInfinities child,
        childData_mergeChildren rest]

end

/-- Trees with the same data are the same up to the infinities. -/
theorem mergeInfinities_eq {t u : Tree} (ht : t.IsEncoded) (hu : u.IsEncoded)
    (h : t.toDatum = u.toDatum) : t.mergeInfinities = u.mergeInfinities := by
  induction ht generalizing u with
  | root =>
      cases hu with
      | root => rfl
      | _ => simp [toDatum] at h
  | term hliteral =>
      cases hu with
      | term hliteral' =>
          simp only [toDatum, Datum.record.injEq, List.cons.injEq, Prod.mk.injEq,
            Datum.text.injEq, true_and, and_true] at h
          rw [mergeInfinities, mergeInfinities, h.1,
            Literal.mergeInfinities_eq hliteral hliteral' h.2]
      | _ => simp [toDatum] at h
  | intersect hchildren ih =>
      cases hu with
      | intersect hchildren' =>
          simp only [toDatum, Datum.record.injEq, List.cons.injEq, Prod.mk.injEq,
            Datum.list.injEq, childData_eq, true_and, and_true] at h
          rw [mergeInfinities, mergeInfinities, mergeChildren_eq, mergeChildren_eq,
            map_eq_map_of_imp mergeInfinities mergeInfinities h
              fun t ht u hu heq => ih t ht (hchildren' u hu) heq]
      | _ => simp [toDatum] at h
  | union hliterals =>
      cases hu with
      | union hliterals' =>
          simp only [toDatum, Datum.record.injEq, List.cons.injEq, Prod.mk.injEq,
            Datum.text.injEq, Datum.list.injEq, true_and, and_true] at h
          rw [mergeInfinities, mergeInfinities, h.1,
            Literal.map_mergeInfinities_eq hliterals hliterals' h.2]
      | _ => simp [toDatum] at h
  | negatedUnion hliterals =>
      cases hu with
      | negatedUnion hliterals' =>
          simp only [toDatum, Datum.record.injEq, List.cons.injEq, Prod.mk.injEq,
            Datum.text.injEq, Datum.list.injEq, true_and, and_true] at h
          rw [mergeInfinities, mergeInfinities, h.1,
            Literal.map_mergeInfinities_eq hliterals hliterals' h.2]
      | _ => simp [toDatum] at h
  | knn hfilter hclause ih =>
      cases hu with
      | knn hfilter' hclause' =>
          simp only [toDatum, Datum.record.injEq, List.cons.injEq, Prod.mk.injEq, true_and,
            and_true] at h
          rw [mergeInfinities, mergeInfinities, ih hfilter' h.1,
            KnnClause.eq_of_toDatum hclause hclause' h.2]
      | _ => simp [toDatum] at h

/-- Data are the same exactly when the trees are, up to the infinities. -/
theorem toDatum_eq_iff {t u : Tree} (ht : t.IsEncoded) (hu : u.IsEncoded) :
    t.toDatum = u.toDatum ↔ t.mergeInfinities = u.mergeInfinities := by
  refine ⟨mergeInfinities_eq ht hu, fun h => ?_⟩
  rw [← toDatum_mergeInfinities t, h, toDatum_mergeInfinities u]

end Tree

/-! ## Texts -/

theorem Datum.holdsFinite_number (x : Double) : (Datum.number x).HoldsFinite := by
  unfold Datum.number
  split
  · next hx => exact .float hx
  · exact .null

theorem Bound.holdsFinite_toDatum (b : Bound) : b.toDatum.HoldsFinite := by
  cases b <;>
    exact .record (by simp [Datum.HoldsFinite.text, Datum.holdsFinite_number])

theorem Literal.holdsFinite_toDatum (l : Literal) : l.toDatum.HoldsFinite := by
  cases l with
  | text mode value => exact .record (by simp [Datum.HoldsFinite.text])
  | tag mode value => exact .record (by simp [Datum.HoldsFinite.text])
  | numeric range =>
      exact .record (by
        simp [NumericRange.entries, Datum.HoldsFinite.text, Bound.holdsFinite_toDatum])
  | geo circle =>
      have hcenter : (Datum.record [("lon", .number circle.center.lon),
          ("lat", .number circle.center.lat)]).HoldsFinite :=
        .record (by simp [Datum.holdsFinite_number])
      exact .record (by
        simp [GeoCircle.entries, Datum.HoldsFinite.text, Datum.holdsFinite_number, hcenter])
  | missing => exact .record (by simp [Datum.HoldsFinite.text])

theorem Literal.holdsFinite_list (ls : List Literal) :
    (Datum.list (ls.map Literal.toDatum)).HoldsFinite := by
  refine .list fun d hd => ?_
  obtain ⟨l, _, rfl⟩ := List.mem_map.mp hd
  exact l.holdsFinite_toDatum

theorem KnnClause.holdsFinite_toDatum (c : KnnClause) : c.toDatum.HoldsFinite := by
  have hvector : (Datum.list (c.vector.map fun x => .number x.toDouble)).HoldsFinite := by
    refine .list fun d hd => ?_
    obtain ⟨x, _, rfl⟩ := List.mem_map.mp hd
    exact Datum.holdsFinite_number _
  have hthreshold : (Datum.orNull .number c.threshold).HoldsFinite := by
    cases c.threshold with
    | none => exact .null
    | some bound => exact Datum.holdsFinite_number bound
  exact .record (by simp [Datum.nat, Datum.HoldsFinite.text, Datum.HoldsFinite.int, hvector,
    hthreshold])

namespace Tree

mutual

/-- The data of a tree can be written as JSON. -/
theorem holdsFinite_toDatum : ∀ t : Tree, t.toDatum.HoldsFinite
  | root => .record (by simp [Datum.HoldsFinite.text])
  | term key literal =>
    .record (by simp [Datum.HoldsFinite.text, literal.holdsFinite_toDatum])
  | intersect children =>
    .record (by
      simp [Datum.HoldsFinite.text, Datum.HoldsFinite.list (holdsFinite_childData children)])
  | union key literals =>
    .record (by simp [Datum.HoldsFinite.text, Literal.holdsFinite_list])
  | negatedUnion key literals =>
    .record (by simp [Datum.HoldsFinite.text, Literal.holdsFinite_list])
  | knn filter clause =>
    .record (by
      simp [Datum.HoldsFinite.text, holdsFinite_toDatum filter, clause.holdsFinite_toDatum])

theorem holdsFinite_childData : ∀ children : List Tree, ∀ d ∈ childData children, d.HoldsFinite
  | [] => by simp [childData]
  | child :: rest =>
    List.forall_mem_cons.mpr ⟨holdsFinite_toDatum child, holdsFinite_childData rest⟩

end

end Tree

/-! ## Compiled trees -/

theorem Tree.isEncoded_ofLeaves {xs : List Tree} (hx : ∀ t ∈ xs, t.IsEncoded) :
    (ofLeaves xs).IsEncoded := by
  match xs, hx with
  | [], _ => exact .root
  | [x], hx => exact hx x (List.mem_singleton_self x)
  | x :: y :: xs, hx => exact .intersect hx

namespace Predicate

open IndexQuery.Tree

theorem isEncoded_of_isReturned {f : Field} {p : Predicate} (hp : IsReturned f p) :
    p.criterion.IsEncoded p.field := by
  obtain ⟨condition, hof⟩ := hp.exists_condition
  obtain ⟨rfl, hencoded⟩ := isEncoded_of hof
  exact hencoded

variable {ps qs : List Predicate}

theorem isEncoded_compile (hps : ∀ p ∈ ps, ∃ f, IsReturned f p) : (compile ps).IsEncoded := by
  have hcriterion : ∀ p ∈ ps, p.criterion.IsEncoded p.field := fun p hp => by
    obtain ⟨f, hreturned⟩ := hps p hp
    exact isEncoded_of_isReturned hreturned
  have hleaves : ∀ t ∈ ps.flatMap leaves, t.IsEncoded := by
    intro t ht
    obtain ⟨p, hp, ht⟩ := List.mem_flatMap.mp ht
    cases encodedLeaf_of_mem (hcriterion p hp) ht with
    | term _ hl => exact .term hl
    | union _ _ hls => exact .union hls
    | negatedUnion _ _ hls => exact .negatedUnion hls
  rw [compile_eq_ofParts]
  cases hclause : lastClause ps with
  | none => exact isEncoded_ofLeaves hleaves
  | some clause =>
      obtain ⟨p, hp, hclause⟩ := List.mem_filterMap.mp (List.mem_of_getLast? hclause)
      exact .knn (isEncoded_ofLeaves hleaves) (isEncoded_of_clause? (hcriterion p hp) hclause)

/-- Compiled trees are written alike, as data or as JSON text of either form, exactly when they are
the same up to the infinities of their ranges. -/
theorem dump_determines_tree_up_to_infinities (hps : ∀ p ∈ ps, ∃ f, IsReturned f p)
    (hqs : ∀ q ∈ qs, ∃ f, IsReturned f q) :
    ((compile ps).toDatum = (compile qs).toDatum ↔
        (compile ps).mergeInfinities = (compile qs).mergeInfinities) ∧
      ((compile ps).toDatum.compact = (compile qs).toDatum.compact ↔
        (compile ps).mergeInfinities = (compile qs).mergeInfinities) ∧
      ((compile ps).toDatum.pretty = (compile qs).toDatum.pretty ↔
        (compile ps).mergeInfinities = (compile qs).mergeInfinities) := by
  have hdata := toDatum_eq_iff (isEncoded_compile hps) (isEncoded_compile hqs)
  have hfinite := holdsFinite_toDatum (compile ps)
  have hfinite' := holdsFinite_toDatum (compile qs)
  refine ⟨hdata, ⟨fun h => ?_, fun h => ?_⟩, ⟨fun h => ?_, fun h => ?_⟩⟩
  · exact hdata.mp (Datum.compact_inj hfinite hfinite' h)
  · rw [hdata.mpr h]
  · exact hdata.mp (Datum.pretty_inj hfinite hfinite' h)
  · rw [hdata.mpr h]

/-- Two trees with a range from an infinity and a search for neighbours; the signs of the zeros in
the vectors tell them apart, the signs of the infinities do not. -/
theorem dump_determines_tree_signs :
    let age : Field := ⟨"age", "age", .numeric, false, by decide, by decide, by decide⟩
    let place : Field := ⟨"place", "place", .vector { dimension := 2 }, false,
      by decide, by decide, by decide⟩
    let old (negative : Bool) : Predicate := ⟨age, .greaterThanOrEqual,
      .term (.numeric (.atLeast (Double.infinite negative)))⟩
    let near (bits : UInt32) : Predicate := ⟨place, .vectorSimilarity,
      .nearest ⟨"place", 3, [⟨bits⟩, ⟨1⟩], .float32, .l2, none⟩⟩
    (∀ p ∈ [old true, near 0], ∃ f, IsReturned f p) ∧
      (∀ q ∈ [old false, near 0x80000000], ∃ f, IsReturned f q) ∧
      (compile [old true, near 0]).toDatum ≠ (compile [old false, near 0x80000000]).toDatum ∧
      (compile [old true, near 0]).toDatum.compact
        ≠ (compile [old false, near 0x80000000]).toDatum.compact ∧
      (compile [old true, near 0]).toDatum.pretty
        ≠ (compile [old false, near 0x80000000]).toDatum.pretty := by
  intro age place old near
  have hold : ∀ negative, IsReturned age (old negative) := fun negative =>
    .condition (.atLeast (.float (Double.infinite negative))) (by cases negative <;> rfl)
  have hplus : IsReturned place (near 0) := .condition (.nearest (.vector [⟨0⟩, ⟨1⟩]) 3 none) rfl
  have hminus : IsReturned place (near 0x80000000) :=
    .condition (.nearest (.vector [⟨0x80000000⟩, ⟨1⟩]) 3 none) rfl
  have hps : ∀ p ∈ [old true, near 0], ∃ f, IsReturned f p := by
    intro p hp
    simp only [List.mem_cons, List.not_mem_nil, or_false] at hp
    rcases hp with rfl | rfl
    · exact ⟨age, hold true⟩
    · exact ⟨place, hplus⟩
  have hqs : ∀ q ∈ [old false, near 0x80000000], ∃ f, IsReturned f q := by
    intro q hq
    simp only [List.mem_cons, List.not_mem_nil, or_false] at hq
    rcases hq with rfl | rfl
    · exact ⟨age, hold false⟩
    · exact ⟨place, hminus⟩
  have hne : (compile [old true, near 0]).mergeInfinities
      ≠ (compile [old false, near 0x80000000]).mergeInfinities := by
    intro h
    have hclause := (Tree.knn.inj h).2
    have hvector := congrArg KnnClause.vector hclause
    revert hvector
    decide
  obtain ⟨hdata, hcompact, hpretty⟩ := dump_determines_tree_up_to_infinities hps hqs
  exact ⟨hps, hqs, fun h => hne (hdata.mp h), fun h => hne (hcompact.mp h),
    fun h => hne (hpretty.mp h)⟩

/-- The ranges above either infinity are different, but they are written alike. -/
theorem infinite_bounds_written_alike :
    let age : Field := ⟨"age", "age", .numeric, false, by decide, by decide, by decide⟩
    let above (negative : Bool) : Predicate := ⟨age, .greaterThan,
      .term (.numeric (.greaterThan (Double.infinite negative)))⟩
    of age (.greaterThan (.float (Double.infinite false))) = .ok (above false) ∧
      of age (.greaterThan (.float (Double.infinite true))) = .ok (above true) ∧
      (compile [above false]).toDatum = (compile [above true]).toDatum ∧
      (compile [above false]).toDatum.compact = (compile [above true]).toDatum.compact ∧
      (compile [above false]).toDatum.pretty = (compile [above true]).toDatum.pretty ∧
      compile [above false] ≠ compile [above true] ∧
      (compile [above false]).same (compile [above true]) = false := by
  intro age above
  have hdata : (compile [above false]).toDatum = (compile [above true]).toDatum := rfl
  refine ⟨rfl, rfl, hdata, by rw [hdata], by rw [hdata], fun h => ?_, by decide +kernel⟩
  have hbound := Bound.exclusive.inj
    (congrArg NumericRange.lower (Literal.numeric.inj (Tree.term.inj h).2))
  revert hbound
  decide

end Predicate

end IndexQuery

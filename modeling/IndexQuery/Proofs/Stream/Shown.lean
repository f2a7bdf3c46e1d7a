import IndexQuery.Proofs.Number.Stored
import IndexQuery.Proofs.Stream.Steps
import IndexQuery.Proofs.Text.Utf8
set_option autoImplicit false

/-! # Shown commands

A command is shown argument by argument, texts as they are. The only argument that is not a text is
the vector of a search for neighbours. Its octets are counted only if they are not what some text is
written as (`describe_octets_eq_iff`); other vectors, among them those of zeros, are shown as the
text that their octets happen to be. The main statement is `vector_counted_unless_text`. -/

namespace IndexQuery

open Text (utf8)

/-! ## Shown octets -/

/-- How octets are counted. -/
def countText (n : Nat) : String := s!"<{n} bytes>"

namespace Argument

variable {bs : List UInt8}

theorem describe_octets_of_text {t : String} (h : bs = utf8 t) : (octets bs).describe = t := by
  have hdecode := Text.decodeUtf8?_eq_some_toList_iff.mpr h
  simp only [describe, hdecode, String.ofList_toList]

theorem describe_octets_of_no_text (h : ∀ t, bs ≠ utf8 t) :
    (octets bs).describe = countText bs.length := by
  have hdecode := Text.decodeUtf8?_eq_none_iff.mpr h
  simp only [describe, hdecode]
  rfl

end Argument

theorem toList_countText (n : Nat) :
    (countText n).toList = '<' :: Nat.toDigits 10 n ++ " bytes>".toList := by
  have happend : countText n = "<" ++ toString n ++ " bytes>" := rfl
  rw [happend, String.toList_append, String.toList_append, Nat.toString_eq_repr, Nat.toList_repr]
  rfl

theorem length_utf8_countText (n : Nat) :
    (utf8 (countText n)).length = (Nat.toDigits 10 n).length + 8 := by
  have hascii : ∀ c ∈ (countText n).toList, c.toNat < 128 := by
    intro c hc
    rw [toList_countText, List.cons_append, List.mem_cons, List.mem_append] at hc
    rcases hc with rfl | hdigit | hending
    · decide
    · have hrange := Nat.isDigit_of_mem_toDigits (by decide) (by decide) hdigit
      rw [Char.isDigit, Bool.and_eq_true, decide_eq_true_eq, decide_eq_true_eq] at hrange
      exact Nat.lt_of_le_of_lt (UInt32.le_iff_toNat_le.mp hrange.2) (by decide)
    · exact (by simp : ∀ c ∈ " bytes>".toList, c.toNat < 128) c hending
  rw [Text.length_utf8_of_ascii hascii, toList_countText]
  simp

/-- The text of a count is never as long as the octets it counts, if these come in fours. -/
theorem length_utf8_countText_ne {n : Nat} (hn : 4 ∣ n) : (utf8 (countText n)).length ≠ n := by
  rw [length_utf8_countText]
  intro hlength
  have hpos : 0 < (Nat.toDigits 10 n).length := Nat.length_toDigits_pos
  generalize hdigits : (Nat.toDigits 10 n).length = digits at hlength hpos
  -- a number of three digits or more is larger than their count by more than eight
  have hfew : digits ≤ 2 := by
    by_contra hmany
    obtain ⟨k, rfl⟩ : ∃ k, digits = k + 3 := ⟨digits - 3, by omega⟩
    have hlarge : 10 ^ (k + 2) ≤ n := by
      by_contra hsmall
      have := (Nat.length_toDigits_le_iff (by decide) (Nat.succ_pos _)).mpr (Nat.lt_of_not_le hsmall)
      omega
    have hpower : k < 10 ^ k := Nat.lt_pow_self (by decide)
    have hsplit : 10 ^ (k + 2) = 10 ^ k * 100 := Nat.pow_add 10 k 2
    omega
  omega

/-- Octets are counted exactly when no text is written as them. -/
theorem Argument.describe_octets_eq_iff {bs : List UInt8} (hbs : 4 ∣ bs.length) :
    (octets bs).describe = countText bs.length ↔ ∀ t, bs ≠ utf8 t := by
  refine ⟨fun hcount t ht => ?_, Argument.describe_octets_of_no_text⟩
  have hcounted : bs = utf8 (countText bs.length) := by
    rw [← hcount, Argument.describe_octets_of_text ht]
    exact ht
  exact length_utf8_countText_ne hbs (congrArg List.length hcounted).symm

/-! ## Commands with a vector -/

namespace Command

open Argument (text octets)

/-- The command has one argument that is not a text, the parameter of the search; it is shown as
given, and all other arguments are shown as they are. -/
def ShowsVector (config : SearchConfig) (blob : List UInt8) (shown : String) (c : Command) : Prop :=
  ∃ front back : List String,
    c = (front ++ ["PARAMS", "2", config.vectorParam]).map text ++ octets blob :: back.map text ∧
    c.describe = front ++ ["PARAMS", "2", config.vectorParam] ++ shown :: back

variable {config : SearchConfig} {clause : KnnClause} {tree : Tree}

theorem describe_texts (texts : List String) : describe (texts.map text) = texts := by
  rw [describe, List.map_map]
  exact List.map_id' texts

theorem showsVector {blob : List UInt8} (front back : List String) :
    ShowsVector config blob (octets blob).describe
      ((front ++ ["PARAMS", "2", config.vectorParam]).map text ++ octets blob :: back.map text) := by
  refine ⟨front, back, rfl, ?_⟩
  have hfront := describe_texts (front ++ ["PARAMS", "2", config.vectorParam])
  have hback := describe_texts back
  unfold describe at *
  rw [List.map_append, List.map_cons, hfront, hback]

/-- The sort part consists of texts. -/
theorem exists_texts_sortPart (tree : Tree) (sort : Option SearchSort) (config : SearchConfig) :
    ∃ texts : List String, sortPart tree sort config = texts.map text := by
  unfold sortPart
  cases sort with
  | some key => exact ⟨["SORTBY", key.key, key.order.keyword], rfl⟩
  | none =>
      cases tree.clause? with
      | some clause => exact ⟨["SORTBY", config.scoreField, SortOrder.asc.keyword], rfl⟩
      | none => exact ⟨[], rfl⟩

theorem paramPart_of_clause (htree : tree.clause? = some clause) :
    paramPart (tree.rendered config).params
      = ["PARAMS", "2", config.vectorParam].map text ++ [octets clause.blob] := by
  have htwo : toString (2 * 1) = "2" := by decide
  rw [Tree.params_rendered, htree]
  simp [paramPart, Argument.nat, htwo]

theorem search_showsVector (htree : tree.clause? = some clause) (index : String)
    (sort : Option SearchSort) (page : Page) :
    ShowsVector config clause.blob (octets clause.blob).describe
      (search index tree sort page config) := by
  obtain ⟨sortTexts, hsort⟩ := exists_texts_sortPart tree sort config
  have hblocks : search index tree sort page config
      = (["FT.SEARCH", index, (tree.rendered config).query] ++ sortTexts
          ++ ["LIMIT", toString page.offset, toString page.size]
          ++ ["PARAMS", "2", config.vectorParam]).map text
        ++ octets clause.blob :: ["DIALECT", toString config.dialect].map text := by
    rw [search, hsort, paramPart_of_clause htree]
    simp [pagePart, Argument.nat]
  rw [hblocks]
  exact showsVector _ _

theorem count_showsVector (htree : tree.clause? = some clause) (index : String) :
    ShowsVector config clause.blob (octets clause.blob).describe (count index tree config) := by
  have hblocks : count index tree config
      = (["FT.SEARCH", index, (tree.rendered config).query] ++ ["LIMIT", "0", "0"]
          ++ ["PARAMS", "2", config.vectorParam]).map text
        ++ octets clause.blob :: ["DIALECT", toString config.dialect].map text := by
    rw [count, paramPart_of_clause htree]
    rfl
  rw [hblocks]
  exact showsVector _ _

end Command

/-! ## Vectors of predicates -/

namespace SearchStream

open Command (ShowsVector)

/-- An accepted search for neighbours has the vector it was given, in the format of its field. -/
theorem criterion_of_nearest {f : Field} {v : Operand} {k : Nat} {threshold : Option Double}
    {p : Predicate} (hp : Predicate.of f (.nearest v k threshold) = .ok p) :
    ∃ params xs clause, f.vectorParams = some params ∧ v = .vector xs ∧
      xs.length = params.dimension ∧ p.criterion = .nearest clause ∧
      clause.blob = vectorBlob xs params.elementType := by
  obtain ⟨-, -, hcriterion⟩ := Predicate.of_eq_ok hp
  rw [Predicate.criterionOf] at hcriterion
  split at hcriterion
  · cases hcriterion
  · obtain ⟨clause, hclause, hnearest⟩ := map_eq_ok hcriterion
    obtain ⟨params, xs, hparams, rfl, rfl, hlength, -⟩ := Encoding.knnClause_eq_ok hclause
    exact ⟨params, xs, _, hparams, rfl, hlength, hnearest.symm, rfl⟩

/-- A stream searches for the neighbours that its last such predicate asks for. -/
theorem clause?_compile_of_last {s : SearchStream} {p : Predicate} {before after : List Predicate}
    {clause : KnnClause} (hs : s.predicates = before ++ p :: after)
    (hafter : ∀ q ∈ after, q.clause? = none) (hp : p.criterion = .nearest clause) :
    s.compile.clause? = some clause := by
  have hclause : p.clause? = some clause := by rw [Predicate.clause?, hp]
  have hnone : after.filterMap Predicate.clause? = [] := List.filterMap_eq_nil_iff.mpr hafter
  rw [compile, Predicate.clause?_compile, hs, Predicate.lastClause, List.filterMap_append,
    List.filterMap_cons_some hclause, hnone, List.getLast?_append]
  rfl

/-- In both commands of a stream whose last search for neighbours was accepted, the vector is the
only argument that is not shown as it is. Its octets are as many as the dimension and the format
say, and they are counted unless they are what some text is written as; then that text is shown. -/
theorem vector_counted_unless_text {f : Field} {v : Operand} {k : Nat} {threshold : Option Double}
    {p : Predicate} (hp : Predicate.of f (.nearest v k threshold) = .ok p) {s : SearchStream}
    {before after : List Predicate} (hs : s.predicates = before ++ p :: after)
    (hafter : ∀ q ∈ after, q.clause? = none) (config : SearchConfig) :
    ∃ params xs shown, f.vectorParams = some params ∧ v = .vector xs ∧
      (s.command config).ShowsVector config (vectorBlob xs params.elementType) shown ∧
      (s.countCommand config).ShowsVector config (vectorBlob xs params.elementType) shown ∧
      (shown = countText (params.dimension * params.elementType.byteWidth) ↔
        ∀ t, vectorBlob xs params.elementType ≠ utf8 t) ∧
      ∀ t, vectorBlob xs params.elementType = utf8 t → shown = t := by
  obtain ⟨params, xs, clause, hparams, rfl, hlength, hcriterion, hblob⟩ := criterion_of_nearest hp
  have hclause := clause?_compile_of_last hs hafter hcriterion
  have hsearch : (s.command config).ShowsVector config clause.blob _ :=
    Command.search_showsVector hclause _ _ _
  have hcount : (s.countCommand config).ShowsVector config clause.blob _ :=
    Command.count_showsVector hclause _
  have hoctets := length_vectorBlob xs params.elementType
  have hfours : 4 ∣ (vectorBlob xs params.elementType).length := by
    rw [hoctets]
    cases params.elementType with
    | float32 => exact Nat.dvd_mul_left 4 _
    | float64 => exact Nat.dvd_trans (by decide : 4 ∣ 8) (Nat.dvd_mul_left 8 _)
  rw [hblob] at hsearch hcount
  refine ⟨params, xs, _, hparams, rfl, hsearch, hcount, ?_,
    fun t ht => Argument.describe_octets_of_text ht⟩
  rw [← hlength, ← hoctets]
  exact Argument.describe_octets_eq_iff hfours

/-- The octets of a vector of ones are no text. -/
theorem vector_counted_unless_text_ones :
    let place : Field := ⟨"place", "place", .vector { dimension := 2 }, false,
      by decide, by decide, by decide⟩
    let one : Single := ⟨0x3F800000⟩
    let near : Predicate :=
      ⟨place, .vectorSimilarity, .nearest ⟨"place", 1, [one, one], .float32, .l2, none⟩⟩
    let s : SearchStream := { schema := ⟨"people", "id", [place]⟩, predicates := [near] }
    Predicate.of place (.nearest (.vector [one, one]) 1 none) = .ok near ∧
      (s.command .default).ShowsVector .default [0, 0, 0x80, 0x3F, 0, 0, 0x80, 0x3F] "<8 bytes>" ∧
      (s.countCommand .default).ShowsVector .default [0, 0, 0x80, 0x3F, 0, 0, 0x80, 0x3F]
        "<8 bytes>" := by
  intro place one near s
  have hnear : Predicate.of place (.nearest (.vector [one, one]) 1 none) = .ok near := rfl
  have hblob : vectorBlob [one, one] .float32 = [0, 0, 0x80, 0x3F, 0, 0, 0x80, 0x3F] := by decide
  have hnone : ∀ t, vectorBlob [one, one] .float32 ≠ utf8 t :=
    Text.decodeUtf8?_eq_none_iff.mp (by decide)
  have honly : s.predicates = [] ++ near :: [] := rfl
  have hlast : ∀ q ∈ ([] : List Predicate), q.clause? = none := by simp
  obtain ⟨params, xs, shown, hparams, hvector, hsearch, hcount, hcounted, -⟩ :=
    vector_counted_unless_text hnear honly hlast .default
  cases Option.some.inj hparams
  cases Operand.vector.inj hvector
  rw [hcounted.mpr hnone, hblob] at hsearch
  rw [hcounted.mpr hnone, hblob] at hcount
  exact ⟨hnear, hsearch, hcount⟩

/-- The octets of a vector of zeros are a text of zeros, and shown as such. -/
theorem zero_vector_shown_as_text :
    let place : Field := ⟨"place", "place", .vector { dimension := 2 }, false,
      by decide, by decide, by decide⟩
    let zeros := String.ofList (List.replicate 8 (Char.ofNat 0))
    ∃ near, Predicate.of place (.nearest (.vector [⟨0⟩, ⟨0⟩]) 1 none) = .ok near ∧
      (SearchStream.command { schema := ⟨"people", "id", [place]⟩, predicates := [near] }
          .default).describe
        = ["FT.SEARCH", "people", "(*)=>[KNN 1 @place $vector_blob AS __score]", "SORTBY",
            "__score", "ASC", "LIMIT", "0", "25", "PARAMS", "2", "vector_blob", zeros, "DIALECT",
            "3"] ∧
      zeros ≠ countText (2 * VectorElementType.byteWidth .float32) := by
  intro place zeros
  refine ⟨⟨place, .vectorSimilarity, .nearest ⟨"place", 1, [⟨0⟩, ⟨0⟩], .float32, .l2, none⟩⟩, rfl,
    ?_, ?_⟩
  · decide +kernel
  · decide +kernel

end SearchStream

end IndexQuery

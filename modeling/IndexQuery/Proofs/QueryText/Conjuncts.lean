import IndexQuery.Proofs.Compilation.Meaning
import IndexQuery.Proofs.QueryText.Literals
set_option autoImplicit false

/-! # Conditions in the grammar

A condition of a tree is a conjunct of the grammar of queries, and the text of a tree in normal form
is the text of its conjuncts (`text_ofLeaves`, `knnText_ofLeaves`). Alternatives that are all exact
tags are one atom, a set of tags; all other alternatives are an atom each. Conditions that are the
same conjunct accept the same documents (`accepts_of_conjunct`). -/

namespace IndexQuery.QueryText

open Matching IndexQuery.Tree

/-! ## Keys -/

theorem isIdentifierPart_of_mem {key : List Char} (hkey : isIdentifier key = true) :
    ∀ c ∈ key, isIdentifierPart c = true := by
  cases key with
  | nil => simp
  | cons first rest =>
      simp only [isIdentifier, Bool.and_eq_true, List.all_eq_true] at hkey
      intro c hc
      rcases List.mem_cons.mp hc with rfl | hc
      · have hstart := hkey.1
        simp only [isIdentifierStart, isIdentifierPart, Char.isAlphanum, Bool.or_eq_true]
          at hstart ⊢
        rcases hstart with (h | h) | h
        · exact .inl (.inl (.inl (.inl h)))
        · exact .inl (.inl (.inr h))
        · exact .inr h
      · exact hkey.2 c hc

/-- An index identifier has no character that ends a key. -/
theorem isKey_of_isIdentifier {key : List Char} (hkey : isIdentifier key = true) :
    Atom.IsKey key := by
  intro c hc
  have hpart := isIdentifierPart_of_mem hkey c hc
  have hends : ∀ c ∈ ['\\', ':', ')', ' '], isIdentifierPart c = false := by
    simp [isIdentifierPart]
  have hnot : c ∉ ['\\', ':', ')', ' '] := by
    intro hmem
    rw [hends c hmem] at hpart
    cases hpart
  exact .inr ⟨fun h => hnot (h ▸ List.mem_cons_self), fun h => hnot (List.mem_cons_of_mem _ h)⟩

/-! ## Alternatives -/

/-- Alternatives on a key in the grammar. -/
def atoms (key : List Char) (ls : List Literal) : List Atom :=
  match ls.mapM exactTag? with
  | some tags => [.field key (.tags (tags.map (markedTag .exact)))]
  | none => ls.map (atom key)

theorem exactTag?_eq_some {l : Literal} {s : List Char} (h : exactTag? l = some s) :
    l = .tag .exact (String.ofList s) := by
  unfold exactTag? at h
  split at h
  · cases Option.some.inj h
    rw [String.ofList_toList]
  · cases h

/-- Alternatives that are all exact tags are determined by the tags. -/
theorem eq_of_mapM_exactTag? {ls : List Literal} {tags : List (List Char)}
    (h : ls.mapM exactTag? = some tags) :
    ls = tags.map fun s => .tag .exact (String.ofList s) := by
  induction ls generalizing tags with
  | nil =>
      rw [List.mapM_nil] at h
      cases Option.some.inj h
      rfl
  | cons l ls ih =>
      rw [List.mapM_cons] at h
      obtain ⟨s, hs, hrest⟩ := Option.bind_eq_some_iff.mp h
      obtain ⟨rest, htail, hcons⟩ := Option.bind_eq_some_iff.mp hrest
      cases Option.some.inj hcons
      rw [List.map_cons, ← ih htail, exactTag?_eq_some hs]

theorem write_tags (key : List Char) (tags : List (List Char)) :
    (Atom.field key (.tags (tags.map (markedTag .exact)))).write
      = fieldRef key ++ ':' :: tagSet (tags.map escapeTag) := by
  show fieldRef key ++ ':' ::
      tagSet ((tags.map (markedTag .exact)).map (Marked.write tagSpecial)) = _
  have hwrite : (tags.map (markedTag .exact)).map (Marked.write tagSpecial)
      = tags.map escapeTag := by
    rw [List.map_map]
    exact List.map_congr_left fun s _ => write_markedTag .exact s
  rw [hwrite]

theorem map_write_atom (key : String) (ls : List Literal) :
    (ls.map (atom key.toList)).map Atom.write = ls.map (term key) := by
  rw [List.map_map]
  exact List.map_congr_left fun l _ => write_atom key l

/-- A single literal is an alternative to nothing. -/
theorem atoms_singleton (key : List Char) (l : Literal) : atoms key [l] = [atom key l] := by
  unfold atoms
  cases htag : exactTag? l with
  | none => simp [htag]
  | some s =>
      have hl := exactTag?_eq_some htag
      subst hl
      simp [exactTag?, atom]

theorem writeAtoms_atoms {key : String} {ls : List Literal} (hne : ls ≠ []) :
    Conjunct.writeAtoms (atoms key.toList ls) = alternatives key ls := by
  match ls, hne with
  | [l], _ =>
      rw [atoms_singleton]
      exact write_atom key l
  | l :: l' :: rest, _ =>
      unfold atoms alternatives
      cases (l :: l' :: rest).mapM exactTag? with
      | some tags => exact write_tags key.toList tags
      | none =>
          show '(' :: ['|'].intercalate
            (((l :: l' :: rest).map (atom key.toList)).map Atom.write) ++ [')'] = _
          rw [map_write_atom]

theorem isValid_atoms {key : List Char} (hkey : Atom.IsKey key) {ls : List Literal}
    (hne : ls ≠ []) (hls : ∀ l ∈ ls, l.IsEncoded) :
    atoms key ls ≠ [] ∧ ∀ a ∈ atoms key ls, a.IsValid := by
  unfold atoms
  cases htags : ls.mapM exactTag? with
  | some tags =>
      refine ⟨List.cons_ne_nil _ _, fun a ha => ?_⟩
      rw [List.mem_singleton.mp ha]
      refine ⟨hkey, ?_, fun t ht => ?_⟩
      · intro hnil
        have hnil : tags = [] := List.map_eq_nil_iff.mp hnil
        rw [hnil] at htags
        exact hne (eq_of_mapM_exactTag? htags)
      · obtain ⟨s, _, rfl⟩ := List.mem_map.mp ht
        exact isValid_markedTag (.inl rfl)
  | none =>
      refine ⟨fun hnil => hne (List.map_eq_nil_iff.mp hnil), fun a ha => ?_⟩
      obtain ⟨l, hl, rfl⟩ := List.mem_map.mp ha
      exact isValid_atom hkey (hls l hl)

/-- Lists whose images agree item by item also agree in what the images determine. -/
theorem map_eq_map_of_imp {α β γ δ : Type} {f : α → γ} {g : β → γ} (f' : α → δ) (g' : β → δ)
    {xs : List α} {ys : List β} (h : xs.map f = ys.map g)
    (himp : ∀ x ∈ xs, ∀ y ∈ ys, f x = g y → f' x = g' y) : xs.map f' = ys.map g' := by
  induction xs generalizing ys with
  | nil =>
      cases ys with
      | nil => rfl
      | cons y ys => cases h
  | cons x xs ih =>
      cases ys with
      | nil => cases h
      | cons y ys =>
          obtain ⟨hhead, htail⟩ := List.cons.inj h
          rw [List.map_cons, List.map_cons,
            himp x List.mem_cons_self y List.mem_cons_self hhead,
            ih htail fun x hx y hy =>
              himp x (List.mem_cons_of_mem _ hx) y (List.mem_cons_of_mem _ hy)]

/-- A set of exact tags is not the atom of a single literal that is no exact tag. -/
theorem atoms_ne_tags {key key' : List Char} {ls : List Literal} {tags : List (List Char)}
    (hls : ls.mapM exactTag? = none) :
    ls.map (atom key) ≠ [.field key' (.tags (tags.map (markedTag .exact)))] := by
  intro h
  obtain ⟨l, rest, rfl, hatom, hrest⟩ := List.map_eq_cons_iff.mp h
  rw [List.map_eq_nil_iff.mp hrest] at hls
  -- of the single literals only tags are sets, and of these only exact ones have no marks
  obtain ⟨mode, value, rfl, htags⟩ := atom_eq_tags hatom
  obtain ⟨s, _, _, hmarked, _⟩ := List.map_eq_cons_iff.mp htags.symm
  obtain ⟨rfl, _⟩ := markedTag_inj hmarked
  simp [exactTag?] at hls

/-- Alternatives with the same atoms are met by the same documents. -/
theorem any_of_atoms {key key' : String} {ls ls' : List Literal} (hls : ∀ l ∈ ls, l.IsEncoded)
    (hls' : ∀ l ∈ ls', l.IsEncoded) (h : atoms key.toList ls = atoms key'.toList ls') (d : Datum) :
    ls.any (termMatches key · d) = ls'.any (termMatches key' · d) := by
  unfold atoms at h
  cases htags : ls.mapM exactTag? with
  | some tags =>
      cases htags' : ls'.mapM exactTag? with
      | some tags' =>
          -- two sets of tags: the tags are the alternatives
          rw [htags, htags'] at h
          obtain ⟨hkey, hcomparand⟩ := Atom.field.inj (List.cons.inj h).1
          have hsame : tags = tags' := by
            have hmap := map_eq_map_of_imp id id (Comparand.tags.inj hcomparand)
              fun s _ t _ hst => (markedTag_inj hst).2
            rwa [List.map_id, List.map_id] at hmap
          rw [eq_of_mapM_exactTag? htags, eq_of_mapM_exactTag? htags', hsame,
            String.toList_inj.mp hkey]
      | none =>
          rw [htags, htags'] at h
          exact absurd h.symm (atoms_ne_tags htags')
  | none =>
      cases htags' : ls'.mapM exactTag? with
      | some tags' =>
          rw [htags, htags'] at h
          exact absurd h (atoms_ne_tags htags)
      | none =>
          -- two groups: the alternatives agree one by one
          rw [htags, htags'] at h
          have hmatches := map_eq_map_of_imp (termMatches key · d) (termMatches key' · d) h
            fun l hl l' hl' hatom => termMatches_of_atom (hls l hl) (hls' l' hl') hatom d
          have hany := congrArg (List.any · id) hmatches
          simp only [List.any_map] at hany
          exact hany

/-! ## Conditions -/

/-- A condition whose key is an identifier and whose literals are encoded; alternatives are some. -/
inductive EncodedLeaf : Tree → Prop
  | term {key : String} {l : Literal} (hkey : isIdentifier key.toList = true) (hl : l.IsEncoded) :
      EncodedLeaf (.term key l)
  | union {key : String} {ls : List Literal} (hkey : isIdentifier key.toList = true)
      (hne : ls ≠ []) (hls : ∀ l ∈ ls, l.IsEncoded) : EncodedLeaf (.union key ls)
  | negatedUnion {key : String} {ls : List Literal} (hkey : isIdentifier key.toList = true)
      (hne : ls ≠ []) (hls : ∀ l ∈ ls, l.IsEncoded) : EncodedLeaf (.negatedUnion key ls)

/-- A condition in the grammar. -/
def conjunct : Tree → Conjunct
  | .term key l => ⟨false, [atom key.toList l]⟩
  | .union key ls => ⟨false, atoms key.toList ls⟩
  | .negatedUnion key ls => ⟨true, atoms key.toList ls⟩
  | _ => ⟨false, []⟩

theorem EncodedLeaf.isLeaf {t : Tree} (ht : EncodedLeaf t) : IsLeaf t := by
  cases ht with
  | term => exact .term _ _
  | union => exact .union _ _
  | negatedUnion => exact .negatedUnion _ _

theorem write_conjunct {t : Tree} (ht : EncodedLeaf t) (outermost : Bool) :
    (conjunct t).write = t.text outermost := by
  have hempty : ∀ {ls : List Literal}, ls ≠ [] → ls.isEmpty = false := by simp
  cases ht with
  | term hkey hl =>
      rw [Tree.text]
      exact write_atom _ _
  | union hkey hne hls =>
      rw [Tree.text, hempty hne]
      exact writeAtoms_atoms hne
  | negatedUnion hkey hne hls =>
      rw [Tree.text, hempty hne]
      exact congrArg ('-' :: ·) (writeAtoms_atoms hne)

theorem isValid_conjunct {t : Tree} (ht : EncodedLeaf t) : (conjunct t).IsValid := by
  cases ht with
  | term hkey hl =>
      refine ⟨List.cons_ne_nil _ _, fun a ha => ?_⟩
      rw [List.mem_singleton.mp ha]
      exact isValid_atom (isKey_of_isIdentifier hkey) hl
  | union hkey hne hls => exact isValid_atoms (isKey_of_isIdentifier hkey) hne hls
  | negatedUnion hkey hne hls => exact isValid_atoms (isKey_of_isIdentifier hkey) hne hls

/-- Conditions that are the same conjunct accept the same documents. -/
theorem accepts_of_conjunct {t u : Tree} (ht : EncodedLeaf t) (hu : EncodedLeaf u)
    (h : conjunct t = conjunct u) (d : Datum) : t.accepts d = u.accepts d := by
  -- a condition is a negation or not, and alternatives on a key
  have hparts : ∀ {t : Tree}, EncodedLeaf t → ∃ (negated : Bool) (key : String) (ls : List Literal),
      conjunct t = ⟨negated, atoms key.toList ls⟩ ∧ (∀ l ∈ ls, l.IsEncoded) ∧
      ∀ d, t.accepts d = (negated != ls.any (termMatches key · d)) := by
    intro t ht
    cases ht with
    | @term key l hkey hl =>
        refine ⟨false, key, [l], by rw [atoms_singleton]; rfl, by simpa using hl, fun d => ?_⟩
        rw [accepts]
        simp
    | @union key ls hkey hne hls =>
        refine ⟨false, key, ls, rfl, hls, fun d => ?_⟩
        rw [accepts]
        simp
    | @negatedUnion key ls hkey hne hls =>
        refine ⟨true, key, ls, rfl, hls, fun d => ?_⟩
        rw [accepts]
        simp
  obtain ⟨negated, key, ls, ht, hls, haccepts⟩ := hparts ht
  obtain ⟨negated', key', ls', hu, hls', haccepts'⟩ := hparts hu
  rw [ht, hu, Conjunct.mk.injEq] at h
  rw [haccepts, haccepts', h.1, any_of_atoms hls hls' h.2]

/-! ## Trees -/

theorem childTexts_eq_map (xs : List Tree) : childTexts xs = xs.map (Tree.text false) := by
  induction xs with
  | nil => rw [childTexts, List.map_nil]
  | cons x xs ih => rw [childTexts, List.map_cons, ih]

/-- The text of a conjunction is the text of its conjuncts. -/
theorem text_ofLeaves {xs : List Tree} (hx : ∀ t ∈ xs, EncodedLeaf t) :
    (ofLeaves xs).text true = conjunction (xs.map conjunct) := by
  have hwrite : xs.map (Tree.text false) = (xs.map conjunct).map Conjunct.write := by
    rw [List.map_map]
    exact List.map_congr_left fun t ht => (write_conjunct (hx t ht) false).symm
  match xs, hx, hwrite with
  | [], _, _ => rw [ofLeaves, Tree.text]; rfl
  | [x], hx, _ =>
      rw [ofLeaves, ← write_conjunct (hx x List.mem_cons_self)]
      exact List.intercalate_singleton.symm
  | x :: y :: xs, _, hwrite =>
      show (intersect (x :: y :: xs)).text true = _
      rw [Tree.text, childTexts_eq_map, hwrite]
      rfl

/-- The bound on the distance in the grammar. -/
def boundConjunct (config : SearchConfig) (clause : KnnClause) (threshold : Double) : Conjunct :=
  ⟨false, [.field clause.key.toList (.bracket
    ["VECTOR_RANGE".toList, numberText threshold, '$' :: config.vectorParam.toList])]⟩

/-- The conjuncts of a search for neighbours. -/
def searchConjuncts (config : SearchConfig) (xs : List Tree) (clause : KnnClause) :
    List Conjunct :=
  (clause.threshold.map (boundConjunct config clause)).toList ++ xs.map conjunct

theorem write_boundConjunct (config : SearchConfig) (clause : KnnClause) (threshold : Double) :
    (boundConjunct config clause threshold).write = distanceBound config clause threshold := by
  have hword : ":[VECTOR_RANGE ".toList = [':', '['] ++ "VECTOR_RANGE".toList ++ [' '] := by decide
  have hdollar : " $".toList = [' ', '$'] := by decide
  show fieldRef clause.key.toList ++ ':' :: ('[' :: [' '].intercalate
      ["VECTOR_RANGE".toList, numberText threshold, '$' :: config.vectorParam.toList] ++ [']']) = _
  unfold distanceBound
  rw [hword, hdollar]
  simp

/-- The text of a search for neighbours is read off its conjuncts. -/
theorem knnText_ofLeaves {config : SearchConfig} {xs : List Tree}
    (hx : ∀ t ∈ xs, EncodedLeaf t) (clause : KnnClause) :
    knnText config (ofLeaves xs) clause
      = neighbours config (searchConjuncts config xs clause) clause.k clause.key.toList := by
  have hfilters : [' '].intercalate (knnFilters config (ofLeaves xs) clause)
      = conjunction (searchConjuncts config xs clause) := by
    unfold knnFilters searchConjuncts
    cases clause.threshold with
    | none => exact List.intercalate_singleton.trans (text_ofLeaves hx)
    | some threshold =>
        show [' '].intercalate (distanceBound config clause threshold ::
            if (ofLeaves xs).isRoot then [] else [(ofLeaves xs).text true])
          = conjunction (boundConjunct config clause threshold :: xs.map conjunct)
        rw [text_ofLeaves hx, ← write_boundConjunct]
        -- behind a bound the asterisk for no conditions is left out
        match xs, hx with
        | [], _ => rfl
        | [x], hx =>
            have hroot : (ofLeaves [x]).isRoot = false := by
              cases hx x List.mem_cons_self <;> rfl
            rw [hroot]
            simp [conjunction]
        | x :: y :: xs, _ =>
            have hroot : (ofLeaves (x :: y :: xs)).isRoot = false := rfl
            rw [hroot]
            simp [conjunction]
  unfold knnText neighbours
  rw [hfilters]

end IndexQuery.QueryText

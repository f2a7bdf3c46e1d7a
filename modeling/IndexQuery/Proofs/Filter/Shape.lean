import IndexQuery.Filter.Condition
import IndexQuery.Proofs.Filter.Parts
set_option autoImplicit false

/-! # The shape of filter values

What a filter asks depends on the pieces of its value that its operator hears. `Asks` says so,
operator by operator: a single value, the members of a list, a text as it is, a truth value,
nothing, two ends of a range of which one may be open, or the four parts of a circle. All operators
but two hear every piece that is written (`heard`, `spoken`). A range hears the first two pieces,
whatever their number, and takes a missing second one for an open end; the operator for absent
values hears nothing. So values of these two operators need not have the shape they are meant to
have (`HasShape`), and exactly when they do not, something that is written is not heard, or
something is heard that is not written (`accepted_iff_heard`). -/

namespace IndexQuery

namespace FilterOperator

/-- The conditions on a single value. -/
def onValue? : FilterOperator → Option (Operand → Condition)
  | eq => some .equal
  | ne => some .notEqual
  | gt => some .greaterThan
  | gte => some .atLeast
  | lt => some .lessThan
  | lte => some .atMost
  | _ => none

/-- The conditions on the members of a list. -/
def onList? : FilterOperator → Option (Operand → Condition)
  | isIn => some .isIn
  | notIn => some .notIn
  | all => some .containsAll
  | _ => none

/-- The conditions on a text as it is. -/
def onText? : FilterOperator → Option (Operand → Condition)
  | starts => some .startsWith
  | ends => some .endsWith
  | contains => some .containing
  | fuzzy => some .like
  | _ => none

end FilterOperator

namespace Filter

/-! ## What pieces ask -/

/-- A piece that leaves an end of a range open: a blank, or the wildcard. -/
def IsOpen (raw : List Char) : Prop := Text.isBlankText raw = true ∨ Text.trim raw = ['*']

/-- A piece that gives an end of a range. -/
def IsEnd (f : Field) (raw : List Char) (v : Operand) : Prop :=
  ¬ IsOpen raw ∧ operandOf f (Text.trim raw) = .ok v

/-- What the pieces of a value ask of a field. -/
inductive Asks (f : Field) : FilterOperator → List (List Char) → Condition → Prop
  | value {op : FilterOperator} {make : Operand → Condition} {raw : List Char} {v : Operand} :
      op.onValue? = some make → operandOf f raw = .ok v → Asks f op [raw] (make v)
  | list {op : FilterOperator} {make : Operand → Condition} {raws : List (List Char)}
      {vs : List Operand} : op.onList? = some make →
      List.Forall₂ (fun raw v => operandOf f raw = .ok v) raws vs →
      Asks f op raws (make (.list vs))
  | text {op : FilterOperator} {make : Operand → Condition} {raw : List Char} :
      op.onText? = some make → Asks f op [raw] (make (.text (String.ofList raw)))
  | truth {raw : List Char} {b : Bool} : booleanOf raw = .ok b →
      Asks f .bool [raw] (if b then .isTrue else .isFalse)
  | missing : Asks f .missing [] .isMissing
  | between {low high : List Char} {a b : Operand} : IsEnd f low a → IsEnd f high b →
      Asks f .range [low, high] (.between a b)
  | atLeast {low high : List Char} {a : Operand} : IsEnd f low a → IsOpen high →
      Asks f .range [low, high] (.atLeast a)
  | atMost {low high : List Char} {b : Operand} : IsOpen low → IsEnd f high b →
      Asks f .range [low, high] (.atMost b)
  | near {lon lat radius unit : List Char} {x y r : Double} {u : GeoUnit} :
      numberOf lon = .ok x → numberOf lat = .ok y → numberOf radius = .ok r →
      GeoUnit.ofText? (String.ofList unit) = some u →
      Asks f .near [lon, lat, radius, unit] (.near ⟨x, y⟩ r u)

/-- The pieces that an operator hears: all pieces of a list and of a circle, two of a range, none
for absent values, and otherwise the first. A piece that is not there is blank. -/
def heard (op : FilterOperator) (raws : List (List Char)) : List (List Char) :=
  match op with
  | .isIn | .notIn | .all | .near => raws
  | .range => [raws[0]?.getD [], raws[1]?.getD []]
  | .missing => []
  | _ => [raws.head?.getD []]

variable {f : Field} {raw : List Char} {filter : Filter} {c : Condition}

/-! ## Ends of ranges -/

theorem isOpen_iff :
    ((Text.trim raw).isEmpty || Text.trim raw == ['*']) = true ↔ IsOpen raw := by
  rw [Text.isEmpty_trim, Bool.or_eq_true, beq_iff_eq]
  rfl

theorem boundOf_of_isOpen (h : IsOpen raw) : boundOf f (some raw) = .ok none := by
  show (if _ then _ else _) = _
  rw [if_pos (isOpen_iff.mpr h)]

theorem boundOf_of_isEnd {v : Operand} (h : IsEnd f raw v) :
    boundOf f (some raw) = .ok (some v) := by
  obtain ⟨hopen, hv⟩ := h
  show (if _ then _ else _) = _
  rw [if_neg (mt isOpen_iff.mp hopen), hv]
  rfl

theorem isOpen_or_isEnd_of_boundOf {given : Option Operand}
    (h : boundOf f (some raw) = .ok given) :
    given = none ∧ IsOpen raw ∨ ∃ v, given = some v ∧ IsEnd f raw v := by
  by_cases hopen : IsOpen raw
  · rw [boundOf_of_isOpen hopen] at h
    exact .inl ⟨(Except.ok.inj h).symm, hopen⟩
  · have hvalue : boundOf f (some raw) = (operandOf f (Text.trim raw)).map some :=
      if_neg (mt isOpen_iff.mp hopen)
    obtain ⟨v, hv, rfl⟩ := map_eq_ok (hvalue ▸ h)
    exact .inr ⟨v, rfl, hopen, hv⟩

/-- A piece that is not there is like a blank one. -/
theorem boundOf_getD (raw : Option (List Char)) :
    boundOf f raw = boundOf f (some (raw.getD [])) := by
  cases raw with
  | none => rfl
  | some raw => rfl

theorem rangeCondition_eq_ok_iff :
    rangeCondition f filter = .ok c ↔ Asks f .range (heard .range filter.rawValues) c := by
  unfold rangeCondition
  -- both ends are read from pieces that are heard, whether they are written or not
  rw [boundOf_getD filter.rawValues[0]?, boundOf_getD filter.rawValues[1]?]
  constructor
  · intro h
    obtain ⟨lower, hlower, h⟩ := bind_eq_ok h
    obtain ⟨upper, hupper, h⟩ := bind_eq_ok h
    rcases isOpen_or_isEnd_of_boundOf hlower with ⟨rfl, hlow⟩ | ⟨a, rfl, hlow⟩
    · rcases isOpen_or_isEnd_of_boundOf hupper with ⟨rfl, hhigh⟩ | ⟨b, rfl, hhigh⟩
      · cases h
      · cases h
        exact .atMost hlow hhigh
    · rcases isOpen_or_isEnd_of_boundOf hupper with ⟨rfl, hhigh⟩ | ⟨b, rfl, hhigh⟩
      · cases h
        exact .atLeast hlow hhigh
      · cases h
        exact .between hlow hhigh
  · intro h
    cases h with
    | list hop _ => cases hop
    | between hlow hhigh => rw [boundOf_of_isEnd hlow, boundOf_of_isEnd hhigh]; rfl
    | atLeast hlow hhigh => rw [boundOf_of_isEnd hlow, boundOf_of_isOpen hhigh]; rfl
    | atMost hlow hhigh => rw [boundOf_of_isOpen hlow, boundOf_of_isEnd hhigh]; rfl

/-! ## Circles -/

theorem nearCondition_eq_ok_iff :
    nearCondition f filter = .ok c ↔ Asks f .near (heard .near filter.rawValues) c := by
  show _ ↔ Asks f .near filter.rawValues c
  constructor
  · intro h
    unfold nearCondition at h
    split at h
    · next lon lat radius unit hraws =>
        rw [hraws]
        split at h
        · cases h
        · next u hunit =>
            obtain ⟨x, hx, h⟩ := bind_eq_ok h
            obtain ⟨y, hy, h⟩ := bind_eq_ok h
            obtain ⟨r, hr, h⟩ := bind_eq_ok h
            cases h
            exact .near hx hy hr hunit
    · cases h
  · intro h
    generalize hraws : filter.rawValues = raws at h
    cases h with
    | value hop _ => cases hop
    | list hop _ => cases hop
    | text hop => cases hop
    | near hx hy hr hunit => simp only [nearCondition, hraws, hunit, hx, hy, hr]; rfl

/-! ## All operators -/

/-- What a condition on a single value reads. -/
theorem condition_of_onValue? {make : Operand → Condition}
    (h : filter.operator.onValue? = some make) :
    filter.condition f = (operandOf f filter.firstValue).map make ∧
      heard filter.operator filter.rawValues = [filter.firstValue] := by
  unfold condition
  cases hop : filter.operator <;> rw [hop] at h <;> cases h <;> exact ⟨rfl, rfl⟩

/-- What a condition on the members of a list reads. -/
theorem condition_of_onList? {make : Operand → Condition}
    (h : filter.operator.onList? = some make) :
    filter.condition f = ((filter.rawValues.mapM (operandOf f)).map Operand.list).map make ∧
      heard filter.operator filter.rawValues = filter.rawValues := by
  unfold condition
  cases hop : filter.operator <;> rw [hop] at h <;> cases h <;> exact ⟨rfl, rfl⟩

/-- What a condition on a text reads. -/
theorem condition_of_onText? {make : Operand → Condition}
    (h : filter.operator.onText? = some make) :
    filter.condition f = .ok (make (.text (String.ofList filter.firstValue))) ∧
      heard filter.operator filter.rawValues = [filter.firstValue] := by
  unfold condition
  cases hop : filter.operator <;> rw [hop] at h <;> cases h <;> exact ⟨rfl, rfl⟩

/-- Every operator is of one of seven kinds. -/
theorem operator_kinds (op : FilterOperator) :
    (∃ make, op.onValue? = some make) ∨ (∃ make, op.onList? = some make) ∨
      (∃ make, op.onText? = some make) ∨ op = .bool ∨ op = .missing ∨ op = .range ∨ op = .near := by
  cases op <;> simp [FilterOperator.onValue?, FilterOperator.onList?, FilterOperator.onText?]

theorem asks_of_condition (h : filter.condition f = .ok c) :
    Asks f filter.operator (heard filter.operator filter.rawValues) c := by
  rcases operator_kinds filter.operator with
    ⟨make, hop⟩ | ⟨make, hop⟩ | ⟨make, hop⟩ | hop | hop | hop | hop
  · obtain ⟨hcondition, hheard⟩ := condition_of_onValue? (f := f) hop
    obtain ⟨v, hv, rfl⟩ := map_eq_ok (hcondition ▸ h)
    rw [hheard]
    exact .value hop hv
  · obtain ⟨hcondition, hheard⟩ := condition_of_onList? (f := f) hop
    obtain ⟨v, hv, rfl⟩ := map_eq_ok (hcondition ▸ h)
    obtain ⟨vs, hvs, rfl⟩ := map_eq_ok hv
    rw [hheard]
    exact .list hop (forall₂_of_mapM hvs)
  · obtain ⟨hcondition, hheard⟩ := condition_of_onText? (f := f) hop
    cases Except.ok.inj (hcondition ▸ h)
    rw [hheard]
    exact .text hop
  · simp only [condition, hop] at h
    obtain ⟨b, hb, rfl⟩ := map_eq_ok h
    rw [hop]
    exact .truth hb
  · simp only [condition, hop] at h
    cases h
    rw [hop]
    exact .missing
  · simp only [condition, hop] at h
    rw [hop]
    exact rangeCondition_eq_ok_iff.mp h
  · simp only [condition, hop] at h
    rw [hop]
    exact nearCondition_eq_ok_iff.mp h

theorem condition_of_asks (h : Asks f filter.operator (heard filter.operator filter.rawValues) c) :
    filter.condition f = .ok c := by
  generalize hraws : heard filter.operator filter.rawValues = raws at h
  generalize hop : filter.operator = op at h
  -- these two are stated before the cases, which take the equation of the operator away
  have hrange : op = .range → rangeCondition f filter = .ok c → filter.condition f = .ok c := by
    rintro rfl hc
    simpa only [condition, hop] using hc
  have hnear : op = .near → nearCondition f filter = .ok c → filter.condition f = .ok c := by
    rintro rfl hc
    simpa only [condition, hop] using hc
  cases h with
  | value hmake hv =>
      obtain ⟨hcondition, hheard⟩ := condition_of_onValue? (f := f) (hop ▸ hmake)
      cases hraws.symm.trans hheard
      rw [hcondition, hv]
      rfl
  | list hmake hvs =>
      obtain ⟨hcondition, hheard⟩ := condition_of_onList? (f := f) (hop ▸ hmake)
      cases hraws.symm.trans hheard
      rw [hcondition, mapM_of_forall₂ hvs]
      rfl
  | text hmake =>
      obtain ⟨hcondition, hheard⟩ := condition_of_onText? (f := f) (hop ▸ hmake)
      cases hraws.symm.trans hheard
      exact hcondition
  | truth hb =>
      rw [hop] at hraws
      cases hraws
      simp only [condition, hop, firstValue, hb]
      rfl
  | missing => simp only [condition, hop]
  | between hlow hhigh =>
      rw [hop] at hraws
      exact hrange rfl (rangeCondition_eq_ok_iff.mpr (hraws ▸ .between hlow hhigh))
  | atLeast hlow hhigh =>
      rw [hop] at hraws
      exact hrange rfl (rangeCondition_eq_ok_iff.mpr (hraws ▸ .atLeast hlow hhigh))
  | atMost hlow hhigh =>
      rw [hop] at hraws
      exact hrange rfl (rangeCondition_eq_ok_iff.mpr (hraws ▸ .atMost hlow hhigh))
  | near hx hy hr hunit =>
      rw [hop] at hraws
      exact hnear rfl (nearCondition_eq_ok_iff.mpr (hraws ▸ .near hx hy hr hunit))

/-- A filter has a condition exactly when the pieces its operator hears ask for it. -/
theorem condition_eq_ok_iff :
    filter.condition f = .ok c ↔
      Asks f filter.operator (heard filter.operator filter.rawValues) c :=
  ⟨asks_of_condition, condition_of_asks⟩

/-! ## Written values -/

/-- The pieces of a value that are written, blank ones of a list left aside. -/
def spoken (op : FilterOperator) (value : List Char) : List (List Char) :=
  match op with
  | .missing => if Text.isBlankText value then [] else [Text.trim value]
  | _ => valuesOf op value

/-- The shape a value is meant to have: two pieces between commas for a range, four for a circle,
and none for the operator for absent values. -/
def HasShape (op : FilterOperator) (value : List Char) : Prop :=
  match op with
  | .range => (value.splitOnP (· == ',')).length = 2
  | .near => (value.splitOnP (· == ',')).length = 4
  | .missing => Text.isBlankText value = true
  | _ => True

variable {op : FilterOperator} {field value : List Char} {text : String} {p : Predicate}

theorem length_trimmedPieces (q : Char → Bool) (value : List Char) :
    (trimmedPieces q value).length = (value.splitOnP q).length := List.length_map _

theorem heard_range_eq_iff {raws : List (List Char)} :
    heard .range raws = raws ↔ raws.length = 2 := by
  constructor
  · intro h
    rw [← h]
    rfl
  · intro h
    obtain ⟨low, high, rfl⟩ := List.length_eq_two.mp h
    rfl

/-- The pieces that are written are the ones that are heard exactly when the value has its shape.
Circles are the exception, because they hear whatever is written. -/
theorem heard_eq_spoken_iff (hop : op ≠ .near) :
    heard op (valuesOf op value) = spoken op value ↔ HasShape op value := by
  cases op with
  | near => exact absurd rfl hop
  | range => exact heard_range_eq_iff.trans (by rw [valuesOf, length_trimmedPieces]; rfl)
  | missing =>
      show [] = (if _ then _ else _) ↔ Text.isBlankText value = true
      cases Text.isBlankText value <;> simp
  | _ => exact iff_of_true rfl trivial

/-- Circles that ask for something have four pieces. -/
theorem hasShape_of_asks_near (h : Asks f .near (heard .near (valuesOf .near value)) c) :
    HasShape .near value := by
  have hlength : (valuesOf .near value).length = 4 := by
    generalize hraws : heard .near (valuesOf .near value) = raws at h
    have hraws : valuesOf .near value = raws := hraws
    rw [hraws]
    cases h with
    | value hmake _ => cases hmake
    | list hmake _ => cases hmake
    | text hmake => cases hmake
    | near => rfl
  rwa [valuesOf, length_trimmedPieces] at hlength

/-! ## Accepted texts -/

/-- A text is accepted on a field: it is a filter, and the filter makes a predicate. -/
def Accepts (f : Field) (text : String) (p : Predicate) : Prop :=
  ∃ filter, ofText text = .ok filter ∧ filter.predicate f = .ok p

theorem rawValues_ofWritten (field : List Char) (op : FilterOperator) (value : List Char) :
    (ofWritten field op value).rawValues = valuesOf op value := by
  simp [rawValues, ofWritten, Function.comp_def]

theorem predicate_eq_ok_iff :
    filter.predicate f = .ok p ↔
      ∃ c, Asks f filter.operator (heard filter.operator filter.rawValues) c ∧
        Predicate.of f c = .ok p := by
  constructor
  · intro h
    obtain ⟨c, hc, hp⟩ := bind_eq_ok h
    exact ⟨c, condition_eq_ok_iff.mp hc, hp⟩
  · rintro ⟨c, hc, hp⟩
    unfold predicate
    rw [condition_eq_ok_iff.mpr hc]
    exact hp

theorem accepts_of_written (h : Written text field op value) :
    Accepts f text p ↔ Text.isBlankText field = false ∧
      ∃ c, Asks f op (heard op (valuesOf op value)) c ∧ Predicate.of f c = .ok p := by
  have hpredicate : (ofWritten field op value).predicate f = .ok p ↔
      ∃ c, Asks f op (heard op (valuesOf op value)) c ∧ Predicate.of f c = .ok p := by
    rw [← rawValues_ofWritten field op value]
    exact predicate_eq_ok_iff
  have hread := ofText_of_written h
  unfold Accepts
  rw [hread]
  cases Text.isBlankText field with
  | true => simp
  | false => simpa using hpredicate

/-- A text is accepted on a field exactly when it is written as a filter and the pieces its operator
hears ask for something that fits the field. A value that is accepted has the shape it is meant to
have, unless it is that of a range or of a test for absence. In any case it has its shape exactly
when the pieces that are heard are the ones that are written, and what is not heard can be left out
or replaced. -/
theorem accepted_iff_heard (f : Field) (text : String) (p : Predicate) :
    (Accepts f text p ↔ ∃ field op value c, Written text field op value ∧
      Text.isBlankText field = false ∧ Asks f op (heard op (valuesOf op value)) c ∧
      Predicate.of f c = .ok p) ∧
    ∀ field op value, Written text field op value → Accepts f text p →
      (op ≠ .range → op ≠ .missing → HasShape op value) ∧
      (HasShape op value ↔ heard op (valuesOf op value) = spoken op value) ∧
      ∀ text' field' value', Written text' field' op value' → Text.isBlankText field' = false →
        heard op (valuesOf op value') = heard op (valuesOf op value) → Accepts f text' p := by
  refine ⟨⟨?_, ?_⟩, ?_⟩
  · rintro ⟨filter, hfilter, hp⟩
    obtain ⟨field, op, value, hwritten, hvisible, rfl⟩ := ofText_eq_ok_iff.mp hfilter
    obtain ⟨-, c, hasks, hc⟩ := (accepts_of_written hwritten).mp ⟨_, hfilter, hp⟩
    exact ⟨field, op, value, c, hwritten, hvisible, hasks, hc⟩
  · rintro ⟨field, op, value, c, hwritten, hvisible, hasks, hc⟩
    exact (accepts_of_written hwritten).mpr ⟨hvisible, c, hasks, hc⟩
  · intro field op value hwritten haccepts
    obtain ⟨-, c, hasks, hc⟩ := (accepts_of_written hwritten).mp haccepts
    refine ⟨?_, ?_, ?_⟩
    · intro hrange hmissing
      cases op with
      | range => exact absurd rfl hrange
      | missing => exact absurd rfl hmissing
      | near => exact hasShape_of_asks_near hasks
      | _ => trivial
    · -- a circle with other than four pieces would not be accepted, so it needs no comparison
      by_cases hnear : op = .near
      · subst hnear
        exact iff_of_true (hasShape_of_asks_near hasks) rfl
      · exact (heard_eq_spoken_iff hnear).symm
    · intro text' field' value' hwritten' hvisible' hheard
      exact (accepts_of_written hwritten').mpr ⟨hvisible', c, hheard ▸ hasks, hc⟩

/-- A circle of four parts, and a range whose third piece can be left out. -/
theorem accepted_iff_heard_third_piece :
    let place : Field := ⟨"place", "place", .geo, false, by decide, by decide, by decide⟩
    let age : Field := ⟨"age", "age", .numeric, false, by decide, by decide, by decide⟩
    let around : Predicate := ⟨place, .near,
      .term (.geo ⟨⟨Double.ofInt 1, Double.ofInt 2⟩, Double.ofInt 3, .km⟩)⟩
    let between : Predicate := ⟨age, .between,
      .term (.numeric (.between (Double.ofInt 1) (Double.ofInt 2)))⟩
    Accepts place "place:near:1,2,3,km" around ∧ HasShape .near "1,2,3,km".toList ∧
      Accepts age "age:range:1,2,3" between ∧ Accepts age "age:range:1,2" between := by
  intro place age around between
  have hcircle : Accepts place "place:near:1,2,3,km" around :=
    ⟨⟨"place", .near, ["1", "2", "3", "km"]⟩, by decide +kernel, by decide +kernel⟩
  have hrange : Accepts age "age:range:1,2,3" between :=
    ⟨⟨"age", .range, ["1", "2", "3"]⟩, by decide +kernel, by decide +kernel⟩
  have hwritten : Written "place:near:1,2,3,km" "place".toList .near "1,2,3,km".toList :=
    .of_splitFirst rfl rfl rfl
  have hthree : Written "age:range:1,2,3" "age".toList .range "1,2,3".toList :=
    .of_splitFirst rfl rfl rfl
  have htwo : Written "age:range:1,2" "age".toList .range "1,2".toList :=
    .of_splitFirst rfl rfl rfl
  have hshape := ((accepted_iff_heard place _ around).2 _ _ _ hwritten hcircle).1
    (by decide) (by decide)
  have hshorter := ((accepted_iff_heard age _ between).2 _ _ _ hthree hrange).2.2 _ _ _ htwo
    (by decide) (by decide)
  exact ⟨hcircle, hshape, hrange, hshorter⟩

/-- Two ranges and a test for absence that are accepted without having their shape: a third piece and
a value for what is absent are ignored, and a missing second piece is an open end. -/
theorem accepted_without_shape :
    let age : Field := ⟨"age", "age", .numeric, false, by decide, by decide, by decide⟩
    let bounded (range : NumericRange) (op : Operator) : Predicate :=
      ⟨age, op, .term (.numeric range)⟩
    (Accepts age "age:range:1,2,3" (bounded (.between (Double.ofInt 1) (Double.ofInt 2)) .between) ∧
      Written "age:range:1,2,3" "age".toList .range "1,2,3".toList ∧
      ¬ HasShape .range "1,2,3".toList) ∧
    (Accepts age "age:range:1" (bounded (.atLeast (Double.ofInt 1)) .greaterThanOrEqual) ∧
      Written "age:range:1" "age".toList .range "1".toList ∧ ¬ HasShape .range "1".toList) ∧
    (Accepts age "age:missing:1" ⟨age, .isMissing, .term .missing⟩ ∧
      Written "age:missing:1" "age".toList .missing "1".toList ∧
      ¬ HasShape .missing "1".toList) := by
  intro age bounded
  refine ⟨⟨?_, .of_splitFirst rfl rfl rfl, ?_⟩, ⟨?_, .of_splitFirst rfl rfl rfl, ?_⟩,
    ?_, .of_splitFirst rfl rfl rfl, ?_⟩
  · exact ⟨⟨"age", .range, ["1", "2", "3"]⟩, by decide +kernel, by decide +kernel⟩
  · show ¬ (("1,2,3".toList.splitOnP (· == ',')).length = 2)
    decide
  · exact ⟨⟨"age", .range, ["1"]⟩, by decide +kernel, by decide +kernel⟩
  · show ¬ (("1".toList.splitOnP (· == ',')).length = 2)
    decide
  · exact ⟨⟨"age", .missing, []⟩, by decide +kernel, by decide +kernel⟩
  · show ¬ (Text.isBlankText "1".toList = true)
    decide

end Filter

end IndexQuery

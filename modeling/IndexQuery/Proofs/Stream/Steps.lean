import IndexQuery.Command
import IndexQuery.Proofs.Compilation.Parts
import IndexQuery.Proofs.Encoding.Sources
import Mathlib.Data.List.Induction
set_option autoImplicit false

/-! # Commands of streams that are built step by step

A stream is built by adding predicates, sorting, skipping and limiting, in any order and as often as
one likes; only sorting can fail. What has been built so far depends on the predicates in order and
on the last step of each other kind: `ofSteps` is the stream of these parts, one more step leads
from it to the stream of one step more (`apply_ofSteps`), and so a run leads to it
(`run_eq_ok_iff`). From there the commands are read off block by block (`commands_of_steps`): the
blocks that may be absent are the sort key and the vector, and the vector is sent exactly when some
predicate is a search for neighbours. -/

namespace IndexQuery

namespace Predicate

theorem lastClause_eq_none_iff {ps : List Predicate} :
    lastClause ps = none ↔ ∀ p ∈ ps, p.clause? = none := by
  rw [lastClause, List.getLast?_eq_none_iff, List.filterMap_eq_nil_iff]

end Predicate

namespace Tree

/-- The parameter of a text is the vector of the clause, and there is none without a clause. -/
theorem params_rendered (t : Tree) (config : SearchConfig) :
    (t.rendered config).params
      = (t.clause?.map fun clause => (config.vectorParam, clause.blob)).toList := by
  cases t <;> rfl

end Tree

namespace SearchStream

open Predicate (lastClause)

/-! ## Steps -/

/-- A step in building a stream. -/
inductive Step where
  | filter (predicate : Predicate)
  | sort (name : String) (order : SortOrder)
  | skip (offset : Nat)
  | take (limit : Nat)

namespace Step

/-- The stream after one more step. -/
def apply (s : SearchStream) : Step → Except QueryError SearchStream
  | filter p => .ok (s.filter p)
  | sort name order => s.sortedBy name order
  | skip offset => .ok (s.skip offset)
  | take limit => .ok (s.take limit)

/-- The predicate a step adds. -/
def filter? : Step → Option Predicate
  | filter p => some p
  | _ => none

/-- The sort a step asks for. -/
def sort? : Step → Option (String × SortOrder)
  | sort name order => some (name, order)
  | _ => none

/-- The number of results a step skips. -/
def skip? : Step → Option Nat
  | skip offset => some offset
  | _ => none

/-- The page size a step asks for. -/
def take? : Step → Option Nat
  | take limit => some limit
  | _ => none

end Step

/-- The stream that some steps make of the empty one. -/
def run (schema : Schema) (steps : List Step) : Except QueryError SearchStream :=
  steps.foldlM Step.apply { schema := schema }

/-- The predicates the steps add, in order. -/
def filters (steps : List Step) : List Predicate := steps.filterMap Step.filter?

/-- What the last step of a kind says. -/
def last {α : Type} (kind? : Step → Option α) (steps : List Step) : Option α :=
  (steps.filterMap kind?).getLast?

/-! ## What one step does -/

/-- The sort key of a field by its name, if the field is open to sorting. -/
def sortKey? (schema : Schema) (name : String) (order : SortOrder) : Option SearchSort :=
  ((schema.fields.find? (·.name = name)).filter (·.sortable)).map fun f => ⟨f.key, order⟩

theorem sortKey?_eq_some_iff {schema : Schema} {name : String} {order : SortOrder}
    {key : SearchSort} :
    sortKey? schema name order = some key ↔
      ∃ f, schema.field name = .ok f ∧ f.sortable = true ∧ key = ⟨f.key, order⟩ := by
  unfold sortKey? Schema.field
  cases schema.fields.find? (·.name = name) with
  | none => simp
  | some f =>
      cases hf : f.sortable with
      | false => simp [Option.filter, hf]
      | true => simpa [Option.filter, hf] using eq_comm

/-- Sorting succeeds exactly for the name of a field that is open to sorting. -/
theorem sortedBy_eq_ok_iff {s t : SearchStream} {name : String} {order : SortOrder} :
    s.sortedBy name order = .ok t ↔
      ∃ key, sortKey? s.schema name order = some key ∧ t = { s with sort := some key } := by
  unfold sortedBy Schema.field sortKey?
  cases s.schema.fields.find? (·.name = name) with
  | none => simp [Except.bind]
  | some f => cases hf : f.sortable <;> simp [Except.bind, Option.filter, hf, eq_comm]

/-- A step can be taken unless it sorts by something that is not open to sorting. -/
def Step.Fits (schema : Schema) : Step → Prop
  | sort name order => ∃ key, sortKey? schema name order = some key
  | _ => True

/-- The stream that depends on the predicates and on the last step of each other kind. -/
def ofSteps (schema : Schema) (steps : List Step) : SearchStream where
  schema := schema
  predicates := filters steps
  sort := (last Step.sort? steps).bind fun (name, order) => sortKey? schema name order
  offset := (last Step.skip? steps).getD 0
  limit := last Step.take? steps

section

variable (schema : Schema) (steps : List Step)

theorem ofSteps_filter (p : Predicate) :
    ofSteps schema (steps ++ [.filter p]) = (ofSteps schema steps).filter p := by
  simp [ofSteps, filters, last, SearchStream.filter, Step.filter?, Step.sort?, Step.skip?,
    Step.take?]

theorem ofSteps_sort (name : String) (order : SortOrder) :
    ofSteps schema (steps ++ [.sort name order])
      = { ofSteps schema steps with sort := sortKey? schema name order } := by
  simp [ofSteps, filters, last, Step.filter?, Step.sort?, Step.skip?, Step.take?]

theorem ofSteps_skip (offset : Nat) :
    ofSteps schema (steps ++ [.skip offset]) = (ofSteps schema steps).skip offset := by
  simp [ofSteps, filters, last, SearchStream.skip, Step.filter?, Step.sort?, Step.skip?, Step.take?]

theorem ofSteps_take (limit : Nat) :
    ofSteps schema (steps ++ [.take limit]) = (ofSteps schema steps).take limit := by
  simp [ofSteps, filters, last, SearchStream.take, Step.filter?, Step.sort?, Step.skip?, Step.take?]

end

/-- One more step leads to the stream of one step more. -/
theorem apply_ofSteps {schema : Schema} {steps : List Step} {step : Step} {t : SearchStream} :
    step.apply (ofSteps schema steps) = .ok t ↔
      step.Fits schema ∧ t = ofSteps schema (steps ++ [step]) := by
  cases step with
  | sort name order =>
      rw [ofSteps_sort]
      refine sortedBy_eq_ok_iff.trans ⟨?_, ?_⟩
      · rintro ⟨key, hkey, rfl⟩
        have hkey : sortKey? schema name order = some key := hkey
        exact ⟨⟨key, hkey⟩, by rw [hkey]⟩
      · rintro ⟨⟨key, hkey⟩, rfl⟩
        exact ⟨key, hkey, by rw [hkey]⟩
  | filter p => simpa [Step.apply, Step.Fits, ofSteps_filter] using eq_comm
  | skip offset => simpa [Step.apply, Step.Fits, ofSteps_skip] using eq_comm
  | take limit => simpa [Step.apply, Step.Fits, ofSteps_take] using eq_comm

theorem run_append_singleton (schema : Schema) (steps : List Step) (step : Step) :
    run schema (steps ++ [step]) = (run schema steps).bind (step.apply ·) := by
  have happly : ∀ s, [step].foldlM Step.apply s = step.apply s := by simp
  rw [run, run, List.foldlM_append]
  exact congrArg _ (funext happly)

/-- A run succeeds exactly when all of its steps can be taken, and it leads to the stream of its
steps. -/
theorem run_eq_ok_iff {schema : Schema} {steps : List Step} {s : SearchStream} :
    run schema steps = .ok s ↔
      (∀ step ∈ steps, step.Fits schema) ∧ s = ofSteps schema steps := by
  induction steps using List.reverseRecOn generalizing s with
  | nil => simpa [run, ofSteps, filters, last, pure, Except.pure] using eq_comm
  | append_singleton steps step ih =>
      rw [run_append_singleton]
      constructor
      · intro h
        obtain ⟨t, hrun, hstep⟩ := bind_eq_ok h
        obtain ⟨hfits, rfl⟩ := ih.mp hrun
        obtain ⟨hlast, rfl⟩ := apply_ofSteps.mp hstep
        refine ⟨fun other hmem => ?_, rfl⟩
        rcases List.mem_append.mp hmem with hmem | hmem
        · exact hfits other hmem
        · exact List.mem_singleton.mp hmem ▸ hlast
      · rintro ⟨hfits, rfl⟩
        have hrun := ih.mpr ⟨fun other hmem => hfits other (List.mem_append_left _ hmem), rfl⟩
        rw [hrun]
        exact apply_ofSteps.mpr ⟨hfits step (by simp), rfl⟩

/-! ## The commands -/

open Argument (text nat octets)

/-- The sort key of the last step that sorts; if there is none, neighbours come with the nearest
first, and nothing else is sorted. -/
structure IsSortBlock (schema : Schema) (steps : List Step) (config : SearchConfig)
    (block : Command) : Prop where
  sorted : ∀ name order, last Step.sort? steps = some (name, order) →
    ∃ f, schema.field name = .ok f ∧ f.sortable = true ∧
      block = [text "SORTBY", text f.key, text order.keyword]
  nearest : last Step.sort? steps = none → (∃ p ∈ filters steps, p.clause? ≠ none) →
    block = [text "SORTBY", text config.scoreField, text "ASC"]
  absent : last Step.sort? steps = none → (∀ p ∈ filters steps, p.clause? = none) → block = []

/-- The vector of the last predicate that searches for neighbours, under the name of the
parameter. -/
structure IsParamBlock (steps : List Step) (config : SearchConfig) (block : Command) : Prop where
  vector : ∀ clause, lastClause (filters steps) = some clause →
    block = [text "PARAMS", nat 2, text config.vectorParam, octets clause.blob]
  absent : (∀ p ∈ filters steps, p.clause? = none) → block = []

section

variable {schema : Schema} {steps : List Step}

theorem isSortBlock_ofSteps (hfits : ∀ step ∈ steps, step.Fits schema) (config : SearchConfig) :
    IsSortBlock schema steps config
      (Command.sortPart (ofSteps schema steps).compile (ofSteps schema steps).sort config) := by
  have hclause : (ofSteps schema steps).compile.clause? = lastClause (filters steps) :=
    Predicate.clause?_compile _
  have hunsorted : last Step.sort? steps = none → (ofSteps schema steps).sort = none := by
    intro hnone
    simp only [ofSteps, hnone, Option.bind_none]
  constructor
  · intro name order hlast
    -- the last step that sorts is one of the steps, so its field is open to sorting
    have hmem : Step.sort name order ∈ steps := by
      obtain ⟨step, hstep, hsort⟩ := List.mem_filterMap.mp (List.mem_of_getLast? hlast)
      cases step with
      | sort name' order' =>
          cases Option.some.inj hsort
          exact hstep
      | _ => cases hsort
    obtain ⟨key, hkey⟩ := hfits _ hmem
    obtain ⟨f, hf, hsortable, rfl⟩ := sortKey?_eq_some_iff.mp hkey
    refine ⟨f, hf, hsortable, ?_⟩
    have hsort : (ofSteps schema steps).sort = some ⟨f.key, order⟩ := by
      simp only [ofSteps, hlast, Option.bind_some, hkey]
    rw [hsort]
    rfl
  · rintro hnone ⟨p, hp, hsome⟩
    cases hlast : lastClause (filters steps) with
    | none => exact absurd (Predicate.lastClause_eq_none_iff.mp hlast p hp) hsome
    | some clause =>
        unfold Command.sortPart
        rw [hunsorted hnone, hclause, hlast]
        rfl
  · intro hnone hnext
    unfold Command.sortPart
    rw [hunsorted hnone, hclause, Predicate.lastClause_eq_none_iff.mpr hnext]

theorem isParamBlock_ofSteps (config : SearchConfig) :
    IsParamBlock steps config
      (Command.paramPart ((ofSteps schema steps).compile.rendered config).params) := by
  have hclause : (ofSteps schema steps).compile.clause? = lastClause (filters steps) :=
    Predicate.clause?_compile _
  constructor
  · intro clause hlast
    rw [Tree.params_rendered, hclause, hlast]
    rfl
  · intro hnone
    rw [Tree.params_rendered, hclause, Predicate.lastClause_eq_none_iff.mpr hnone]
    rfl

end

/-- The commands of a stream, whatever steps it was built by. A run succeeds exactly when every step
that sorts names a field open to sorting. The search command then consists of the query of the
predicates in order, the sort block, the window of the last step that skips and the last that
limits, the vector and the dialect; counting asks for the same without sort key and with an empty
window. So runs that agree in their predicates and in their last steps of each other kind give the
same commands. -/
theorem commands_of_steps :
    (∀ (schema : Schema) (steps : List Step),
      ((∃ s, run schema steps = .ok s) ↔ ∀ name order, .sort name order ∈ steps →
        ∃ f, schema.field name = .ok f ∧ f.sortable = true) ∧
      ∀ s, run schema steps = .ok s → ∀ config : SearchConfig, ∃ sort params : Command,
        let query := ((Predicate.compile (filters steps)).rendered config).query
        s.command config =
          [text "FT.SEARCH", text schema.index, text query] ++ sort ++
            [text "LIMIT", nat ((last Step.skip? steps).getD 0),
              nat (config.clampPageSize (last Step.take? steps))] ++
            params ++ [text "DIALECT", nat config.dialect] ∧
        s.countCommand config =
          [text "FT.SEARCH", text schema.index, text query] ++ [text "LIMIT", nat 0, nat 0] ++
            params ++ [text "DIALECT", nat config.dialect] ∧
        IsSortBlock schema steps config sort ∧ IsParamBlock steps config params) ∧
    ∀ (schema : Schema) (steps steps' : List Step) (s s' : SearchStream),
      run schema steps = .ok s → run schema steps' = .ok s' → filters steps = filters steps' →
      last Step.sort? steps = last Step.sort? steps' →
      last Step.skip? steps = last Step.skip? steps' →
      last Step.take? steps = last Step.take? steps' → ∀ config : SearchConfig,
        s.command config = s'.command config ∧ s.countCommand config = s'.countCommand config := by
  refine ⟨fun schema steps => ⟨?_, ?_⟩, ?_⟩
  · simp only [run_eq_ok_iff, exists_and_left, exists_eq, and_true]
    constructor
    · intro hfits name order hmem
      obtain ⟨key, hkey⟩ := hfits _ hmem
      obtain ⟨f, hf, hsortable, _⟩ := sortKey?_eq_some_iff.mp hkey
      exact ⟨f, hf, hsortable⟩
    · intro hsortable step hmem
      cases step with
      | sort name order =>
          obtain ⟨f, hf, hopen⟩ := hsortable name order hmem
          exact ⟨_, sortKey?_eq_some_iff.mpr ⟨f, hf, hopen, rfl⟩⟩
      | _ => trivial
  · intro s hrun config
    obtain ⟨hfits, rfl⟩ := run_eq_ok_iff.mp hrun
    exact ⟨_, _, rfl, rfl, isSortBlock_ofSteps hfits config, isParamBlock_ofSteps config⟩
  · intro schema steps steps' s s' hrun hrun' hfilters hsort hskip htake config
    obtain ⟨_, rfl⟩ := run_eq_ok_iff.mp hrun
    obtain ⟨_, rfl⟩ := run_eq_ok_iff.mp hrun'
    have hstream : ofSteps schema steps = ofSteps schema steps' := by
      simp only [ofSteps, hfilters, hsort, hskip, htake]
    rw [hstream]
    exact ⟨rfl, rfl⟩

/-- Steps that are overwritten later, and steps in another order, leave the commands alone. -/
theorem commands_of_steps_interleaved :
    let age : Field := ⟨"age", "years", .numeric, true, by decide, by decide, by decide⟩
    let place : Field := ⟨"place", "place", .vector { dimension := 1 }, false,
      by decide, by decide, by decide⟩
    let schema : Schema := ⟨"people", "id", [age, place]⟩
    let present : Predicate := ⟨age, .notEqual, .noneOf [.missing]⟩
    let clause : KnnClause := ⟨"place", 2, [⟨0⟩], .float32, .l2, none⟩
    let near : Predicate := ⟨place, .vectorSimilarity, .nearest clause⟩
    let steps : List Step := [.take 5, .filter present, .sort "age" .asc, .skip 10, .filter near,
      .sort "age" .desc, .skip 20]
    let steps' : List Step := [.skip 20, .sort "age" .desc, .filter present, .filter near, .take 5]
    ∃ s s', run schema steps = .ok s ∧ run schema steps' = .ok s' ∧
      s.command .default = s'.command .default ∧
      ∃ query, s.command .default =
        [text "FT.SEARCH", text "people", text query, text "SORTBY", text "years", text "DESC",
          text "LIMIT", nat 20, nat 5, text "PARAMS", nat 2, text "vector_blob",
          octets [0, 0, 0, 0], text "DIALECT", nat 3] := by
  intro age place schema present clause near steps steps'
  have hrun : run schema steps = .ok (ofSteps schema steps) := rfl
  have hrun' : run schema steps' = .ok (ofSteps schema steps') := rfl
  have hsame := commands_of_steps.2 schema steps steps' _ _ hrun hrun' rfl rfl rfl rfl .default
  obtain ⟨sort, params, hcommand, -, hsort, hparams⟩ :=
    (commands_of_steps.1 schema steps).2 _ hrun .default
  obtain ⟨f, hf, -, rfl⟩ := hsort.sorted "age" .desc rfl
  cases Except.ok.inj (hf.symm.trans (show schema.field "age" = .ok age from rfl))
  cases hparams.vector clause rfl
  exact ⟨_, _, hrun, hrun', hsame.1, _, hcommand⟩

end SearchStream

end IndexQuery

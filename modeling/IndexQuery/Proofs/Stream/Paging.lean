import IndexQuery.Command
import IndexQuery.Proofs.Filter.Resolution
import Mathlib.Data.Finset.Union
import Mathlib.Data.Set.Pairwise.Basic
import Mathlib.Order.Interval.Finset.Nat
import Mathlib.Tactic.Choose
set_option autoImplicit false

/-! # Pages

The size of a page is clamped twice, once to place the page and once to send it. Clamping a second
time changes nothing (`clampPageSize_clampPageSize`), so both work with the same size, and pages
neither overlap nor leave anything out between them (`pairwiseDisjoint_pageRange`,
`biUnion_pageRange`). An offset that does not fit into a word of 64 bits is the largest word; no
other step of the computation comes near the end of the words (`window_of_words`). The main
statement is `pages_tile`. -/

namespace IndexQuery

/-! ## Sizes -/

namespace SearchConfig

variable (config : SearchConfig) (requested : Option Nat)

theorem one_le_clampPageSize : 1 ≤ config.clampPageSize requested :=
  Nat.le_max_left _ _

theorem clampPageSize_le : config.clampPageSize requested ≤ max 1 config.maxPageSize := by
  unfold clampPageSize
  omega

theorem clampPageSize_clampPageSize :
    config.clampPageSize (some (config.clampPageSize requested))
      = config.clampPageSize requested := by
  simp only [clampPageSize, Option.getD_some]
  omega

end SearchConfig

/-! ## Windows -/

namespace Page

/-- The places of the results in a window, counted from zero. -/
def positions (w : Page) : Finset Nat := Finset.Ico w.offset (w.offset + w.size)

/-- The places on a page, pages being numbered from one. -/
def pageRange (size page : Nat) : Finset Nat := Finset.Ico ((page - 1) * size) (page * size)

/-- The window of a page holds its places, if they all have numbers. -/
theorem positions_numbered {page size : Nat} (hpage : 1 ≤ page) (hfits : page * size ≤ maxOffset) :
    (numbered page size).positions = pageRange size page := by
  have hstart : (page - 1) * size + size = page * size := by
    rw [← Nat.succ_mul]
    congr 1
    omega
  unfold positions numbered pageRange
  simp only [Nat.min_eq_left (show (page - 1) * size ≤ maxOffset by omega), hstart]

/-- Two pages share no place: the earlier one ends before the later one starts. -/
theorem pairwiseDisjoint_pageRange (size : Nat) (pages : Set Nat) :
    pages.PairwiseDisjoint (pageRange size) := by
  have hbefore : ∀ {p q : Nat}, p < q → Disjoint (pageRange size p) (pageRange size q) := by
    intro p q hlt
    have hend : p * size ≤ (q - 1) * size := Nat.mul_le_mul_right size (by omega)
    refine Finset.disjoint_left.mpr fun k hp hq => ?_
    have hkp := (Finset.mem_Ico.mp hp).2
    have hkq := (Finset.mem_Ico.mp hq).1
    omega
  intro p _ q _ hne
  rcases Nat.lt_or_gt_of_ne hne with hlt | hgt
  · exact hbefore hlt
  · exact (hbefore hgt).symm

/-- The first pages hold every place up to the end of the last of them. -/
theorem biUnion_pageRange {size : Nat} (hsize : 1 ≤ size) (count : Nat) :
    (Finset.Icc 1 count).biUnion (pageRange size) = Finset.range (count * size) := by
  ext k
  simp only [Finset.mem_biUnion, Finset.mem_Icc, Finset.mem_range, pageRange, Finset.mem_Ico]
  constructor
  · rintro ⟨p, ⟨_, hp⟩, _, hk⟩
    exact Nat.lt_of_lt_of_le hk (Nat.mul_le_mul_right size hp)
  · intro hk
    -- the page of a place is found by division
    have hpage : k / size < count := Nat.div_lt_of_lt_mul (by rwa [Nat.mul_comm])
    refine ⟨k / size + 1, ⟨Nat.le_add_left _ _, hpage⟩, ?_, ?_⟩
    · exact Nat.div_mul_le_self k size
    · exact Nat.lt_mul_of_div_lt (Nat.lt_succ_self _) hsize

end Page

/-! ## Windows in words -/

namespace Word

/-- A word moved between two bounds. There is no result for bounds in the wrong order. -/
def clamp? (x lower upper : UInt64) : Option UInt64 :=
  if lower ≤ upper then some (max lower (min x upper)) else none

/-- Subtraction that stops at zero. -/
def sub (a b : UInt64) : UInt64 := if b ≤ a then a - b else 0

/-- Multiplication that stops at the largest word. -/
def mul (a b : UInt64) : UInt64 :=
  if a.toNat * b.toNat ≤ maxOffset then a * b else UInt64.ofNat maxOffset

/-- Offset and size of a page, computed in words from the limits of the settings and from what was
asked for. The size is clamped when the page is placed, and again when it is sent. -/
def window? (default most : UInt64) (page pageSize : Option UInt64) :
    Option (UInt64 × UInt64) := do
  let size ← clamp? (pageSize.getD default) 1 (max most 1)
  let offset := mul (sub (max (page.getD 1) 1) 1) size
  let sent ← clamp? size 1 (max most 1)
  some (offset, sent)

theorem toNat_max (a b : UInt64) : (max a b).toNat = max a.toNat b.toNat := by
  show (if a ≤ b then b else a).toNat = _
  split <;> rename_i h <;> rw [UInt64.le_iff_toNat_le] at h <;> omega

theorem toNat_min (a b : UInt64) : (min a b).toNat = min a.toNat b.toNat := by
  show (if a ≤ b then a else b).toNat = _
  split <;> rename_i h <;> rw [UInt64.le_iff_toNat_le] at h <;> omega

theorem toNat_sub (a b : UInt64) : (sub a b).toNat = a.toNat - b.toNat := by
  unfold sub
  split
  · next h => exact UInt64.toNat_sub_of_le _ _ h
  · next h =>
      rw [UInt64.le_iff_toNat_le] at h
      rw [UInt64.toNat_zero]
      omega

theorem toNat_mul (a b : UInt64) : (mul a b).toNat = min (a.toNat * b.toNat) maxOffset := by
  unfold mul
  split
  · next h =>
      have hlt : a.toNat * b.toNat < 2 ^ 64 := Nat.lt_of_le_of_lt h (by decide)
      rw [UInt64.toNat_mul, Nat.mod_eq_of_lt hlt, Nat.min_eq_left h]
  · next h =>
      rw [Nat.min_eq_right (by omega)]
      rfl

/-- One is a lower bound for every size limit, so clamping has a result. -/
theorem clamp?_eq_some (x most : UInt64) :
    ∃ size, clamp? x 1 (max most 1) = some size ∧
      size.toNat = max 1 (min x.toNat (max most.toNat 1)) := by
  have horder : (1 : UInt64) ≤ max most 1 := by
    rw [UInt64.le_iff_toNat_le, toNat_max]
    exact Nat.le_max_right _ _
  refine ⟨_, if_pos horder, ?_⟩
  rw [toNat_max, toNat_min, toNat_max]
  rfl

end Word

namespace SearchStream

/-- The window a stream sends. -/
def page (s : SearchStream) (config : SearchConfig) : Page :=
  ⟨s.offset, config.clampPageSize s.limit⟩

end SearchStream

namespace FilterQuery

/-! ## The window of a query -/

/-- Whatever else a query asks for, its stream has the schema and the window of the query. -/
theorem window_of_stream {q : FilterQuery} {schema : Schema} {config : SearchConfig}
    {s : SearchStream} (h : q.stream schema config = .ok s) :
    s.schema = schema ∧ s.offset = (q.window schema config).offset ∧
      s.limit = (q.window schema config).limit := by
  obtain ⟨sort, ps, _, _, rfl⟩ := stream_eq_ok_iff.mp h
  exact ⟨rfl, rfl, rfl⟩

/-- A query that has a stream has one on every page. -/
theorem stream_onPage {q : FilterQuery} {schema : Schema} {config : SearchConfig}
    {s : SearchStream} (h : q.stream schema config = .ok s) (page : Option Nat) :
    ∃ t, { q with page := page }.stream schema config = .ok t := by
  obtain ⟨sort, ps, hsort, hps, _⟩ := stream_eq_ok_iff.mp h
  exact ⟨_, stream_eq_ok_iff.mpr ⟨sort, ps, hsort, hps, rfl⟩⟩

/-- Size and offset of the window that is sent. -/
theorem page_of_stream {q : FilterQuery} {schema : Schema} {config : SearchConfig}
    {s : SearchStream} (h : q.stream schema config = .ok s) :
    s.page config = Page.numbered (max (q.page.getD 1) 1) (config.clampPageSize q.pageSize) := by
  obtain ⟨_, hoffset, hlimit⟩ := window_of_stream h
  unfold SearchStream.page
  rw [hoffset, hlimit]
  show Page.mk _ (config.clampPageSize (some (config.clampPageSize q.pageSize))) = _
  rw [config.clampPageSize_clampPageSize]
  rfl

/-- The computation in words gives the window that is sent. -/
theorem window_of_words (default most : UInt64) (page pageSize : Option UInt64)
    (config : SearchConfig) (hdefault : config.defaultPageSize = default.toNat)
    (hmost : config.maxPageSize = most.toNat) :
    ∃ offset size, Word.window? default most page pageSize = some (offset, size) ∧
      Page.numbered (max ((page.map UInt64.toNat).getD 1) 1)
        (config.clampPageSize (pageSize.map UInt64.toNat)) = ⟨offset.toNat, size.toNat⟩ := by
  obtain ⟨size, hsize, hclamped⟩ := Word.clamp?_eq_some (pageSize.getD default) most
  obtain ⟨sent, hsent, hagain⟩ := Word.clamp?_eq_some size most
  have hrequested : (pageSize.getD default).toNat
      = (pageSize.map UInt64.toNat).getD config.defaultPageSize := by
    rw [hdefault]
    cases pageSize <;> rfl
  have hpage : (page.getD 1).toNat = (page.map UInt64.toNat).getD 1 := by
    cases page <;> rfl
  have hconfig : config.clampPageSize (pageSize.map UInt64.toNat) = size.toNat := by
    unfold SearchConfig.clampPageSize
    rw [hclamped, hrequested, hmost]
  have hsame : sent.toNat = size.toNat := by omega
  refine ⟨Word.mul (Word.sub (max (page.getD 1) 1) 1) size, sent, ?_, ?_⟩
  · simp only [Word.window?, hsize, hsent, bind, Option.bind]
  · rw [hconfig, hsame, Word.toNat_mul, Word.toNat_sub, Word.toNat_max, hpage]
    rfl

open Argument (text nat)

/-- Pages tile the results. A page size is clamped into its limits, and clamping it again does not
move it; so the window sent for a page has the clamped size, and starts where as many earlier pages
of this size end, or at the largest offset. The first pages, as long as their places have numbers,
follow on each other without overlap and hold every place up to the end of the last one. In words of
64 bits the limits of a clamp are always in order, and the window is the same. -/
theorem pages_tile :
    (∀ (config : SearchConfig) (requested : Option Nat),
      let n := config.clampPageSize requested
      1 ≤ n ∧ n ≤ max 1 config.maxPageSize ∧ config.clampPageSize (some n) = n) ∧
    (∀ (config : SearchConfig) (schema : Schema) (q : FilterQuery) (s : SearchStream),
      q.stream schema config = .ok s →
      let n := config.clampPageSize q.pageSize
      s.page config = ⟨min ((max (q.page.getD 1) 1 - 1) * n) maxOffset, n⟩ ∧
      s.command config =
        [text "FT.SEARCH", text schema.index, text (s.rendered config).query] ++
          Command.sortPart s.compile s.sort config ++
          [text "LIMIT", nat (s.page config).offset, nat (s.page config).size] ++
          Command.paramPart (s.rendered config).params ++ [text "DIALECT", nat config.dialect] ∧
      ∀ count, count * n ≤ maxOffset → ∃ pages : Nat → SearchStream,
        (∀ p, { q with page := some p }.stream schema config = .ok (pages p)) ∧
        (∀ p, 1 ≤ p → p ≤ count →
          ((pages p).page config).positions = Finset.Ico ((p - 1) * n) (p * n)) ∧
        (Finset.Icc 1 count : Set Nat).PairwiseDisjoint
          (fun p => ((pages p).page config).positions) ∧
        (Finset.Icc 1 count).biUnion (fun p => ((pages p).page config).positions)
          = Finset.range (count * n)) ∧
    ∀ (default most : UInt64) (page pageSize : Option UInt64) (config : SearchConfig),
      config.defaultPageSize = default.toNat → config.maxPageSize = most.toNat →
      ∃ offset size, Word.window? default most page pageSize = some (offset, size) ∧
        ∀ (schema : Schema) (q : FilterQuery) (s : SearchStream),
          q.page = page.map UInt64.toNat → q.pageSize = pageSize.map UInt64.toNat →
          q.stream schema config = .ok s → s.page config = ⟨offset.toNat, size.toNat⟩ := by
  refine ⟨fun config requested => ⟨config.one_le_clampPageSize requested,
    config.clampPageSize_le requested, config.clampPageSize_clampPageSize requested⟩, ?_, ?_⟩
  · intro config schema q s hs n
    obtain ⟨hschema, _, _⟩ := window_of_stream hs
    refine ⟨page_of_stream hs, ?_, ?_⟩
    · rw [← hschema]
      rfl
    · intro count hcount
      choose pages hpages using fun p => stream_onPage hs (some p)
      have hwindow : ∀ p ∈ Finset.Icc 1 count,
          ((pages p).page config).positions = Page.pageRange n p := by
        intro p hp
        obtain ⟨hfirst, hlast⟩ := Finset.mem_Icc.mp hp
        have hpage : max ((some p).getD 1) 1 = p := Nat.max_eq_left hfirst
        have hfits : p * n ≤ maxOffset := Nat.le_trans (Nat.mul_le_mul_right n hlast) hcount
        rw [page_of_stream (hpages p), hpage, Page.positions_numbered hfirst hfits]
      refine ⟨pages, hpages, ?_, ?_, ?_⟩
      · intro p hfirst hlast
        exact hwindow p (Finset.mem_Icc.mpr ⟨hfirst, hlast⟩)
      · intro p hp q hq hne
        show Disjoint ((pages p).page config).positions ((pages q).page config).positions
        rw [hwindow p hp, hwindow q hq]
        exact Page.pairwiseDisjoint_pageRange n Set.univ trivial trivial hne
      · rw [← Page.biUnion_pageRange (config.one_le_clampPageSize q.pageSize)]
        exact Finset.biUnion_congr rfl hwindow
  · intro default most page pageSize config hdefault hmost
    obtain ⟨offset, size, hwords, hwindow⟩ :=
      window_of_words default most page pageSize config hdefault hmost
    refine ⟨offset, size, hwords, fun schema q s hpage hsize hs => ?_⟩
    rw [page_of_stream hs, hpage, hsize, hwindow]

/-- Four pages of a size that is asked for in vain, and the third of them. -/
theorem pages_tile_four_pages :
    let schema : Schema := ⟨"people", "id", []⟩
    let q : FilterQuery := { page := some 3, pageSize := some 1000 }
    ∃ s, q.stream schema .default = .ok s ∧ s.page .default = ⟨200, 100⟩ ∧
      4 * SearchConfig.default.clampPageSize q.pageSize ≤ maxOffset ∧
      (∃ pages : Nat → SearchStream,
        (∀ p, { q with page := some p }.stream schema .default = .ok (pages p)) ∧
        (Finset.Icc 1 4).biUnion (fun p => ((pages p).page .default).positions)
          = Finset.range 400) ∧
      ∃ offset size, Word.window? 25 100 (some 3) (some 1000) = some (offset, size) ∧
        s.page .default = ⟨offset.toNat, size.toNat⟩ := by
  intro schema q
  have hs : q.stream schema .default = .ok (q.window schema .default) := rfl
  have hcount : 4 * SearchConfig.default.clampPageSize q.pageSize ≤ maxOffset := by decide
  obtain ⟨hpage, -, htiles⟩ := pages_tile.2.1 .default schema q _ hs
  obtain ⟨pages, hpages, -, -, hunion⟩ := htiles 4 hcount
  obtain ⟨offset, size, hwords, hpageOf⟩ :=
    pages_tile.2.2 25 100 (some 3) (some 1000) .default rfl rfl
  exact ⟨_, hs, hpage, hcount, ⟨pages, hpages, hunion⟩, offset, size, hwords,
    hpageOf schema q _ rfl rfl hs⟩

end FilterQuery

end IndexQuery

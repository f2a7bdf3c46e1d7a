import IndexQuery.CommandLine.Console
import IndexQuery.Proofs.Filter.Unranked
import IndexQuery.Proofs.Text.Trimming
import Mathlib
set_option autoImplicit false

/-! # The stages of a compilation

A request to compile is carried out in five stages: the settings, the schema, the sort argument, the
stream, and the documents. Each stage is either passed or left with a failure (`ReadsConfig`,
`FileHolds`, `ParsesSort`, `ReadsDocuments` and their counterparts), and the failure of the first
stage that is not passed is reported (`FirstFailure`). The program ends with the code 0 exactly when
all stages are passed. Where reports are shown as JSON, nothing else is printed: no output at all
after a failure, and a single report otherwise, in which the query, both commands, the tree and the
selected documents belong together (`IsReport`). Textual filters ask for no neighbours, so selecting
documents is never given up (`exists_report`). The main statement is `staged_run`. -/

namespace IndexQuery.CommandLine

/-! ## Files -/

section

variable {α : Type}

/-- There is a file at the path, and it holds something that can be used. -/
inductive FileHolds (files : Files) (parse : String → Except SettingsError α) (path : String)
    (a : α) : Prop
  | intro {source : String} : files path = .ok source → parse source = .ok a →
      FileHolds files parse path a

/-- Why a file holds nothing that can be used. -/
inductive FileFails (files : Files) (parse : String → Except SettingsError α) (path : String)
    (unread : String → ReadFailure → CompileFailure)
    (unusable : String → SettingsError → CompileFailure) : CompileFailure → Prop
  | unread {failure : ReadFailure} : files path = .error failure →
      FileFails files parse path unread unusable (unread path failure)
  | unusable {source : String} {error : SettingsError} : files path = .ok source →
      parse source = .error error → FileFails files parse path unread unusable (unusable path error)

variable {files : Files} {parse : String → Except SettingsError α} {path : String}
  {unread : String → ReadFailure → CompileFailure}
  {unusable : String → SettingsError → CompileFailure} {a : α} {f : CompileFailure}

/-- Reading a file and using what it holds. -/
def loadFile (files : Files) (parse : String → Except SettingsError α) (path : String)
    (unread : String → ReadFailure → CompileFailure)
    (unusable : String → SettingsError → CompileFailure) : Except CompileFailure α :=
  ((files path).mapError (unread path)).bind fun source =>
    (parse source).mapError (unusable path)

theorem loadFile_eq_ok_iff :
    loadFile files parse path unread unusable = .ok a ↔ FileHolds files parse path a := by
  unfold loadFile
  simp only [bind_eq_ok_iff, mapError_eq_ok_iff]
  constructor
  · rintro ⟨source, hfile, hparse⟩
    exact .intro hfile hparse
  · rintro ⟨hfile, hparse⟩
    exact ⟨_, hfile, hparse⟩

theorem loadFile_eq_error_iff :
    loadFile files parse path unread unusable = .error f ↔
      FileFails files parse path unread unusable f := by
  unfold loadFile
  simp only [bind_eq_error_iff, mapError_eq_ok_iff, mapError_eq_error_iff]
  constructor
  · rintro (⟨failure, hfile, rfl⟩ | ⟨source, hfile, error, hparse, rfl⟩)
    · exact .unread hfile
    · exact .unusable hfile hparse
  · intro h
    cases h with
    | unread hfile => exact .inl ⟨_, hfile, rfl⟩
    | unusable hfile hparse => exact .inr ⟨_, hfile, _, hparse, rfl⟩

end

/-! ## Single stages -/

variable {files : Files} {r : CompileRequest} {f : CompileFailure}

/-- The settings of a request: those at the path, or the default ones. -/
inductive ReadsConfig (files : Files) : Option String → SearchConfig → Prop
  | default : ReadsConfig files none .default
  | file {path : String} {config : SearchConfig} :
      FileHolds files SearchConfig.ofToml path config → ReadsConfig files (some path) config

theorem loadConfig_eq_ok_iff {path? : Option String} {config : SearchConfig} :
    loadConfig files path? = .ok config ↔ ReadsConfig files path? config := by
  cases path? with
  | none =>
      constructor
      · rintro ⟨⟩
        exact .default
      · rintro ⟨⟩
        rfl
  | some path =>
      have hload : loadConfig files (some path) =
          loadFile files SearchConfig.ofToml path .configUnread .configUnusable := rfl
      rw [hload, loadFile_eq_ok_iff]
      constructor
      · exact .file
      · rintro ⟨⟩
        assumption

theorem loadConfig_eq_error_iff {path? : Option String} :
    loadConfig files path? = .error f ↔ ∃ path, path? = some path ∧
      FileFails files SearchConfig.ofToml path .configUnread .configUnusable f := by
  cases path? with
  | none => simp [loadConfig]
  | some path =>
      have hload : loadConfig files (some path) =
          loadFile files SearchConfig.ofToml path .configUnread .configUnusable := rfl
      rw [hload, loadFile_eq_error_iff]
      simp

/-- What a sort argument says: the name of a field, and a direction if there is a colon. -/
inductive ParsesSort : Option String → Option String × Option SortOrder → Prop
  | absent : ParsesSort none (none, none)
  | name {raw : String} : ':' ∉ raw.toList →
      ParsesSort (some raw) (some (String.ofList (Text.trim raw.toList)), none)
  | directed {raw : String} {name word : List Char} {order : SortOrder} :
      raw.toList = name ++ ':' :: word → ':' ∉ name →
      SortOrder.ofText? (String.ofList word) = some order →
      ParsesSort (some raw) (some (String.ofList (Text.trim name)), some order)

/-- What is wrong with a sort argument: what stands behind its colon is no direction. -/
inductive SortFails : Option String → CompileFailure → Prop
  | intro {raw : String} {name word : List Char} : raw.toList = name ++ ':' :: word →
      ':' ∉ name → SortOrder.ofText? (String.ofList word) = none →
      SortFails (some raw) (.sortOrder (String.ofList word))

theorem sortKey_of_parses {raw? : Option String} {key : Option String × Option SortOrder}
    (h : ParsesSort raw? key) : sortKey raw? = .ok key := by
  cases h with
  | absent => rfl
  | name hcolon => simp only [sortKey, Text.splitFirst_eq_none_iff.mpr hcolon]
  | directed hraw hname horder =>
      simp only [sortKey, Text.splitFirst_eq_some_iff.mpr ⟨hraw, hname⟩, horder]

theorem sortKey_of_fails {raw? : Option String} (h : SortFails raw? f) :
    sortKey raw? = .error f := by
  cases h with
  | intro hraw hname horder =>
      simp only [sortKey, Text.splitFirst_eq_some_iff.mpr ⟨hraw, hname⟩, horder]

theorem parses_or_fails (raw? : Option String) :
    (∃ key, ParsesSort raw? key) ∨ ∃ f, SortFails raw? f := by
  cases raw? with
  | none => exact .inl ⟨_, .absent⟩
  | some raw =>
      cases hcut : Text.splitFirst ':' raw.toList with
      | none => exact .inl ⟨_, .name (Text.splitFirst_eq_none_iff.mp hcut)⟩
      | some parts =>
          obtain ⟨name, word⟩ := parts
          obtain ⟨hraw, hname⟩ := Text.splitFirst_eq_some_iff.mp hcut
          cases horder : SortOrder.ofText? (String.ofList word) with
          | none => exact .inr ⟨_, .intro hraw hname horder⟩
          | some order => exact .inl ⟨_, .directed hraw hname horder⟩

theorem sortKey_eq_ok_iff {raw? : Option String} {key : Option String × Option SortOrder} :
    sortKey raw? = .ok key ↔ ParsesSort raw? key :=
  eq_ok_iff_of_cases (fun _ => sortKey_of_parses) (fun _ => sortKey_of_fails) (parses_or_fails raw?)

theorem sortKey_eq_error_iff {raw? : Option String} :
    sortKey raw? = .error f ↔ SortFails raw? f :=
  eq_error_iff_of_cases (fun _ => sortKey_of_parses) (fun _ => sortKey_of_fails)
    (parses_or_fails raw?)

/-- The documents of a request, if it names any: a list in JSON. -/
inductive ReadsDocuments (files : Files) : Option String → Option (List Datum) → Prop
  | absent : ReadsDocuments files none none
  | file {path source : String} {docs : List Datum} : files path = .ok source →
      Datum.ofJson? source.toList = some (.list docs) →
      ReadsDocuments files (some path) (some docs)

/-- Why documents cannot be used: their file cannot be read, or it holds no list in JSON. -/
inductive DocumentsFail (files : Files) : Option String → CompileFailure → Prop
  | unread {path : String} {failure : ReadFailure} : files path = .error failure →
      DocumentsFail files (some path) (.documentsUnread path failure)
  | unusable {path source : String} : files path = .ok source →
      (∀ docs, Datum.ofJson? source.toList ≠ some (.list docs)) →
      DocumentsFail files (some path) (.documentsUnusable path)

theorem list?_eq_some_iff {found : Option Datum} {docs : List Datum} :
    found.bind Datum.list? = some docs ↔ found = some (.list docs) := by
  cases found with
  | none => simp
  | some d => cases d <;> simp [Datum.list?]

/-- Reading documents, with a list or nothing found in the file. -/
theorem loadDocuments_some (files : Files) (path : String) :
    loadDocuments files (some path) =
      ((files path).mapError (.documentsUnread path)).bind fun source =>
        match (Datum.ofJson? source.toList).bind Datum.list? with
        | none => .error (.documentsUnusable path)
        | some docs => .ok (some docs) := rfl

theorem loadDocuments_of_reads {path? : Option String} {docs : Option (List Datum)}
    (h : ReadsDocuments files path? docs) : loadDocuments files path? = .ok docs := by
  cases h with
  | absent => rfl
  | file hfile hdocs =>
      rw [loadDocuments_some, hfile]
      simp only [Except.mapError, Except.bind, list?_eq_some_iff.mpr hdocs]

theorem loadDocuments_of_fails {path? : Option String} (h : DocumentsFail files path? f) :
    loadDocuments files path? = .error f := by
  cases h with
  | unread hfile =>
      rw [loadDocuments_some, hfile]
      rfl
  | @unusable path source hfile hnone =>
      have hfound : (Datum.ofJson? source.toList).bind Datum.list? = none :=
        Option.eq_none_iff_forall_ne_some.mpr fun docs => mt list?_eq_some_iff.mp (hnone docs)
      rw [loadDocuments_some, hfile]
      simp only [Except.mapError, Except.bind, hfound]

theorem reads_or_documentsFail (files : Files) (path? : Option String) :
    (∃ docs, ReadsDocuments files path? docs) ∨ ∃ f, DocumentsFail files path? f := by
  cases path? with
  | none => exact .inl ⟨_, .absent⟩
  | some path =>
      cases hfile : files path with
      | error failure => exact .inr ⟨_, .unread hfile⟩
      | ok source =>
          by_cases hdocs : ∃ docs, Datum.ofJson? source.toList = some (.list docs)
          · obtain ⟨docs, hdocs⟩ := hdocs
            exact .inl ⟨_, .file hfile hdocs⟩
          · exact .inr ⟨_, .unusable hfile (not_exists.mp hdocs)⟩

/-! ## All stages -/

/-- All stages before the documents are passed. -/
inductive Prepared (files : Files) (r : CompileRequest) (c : Compilation) : Prop
  | intro {schema : Schema} {key : Option String × Option SortOrder} :
      ReadsConfig files r.config c.config → FileHolds files Schema.ofToml r.schema schema →
      ParsesSort r.sort key →
      FilterQuery.stream ⟨r.page, r.pageSize, key.1, key.2, r.filters⟩ schema c.config
        = .ok c.stream → Prepared files r c

/-- The failure of the first stage before the documents that is not passed. -/
inductive PreparationFails (files : Files) (r : CompileRequest) : CompileFailure → Prop
  | config {path : String} {f : CompileFailure} : r.config = some path →
      FileFails files SearchConfig.ofToml path .configUnread .configUnusable f →
      PreparationFails files r f
  | schema {config : SearchConfig} {f : CompileFailure} : ReadsConfig files r.config config →
      FileFails files Schema.ofToml r.schema .schemaUnread .schemaUnusable f →
      PreparationFails files r f
  | sort {config : SearchConfig} {schema : Schema} {f : CompileFailure} :
      ReadsConfig files r.config config → FileHolds files Schema.ofToml r.schema schema →
      SortFails r.sort f → PreparationFails files r f
  | stream {config : SearchConfig} {schema : Schema} {key : Option String × Option SortOrder}
      {e : QueryError} : ReadsConfig files r.config config →
      FileHolds files Schema.ofToml r.schema schema → ParsesSort r.sort key →
      FilterQuery.stream ⟨r.page, r.pageSize, key.1, key.2, r.filters⟩ schema config = .error e →
      PreparationFails files r (.stream e)

/-- The failure of the first stage that is not passed. -/
inductive FirstFailure (files : Files) (r : CompileRequest) (f : CompileFailure) : Prop
  | preparation : PreparationFails files r f → FirstFailure files r f
  | documents {c : Compilation} : Prepared files r c → DocumentsFail files r.documents f →
      FirstFailure files r f

/-- The stages before the documents, one after the other. -/
theorem prepare_eq (files : Files) (r : CompileRequest) :
    r.prepare files = (loadConfig files r.config).bind fun config =>
      (loadSchema files r.schema).bind fun schema => (sortKey r.sort).bind fun key =>
        ((FilterQuery.stream ⟨r.page, r.pageSize, key.1, key.2, r.filters⟩ schema config).mapError
          .stream).bind fun stream => .ok ⟨config, stream⟩ := rfl

theorem loadSchema_eq (files : Files) (path : String) :
    loadSchema files path = loadFile files Schema.ofToml path .schemaUnread .schemaUnusable := rfl

theorem prepare_eq_ok_iff {c : Compilation} : r.prepare files = .ok c ↔ Prepared files r c := by
  simp only [prepare_eq, loadSchema_eq, bind_eq_ok_iff, mapError_eq_ok_iff, loadConfig_eq_ok_iff,
    loadFile_eq_ok_iff, sortKey_eq_ok_iff]
  constructor
  · rintro ⟨config, hconfig, schema, hschema, key, hkey, stream, hstream, hc⟩
    cases hc
    exact .intro hconfig hschema hkey hstream
  · rintro ⟨hconfig, hschema, hkey, hstream⟩
    exact ⟨_, hconfig, _, hschema, _, hkey, _, hstream, rfl⟩

theorem prepare_eq_error_iff : r.prepare files = .error f ↔ PreparationFails files r f := by
  simp only [prepare_eq, loadSchema_eq, bind_eq_error_iff, mapError_eq_error_iff,
    loadConfig_eq_ok_iff, loadConfig_eq_error_iff, loadFile_eq_ok_iff, loadFile_eq_error_iff,
    sortKey_eq_ok_iff, sortKey_eq_error_iff]
  constructor
  · rintro (⟨path, hpath, hfails⟩ | ⟨config, hconfig, h⟩)
    · exact .config hpath hfails
    · rcases h with hfails | ⟨schema, hschema, h⟩
      · exact .schema hconfig hfails
      · rcases h with hfails | ⟨key, hkey, h⟩
        · exact .sort hconfig hschema hfails
        · rcases h with ⟨e, hstream, rfl⟩ | ⟨stream, -, h⟩
          · exact .stream hconfig hschema hkey hstream
          · cases h
  · intro h
    cases h with
    | config hpath hfails => exact .inl ⟨_, hpath, hfails⟩
    | schema hconfig hfails => exact .inr ⟨_, hconfig, .inl hfails⟩
    | sort hconfig hschema hfails => exact .inr ⟨_, hconfig, .inr ⟨_, hschema, .inl hfails⟩⟩
    | stream hconfig hschema hkey hstream =>
        exact .inr ⟨_, hconfig, .inr ⟨_, hschema, .inr ⟨_, hkey, .inl ⟨_, hstream, rfl⟩⟩⟩⟩

/-- All stages are passed, or there is a first one that is not. -/
theorem passes_or_fails (files : Files) (r : CompileRequest) :
    (∃ c docs, Prepared files r c ∧ ReadsDocuments files r.documents docs) ∨
      ∃ f, FirstFailure files r f := by
  cases hprepare : r.prepare files with
  | error f => exact .inr ⟨f, .preparation (prepare_eq_error_iff.mp hprepare)⟩
  | ok c =>
      have hc := prepare_eq_ok_iff.mp hprepare
      rcases reads_or_documentsFail files r.documents with ⟨docs, hdocs⟩ | ⟨f, hfails⟩
      · exact .inl ⟨c, docs, hc, hdocs⟩
      · exact .inr ⟨f, .documents hc hfails⟩

/-- There is only one first stage that is not passed. -/
theorem FirstFailure.unique {g : CompileFailure} (hf : FirstFailure files r f)
    (hg : FirstFailure files r g) : f = g := by
  have hstages : ∀ h, FirstFailure files r h →
      (r.prepare files).bind (fun _ => loadDocuments files r.documents) = .error h := by
    intro h hfirst
    cases hfirst with
    | preparation hfails => rw [prepare_eq_error_iff.mpr hfails]; rfl
    | documents hc hfails =>
        rw [prepare_eq_ok_iff.mpr hc]
        exact loadDocuments_of_fails hfails
  exact Except.error.inj ((hstages f hf).symm.trans (hstages g hg))

/-! ## Reports -/

/-- A record that reports on a compilation. The query text is that of the tree, and both commands
search for it; documents are selected by the tree, if there are any, and otherwise none are
shown. -/
structure IsReport (c : Compilation) (docs : Option (List Datum)) (d : Datum) : Prop where
  keys : ∃ entries, d = .record entries ∧ entries.map Prod.fst =
    ["index", "query", "params", "command", "count_command", "tree"] ++
      if docs.isSome then ["selected"] else []
  query : d.get? "query" = some (.text (c.stream.compile.rendered c.config).query)
  command : ∃ args, d.get? "command" = some (.texts args) ∧
    args[2]? = some (c.stream.compile.rendered c.config).query
  countCommand : ∃ args, d.get? "count_command" = some (.texts args) ∧
    args[2]? = some (c.stream.compile.rendered c.config).query
  tree : d.get? "tree" = some c.stream.compile.toDatum
  selected : ∃ selected, docs.mapM c.stream.compile.select = some selected ∧
    d.get? "selected" = selected.map .list

theorem isSome_of_readsDocuments {path? : Option String} {docs : Option (List Datum)}
    (h : ReadsDocuments files path? docs) : docs.isSome = path?.isSome := by
  cases h <;> rfl

theorem isReport_toDatum {c : Compilation} {docs : Option (List Datum)} {report : Report}
    (h : c.reportOn docs = some report) : IsReport c docs report.toDatum := by
  obtain ⟨selected, hselected, hreport⟩ := Option.bind_eq_some_iff.mp h
  cases hreport
  cases docs with
  | none =>
      cases hselected
      exact ⟨⟨_, rfl, rfl⟩, rfl, ⟨_, rfl, rfl⟩, ⟨_, rfl, rfl⟩, rfl, none, rfl, rfl⟩
  | some docs =>
      obtain ⟨chosen, -, rfl⟩ := Option.map_eq_some_iff.mp hselected
      exact ⟨⟨_, rfl, rfl⟩, rfl, ⟨_, rfl, rfl⟩, ⟨_, rfl, rfl⟩, rfl, some chosen, hselected, rfl⟩

/-- There is a report on every compilation of textual filters. -/
theorem exists_report {c : Compilation} (hc : Prepared files r c) (docs : Option (List Datum)) :
    ∃ report, c.reportOn docs = some report := by
  obtain ⟨-, -, -, hstream⟩ := hc
  have hselected : ∃ selected, docs.mapM c.stream.compile.select = some selected := by
    cases docs with
    | none => exact ⟨none, rfl⟩
    | some docs =>
        exact ⟨_, congrArg (Option.map some) (FilterQuery.select_of_stream hstream docs)⟩
  obtain ⟨selected, hselected⟩ := hselected
  rw [Compilation.reportOn]
  simp only [hselected, Option.bind_eq_bind, Option.bind_some]
  exact ⟨_, rfl⟩

/-! ## Outcomes -/

section

variable (surroundings : Surroundings) (p : Presentation) {c : Compilation}
  {docs : Option (List Datum)} {report : Report}

/-- Where all stages are passed, the report is printed behind the remark on an empty query. -/
theorem run_of_passes (hc : Prepared files r c) (hdocs : ReadsDocuments files r.documents docs)
    (hreport : c.reportOn docs = some report) :
    r.run surroundings files p =
      ⟨0, p.remark (p.lineStyle surroundings) c.stream.compile ++
        p.shown (p.lineStyle surroundings) report, ""⟩ := by
  have hreport : c.report files r.documents = .ok (some report) := by
    rw [Compilation.report, loadDocuments_of_reads hdocs, ← hreport]
    rfl
  simp only [CompileRequest.run, prepare_eq_ok_iff.mpr hc, hreport]

/-- After a failure its message is printed as an error. If there is a remark on an empty query, it
has been printed before. -/
theorem run_of_fails (hf : FirstFailure files r f) :
    ∃ printed, r.run surroundings files p
        = ⟨1, printed, (p.lineStyle surroundings).signed .error "✗" f.message⟩ ∧
      (printed = "" ∨ ∃ tree, printed = p.remark (p.lineStyle surroundings) tree) := by
  cases hf with
  | preparation h =>
      refine ⟨"", ?_, .inl rfl⟩
      simp only [CompileRequest.run, prepare_eq_error_iff.mpr h]
      rfl
  | @documents c hc h =>
      refine ⟨_, ?_, .inr ⟨c.stream.compile, rfl⟩⟩
      have hreport : c.report files r.documents = .error f :=
        map_fails _ (loadDocuments_of_fails h)
      simp only [CompileRequest.run, prepare_eq_ok_iff.mpr hc, hreport]
      rfl

/-- The code is 0 exactly when all stages are passed. -/
theorem code_eq_zero_iff : (r.run surroundings files p).code = 0 ↔
    ∃ c docs, Prepared files r c ∧ ReadsDocuments files r.documents docs := by
  constructor
  · intro hcode
    rcases passes_or_fails files r with hall | ⟨f, hf⟩
    · exact hall
    · obtain ⟨printed, hrun, -⟩ := run_of_fails surroundings p hf
      rw [hrun] at hcode
      cases hcode
  · rintro ⟨c, docs, hc, hdocs⟩
    obtain ⟨report, hreport⟩ := exists_report hc docs
    rw [run_of_passes surroundings p hc hdocs hreport]

/-- Otherwise it is 1, and there is a first stage that is not passed. -/
theorem code_ne_zero_iff :
    (r.run surroundings files p).code ≠ 0 ↔ ∃! f, FirstFailure files r f := by
  constructor
  · intro hcode
    rcases passes_or_fails files r with hall | ⟨f, hf⟩
    · exact absurd ((code_eq_zero_iff surroundings p).mpr hall) hcode
    · exact ⟨f, hf, fun g hg => hg.unique hf⟩
  · rintro ⟨f, hf, -⟩
    obtain ⟨printed, hrun, -⟩ := run_of_fails surroundings p hf
    rw [hrun]
    exact Nat.one_ne_zero

variable {p}

/-- Remarks are for readers of text only. -/
theorem remark_of_json (hjson : p.format = .json) (s : LineStyle) (tree : Tree) :
    p.remark s tree = "" := by
  simp [Presentation.remark, hjson]

theorem out_of_json_failure (hjson : p.format = .json) (hf : FirstFailure files r f) :
    (r.run surroundings files p).out = "" := by
  obtain ⟨printed, hrun, hprinted⟩ := run_of_fails surroundings p hf
  rw [hrun]
  rcases hprinted with rfl | ⟨tree, rfl⟩
  · rfl
  · exact remark_of_json hjson _ tree

theorem out_of_json_report (hjson : p.format = .json) (hquiet : p.quiet = false)
    (hc : Prepared files r c) (hdocs : ReadsDocuments files r.documents docs)
    (hreport : c.reportOn docs = some report) :
    (r.run surroundings files p).out = report.json := by
  rw [run_of_passes surroundings p hc hdocs hreport, remark_of_json hjson]
  simp only [Presentation.shown, hquiet, hjson]
  exact String.empty_append

end

/-! ## Arguments -/

variable {surroundings : Surroundings} {p : Presentation}

/-- What the switches of the command say, in arguments that call it. -/
inductive Calls (args : List String) (given : Given) : Prop
  | intro {outer inner : Progress} {word : String} {rest : List String}
      {remaining : Option (String × List String)} :
      readSwitches Switch.ofProgram [Invocation.compileWord, Invocation.helpWord] args {}
        = .ok (outer, some (word, rest)) →
      readSwitches Switch.ofCompile [] rest {} = .ok (inner, remaining) →
      inner.settled = .ok given → Calls args given

theorem ofInterruption_ne_compile (topic : HelpTopic) (e : Interruption) :
    Invocation.ofInterruption topic e ≠ .compile p r := by
  cases e <;> exact Invocation.noConfusion

theorem ofHelp_ne_compile (words : List String) : Invocation.ofHelp words ≠ .compile p r := by
  unfold Invocation.ofHelp
  split
  · exact Invocation.noConfusion
  · split
    · exact Invocation.noConfusion
    · split <;> exact Invocation.noConfusion
  · exact Invocation.noConfusion

/-- A request is made of what the switches of the command say. -/
theorem exists_given {args : List String}
    (h : Invocation.ofArguments surroundings args = .compile p r) :
    ∃ given, Calls args given ∧ Invocation.requestOf surroundings given = some r := by
  unfold Invocation.ofArguments at h
  split at h
  · exact absurd h (ofInterruption_ne_compile _ _)
  · cases h
  · next outer word rest houter =>
      split at h
      · exact absurd h (ofHelp_ne_compile rest)
      · unfold Invocation.ofCompile at h
        split at h
        · exact absurd h (ofInterruption_ne_compile _ _)
        · next inner remaining hinner =>
            split at h
            · next given above hgiven _ =>
                split at h
                · cases h
                · next request hrequest =>
                    cases h
                    exact ⟨given, .intro houter hinner hgiven, hrequest⟩
            · cases h

/-- The settings of a request are those of the switch, or else those of the variable. -/
theorem parts_of_requestOf {given : Given}
    (h : Invocation.requestOf surroundings given = some r) :
    r.config = given.config.or (surroundings.setting? Invocation.configVariable) ∧
      given.schema = some r.schema ∧ given.sort = r.sort ∧ given.documents = r.documents := by
  -- whatever the settings are, the other parts are those of the switches
  have hparts : ∀ config, (given.schema.bind fun schema => some (⟨schema, given.filters, given.sort,
        given.page, given.pageSize, config, given.documents⟩ : CompileRequest)) = some r →
      r.config = config ∧
        given.schema = some r.schema ∧ given.sort = r.sort ∧ given.documents = r.documents := by
    intro config hr
    obtain ⟨schema, hschema, hr⟩ := Option.bind_eq_some_iff.mp hr
    cases hr
    exact ⟨rfl, hschema, rfl, rfl⟩
  unfold Invocation.requestOf at h
  cases hgiven : given.config with
  | some path =>
      rw [hgiven] at h
      exact hparts (some path) h
  | none =>
      rw [hgiven] at h
      cases hvariable : surroundings.setting? Invocation.configVariable with
      | none =>
          rw [hvariable] at h
          exact hparts none h
      | some value =>
          rw [hvariable] at h
          obtain ⟨config, hconfig, h⟩ := Option.bind_eq_some_iff.mp h
          obtain ⟨path, hpath, rfl⟩ := Option.map_eq_some_iff.mp hconfig
          -- an empty variable names no path, and is no reason to do without settings either
          have hvalue : path = value := by
            unfold path? at hpath
            split at hpath
            · cases hpath
            · exact (Option.some.inj hpath).symm
          rw [hvalue] at h
          exact hparts (some value) h

/-- Compilation in stages. Whatever the arguments are that ask for it, and whatever the files hold,
the program ends with the code 0 exactly when all stages are passed: the settings that the switch or
the variable names, the schema, the sort argument, the stream, and the documents if there are any.
Otherwise it ends with the code 1, and the failure of the first stage that is not passed is its
error. Where reports are shown as JSON, a failure leaves the output empty, and otherwise the output
is a single report. -/
theorem staged_run (surroundings : Surroundings) (args : List String) (files : Files)
    (p : Presentation) (r : CompileRequest)
    (hargs : Invocation.ofArguments surroundings args = .compile p r) :
    let outcome := (Invocation.ofArguments surroundings args).run surroundings files
    (∃ given, Calls args given ∧
      r.config = given.config.or (surroundings.setting? Invocation.configVariable) ∧
      given.schema = some r.schema ∧ given.sort = r.sort ∧ given.documents = r.documents) ∧
    (outcome.code = 0 ↔
      ∃ c docs, Prepared files r c ∧ ReadsDocuments files r.documents docs) ∧
    (outcome.code ≠ 0 ↔ ∃! f, FirstFailure files r f) ∧
    (∀ f, FirstFailure files r f → outcome.code = 1 ∧
      outcome.err = (p.lineStyle surroundings).signed .error "✗" f.message) ∧
    (p.format = .json → p.quiet = false →
      (outcome.code ≠ 0 → outcome.out = "") ∧
      ∀ c docs, Prepared files r c → ReadsDocuments files r.documents docs →
        docs.isSome = r.documents.isSome ∧
        ∃ d, outcome.out = String.ofList d.pretty ++ "\n" ∧ IsReport c docs d) := by
  intro outcome
  have houtcome : outcome = r.run surroundings files p := by
    show (Invocation.ofArguments surroundings args).run surroundings files = _
    rw [hargs]
    rfl
  obtain ⟨given, hcalls, hgiven⟩ := exists_given hargs
  rw [houtcome, code_ne_zero_iff]
  refine ⟨⟨given, hcalls, parts_of_requestOf hgiven⟩, code_eq_zero_iff surroundings p, Iff.rfl,
    fun f hf => ?_, fun hjson hquiet => ⟨?_, fun c docs hc hdocs => ?_⟩⟩
  · obtain ⟨printed, hrun, -⟩ := run_of_fails surroundings p hf
    rw [hrun]
    exact ⟨rfl, rfl⟩
  · rintro ⟨f, hf, -⟩
    exact out_of_json_failure surroundings hjson hf
  · obtain ⟨report, hreport⟩ := exists_report hc docs
    refine ⟨isSome_of_readsDocuments hdocs, _, ?_, isReport_toDatum hreport⟩
    exact out_of_json_report surroundings hjson hquiet hc hdocs hreport

/-- A run with documents that comes to a report, and one that finds no schema. -/
theorem staged_run_report_and_missing_schema :
    let toml := "index = \"people\"\n[[fields]]\nname = \"team\"\ntype = \"tag\"\n"
    let people := "[\x7b\"team\":\"red\"\x7d,\x7b\x7d]"
    let files : Files := fun path =>
      if path = "people.toml" then .ok toml
      else if path = "people.json" then .ok people else .error .missing
    let args (schema : String) : List String :=
      ["--format=json", "compile", "-s", schema, "-f", "team:eq:red", "--documents", "people.json"]
    let outcome (schema : String) : Outcome :=
      (Invocation.ofArguments {} (args schema)).run {} files
    (∃ p r, Invocation.ofArguments {} (args "people.toml") = .compile p r ∧
      p.format = .json ∧ p.quiet = false) ∧
      (outcome "people.toml").code = 0 ∧
      (∃ d : Datum, (outcome "people.toml").out = String.ofList d.pretty ++ "\n" ∧
        d.get? "query" = some (.text "@team:\x7bred\x7d") ∧
        d.get? "selected" = some (.list [.record [("team", .text "red")]])) ∧
      (outcome "nobody.toml").code = 1 ∧ (outcome "nobody.toml").out = "" ∧
      (outcome "nobody.toml").err =
        "✗ Failed to read schema nobody.toml: No such file or directory (os error 2)\n" := by
  intro toml people files args outcome
  let team : Field := ⟨"team", "team", .tag, false, by decide, by decide, by decide⟩
  let schema : Schema := ⟨"people", "id", [team]⟩
  let query : FilterQuery := { filters := ["team:eq:red"] }
  let c : Compilation := ⟨.default, { query.window schema .default with
    predicates := [⟨team, .equal, .term (.tag .exact "red")⟩] }⟩
  let request (path : String) : CompileRequest :=
    { schema := path, filters := ["team:eq:red"], documents := some "people.json" }
  have hargs : Invocation.ofArguments {} (args "people.toml")
      = .compile { format := .json } (request "people.toml") := by decide +kernel
  have hother : Invocation.ofArguments {} (args "nobody.toml")
      = .compile { format := .json } (request "nobody.toml") := by decide +kernel
  have htoml : Datum.ofToml? toml.toList = some (.record [("index", .text "people"),
      ("fields", .list [.record [("name", .text "team"), ("type", .text "tag")]])]) := by cbv
  have hschema : Schema.ofToml toml = .ok schema := by
    rw [Schema.ofToml, htoml]
    rfl
  have hstream : query.stream schema .default = .ok c.stream := by decide +kernel
  have hc : Prepared files (request "people.toml") c :=
    .intro .default (.intro rfl hschema) .absent hstream
  have hdocs : ReadsDocuments files (some "people.json")
      (some [.record [("team", .text "red")], .record []]) :=
    .file rfl (by cbv)
  have hquery : (c.stream.compile.rendered c.config).query = "@team:\x7bred\x7d" := by
    decide +kernel
  have hselected : c.stream.compile.select [.record [("team", .text "red")], .record []]
      = some [.record [("team", .text "red")]] := by cbv
  obtain ⟨-, hcode, -, -, hjson⟩ := staged_run {} _ files _ _ hargs
  obtain ⟨-, d, hout, hreport⟩ := (hjson rfl rfl).2 c _ hc hdocs
  obtain ⟨-, -, -, hfails, hempty⟩ := staged_run {} _ files _ _ hother
  have hmissing : FirstFailure files (request "nobody.toml")
      (.schemaUnread "nobody.toml" .missing) :=
    .preparation (.schema .default (.unread rfl))
  obtain ⟨hone, herr⟩ := hfails _ hmissing
  refine ⟨⟨_, _, hargs, rfl, rfl⟩, hcode.mpr ⟨c, _, hc, hdocs⟩, ⟨d, hout, ?_, ?_⟩, hone,
    (hempty rfl rfl).1 ?_, herr.trans (by decide +kernel)⟩
  · rw [hreport.query, hquery]
  · obtain ⟨selected, hchosen, hshown⟩ := hreport.selected
    cases (congrArg (Option.map some) hselected).symm.trans hchosen
    exact hshown
  · rw [hone]
    decide

end IndexQuery.CommandLine

import LineCoverage.Proofs.Command.Options
import LineCoverage.Proofs.Command.Stages
import LineCoverage.Proofs.Command.Writing
import LineCoverage.Proofs.Report.Agreement
import LineCoverage.Proofs.Report.Division
import LineCoverage.Proofs.Report.Traced
import LineCoverage.Proofs.Trace.Layout

/-!
# `LineCoverage.Proofs.Command.Publication`: what becomes of the file of the page

A run can end in many ways before its page is written, and it has printed things
by then. The disk shows none of this. `Publishes` lists all that it takes to
write to the path that the user named: the trace can be read and has a script,
the text report comes to its end, the path is free or may be replaced, every
source can be read, and the path can be opened.

`run_publishes` proves that this is exactly when the disk changes. Then the
whole page, made from the disk as it was found, stands at the path, and no other
place is touched; otherwise nothing is. Only a page that is opened without a name
goes to a new file of its own. What the text report looks like, and whether
lines are passed on, changes nothing on the disk.

The file is opened before the page is encoded. A page that holds bytes of the
standard input which are no text cannot be encoded, and then the file is left
empty. This is the one way to lose what stood at the path for nothing.
-/

set_option autoImplicit false

namespace LineCoverage.Command

open Text

/-! ### What a page is made of -/

/-- The same settings but for the text report and the lines that are passed on. -/
def Settings.restyled (settings : Settings) (style : ReportStyle) (quiet echo : Bool) : Settings :=
  { settings with
    compact := style.compact
    percentOnly := style.percentOnly
    listLines := style.listLines
    color := style.color
    quiet := quiet
    echo := echo }

/-- The model of the trace. There is none if the trace or a source that it needs cannot be read, or
if it has no script. -/
def traced (surroundings : Surroundings) (settings : Settings) : Option Coverage :=
  match traceStream surroundings settings with
  | .error _ => none
  | .ok trace =>
    match (ingested surroundings settings trace).outcome with
    | .error _ => none
    | .ok found => found

/-- All that it takes to write to `path`. -/
structure Publishes (surroundings : Surroundings) (settings : Settings) (path : String)
    (coverage : Coverage) : Prop where
  named : settings.page = .file path
  traced : traced surroundings settings = some coverage
  reported : Reported settings coverage
  free : surroundings.disk.isTaken path = true → settings.force = true
  readable : ∀ target ∈ settings.targetsIn coverage,
    ∃ source, surroundings.disk.readText target.name = .ok source
  writable : surroundings.disk.CanWrite path

/-- The place of a new file for a page without a name, or one of its directories that is not there
before. -/
def Surroundings.IsNew (surroundings : Surroundings) (place : Place) : Prop :=
  place = Place.ofPath surroundings.scratch ∨
    place ∈ Disk.directoriesAbove (Place.ofPath surroundings.scratch) ∧
      surroundings.disk.node? place ≠ some .directory

/-- A page that is opened, without a word about its file. -/
def Settings.asksScratch (settings : Settings) : Prop :=
  settings.page = .unsaid ∧ settings.openPage = true

section Disk

variable {surroundings : Surroundings} {settings : Settings} {coverage : Coverage}

/-- The model of a trace whose lines were read. -/
theorem traced_of_read {trace : Stream} {results : List LineResult} {reader : Reader}
    (htrace : traceStream surroundings settings = .ok trace) (hending : trace.ending = none)
    (hread : (Reader.start (Relocator.freshIf settings.atLines)).processLines
      surroundings.disk.readText (linesOf trace.text) = (.ok results, reader))
    (hheader : (linesOf trace.text).any Record.isHeader = true) :
    traced surroundings settings = some (Coverage.ofScripts reader.close.completed) := by
  have hingested := (isBatch_ingested surroundings settings hending).complete results reader hread
  unfold traced
  rw [htrace]
  dsimp only
  rw [hingested, if_pos hheader]

/-- A trace with a model was ingested. -/
theorem exists_of_traced (h : traced surroundings settings = some coverage) :
    ∃ trace, traceStream surroundings settings = .ok trace ∧ trace.ending = none ∧
      (ingested surroundings settings trace).outcome = .ok (some coverage) := by
  unfold traced at h
  cases htext : traceStream surroundings settings with
  | error fault =>
      rw [htext] at h
      cases h
  | ok trace =>
      rw [htext] at h
      dsimp only at h
      cases hingested : (ingested surroundings settings trace).outcome with
      | error fault =>
          rw [hingested] at h
          cases h
      | ok found =>
          rw [hingested] at h
          obtain rfl : found = some coverage := h
          exact ⟨trace, rfl, ending_of_ok hingested, hingested⟩

/-- A trace with a model has a script. -/
theorem exists_header_of_traced (h : traced surroundings settings = some coverage) :
    ∃ trace, traceStream surroundings settings = .ok trace ∧ trace.ending = none ∧
      (linesOf trace.text).any Record.isHeader = true := by
  obtain ⟨trace, htext, hending, hingested⟩ := exists_of_traced h
  refine ⟨trace, htext, hending, ?_⟩
  obtain ⟨results, reader, -, -, hsome⟩ :=
    (isBatch_ingested surroundings settings hending).exists_of_ok hingested
  by_contra hheader
  rw [if_neg hheader] at hsome
  cases hsome

/-- The sources of the targets can be read if there is a source at each of their names. -/
theorem readable_of_names {names : List String}
    (h : (settings.targetsIn coverage).map (·.name) = names)
    (hnames : ∀ name ∈ names, ∃ source, surroundings.disk.readText name = .ok source) :
    ∀ target ∈ settings.targetsIn coverage,
      ∃ source, surroundings.disk.readText target.name = .ok source := by
  intro target hmem
  rw [← h] at hnames
  exact hnames _ (List.mem_map_of_mem hmem)

/-- Of the targets in a trace there is a page if their sources can be read. -/
theorem exists_page_iff (h : traced surroundings settings = some coverage) (sources : Sources) :
    (∃ text, Page.text sources settings.showOps (settings.targetsIn coverage) = .ok text) ↔
      ∀ target ∈ settings.targetsIn coverage, ∃ source, sources target.name = .ok source := by
  obtain ⟨trace, -, hending, hingested⟩ := exists_of_traced h
  unfold ingested at hingested
  rw [hending] at hingested
  exact Page.exists_text_iff_of_ingest hingested sources settings.showOps settings.targets

/-- Neither the text report nor the lines that are passed on matter for the model. -/
theorem traced_restyled (style : ReportStyle) (quiet echo : Bool) :
    traced surroundings (settings.restyled style quiet echo) = traced surroundings settings := by
  unfold traced traceStream Settings.restyled
  dsimp only
  cases settings.data with
  | none => rfl
  | some path =>
      dsimp only
      by_cases hpath : path = ""
      · rw [if_pos hpath, if_pos hpath]
        rfl
      · rw [if_neg hpath, if_neg hpath]
        rfl

/-- Where the page is written, it is written under any settings for the text report, as long as that
comes to its end. -/
theorem Publishes.restyled {path : String} (h : Publishes surroundings settings path coverage)
    {style : ReportStyle} {quiet echo : Bool}
    (hreported : Reported (settings.restyled style quiet echo) coverage) :
    Publishes surroundings (settings.restyled style quiet echo) path coverage where
  named := h.named
  traced := (traced_restyled style quiet echo).trans h.traced
  reported := hreported
  free := h.free
  readable := h.readable
  writable := h.writable

/-! ### The parts of a run -/

/-- A page without a name that is opened goes to a new file. -/
theorem disk_page_unsaid (hpage : settings.page = .unsaid) (targets : List Target)
    {outcome : Outcome} (hdisk : outcome.disk = surroundings.disk) {place : Place}
    (hplace : ¬surroundings.IsNew place) :
    (page surroundings settings targets outcome).disk.node? place
      = surroundings.disk.node? place := by
  rw [Surroundings.IsNew, not_or, not_and, not_not] at hplace
  unfold page
  rw [hpage]
  dsimp only
  split
  · have hput : (outcome.disk.put surroundings.scratch []).node? place
        = surroundings.disk.node? place := by
      rw [Disk.node?_put hplace.1, hdisk]
      split
      · exact (hplace.2 ‹_›).symm
      · rfl
    rcases disk_writePage targets
      { outcome with disk := outcome.disk.put surroundings.scratch [] } surroundings.scratch with
        ⟨text, opened, -, hopen, hlater⟩ | ⟨hkept, -⟩
    · rw [hlater, others_withPage hopen place hplace.1]
      exact hput
    · rw [hkept]
      exact hput
  · rw [hdisk]

/-- The trace either has a model, which is presented, or the run ends. -/
theorem runWith_cases (surroundings : Surroundings) (settings : Settings) :
    (∃ coverage, traced surroundings settings = some coverage ∧
      ∃ read : Outcome, read.disk = surroundings.disk ∧
        runWith surroundings settings = present surroundings settings coverage read) ∨
    (traced surroundings settings = none ∧
      (runWith surroundings settings).disk = surroundings.disk) := by
  cases htext : traceStream surroundings settings with
  | error fault =>
      unfold runWith traced
      rw [htext]
      exact .inr ⟨rfl, rfl⟩
  | ok trace =>
      rw [runWith_eq htext, traced, htext]
      unfold runOn
      dsimp only
      -- Nothing but the output has changed by now.
      have hprinted : ∀ text,
          (if trace.echo then (Outcome.start surroundings.disk).print text
            else Outcome.start surroundings.disk).disk = surroundings.disk := by
        intro text
        split <;> rfl
      cases (ingested surroundings settings trace).outcome with
      | error fault => exact .inr ⟨rfl, hprinted _⟩
      | ok found =>
          cases found with
          | none => exact .inr ⟨rfl, hprinted _⟩
          | some coverage => exact .inl ⟨coverage, rfl, _, hprinted _, rfl⟩

/-! ### The whole run -/

/-- All that a run with some settings can leave on the disk. -/
inductive Leaves (surroundings : Surroundings) (settings : Settings) : Disk → Prop
  /-- The page is written to the path that the user named. -/
  | page {path : String} {coverage : Coverage} {text : String} {place : Place}
      (published : Publishes surroundings settings path coverage)
      (complete : Page.text surroundings.disk.readText settings.showOps
        (settings.targetsIn coverage) = .ok text)
      (opened : surroundings.disk.openPlace path = .ok place) :
      Leaves surroundings settings (withPage surroundings.stray? surroundings.disk place text)
  /-- A new file is used, and nothing else is touched. -/
  | scratch {later : Disk} (asked : settings.asksScratch)
      (same : ∀ place, ¬surroundings.IsNew place →
        later.node? place = surroundings.disk.node? place) :
      Leaves surroundings settings later
  /-- Nothing is touched. -/
  | nothing (missing : ∀ path coverage, ¬Publishes surroundings settings path coverage) :
      Leaves surroundings settings surroundings.disk

/-- A page is published at the path that the user named. -/
theorem Publishes.path_eq {path other : String}
    (h : Publishes surroundings settings path coverage) (hfile : settings.page = .file other) :
    other = path := by
  have hnamed := h.named
  rw [hfile] at hnamed
  exact PagePlace.file.inj hnamed

/-- What is left when the page is all that remains to be done. -/
theorem leaves_page (htraced : traced surroundings settings = some coverage)
    (hreported : Reported settings coverage) {outcome : Outcome}
    (hdisk : outcome.disk = surroundings.disk) :
    Leaves surroundings settings
      (page surroundings settings (settings.targetsIn coverage) outcome).disk := by
  have hnothing : (∀ path, settings.page ≠ .file path) →
      ∀ path coverage, ¬Publishes surroundings settings path coverage :=
    fun hpage path coverage h => hpage path h.named
  cases hpage : settings.page with
  | unsaid =>
      cases hopen : settings.openPage with
      | true =>
          exact .scratch ⟨hpage, hopen⟩ fun place hplace => disk_page_unsaid hpage _ hdisk hplace
      | false =>
          have hkept : (page surroundings settings (settings.targetsIn coverage) outcome).disk
              = surroundings.disk := by
            simp only [page, hpage, hopen]
            exact hdisk
          rw [hkept]
          exact .nothing (hnothing (by simp [hpage]))
  | unnamed =>
      rw [disk_page_unnamed hpage, hdisk]
      exact .nothing (hnothing (by simp [hpage]))
  | file path =>
      have hfile := disk_page_file surroundings hpage (settings.targetsIn coverage) outcome
      rw [hdisk, exists_page_iff htraced] at hfile
      rcases hfile with ⟨text, place, htext, hopen, hfree, hlater⟩ | ⟨hkept, hfails⟩
      · rw [hlater]
        refine .page ?_ htext hopen
        exact
          { named := hpage
            traced := htraced
            reported := hreported
            free := hfree
            readable := (exists_page_iff htraced _).mp ⟨text, htext⟩
            writable := Disk.exists_openPlace_iff.mp ⟨place, hopen⟩ }
      · rw [hkept]
        refine .nothing fun other found h => hfails ?_
        obtain rfl := h.path_eq hpage
        obtain rfl : coverage = found := Option.some.inj (htraced.symm.trans h.traced)
        exact ⟨h.free, h.readable, h.writable⟩

/-- A line that is not covered and too far away to be written ends the report, where lines are
listed. -/
theorem not_reported_of_far_finding {color : Bool} (hquiet : settings.quiet = false)
    (hstyle : settings.style = ⟨false, false, true, color⟩) {target : Target}
    (hmem : target ∈ settings.targetsIn coverage) {finding : Report.Finding}
    (hfinding : finding ∈ Report.findings target.file)
    (hfar : Numeral.firstTooLong ≤ finding.number.natAbs) : ¬Reported settings coverage := by
  rintro (hloud | hshort)
  · rw [hquiet] at hloud
    cases hloud
  · rw [hstyle] at hshort
    exact absurd (hshort _ (Report.mem_numbers_of_finding color hmem hfinding))
      (Nat.not_lt.mpr hfar)

/-- What a run leaves on the disk. -/
theorem leaves_runWith (surroundings : Surroundings) (settings : Settings) :
    Leaves surroundings settings (runWith surroundings settings).disk := by
  rcases runWith_cases surroundings settings with
    ⟨coverage, htraced, read, hread, hrun⟩ | ⟨htraced, hdisk⟩
  · rcases present_cases coverage read with ⟨hreported, reported, hdisk, hpresent⟩ | ⟨hfault, hdisk⟩
    · rw [hrun, hpresent]
      exact leaves_page htraced hreported (hdisk.trans hread)
    · -- The report ends the run, and the page is not even begun.
      rw [hrun, hdisk, hread]
      refine .nothing fun path found h => hfault ?_
      obtain rfl : coverage = found := Option.some.inj (htraced.symm.trans h.traced)
      exact h.reported
  · rw [hdisk]
    refine .nothing fun path found h => ?_
    rw [h.traced] at htraced
    cases htraced

/-- Where the page is published, it is complete before its file is opened. -/
theorem Publishes.disk_eq {path : String} (h : Publishes surroundings settings path coverage) :
    ∃ text place, Page.text surroundings.disk.readText settings.showOps
        (settings.targetsIn coverage) = .ok text ∧
      surroundings.disk.openPlace path = .ok place ∧
      (runWith surroundings settings).disk
        = withPage surroundings.stray? surroundings.disk place text := by
  have hleaves := leaves_runWith surroundings settings
  generalize (runWith surroundings settings).disk = later at hleaves ⊢
  cases hleaves with
  | page published complete opened =>
      obtain rfl := h.path_eq published.named
      obtain rfl := Option.some.inj (published.traced.symm.trans h.traced)
      exact ⟨_, _, complete, opened, rfl⟩
  | scratch asked same =>
      have hunsaid := asked.1
      rw [h.named] at hunsaid
      cases hunsaid
  | nothing missing => exact absurd h (missing path coverage)

end Disk

/-- The disk after a run with some settings: the file of the page is written, or nothing. -/
structure WrittenOrKept (surroundings : Surroundings) (settings : Settings) (later : Disk) :
    Prop where
  /-- What changes is the place of the path, if there is all that it takes. A page that is opened
  without a word about its file has a new one. -/
  changed : ∀ place, later.node? place ≠ surroundings.disk.node? place →
    (∃ path coverage, Publishes surroundings settings path coverage ∧
      place = Place.ofPath path) ∨
    (settings.asksScratch ∧ surroundings.IsNew place)
  /-- If there is all that it takes, there is the page on all targets. It is made from the disk
  before the run, also if the path is that of a source. If it is all text, it stands at the path,
  and if anything in it is none, an empty file does. -/
  written : ∀ path coverage, Publishes surroundings settings path coverage →
    ∃ text, Page.text surroundings.disk.readText settings.showOps (settings.targetsIn coverage)
        = .ok text ∧
      ((∀ c ∈ text.toList, surroundings.stray? c = none) →
        surroundings.disk.Replaces later (Place.ofPath path) (Utf8.encode text.toList)) ∧
      ((∃ c ∈ text.toList, surroundings.stray? c ≠ none) →
        surroundings.disk.Replaces later (Place.ofPath path) [])
  /-- It takes a trace with a script, which can be read to its end. -/
  scripted : ∀ path coverage, Publishes surroundings settings path coverage →
    ∃ trace, traceStream surroundings settings = .ok trace ∧ trace.ending = none ∧
      (linesOf trace.text).any Record.isHeader = true
  /-- If anything is missing, the disk is as it was. -/
  kept : ¬settings.asksScratch → (∀ path coverage, ¬Publishes surroundings settings path coverage) →
    later = surroundings.disk

/-- A run with some settings writes the file of the page, or nothing. -/
theorem writtenOrKept_runWith (surroundings : Surroundings) (settings : Settings) :
    WrittenOrKept surroundings settings (runWith surroundings settings).disk where
  changed place hplace := by
    have hleaves := leaves_runWith surroundings settings
    generalize (runWith surroundings settings).disk = later at hleaves hplace
    cases hleaves with
    | page published complete opened =>
        refine .inl ⟨_, _, published, ?_⟩
        by_contra hother
        exact hplace (others_withPage opened place hother)
    | scratch asked same =>
        refine .inr ⟨asked, ?_⟩
        by_contra hother
        exact hplace (same place hother)
    | nothing missing => exact absurd rfl hplace
  written path coverage h := by
    obtain ⟨text, place, htext, hopen, hdisk⟩ := h.disk_eq
    rw [hdisk]
    exact ⟨text, htext, replaces_withPage hopen⟩
  scripted path coverage h := exists_header_of_traced h.traced
  kept hscratch hnone := by
    have hleaves := leaves_runWith surroundings settings
    generalize (runWith surroundings settings).disk = later at hleaves ⊢
    cases hleaves with
    | page published complete opened => exact absurd published (hnone _ _)
    | scratch asked same => exact absurd asked hscratch
    | nothing missing => rfl

/-- **The page is written completely, or nothing is touched.** A command line that asks for no run
leaves the disk as it is. A run changes the place of the path that its options name, and only if
there is all that it takes; then the page on all targets stands there, or an empty file if the page
holds bytes that are no text. The options for the text report and for passing lines on are no part
of this: as long as the report comes to its end, the disk is the same under all of them. -/
theorem run_publishes (surroundings : Surroundings) (arguments : List String) :
    ((∀ settings, Request.ofTexts surroundings.terminal arguments ≠ .ok (.run settings)) →
      (run surroundings arguments).disk = surroundings.disk) ∧
    ∀ settings, Request.ofTexts surroundings.terminal arguments = .ok (.run settings) →
      WrittenOrKept surroundings settings (run surroundings arguments).disk ∧
      ∀ path coverage style quiet echo others,
        Publishes surroundings settings path coverage →
        Reported (settings.restyled style quiet echo) coverage →
        Request.ofTexts surroundings.terminal others
          = .ok (.run (settings.restyled style quiet echo)) →
        (run surroundings others).disk = (run surroundings arguments).disk := by
  refine ⟨fun hnone => ?_, fun settings hrequest => ⟨?_, ?_⟩⟩
  · unfold run
    cases hrequest : Request.ofTexts surroundings.terminal arguments with
    | error misuse => rfl
    | ok request =>
        cases request with
        | help => rfl
        | version => rfl
        | run settings => exact absurd hrequest (hnone settings)
  · rw [run_eq hrequest]
    exact writtenOrKept_runWith surroundings settings
  · intro path coverage style quiet echo others hpublishes hreported hothers
    rw [run_eq hrequest, run_eq hothers]
    obtain ⟨text, place, htext, hopen, hdisk⟩ := hpublishes.disk_eq
    obtain ⟨other, spot, hother, hspot, hlater⟩ := (hpublishes.restyled hreported).disk_eq
    -- Both pages are the page on the same targets, and both files are the same.
    obtain rfl : text = other := Except.ok.inj (htext.symm.trans hother)
    obtain rfl : place = spot := Except.ok.inj (hopen.symm.trans hspot)
    rw [hdisk, hlater]

/-- A quiet run on one source: the page is there, and the source is as it was. -/
theorem run_publishes_quiet :
    let found : Surroundings :=
      { disk := Disk.empty.put "a.js" (Utf8.encode "f()\ng()\n".toList)
        input := .whole "--- SCRIPT a.js:1 ---\n00000:  2  [1] op\n" false
        stray? := fun _ => none
        terminal := false
        here := "/work"
        scratch := "new.html" }
    let later := (run found ["-quiet", "-targets", "a.js", "-html", "page.html"]).disk
    (∃ text, later.node? (Place.ofPath "page.html") = some (.file (Utf8.encode text))) ∧
      later.node? (Place.ofPath "a.js") = some (.file (Utf8.encode "f()\ng()\n".toList)) := by
  intro found later
  let settings := { Settings.initial false with
    targets := ["a.js"], quiet := true, page := .file "page.html" }
  have hrequest : Request.ofTexts found.terminal
      ["-quiet", "-targets", "a.js", "-html", "page.html"] = .ok (.run settings) := by
    have htold : Argument.ofTexts ["-quiet", "-targets", "a.js", "-html", "page.html"]
        = .ok [.option .quiet, .option .targets, .value "a.js", .option .html,
            .value "page.html"] := rfl
    rw [Request.ofTexts, htold]
    show Request.ofArguments (.initial false) [] _ = _
    rw [ofArguments_option _ _ _ (by decide) (by decide)]
    show Request.ofArguments _ [] [.option .targets, .value "a.js", .option .html, _] = _
    rw [ofArguments_option _ _ _ (by decide) (by decide)]
    show Request.ofArguments _ [] [.option .html, .value "page.html"] = _
    rw [ofArguments_option _ _ _ (by decide) (by decide)]
    show Request.ofArguments settings [] [] = _
    rw [Request.ofArguments, if_pos rfl]
  -- The trace has one script, and so the model has one file.
  let script := (Script.opened "a.js".toList "1".toList).push
    ⟨"a.js:1", 0, ⟨"a.js", 2⟩, 1, "op", false⟩
  let trace : Stream := ⟨"--- SCRIPT a.js:1 ---\n00000:  2  [1] op\n", none, true⟩
  have hlines : linesOf trace.text = ["--- SCRIPT a.js:1 ---", "00000:  2  [1] op"] := by decide
  obtain ⟨reader, hread, hscripts⟩ : ∃ reader,
      (Reader.start none).processLines found.disk.readText (linesOf trace.text)
        = (.ok [⟨"--- SCRIPT a.js:1 ---", true⟩, ⟨"00000:  2  [1] op", true⟩], reader) ∧
      reader.close.completed = [script] := by
    rw [hlines]
    exact ⟨_, rfl, rfl⟩
  have htraced : traced found settings = some (Coverage.ofScripts [script]) := by
    have hstream : traceStream found settings = .ok trace := rfl
    rw [← hscripts]
    exact traced_of_read hstream rfl hread (by rw [hlines]; decide)
  have hpublishes : Publishes found settings "page.html" (Coverage.ofScripts [script]) := by
    have hnames : (settings.targetsIn (Coverage.ofScripts [script])).map (·.name) = ["a.js"] := rfl
    refine ⟨rfl, htraced, .inl rfl, ?_, readable_of_names hnames ?_, ⟨rfl, _, rfl⟩⟩
    · intro htaken
      exact absurd htaken (by decide)
    · exact List.forall_mem_singleton.mpr ⟨_, rfl⟩
  have hrun := (run_publishes found ["-quiet", "-targets", "a.js", "-html", "page.html"]).2
    settings hrequest
  obtain ⟨text, -, hwritten, -⟩ := hrun.1.written _ _ hpublishes
  have hreplaced := hwritten fun _ _ => rfl
  exact ⟨⟨text.toList, hreplaced.file⟩, (hreplaced.others _ (by decide)).trans rfl⟩

/-! ### Pages that are lost -/

/-- A run that finds a file and a source, with a name that is no text, and a trace of it. -/
def strayNamed : Surroundings where
  disk := (Disk.empty.put "\uf0ff.js" (Utf8.encode "f()\n".toList)).put "page.html"
    (Utf8.encode "old".toList)
  input := .whole "--- SCRIPT \uf0ff.js:1 ---\n00000:  1  [1] op\n" false
  stray? := fun c => if c = '\uf0ff' then some 0xff else none
  terminal := false
  here := "/work"
  scratch := "new.html"

/-- The page has the name of the source, so its file is left empty. -/
theorem node?_run_strayNamed :
    (run strayNamed ["-quiet", "-targets", "\uf0ff.js", "-force", "-html", "page.html"]).disk.node?
      (Place.ofPath "page.html") = some (.file []) := by
  let settings := { Settings.initial false with
    targets := ["\uf0ff.js"], quiet := true, force := true, page := .file "page.html" }
  have hrequest : Request.ofTexts strayNamed.terminal
      ["-quiet", "-targets", "\uf0ff.js", "-force", "-html", "page.html"]
        = .ok (.run settings) := by
    decide +kernel
  let trace : Stream := ⟨"--- SCRIPT \uf0ff.js:1 ---\n00000:  1  [1] op\n", none, true⟩
  have hlines : linesOf trace.text = ["--- SCRIPT \uf0ff.js:1 ---", "00000:  1  [1] op"] := by
    decide
  obtain ⟨reader, hread, hname⟩ : ∃ reader,
      (Reader.start none).processLines strayNamed.disk.readText (linesOf trace.text)
        = (.ok [⟨"--- SCRIPT \uf0ff.js:1 ---", true⟩, ⟨"00000:  1  [1] op", true⟩], reader) ∧
      (settings.targetsIn (Coverage.ofScripts reader.close.completed)).map (·.name)
        = ["\uf0ff.js"] := by
    rw [hlines]
    exact ⟨_, rfl, rfl⟩
  have hstream : traceStream strayNamed settings = .ok trace := rfl
  have htraced : traced strayNamed settings = some (Coverage.ofScripts reader.close.completed) :=
    traced_of_read hstream rfl hread (by rw [hlines]; decide)
  have hpublishes :
      Publishes strayNamed settings "page.html" (Coverage.ofScripts reader.close.completed) := by
    refine ⟨rfl, htraced, .inl rfl, fun _ => rfl, readable_of_names hname ?_, ⟨rfl, _, rfl⟩⟩
    exact List.forall_mem_singleton.mpr ⟨_, rfl⟩
  rw [run_eq hrequest]
  obtain ⟨text, htext, -, hemptied⟩ :=
    (writtenOrKept_runWith strayNamed settings).written _ _ hpublishes
  refine (hemptied ⟨'\uf0ff', ?_, by decide⟩).file
  -- The page has the name of its one target.
  have hmem : "\uf0ff.js"
      ∈ (settings.targetsIn (Coverage.ofScripts reader.close.completed)).map (·.name) := by
    rw [hname]
    exact List.mem_cons_self
  obtain ⟨target, htarget, hequal⟩ := List.mem_map.mp hmem
  refine Page.mem_text_of_mem_name htext htarget ?_
  rw [hequal]
  decide

/-- The record of an instruction that never ran, on a line with some digits. -/
def coldLayout (digits : List Char) : Layout where
  pc := "00000".toList
  lineGap := "  ".toList
  line := digits
  markGap := " ".toList
  mark := []
  countGap := []
  count := "0".toList
  rest := " op".toList

/-- A source that places its lines one further, but for the first. -/
def shiftingDisk : Disk := Disk.empty.put "g.js" (Utf8.encode "//@line 3 \"g.js\"\nf()\n".toList)

/-- A run that finds this source, and a trace with that record and no other. -/
def shifting (digits : List Char) : Surroundings where
  disk := shiftingDisk
  input := .whole (String.join
    ["--- SCRIPT g.js:1 ---\n", "00000:  " ++ String.ofList digits ++ " [0] op\n"]) false
  stray? := fun _ => none
  terminal := false
  here := "/work"
  scratch := "new.html"

/-- The arguments of that run: lines are placed and listed, and there is a page. -/
def shiftingArguments : List String :=
  ["-at-lines", "-list-lines", "-targets", "g.js", "-html", "page.html"]

/-- The settings that they ask for, quiet or not. -/
def shiftingSettings (quiet : Bool) : Settings :=
  { Settings.initial false with
    atLines := true
    listLines := true
    targets := ["g.js"]
    page := .file "page.html"
    quiet := quiet }

/-- The instruction of that record, for a line `n`. -/
def movedInstruction (n : Nat) : Instruction := ⟨"g.js:1", 0, ⟨"g.js", n + 1⟩, 0, "op", false⟩

/-- The model of that trace. -/
def movedCoverage (n : Nat) : Coverage :=
  .ofScripts [(Script.opened "g.js".toList "1".toList).push (movedInstruction n)]

/-- The one file in it. -/
def movedFile (n : Nat) : SourceFile :=
  (SourceFile.empty "g.js").alterLine (n + 1) (·.add (movedInstruction n))

/-- The source can be read. -/
theorem readText_shiftingDisk :
    shiftingDisk.readText "g.js" = .ok "//@line 3 \"g.js\"\nf()\n" := by
  decide +kernel

section Shifting

variable {digits : List Char} {n : Nat}

/-- The record is read as it should be. -/
theorem ofLine?_coldLayout (hdigits : ∀ c ∈ digits, isDigit c = true) (hne : digits ≠ []) :
    '\n' ∉ ("00000:  " ++ String.ofList digits ++ " [0] op").toList ∧
    Record.ofLine? ("00000:  " ++ String.ofList digits ++ " [0] op")
      = some (.instruction (coldLayout digits).columns) := by
  have hbreak : '\n' ∉ ("00000:  " ++ String.ofList digits ++ " [0] op").toList := by
    have hline : '\n' ∉ digits := fun hmem => absurd (hdigits _ hmem) (by decide)
    simp [hline]
  have hvalid : (coldLayout digits).Valid :=
    { pc := (by decide : "00000".toList ∈ atLeast 5 isDigit)
      lineGap := (by decide : "  ".toList ∈ atLeast 1 isBlank)
      line := ⟨List.length_pos_iff.mpr hne, hdigits⟩
      markGap := (by decide : " ".toList ∈ atLeast 1 isBlank)
      mark := Record.Kind.mem_marking.mpr (.inl rfl)
      countGap := (by decide : [] ∈ atLeast 0 isBlank)
      count := (by decide : "0".toList ∈ atLeast 1 isDigit) }
  refine ⟨hbreak, Layout.ofLine?_of_text hvalid ?_ hbreak⟩
  simp [coldLayout, Layout.text]

/-- The line is placed one further. -/
theorem relocate_shifting (hn : 1 < n) :
    (Relocator.fresh.relocate shiftingDisk.readText ⟨"g.js", n⟩).1 = .ok ⟨"g.js", n + 1⟩ := by
  have hconsult : Relocator.consult (fun _ => none) shiftingDisk.readText "g.js"
      = .ok [⟨1, 3, "g.js"⟩] := by
    show scanFrom shiftingDisk.readText "g.js" = _
    unfold scanFrom
    rw [readText_shiftingDisk]
    rfl
  have horigin : Directive.origin [⟨1, 3, "g.js"⟩] ⟨"g.js", n⟩ = ⟨"g.js", n + 1⟩ := by
    have hbefore : [(⟨1, 3, "g.js"⟩ : Directive)].filter
        (fun directive => decide ((directive.mark : Int) < n)) = [⟨1, 3, "g.js"⟩] := by
      simpa using hn
    unfold Directive.origin Directive.closest?
    dsimp only
    rw [hbefore, List.argmax_singleton]
    simp only [Location.mk.injEq, true_and]
    omega
  rw [(Relocator.coherent_fresh.relocate shiftingDisk.readText ⟨"g.js", n⟩).1, hconsult, ← horigin]
  rfl

/-- The trace has two lines. -/
theorem linesOf_shifting (hdigits : ∀ c ∈ digits, isDigit c = true) (hne : digits ≠ []) :
    linesOf (shifting digits).input.read
      = ["--- SCRIPT g.js:1 ---", "00000:  " ++ String.ofList digits ++ " [0] op"] := by
  have hbreak := (ofLine?_coldLayout hdigits hne).1
  generalize hline : "00000:  " ++ String.ofList digits ++ " [0] op" = line at hbreak ⊢
  have hjoin : (shifting digits).input.read
      = String.join (["--- SCRIPT g.js:1 ---", line].map (· ++ "\n")) := by
    rw [← hline]
    refine String.toList_injective ?_
    simp [shifting, Input.read, Input.whole]
  rw [hjoin, linesOf_join_of_not_mem]
  simpa using hbreak

/-- The header opens the script, and the record is read into it. -/
theorem processLines_shifting (hdigits : ∀ c ∈ digits, isDigit c = true) (hne : digits ≠ [])
    (hread : Numeral.read digits = .ok n) (hn : 1 < n) :
    ∃ results reader, (Reader.start (some .fresh)).processLines shiftingDisk.readText
        (linesOf (shifting digits).input.read) = (.ok results, reader) ∧
      Coverage.ofScripts reader.close.completed = movedCoverage n := by
  have hrecord := (ofLine?_coldLayout hdigits hne).2
  rw [linesOf_shifting hdigits hne]
  generalize "00000:  " ++ String.ofList digits ++ " [0] op" = line at hrecord ⊢
  let script := Script.opened "g.js".toList "1".toList
  let reader : Reader := { Reader.start (some .fresh) with current := some script }
  let moved := Relocator.fresh.relocate shiftingDisk.readText ⟨"g.js", n⟩
  have hlocate : reader.locate shiftingDisk.readText ⟨"g.js", n⟩
      = (moved.1, { reader with relocator := some moved.2 }) :=
    Reader.locate_of_some rfl _
  rw [show moved.1 = .ok ⟨"g.js", n + 1⟩ from relocate_shifting hn] at hlocate
  have hinst : reader.instruction shiftingDisk.readText script (coldLayout digits).columns
      = (.ok (movedInstruction n), { reader with relocator := some moved.2 }) :=
    Reader.instruction_ok_iff.mpr ⟨n, 0, 0, _, hread, rfl, rfl, hlocate, rfl⟩
  have hfirst : (Reader.start (some .fresh)).processLine shiftingDisk.readText
      "--- SCRIPT g.js:1 ---" = (.ok true, reader) := rfl
  have hsecond := Reader.processLine_of_instruction_ok hrecord rfl hinst
  rw [Reader.processLines_cons, hfirst]
  dsimp only
  rw [Reader.processLines_cons, hsecond]
  exact ⟨_, _, rfl, rfl⟩

/-- The model of the trace has the instruction on the line behind its own. -/
theorem traced_shifting (hdigits : ∀ c ∈ digits, isDigit c = true) (hne : digits ≠ [])
    (hread : Numeral.read digits = .ok n) (hn : 1 < n) (quiet : Bool) :
    traced (shifting digits) (shiftingSettings quiet) = some (movedCoverage n) := by
  obtain ⟨results, reader, hlines, hcoverage⟩ := processLines_shifting hdigits hne hread hn
  have hstream : traceStream (shifting digits) (shiftingSettings quiet)
      = .ok ⟨(shifting digits).input.read, none, true⟩ := rfl
  rw [← hcoverage]
  refine traced_of_read hstream rfl hlines ?_
  rw [linesOf_shifting hdigits hne]
  rfl

/-- The line was never run. -/
theorem mem_findings_movedFile (n : Nat) :
    (⟨n + 1, .uncovered⟩ : Report.Finding) ∈ Report.findings (movedFile n) := by
  refine Report.mem_findings_iff.mpr ⟨?_, fun h => by cases h⟩
  unfold movedFile SourceFile.verdict SourceFile.alterLine
  rw [Table.get?_alter_self]
  rfl

/-- If the line is too far away to be written, it ends the text report, and the run with it. -/
theorem disk_run_shifting (hdigits : ∀ c ∈ digits, isDigit c = true) (hne : digits ≠ [])
    (hread : Numeral.read digits = .ok n) (hfar : Numeral.firstTooLong ≤ n + 1) :
    (run (shifting digits) shiftingArguments).disk = shiftingDisk := by
  have hten := Numeral.ten_le_firstTooLong
  have hrequest : Request.ofTexts (shifting digits).terminal shiftingArguments
      = .ok (.run (shiftingSettings false)) := by
    show Request.ofTexts false shiftingArguments = _
    decide +kernel
  rw [run_eq hrequest]
  refine (writtenOrKept_runWith (shifting digits) (shiftingSettings false)).kept
    (fun hasks => by cases hasks.1) fun path coverage h => ?_
  have htraced := traced_shifting hdigits hne hread (by omega) false
  obtain rfl : movedCoverage n = coverage := Option.some.inj (htraced.symm.trans h.traced)
  have hmem : (⟨"g.js", movedFile n⟩ : Target)
      ∈ (shiftingSettings false).targetsIn (movedCoverage n) := List.mem_cons_self
  have hlong : Numeral.firstTooLong ≤ ((n : Int) + 1).natAbs := by omega
  exact not_reported_of_far_finding rfl rfl hmem (mem_findings_movedFile n) hlong h.reported

/-- If there is no text report, the page is written. -/
theorem exists_page_of_quiet_shifting (hdigits : ∀ c ∈ digits, isDigit c = true)
    (hne : digits ≠ []) (hread : Numeral.read digits = .ok n) (hn : 1 < n) :
    ∃ page, (run (shifting digits) ("-quiet" :: shiftingArguments)).disk.node?
      (Place.ofPath "page.html") = some (.file (Utf8.encode page)) := by
  have hrequest : Request.ofTexts (shifting digits).terminal ("-quiet" :: shiftingArguments)
      = .ok (.run (shiftingSettings true)) := by
    show Request.ofTexts false ("-quiet" :: shiftingArguments) = _
    decide +kernel
  have hfree : shiftingDisk.isTaken "page.html" = false := by decide
  have hnames : ((shiftingSettings true).targetsIn (movedCoverage n)).map (·.name) = ["g.js"] := rfl
  have hpublishes :
      Publishes (shifting digits) (shiftingSettings true) "page.html" (movedCoverage n) :=
    { named := rfl
      traced := traced_shifting hdigits hne hread hn true
      reported := .inl rfl
      free := fun htaken => absurd (hfree.symm.trans htaken) Bool.false_ne_true
      readable :=
        readable_of_names hnames (List.forall_mem_singleton.mpr ⟨_, readText_shiftingDisk⟩)
      writable := ⟨rfl, _, rfl⟩ }
  rw [run_eq hrequest]
  obtain ⟨text, -, hwritten, -⟩ :=
    (writtenOrKept_runWith (shifting digits) (shiftingSettings true)).written _ _ hpublishes
  exact ⟨text.toList, (hwritten fun _ _ => rfl).file⟩

end Shifting

/-- **A page can be lost.** The last line number that can be read is placed one further, where it is
too far away to be written: the text report ends the run, and no page is written, as there is
without a text report. And a page with bytes that are no text leaves an empty file where another one
stood. -/
theorem run_loses_page :
    let shifted := shifting (List.replicate maxDigits '9')
    ((run shifted shiftingArguments).disk = shiftingDisk ∧
      ∃ page, (run shifted ("-quiet" :: shiftingArguments)).disk.node? (Place.ofPath "page.html")
        = some (.file (Utf8.encode page))) ∧
    strayNamed.disk.node? (Place.ofPath "page.html") = some (.file (Utf8.encode "old".toList)) ∧
    (run strayNamed ["-quiet", "-targets", "\uf0ff.js", "-force", "-html", "page.html"]).disk.node?
      (Place.ofPath "page.html") = some (.file []) := by
  intro shifted
  have hten := Numeral.ten_le_firstTooLong
  have hdigits : ∀ c ∈ List.replicate maxDigits '9', isDigit c = true := by
    intro c hc
    rw [List.eq_of_mem_replicate hc]
    decide
  have hne : List.replicate maxDigits '9' ≠ [] :=
    List.ne_nil_of_length_pos (by rw [List.length_replicate]; decide)
  refine ⟨⟨?_, ?_⟩, rfl, node?_run_strayNamed⟩
  · exact disk_run_shifting hdigits hne Numeral.read_nines (by omega)
  · exact exists_page_of_quiet_shifting hdigits hne Numeral.read_nines (by omega)

end LineCoverage.Command

import LineCoverage.Proofs.Coverage.Selection
import LineCoverage.Proofs.Report.Agreement

/-!
# `LineCoverage.Proofs.Coverage.Looking`: looking changes nothing

A file is asked for a line in two ways. To read it leaves the file as it is; to
open it makes a line without instructions where there was none. A line that was
made so gets its instructions later, and stands before lines that it would stand
behind otherwise. So after some looks a coverage need not be the one that it
would be without them, not even up to its empty lines.

`Alike` says what is left. The files are the same, in the same order, and under
every number each of them has the same line, where no line and an empty one are
the same (`SourceFile.lineAt`). What a file tells goes by its numbers: a tally
counts the numbers with a verdict, in whatever order they stand, and a listing
sorts them. So coverages that are alike tell the same (`Alike.look_fst`).

Every operation keeps two coverages alike that were so before (`Alike.apply`),
and a look at one of them does too (`Alike.look`). `look_invisible` concludes
this for any steps, against the same operations without the looks. An index that
a look leaves behind is up to date, and is no part of `Alike`.
-/

set_option autoImplicit false

namespace LineCoverage

open Report

/-! ### Files that say the same -/

namespace SourceFile

/-- The line with a number, without instructions if the file does not have it. -/
def lineAt (file : SourceFile) (number : Int) : Line := (file.lines.get? number).getD .empty

/-- The instructions under a number are those of its line, also where there is none. -/
theorem insts_eq (file : SourceFile) (number : Int) :
    file.insts number = (file.lineAt number).toList := by
  unfold insts lineAt
  cases file.lines.get? number <;> rfl

/-- A change of one line changes no other, and the line may be new. -/
theorem lineAt_alterLine (file : SourceFile) (number : Int) (change : Line → Line) (other : Int) :
    (file.alterLine number change).lineAt other
      = if other = number then change (file.lineAt number) else file.lineAt other := by
  unfold lineAt alterLine
  by_cases hother : other = number
  · subst hother
    rw [if_pos rfl, Table.get?_alter_self]
    rfl
  · rw [if_neg hother, Table.get?_alter_of_ne _ _ hother]

/-- Two files of one name that have the same instructions, in the same order, on every line. One of
them may have lines without instructions that the other does not have, and they may have come by
their lines in another order. -/
structure Alike (file other : SourceFile) : Prop where
  name : other.name = file.name
  lineAt : ∀ number, other.lineAt number = file.lineAt number

namespace Alike

variable {file other : SourceFile}

/-- A file is like itself. -/
theorem refl (file : SourceFile) : file.Alike file := ⟨rfl, fun _ => rfl⟩

/-- After the same change of a line they are still alike, whether they had the line or not. -/
theorem alterLine (h : file.Alike other) (number : Int) (change : Line → Line) :
    (file.alterLine number change).Alike (other.alterLine number change) where
  name := h.name
  lineAt := by
    intro place
    rw [lineAt_alterLine, lineAt_alterLine, h.lineAt, h.lineAt]

/-- Nothing is seen of a line that is opened in one of them. -/
theorem openLine (h : file.Alike other) (number : Int) :
    file.Alike (other.alterLine number id) where
  name := h.name
  lineAt := by
    intro place
    rw [lineAt_alterLine, h.lineAt, h.lineAt]
    split
    · rename_i hplace
      rw [hplace]
      rfl
    · rfl

/-- The instructions on each line are the same. -/
theorem insts (h : file.Alike other) (number : Int) : other.insts number = file.insts number := by
  rw [insts_eq, insts_eq, h.lineAt]

/-- So is the verdict on it. -/
theorem verdict (h : file.Alike other) (number : Int) :
    other.verdict number = file.verdict number := by
  rw [verdict_eq, verdict_eq, h.insts]

/-- As many lines have each verdict, since a line with a verdict is in both files. -/
theorem linesWith (h : file.Alike other) (verdict : Verdict) :
    other.linesWith verdict = file.linesWith verdict := by
  have hall : ∀ number, other.verdict number = some verdict → number ∈ file.lines.keys := by
    intro number hverdict
    rw [h.verdict] at hverdict
    exact mem_keys_of_verdict hverdict
  rw [linesWith_eq_countP file.lines.distinct hall]
  simp only [h.verdict]
  rfl

/-- The tally is the same. -/
theorem tally (h : file.Alike other) : other.tally = file.tally := by
  rw [other.agrees.tally, file.agrees.tally]
  simp only [h.linesWith]

/-- As many lines have instructions. -/
theorem executableLines (h : file.Alike other) :
    other.executableLines = file.executableLines := by
  have hleft := other.agrees.lines
  have hright := file.agrees.lines
  rw [h.tally] at hleft
  omega

/-- The same is found in both, in the same order. -/
theorem findings (h : file.Alike other) : Report.findings other = Report.findings file := by
  have hasc := findings_ascending other
  have hasc' := findings_ascending file
  have hne : ∀ {left right : Finding}, left.number < right.number → left ≠ right := by
    rintro left _ hlt rfl
    exact lt_irrefl _ hlt
  -- The same members, and both sorted by number, whatever the order of the lines.
  have hperm : (Report.findings other).Perm (Report.findings file) := by
    refine (List.perm_ext_iff_of_nodup (hasc.imp hne) (hasc'.imp hne)).mpr fun finding => ?_
    rw [mem_findings_iff, mem_findings_iff, h.verdict]
  refine hperm.eq_of_pairwise ?_ hasc hasc'
  intro left right _ _ hlt hgt
  omega

/-- A report has the same lines on both. -/
theorem targetLines (h : file.Alike other) (style : ReportStyle) (label : String) :
    Report.targetLines style ⟨label, other⟩ = Report.targetLines style ⟨label, file⟩ := by
  have hline : findingLine other style.color = findingLine file style.color := by
    funext finding
    unfold findingLine
    rw [h.name]
  unfold Report.targetLines
  dsimp only
  rw [h.tally, h.findings, hline]

end Alike

end SourceFile

namespace Coverage

variable {coverage other : Coverage}

/-! ### Coverages that say the same -/

/-- Two coverages with the same files in the same order, each like its counterpart. -/
structure Alike (coverage other : Coverage) : Prop where
  names : other.files.keys = coverage.files.keys
  files : ∀ name, Option.Rel SourceFile.Alike (coverage.file? name) (other.file? name)
  scriptCount : other.scriptCount = coverage.scriptCount

namespace Alike

/-- A coverage is like itself. -/
theorem refl (coverage : Coverage) : coverage.Alike coverage where
  names := rfl
  files name := by
    cases coverage.file? name with
    | none => exact .none
    | some file => exact .some (.refl file)
  scriptCount := rfl

/-- An index may be made in either of them. -/
theorem of_unchanged (h : coverage.Alike other) {later later' : Coverage}
    (hleft : Unchanged coverage later) (hright : Unchanged other later') : later.Alike later' where
  names := by rw [hleft.files, hright.files, h.names]
  files name := by
    unfold file?
    rw [hleft.files, hright.files]
    exact h.files name
  scriptCount := by rw [hleft.scriptCount, hright.scriptCount, h.scriptCount]

/-- What is the same in files that are alike is the same of the files under one name. -/
theorem map_file? {β : Type} (h : coverage.Alike other) {view : SourceFile → β}
    (hview : ∀ {file file' : SourceFile}, file.Alike file' → view file' = view file)
    (name : String) : (other.file? name).map view = (coverage.file? name).map view := by
  have hfiles := h.files name
  generalize coverage.file? name = left at hfiles
  generalize other.file? name = right at hfiles
  cases hfiles with
  | none => rfl
  | some hfile => exact congrArg some (hview hfile)

/-! ### Changes -/

/-- A file is there in both or in neither. -/
theorem contains_eq (h : coverage.Alike other) (name : String) :
    other.files.contains name = coverage.files.contains name := by
  unfold Table.contains
  rw [Bool.eq_iff_iff, Table.get?_isSome_iff, Table.get?_isSome_iff, h.names]

/-- They stay alike where the file under one name becomes a new one in both, and the two new ones
are alike. -/
theorem alter (h : coverage.Alike other) {name : String}
    {change change' : Option SourceFile → SourceFile}
    (hchange : (change (coverage.file? name)).Alike (change' (other.file? name)))
    {later later' : Coverage} (hleft : later.files = coverage.files.alter name change)
    (hright : later'.files = other.files.alter name change')
    (hcount : later'.scriptCount = later.scriptCount) : later.Alike later' where
  names := by rw [hleft, hright, Table.keys_alter, Table.keys_alter, h.names]
  files place := by
    unfold file?
    rw [hleft, hright]
    by_cases hplace : place = name
    · subst hplace
      rw [Table.get?_alter_self, Table.get?_alter_self]
      exact .some hchange
    · rw [Table.get?_alter_of_ne _ _ hplace, Table.get?_alter_of_ne _ _ hplace]
      exact h.files place
  scriptCount := hcount

/-- A file that is opened is there in both, as it was or new. -/
theorem openFile (h : coverage.Alike other) (name : String) :
    (coverage.openFile name).Alike (other.openFile name) := by
  unfold Coverage.openFile
  rw [h.contains_eq]
  split
  · exact h
  · exact h.alter (.refl (.empty name)) rfl rfl h.scriptCount

/-- The file under a name, or a new one where there is none, is alike in both. -/
theorem getD_file? (h : coverage.Alike other) (name : String) :
    ((coverage.file? name).getD (.empty name)).Alike ((other.file? name).getD (.empty name)) := by
  have hfiles := h.files name
  generalize coverage.file? name = left at hfiles
  generalize other.file? name = right at hfiles
  cases hfiles with
  | none => exact .refl (.empty name)
  | some hfile => exact hfile

/-- The same change of a line is made in both. -/
theorem alterLine (h : coverage.Alike other) (name : String) (number : Int)
    (change : Line → Line) :
    (coverage.alterLine name number change).Alike (other.alterLine name number change) := by
  -- The file is opened first, so that it may be new in both.
  refine h.alter ((h.getD_file? name).alterLine number change) (files_alterLine ..)
    (files_alterLine ..) ?_
  rw [scriptCount_alterLine, scriptCount_alterLine, h.scriptCount]

/-- The instructions of a script are added to both. -/
theorem addScript (h : coverage.Alike other) (script : Script) :
    (coverage.addScript script).Alike (other.addScript script) := by
  have hinsts : ∀ (insts : List Instruction) (coverage other : Coverage), coverage.Alike other →
      (insts.foldl addInstruction coverage).Alike (insts.foldl addInstruction other) := by
    intro insts
    induction insts with
    | nil => intro coverage other h; exact h
    | cons inst rest ih => intro coverage other h; exact ih _ _ (h.alterLine _ _ _)
  refine hinsts _ _ _ { names := h.names, files := h.files, scriptCount := ?_ }
  show other.scriptCount + 1 = coverage.scriptCount + 1
  rw [h.scriptCount]

/-- A line that is opened in a file that is there shows in neither. -/
theorem openLine_right (h : coverage.Alike other) {name : String}
    (hthere : other.files.contains name = true) (number : Int) :
    coverage.Alike (other.openLine name number) where
  names := by
    show (other.alterLine name number id).files.keys = _
    rw [files_alterLine, Table.keys_alter, if_pos ((Table.get?_isSome_iff _ _).mp hthere), h.names]
  files place := by
    show Option.Rel SourceFile.Alike _ ((other.alterLine name number id).files.get? place)
    rw [files_alterLine]
    by_cases hplace : place = name
    · subst hplace
      rw [Table.get?_alter_self]
      have hfiles := h.files place
      unfold file? at hfiles ⊢
      unfold Table.contains at hthere
      generalize coverage.files.get? place = left at hfiles
      generalize other.files.get? place = right at hfiles hthere
      -- A file that is new would show, in the names if nowhere else.
      cases hfiles with
      | none => cases hthere
      | some hfile => exact .some (hfile.openLine number)
    · rw [Table.get?_alter_of_ne _ _ hplace]
      exact h.files place
  scriptCount := (scriptCount_alterLine other name number id).trans h.scriptCount

/-- Both go on alike with any operation. -/
theorem apply (h : coverage.Alike other) (operation : Operation) :
    (coverage.apply operation).Alike (other.apply operation) := by
  cases operation with
  | addScript script => exact h.addScript script
  | openFile name => exact h.openFile name
  | openLine name number => exact h.alterLine name number id
  | add name number inst => exact h.alterLine name number _
  | resolve wanted => exact h.of_unchanged (unchanged_resolve _ _) (unchanged_resolve _ _)
  | byBaseName => exact h.of_unchanged (unchanged_byBaseName _) (unchanged_byBaseName _)
  | resolveTargets wanted =>
      exact h.of_unchanged (unchanged_resolveTargets _ _) (unchanged_resolveTargets _ _)
  | defaultTargets => exact h

end Alike

/-! ### Looks -/

/-- The targets that are meant by labels and names of files. -/
def labelled (coverage : Coverage) (labels : List (String × String)) : List Target :=
  labels.filterMap fun label => (coverage.file? label.2).map (⟨label.1, ·⟩)

/-- What can be looked at in a coverage. -/
inductive Look where
  | verdict (name : String) (number : Int)
  | insts (name : String) (number : Int)
  | tally (name : String)
  | executableLines (name : String)
  | totalTally (names : List String)
  | resolve (wanted : String)
  | byBaseName
  | defaultTargets
  | resolveTargets (wanted : List String)
  | openLine (name : String) (number : Int)
  | report (style : ReportStyle) (labels : List (String × String))

/-- What a look can tell. A file is told by its name. -/
def Look.Answer : Look → Type
  | .verdict _ _ => Option (Option Verdict)
  | .insts _ _ => Option (List Instruction)
  | .tally _ => Option Tally
  | .executableLines _ => Option Nat
  | .totalTally _ => Tally
  | .resolve _ => Option String
  | .byBaseName => Table String String
  | .defaultTargets => List String
  | .resolveTargets _ => List (String × String) × List String
  | .openLine _ _ => Option Line
  | .report _ _ => String × Except Fault Tally

/-- What a look tells, and the coverage that it leaves. -/
def look (coverage : Coverage) : (look : Look) → look.Answer × Coverage
  | .verdict name number => ((coverage.file? name).map (·.verdict number), coverage)
  | .insts name number => ((coverage.file? name).map (·.insts number), coverage)
  | .tally name => ((coverage.file? name).map (·.tally), coverage)
  | .executableLines name => ((coverage.file? name).map (·.executableLines), coverage)
  | .totalTally names => (SourceFile.totalTally (names.filterMap coverage.file?), coverage)
  | .resolve wanted => ((coverage.resolve wanted).1.map (·.name), (coverage.resolve wanted).2)
  | .byBaseName => coverage.byBaseName
  | .defaultTargets => (coverage.defaultTargets, coverage)
  | .resolveTargets wanted =>
    let (answer, later) := coverage.resolveTargets wanted
    ((answer.1.map fun target => (target.name, target.file.name), answer.2), later)
  | .openLine name number =>
    ((coverage.file? name).map (·.lineAt number),
      if coverage.files.contains name then coverage.openLine name number else coverage)
  | .report style labels =>
    let targets := coverage.labelled labels
    ((printed (written (Report.lines style targets)), Report.result style targets), coverage)

/-! ### What looks tell -/

namespace Alike

/-- A name means the file of one name in both, or none. -/
theorem resolve (h : coverage.Alike other) (hleft : UpToDate coverage) (hright : UpToDate other)
    (wanted : String) :
    (other.resolve wanted).1.map (·.name) = (coverage.resolve wanted).1.map (·.name) := by
  have hname : ∀ name, (other.file? name).map (·.name) = (coverage.file? name).map (·.name) :=
    h.map_file? fun halike => halike.name
  rw [hleft.resolve_fst, hright.resolve_fst, hleft.find?_files, hright.find?_files, h.names,
    Option.map_or, Option.map_or, Option.map_bind, Option.map_bind, hname]
  exact congrArg _ (congrArg _ (funext hname))

/-- The files to report on where none is named are the same. -/
theorem defaultTargets (h : coverage.Alike other) :
    other.defaultTargets = coverage.defaultTargets := by
  unfold Coverage.defaultTargets
  rw [h.names]

/-- Any names mean the same targets, and the same names mean none. -/
theorem resolveTargets (h : coverage.Alike other) (hleft : UpToDate coverage)
    (hright : UpToDate other) (wanted : List String) :
    (other.resolveTargets wanted).1.1.map (fun target => (target.name, target.file.name))
        = (coverage.resolveTargets wanted).1.1.map (fun target => (target.name, target.file.name)) ∧
      (other.resolveTargets wanted).1.2 = (coverage.resolveTargets wanted).1.2 := by
  cases wanted with
  | nil =>
      refine ⟨?_, rfl⟩
      show (other.defaultTargets.filterMap fun name =>
          (other.file? name).map (⟨name, ·⟩ : SourceFile → Target)).map _
        = (coverage.defaultTargets.filterMap fun name =>
          (coverage.file? name).map (⟨name, ·⟩ : SourceFile → Target)).map _
      rw [h.defaultTargets, List.map_filterMap, List.map_filterMap]
      refine List.filterMap_congr fun name _ => ?_
      rw [Option.map_map, Option.map_map]
      exact h.map_file? (fun halike => by simp [halike.name]) name
  | cons name rest =>
      have hresolve := h.resolve hleft hright
      show (other.namedTargets (name :: rest)).1.1.map _
          = (coverage.namedTargets (name :: rest)).1.1.map _
        ∧ (other.namedTargets (name :: rest)).1.2 = (coverage.namedTargets (name :: rest)).1.2
      rw [hright.namedTargets_targets, hleft.namedTargets_targets, hright.namedTargets_unknown,
        hleft.namedTargets_unknown, List.map_filterMap, List.map_filterMap]
      constructor
      · refine List.filterMap_congr fun wanted _ => ?_
        have hpair := congrArg (Option.map fun name => (name, name)) (hresolve wanted)
        rw [Option.map_map, Option.map_map] at hpair ⊢
        exact hpair
      · refine List.filter_congr fun wanted _ => ?_
        have hnone := congrArg Option.isNone (hresolve wanted)
        rwa [Option.isNone_map, Option.isNone_map] at hnone

/-- The total over any files is the same. -/
theorem totalTally (h : coverage.Alike other) (names : List String) :
    SourceFile.totalTally (names.filterMap other.file?)
      = SourceFile.totalTally (names.filterMap coverage.file?) := by
  refine SourceFile.totalTally_congr ?_
  rw [List.map_filterMap, List.map_filterMap]
  exact List.filterMap_congr fun name _ => h.map_file? (fun halike => halike.tally) name

/-- A report on any files has the same lines and the same totals. -/
theorem report (h : coverage.Alike other) (style : ReportStyle) (labels : List (String × String)) :
    Report.lines style (other.labelled labels) = Report.lines style (coverage.labelled labels) ∧
      totals (other.labelled labels) = totals (coverage.labelled labels) := by
  have hmap : ∀ {β : Type} (view : Target → β), (∀ (label : String) (file file' : SourceFile),
      file.Alike file' → view ⟨label, file'⟩ = view ⟨label, file⟩) →
      (other.labelled labels).map view = (coverage.labelled labels).map view := by
    intro β view hview
    unfold labelled
    rw [List.map_filterMap, List.map_filterMap]
    refine List.filterMap_congr fun label _ => ?_
    rw [Option.map_map, Option.map_map]
    exact h.map_file? (fun {file file'} halike => hview label.1 file file' halike) label.2
  have htotals : totals (other.labelled labels) = totals (coverage.labelled labels) := by
    have htally := hmap (fun target => target.file.tally) fun _ _ _ halike => halike.tally
    rw [(totals_eq _).1, (totals_eq _).1]
    refine SourceFile.totalTally_congr ?_
    rw [List.map_map, List.map_map]
    exact htally
  have hlines := hmap (targetLines style) fun label _ _ halike =>
    halike.targetLines style label
  refine ⟨?_, htotals⟩
  unfold Report.lines
  dsimp only
  rw [List.flatMap_def, List.flatMap_def, hlines, htotals]

/-- **Every look tells the same.** -/
theorem look_fst (h : coverage.Alike other) (hleft : UpToDate coverage) (hright : UpToDate other)
    (look : Look) : (other.look look).1 = (coverage.look look).1 := by
  cases look with
  | verdict name number => exact h.map_file? (fun halike => halike.verdict number) name
  | insts name number => exact h.map_file? (fun halike => halike.insts number) name
  | tally name => exact h.map_file? (fun halike => halike.tally) name
  | executableLines name => exact h.map_file? (fun halike => halike.executableLines) name
  | totalTally names => exact h.totalTally names
  | resolve wanted => exact h.resolve hleft hright wanted
  | byBaseName =>
      show other.byBaseName.1 = coverage.byBaseName.1
      rw [hleft.byBaseName_eq, hright.byBaseName_eq, h.names]
  | defaultTargets => exact h.defaultTargets
  | resolveTargets wanted =>
      obtain ⟨htargets, hunknown⟩ := h.resolveTargets hleft hright wanted
      exact Prod.ext htargets hunknown
  | openLine name number => exact h.map_file? (fun halike => halike.lineAt number) name
  | report style labels =>
      obtain ⟨hlines, htotals⟩ := h.report style labels
      have hresult : Report.result style (other.labelled labels)
          = Report.result style (coverage.labelled labels) := by
        unfold Report.result
        rw [hlines, htotals]
      refine Prod.ext ?_ hresult
      show printed (written (Report.lines style (other.labelled labels))) = _
      rw [hlines]
      rfl

/-- A look leaves nothing that shows. -/
theorem look (h : coverage.Alike other) (look : Look) : coverage.Alike (other.look look).2 := by
  have hsame : ∀ {later : Coverage}, Unchanged other later → coverage.Alike later :=
    fun hlater => h.of_unchanged ⟨rfl, rfl⟩ hlater
  cases look with
  | resolve wanted => exact hsame (unchanged_resolve other wanted)
  | byBaseName => exact hsame (unchanged_byBaseName other)
  | resolveTargets wanted => exact hsame (unchanged_resolveTargets other wanted)
  | openLine name number =>
      show coverage.Alike
        (if other.files.contains name then other.openLine name number else other)
      split
      · rename_i hthere
        exact h.openLine_right hthere number
      · exact h
  | verdict | insts | tally | executableLines | totalTally | defaultTargets | report => exact h

end Alike

/-- A look leaves the index up to date. -/
theorem UpToDate.look (h : UpToDate coverage) (look : Look) : UpToDate (coverage.look look).2 := by
  cases look with
  | resolve wanted => exact h.resolve wanted
  | byBaseName => exact h.byBaseName
  | resolveTargets wanted => exact h.resolveTargets wanted
  | openLine name number =>
      show UpToDate
        (if coverage.files.contains name then coverage.openLine name number else coverage)
      split
      · exact h.alterLine name number id
      · exact h
  | verdict | insts | tally | executableLines | totalTally | defaultTargets | report => exact h

/-- Only where a line is opened can a look change more than the index. -/
theorem unchanged_look (coverage : Coverage) (look : Look) :
    (∃ name number, look = .openLine name number) ∨
      Unchanged coverage (coverage.look look).2 := by
  cases look with
  | openLine name number => exact .inl ⟨name, number, rfl⟩
  | resolve wanted => exact .inr (unchanged_resolve coverage wanted)
  | byBaseName => exact .inr (unchanged_byBaseName coverage)
  | resolveTargets wanted => exact .inr (unchanged_resolveTargets coverage wanted)
  | verdict | insts | tally | executableLines | totalTally | defaultTargets | report =>
      exact .inr ⟨rfl, rfl⟩

/-! ### Looks between operations -/

/-- What happens to a coverage: something is done with it, or somebody looks at it. -/
inductive Step where
  | operation (operation : Operation)
  | look (look : Look)

/-- The operation that a step is, if it is one. -/
def Step.operation? : Step → Option Operation
  | .operation own => some own
  | .look _ => none

/-- The coverage after a step. -/
def take (coverage : Coverage) : Step → Coverage
  | .operation operation => coverage.apply operation
  | .look look => (coverage.look look).2

/-- The coverage after some steps. -/
def afterSteps (steps : List Step) : Coverage := steps.foldl take empty

/-- What is done in some steps, without the looks. -/
def operationsOf (steps : List Step) : List Operation := steps.filterMap Step.operation?

/-- Without the looks a coverage is alike, and with them its index is up to date too. -/
theorem alike_afterSteps (steps : List Step) :
    (after (operationsOf steps)).Alike (afterSteps steps) ∧ UpToDate (afterSteps steps) := by
  induction steps using List.reverseRecOn with
  | nil => exact ⟨.refl empty, upToDate_empty⟩
  | append_singleton earlier step ih =>
      have hsteps : afterSteps (earlier ++ [step]) = (afterSteps earlier).take step := by
        simp [afterSteps, List.foldl_append]
      rw [hsteps, operationsOf, List.filterMap_append]
      cases step with
      | operation operation =>
          -- The operation is the last one without the looks, too.
          show (after (operationsOf earlier ++ [operation])).Alike _ ∧ _
          rw [after_concat]
          exact ⟨ih.1.apply operation, ih.2.apply operation⟩
      | look look =>
          show (after (operationsOf earlier ++ [])).Alike _ ∧ _
          rw [List.append_nil]
          exact ⟨ih.1.look look, ih.2.look look⟩

/-- **No look shows in anything that is told later.** After any steps, operations and looks in any
order, also looks that open a line in a file that there is:

* the files are those after the operations alone, in the same order, with the same line under every
  number, where an empty line counts as none;
* every look tells what it would tell after the operations alone: a verdict, the instructions of a
  line, a tally, the number of lines with instructions, a total over any files, what a name or no
  name means, what is in the index, and the text of a report on any files, under any labels and in
  any style, with its totals;
* it leaves the coverage as it was up to the index, unless it opens a line.

Any steps are those up to some point of a run, so this holds for each look of a run. -/
theorem look_invisible (steps : List Step) :
    (after (operationsOf steps)).Alike (afterSteps steps) ∧
    (∀ look, ((afterSteps steps).look look).1 = ((after (operationsOf steps)).look look).1) ∧
    ∀ look, (∃ name number, look = .openLine name number) ∨
      Unchanged (afterSteps steps) ((afterSteps steps).look look).2 := by
  obtain ⟨halike, hindex⟩ := alike_afterSteps steps
  refine ⟨halike, fun look => ?_, unchanged_look (afterSteps steps)⟩
  exact halike.look_fst (upToDate_after (operationsOf steps)) hindex look

/-- A line that was opened by a look keeps its place when it is opened again. -/
example :
    ((afterSteps [.operation (.openFile "a.js"), .look (.openLine "a.js" 2),
        .operation (.openLine "a.js" 1), .operation (.openLine "a.js" 2)]).file?
      "a.js").map (·.lines.keys) = some [2, 1] := by cbv

end Coverage

end LineCoverage

import LineCoverage.Coverage.Target
import LineCoverage.Proofs.Coverage.FirstSeen
import LineCoverage.Proofs.Coverage.Tally
import LineCoverage.Proofs.Coverage.Verdict
import Mathlib.Data.List.Sort
import Mathlib.Data.String.Basic

/-!
# `LineCoverage.Proofs.Coverage.Reordering`: scripts in another order

An engine prints its scripts in the order in which it comes across them, and
that may change from run to run. In the coverage the order shows: what was first
seen is first listed. `ofScripts_reordered` says that nothing else of it shows,
as long as no two scripts have the same name and every instruction belongs to
its own script.

Which record of a site counts is decided within one script, since the site names
the script. So the instructions that compete for a place stand in the same order
whatever the order of the scripts (`filter_script_instructionsOf`), and the
coverages have the same instruction at every site (`SourceFile.Reorders`). What
is read off them, verdicts, tallies and targets, does not depend on the order in
which it is listed.
-/

set_option autoImplicit false

namespace LineCoverage

/-! ### Lists in another order -/

/-- Where at most one member of a list has any values, the order of the members is of no
importance. -/
private theorem flatMap_eq_of_perm {α β : Type} {f : α → List β} {members others : List α}
    (h : members.Perm others)
    (hone : members.Pairwise fun left right => f left = [] ∨ f right = []) :
    members.flatMap f = others.flatMap f := by
  induction h with
  | nil => rfl
  | cons member _ ih =>
      rw [List.flatMap_cons, List.flatMap_cons, ih (List.pairwise_cons.mp hone).2]
  | swap first second rest =>
      simp only [List.flatMap_cons]
      -- One of the two that are exchanged has no values.
      rcases (List.pairwise_cons.mp hone).1 first List.mem_cons_self with hnone | hnone <;>
        simp [hnone]
  | trans hleft _ ihleft ihright =>
      have hmid := (hleft.pairwise_iff fun {left right} => Or.symm).mp hone
      exact (ihleft hone).trans (ihright hmid)

/-- Names in code point order are the same, whatever the order they are given in. -/
private theorem mergeSort_eq_of_perm {names others : List String} (h : names.Perm others) :
    (names.mergeSort fun left right => decide (left ≤ right))
      = others.mergeSort fun left right => decide (left ≤ right) := by
  have hperm : (names.mergeSort fun left right => decide (left ≤ right)).Perm
      (others.mergeSort fun left right => decide (left ≤ right)) :=
    (List.mergeSort_perm names _).trans (h.trans (List.mergeSort_perm others _).symm)
  exact hperm.eq_of_sortedLE List.sortedLE_mergeSort List.sortedLE_mergeSort

/-! ### Verdicts and tallies -/

/-- Two files of one name with the same instruction at every site of every line. The lines and
the instructions may be listed in another order. -/
structure SourceFile.Reorders (file other : SourceFile) : Prop where
  name : other.name = file.name
  numbers : file.lines.keys.Perm other.lines.keys
  sites : ∀ number line, file.lines.get? number = some line →
    ∃ line', other.lines.get? number = some line' ∧
      line.insts.keys.Perm line'.insts.keys ∧
      ∀ site, line.insts.get? site = line'.insts.get? site

namespace SourceFile.Reorders

variable {file other : SourceFile}

/-- The same instructions are on every line. -/
theorem insts (h : file.Reorders other) (number : Int) :
    (file.insts number).Perm (other.insts number) := by
  unfold SourceFile.insts
  cases hline : file.lines.get? number with
  | some line =>
      obtain ⟨line', hline', -, hsites⟩ := h.sites number line hline
      rw [hline']
      exact Table.perm_values hsites
  | none =>
      -- Neither file has the line.
      have hnone : other.lines.get? number = none := by
        rwa [Table.get?_eq_none_iff, ← h.numbers.mem_iff, ← Table.get?_eq_none_iff]
      rw [hnone]

/-- Every line has the same verdict. -/
theorem verdict (h : file.Reorders other) (number : Int) :
    file.verdict number = other.verdict number := by
  rw [verdict_eq, verdict_eq]
  exact Verdict.ofInstructions_congr fun inst => (h.insts number).mem_iff

/-- The same verdicts are under the numbers. -/
theorem verdicts (h : file.Reorders other) : file.verdicts.Perm other.verdicts := by
  unfold SourceFile.verdicts
  rw [funext h.verdict]
  exact h.numbers.filterMap _

/-- The tally is the same. -/
theorem tally (h : file.Reorders other) : file.tally = other.tally := by
  rw [tally_eq, tally_eq, Tally.ofVerdicts_perm h.verdicts]

/-- As many lines have instructions. -/
theorem executableLines (h : file.Reorders other) :
    file.executableLines = other.executableLines := by
  rw [← length_verdicts, ← length_verdicts, h.verdicts.length_eq]

end SourceFile.Reorders

/-! ### Scripts in another order -/

section Scripts

variable {scripts others : List Script}

/-- The instructions are the same, script by script. -/
theorem perm_instructionsOf (h : scripts.Perm others) :
    (instructionsOf scripts).Perm (instructionsOf others) :=
  h.flatMap_right _

/-- Where every script has a name of its own, the instructions that name one script stand in the
order of that script. -/
theorem filter_script_instructionsOf (h : scripts.Perm others)
    (hnames : (scripts.map (·.name)).Nodup)
    (hown : ∀ script ∈ scripts, ∀ inst ∈ script.instructions, inst.script = script.name)
    (name : String) :
    (instructionsOf scripts).filter (·.script = name)
      = (instructionsOf others).filter (·.script = name) := by
  have hnone : ∀ script ∈ scripts, script.name ≠ name →
      script.instructions.toList.filter (·.script = name) = [] := by
    intro script hmem hne
    refine List.filter_eq_nil_iff.mpr fun inst hinst => ?_
    rw [hown script hmem inst (Array.mem_toList_iff.mp hinst)]
    simpa using hne
  rw [instructionsOf, instructionsOf, List.filter_flatMap, List.filter_flatMap]
  refine flatMap_eq_of_perm h ?_
  refine (List.pairwise_map.mp hnames).imp_of_mem ?_
  intro left right hleft hright hne
  -- Two scripts do not both have the name.
  by_cases heq : left.name = name
  · exact .inr (hnone right hright fun hright => hne (heq.trans hright.symm))
  · exact .inl (hnone left hleft heq)

/-- The records of one site on one line stand in the same order. -/
theorem filter_site_instructionsOn (h : scripts.Perm others)
    (hnames : (scripts.map (·.name)).Nodup)
    (hown : ∀ script ∈ scripts, ∀ inst ∈ script.instructions, inst.script = script.name)
    (location : Location) (site : Site) :
    (instructionsOn scripts location).filter (·.site = site)
      = (instructionsOn others location).filter (·.site = site) := by
  have hscript : ∀ list : List Script,
      (instructionsOn list location).filter (·.site = site)
        = ((instructionsOf list).filter (·.script = site.script)).filter
            fun inst => inst.location = location ∧ inst.site = site := by
    intro list
    rw [instructionsOn, List.filter_filter, List.filter_filter]
    refine List.filter_congr fun inst _ => ?_
    -- An instruction from the site names the script of the site.
    by_cases hsite : inst.site = site
    · simp [← hsite, Instruction.site, and_comm]
    · simp [hsite]
  rw [hscript, hscript, filter_script_instructionsOf h hnames hown]

namespace Coverage

/-- Where the instructions of two lists of scripts stand in another order, each file of the one
coverage is there in the other, with the same lines. -/
theorem exists_file?_of_perm (h : (instructionsOf scripts).Perm (instructionsOf others))
    {name : String} {file : SourceFile} (hfile : (ofScripts scripts).file? name = some file) :
    ∃ other, (ofScripts others).file? name = some other ∧ other.name = file.name ∧
      file.lines.keys.Perm other.lines.keys := by
  have hfiles : (ofScripts scripts).files.keys.Perm (ofScripts others).files.keys := by
    rw [files_ofScripts, files_ofScripts]
    exact Table.perm_keys_gather h
  have hmem : name ∈ (ofScripts others).files.keys :=
    hfiles.mem_iff.mp (Table.mem_keys_of_get? hfile)
  obtain ⟨other, hother⟩ := Table.exists_get?_of_mem hmem
  refine ⟨other, hother, ?_⟩
  obtain rfl := eq_of_file?_ofScripts hfile
  obtain rfl := eq_of_file?_ofScripts hother
  exact ⟨rfl, Table.perm_keys_gather (h.filter _)⟩

/-- Each file of the one coverage is there in the other, with the same instruction at every
site. -/
theorem exists_file?_reorders (h : scripts.Perm others)
    (hnames : (scripts.map (·.name)).Nodup)
    (hown : ∀ script ∈ scripts, ∀ inst ∈ script.instructions, inst.script = script.name)
    {name : String} {file : SourceFile} (hfile : (ofScripts scripts).file? name = some file) :
    ∃ other, (ofScripts others).file? name = some other ∧ file.Reorders other := by
  have hinsts := perm_instructionsOf h
  obtain ⟨other, hother, hname, hnumbers⟩ := exists_file?_of_perm hinsts hfile
  refine ⟨other, hother, hname, hnumbers, fun number line hline => ?_⟩
  have hmem : number ∈ other.lines.keys := hnumbers.mem_iff.mp (Table.mem_keys_of_get? hline)
  obtain ⟨line', hline'⟩ := Table.exists_get?_of_mem hmem
  obtain rfl := eq_of_line_ofScripts hfile hline
  obtain rfl := eq_of_line_ofScripts hother hline'
  refine ⟨_, hline', Table.perm_keys_gather (hinsts.filter _), fun site => ?_⟩
  -- Of the records of a site the last one counts, and they stand in the same order.
  rw [(insts_gather _).2, (insts_gather _).2, filter_site_instructionsOn h hnames hown]

/-- **The order of the scripts does not matter.** Where no two scripts have the same name and every
instruction belongs to its own script, the scripts in any other order have a coverage

* with the same files, and in each of them the same lines, with the same instruction at every site;
* with the same verdict on every line, the same tally of every file, and as many lines with
  instructions;
* with the same files to report on where none is named, in the same order;
* with the same total over any files. -/
theorem ofScripts_reordered (h : scripts.Perm others)
    (hnames : (scripts.map (·.name)).Nodup)
    (hown : ∀ script ∈ scripts, ∀ inst ∈ script.instructions, inst.script = script.name) :
    (ofScripts scripts).files.keys.Perm (ofScripts others).files.keys ∧
    (∀ name file, (ofScripts scripts).file? name = some file →
      ∃ other, (ofScripts others).file? name = some other ∧ file.Reorders other ∧
        (∀ number, file.verdict number = other.verdict number) ∧
        file.tally = other.tally ∧ file.executableLines = other.executableLines) ∧
    (ofScripts scripts).defaultTargets = (ofScripts others).defaultTargets ∧
    ∀ names : List String,
      SourceFile.totalTally (names.filterMap (ofScripts scripts).file?)
        = SourceFile.totalTally (names.filterMap (ofScripts others).file?) := by
  have hfiles : (ofScripts scripts).files.keys.Perm (ofScripts others).files.keys := by
    rw [files_ofScripts, files_ofScripts]
    exact Table.perm_keys_gather (perm_instructionsOf h)
  refine ⟨hfiles, ?_, mergeSort_eq_of_perm (hfiles.filter _), fun names => ?_⟩
  · intro name file hfile
    obtain ⟨other, hother, hsame⟩ := exists_file?_reorders h hnames hown hfile
    exact ⟨other, hother, hsame, hsame.verdict, hsame.tally, hsame.executableLines⟩
  · refine SourceFile.totalTally_congr ?_
    rw [List.map_filterMap, List.map_filterMap]
    refine List.filterMap_congr fun name _ => ?_
    cases hfile : (ofScripts scripts).file? name with
    | some file =>
        obtain ⟨other, hother, hsame⟩ := exists_file?_reorders h hnames hown hfile
        rw [hother, Option.map_some, Option.map_some, hsame.tally]
    | none =>
        -- Neither coverage has the file.
        have hnone : (ofScripts others).file? name = none := by
          unfold file? at hfile ⊢
          rwa [Table.get?_eq_none_iff, ← hfiles.mem_iff, ← Table.get?_eq_none_iff]
        rw [hnone]

/-- Two scripts with instructions on one line, each of them printed first. -/
theorem ofScripts_reordered_shared_line :
    let left : Script :=
      ⟨"a.js:1", "a.js", #[⟨"a.js:1", 0, ⟨"a.js", 1⟩, 1, "getarg 0", false⟩]⟩
    let right : Script :=
      ⟨"b.js:1", "b.js", #[⟨"b.js:1", 0, ⟨"a.js", 1⟩, 0, "stop", true⟩,
        ⟨"b.js:1", 3, ⟨"b.js", 2⟩, 0, "stop", true⟩]⟩
    (ofScripts [left, right]).files.keys.Perm (ofScripts [right, left]).files.keys ∧
    (∀ file, (ofScripts [left, right]).file? "a.js" = some file →
      ∃ other, (ofScripts [right, left]).file? "a.js" = some other ∧
        file.verdict 1 = other.verdict 1 ∧ file.tally = other.tally) ∧
    (ofScripts [left, right]).defaultTargets = (ofScripts [right, left]).defaultTargets := by
  intro left right
  have hown : ∀ script ∈ [left, right], ∀ inst ∈ script.instructions,
      inst.script = script.name := by simp [left, right]
  obtain ⟨hfiles, hsame, htargets, -⟩ :=
    ofScripts_reordered (.swap right left []) (by decide) hown
  refine ⟨hfiles, fun file hfile => ?_, htargets⟩
  obtain ⟨other, hother, -, hverdict, htally, -⟩ := hsame "a.js" file hfile
  exact ⟨other, hother, hverdict 1, htally⟩

end Coverage

end Scripts

end LineCoverage

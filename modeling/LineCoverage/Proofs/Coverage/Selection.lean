import LineCoverage.Proofs.Coverage.Resolution
import LineCoverage.Report.Summary
import Mathlib.Data.List.Sort
import Mathlib.Data.String.Basic

/-!
# `LineCoverage.Proofs.Coverage.Selection`: every name asked for is accounted for

A user names the files to report on, or none. Names are looked up one after
another, and a lookup may leave an index behind for the next one. That index is
the only trace of it (`Unchanged`), and no answer depends on it, so every name is
answered as if it were the only one (`UpToDate.targets_eq`).

`Accounted` says where each of the names goes: among the targets or among the
warnings, in the order in which they were given. Nothing of that is about all
files at once. That there are no names is a case of its own: then the targets are
all files but those of code that comes from no file, by name (`Complete`).
`resolveTargets_after` puts both together, after any operations.
-/

set_option autoImplicit false

namespace LineCoverage.Coverage

variable {coverage : Coverage}

/-! ### What a lookup leaves behind -/

/-- A coverage that differs in its index at most. -/
structure Unchanged (coverage later : Coverage) : Prop where
  files : later.files = coverage.files
  scriptCount : later.scriptCount = coverage.scriptCount

/-- One after another. -/
theorem Unchanged.trans {later last : Coverage} (h : Unchanged coverage later)
    (hlast : Unchanged later last) : Unchanged coverage last where
  files := hlast.files.trans h.files
  scriptCount := hlast.scriptCount.trans h.scriptCount

/-- An index is made of the names, and changes none of them. -/
theorem unchanged_byBaseName (coverage : Coverage) : Unchanged coverage coverage.byBaseName.2 := by
  unfold byBaseName
  split <;> exact ⟨rfl, rfl⟩

/-- A lookup by the whole name leaves nothing behind, one by the base name the index. -/
theorem unchanged_resolve (coverage : Coverage) (wanted : String) :
    Unchanged coverage (coverage.resolve wanted).2 := by
  unfold resolve
  split
  · exact ⟨rfl, rfl⟩
  · exact unchanged_byBaseName coverage

/-- Nor do lookups of many names leave anything else. -/
theorem unchanged_targets (coverage : Coverage) (wanted : List String) :
    Unchanged coverage (coverage.targets wanted).2 := by
  induction wanted generalizing coverage with
  | nil => exact ⟨rfl, rfl⟩
  | cons name rest ih =>
      have hfirst : Unchanged coverage (coverage.target name).2 := by
        rw [target_snd]
        exact unchanged_resolve coverage name
      exact hfirst.trans (ih (coverage.target name).2)

/-- Whatever a user asks for, the coverage stays. -/
theorem unchanged_resolveTargets (coverage : Coverage) (wanted : List String) :
    Unchanged coverage (coverage.resolveTargets wanted).2 := by
  cases wanted with
  | nil => exact ⟨rfl, rfl⟩
  | cons name rest => exact unchanged_targets coverage (name :: rest)

/-! ### One name after another -/

/-- What a lookup finds goes by the files alone. -/
theorem UpToDate.resolve_fst (h : UpToDate coverage) (wanted : String) :
    (coverage.resolve wanted).1
      = (coverage.file? wanted).or
          (coverage.files.values.find? fun file => baseName file.name = baseName wanted) := by
  rw [h.resolve_eq]
  cases coverage.file? wanted <;> rfl

/-- The file that is found is kept under its name. -/
theorem UpToDate.file?_of_resolve (h : UpToDate coverage) {wanted : String} {file : SourceFile}
    (hfile : (coverage.resolve wanted).1 = some file) : coverage.file? file.name = some file := by
  have hmem : file ∈ coverage.files.values := by
    rw [h.resolve_fst, Option.or_eq_some_iff] at hfile
    rcases hfile with hwhole | ⟨-, hbase⟩
    · exact Table.mem_values_iff.mpr ⟨wanted, hwhole⟩
    · exact List.mem_of_find?_eq_some hbase
  obtain ⟨name, hname⟩ := Table.mem_values_iff.mp hmem
  rw [h.named name file hname]
  exact hname

/-- A name is answered with the target for its file, or given back. -/
theorem target_fst (coverage : Coverage) (wanted : String) :
    (coverage.target wanted).1
      = match (coverage.resolve wanted).1 with
        | some file => .ok ⟨file.name, file⟩
        | none => .error wanted := by
  unfold target
  rcases coverage.resolve wanted with ⟨_ | file, later⟩ <;> rfl

/-- An earlier lookup makes no difference to a name. -/
theorem UpToDate.target_fst_of_target (h : UpToDate coverage) (first wanted : String) :
    ((coverage.target first).2.target wanted).1 = (coverage.target wanted).1 := by
  have hfiles := (unchanged_resolve coverage first).files
  have hsame : ((coverage.resolve first).2.resolve wanted).1 = (coverage.resolve wanted).1 := by
    rw [(h.resolve first).resolve_fst, h.resolve_fst, file?, file?, hfiles]
  rw [target_snd, target_fst, target_fst, hsame]

/-- Every name is answered as if it were the only one. -/
theorem UpToDate.targets_eq (h : UpToDate coverage) (wanted : List String) :
    (coverage.targets wanted).1 = wanted.map fun name => (coverage.target name).1 := by
  induction wanted generalizing coverage with
  | nil => rfl
  | cons name rest ih =>
      have hlater : UpToDate (coverage.target name).2 := by
        rw [target_snd]
        exact h.resolve name
      show (coverage.target name).1 :: ((coverage.target name).2.targets rest).1 = _
      rw [ih hlater, List.map_cons]
      simp only [h.target_fst_of_target name]

/-! ### Names that are given -/

/-- Where each of some names goes: the ones with a file among the targets, under the name of that
file, and the others among the warnings. -/
structure Accounted (coverage : Coverage) (wanted : List String)
    (answer : List Target × List String) : Prop where
  targets : answer.1
    = wanted.filterMap fun name => (coverage.resolve name).1.map fun file => ⟨file.name, file⟩
  unknown : answer.2 = wanted.filter fun name => (coverage.resolve name).1.isNone
  /-- No name is lost, and none is counted twice. -/
  length : answer.1.length + answer.2.length = wanted.length
  /-- A target is the file that the coverage has under the name. -/
  own : ∀ target ∈ answer.1, coverage.file? target.name = some target.file
  /-- Every name without a file has its line among the warnings, and nothing else has. -/
  warnings : String.join (answer.2.map unknownTargetWarning)
    = Report.printed ((wanted.filter fun name => (coverage.resolve name).1.isNone).map fun name =>
        "covmonkey warning: unknown target file: " ++ name)
  /-- Names that all mean nothing are not the same as no names. -/
  allUnknown : (∀ name ∈ wanted, (coverage.resolve name).1 = none) → answer = ([], wanted)

/-- The names that are answered with a target. -/
theorem UpToDate.namedTargets_targets (h : UpToDate coverage) (wanted : List String) :
    (coverage.namedTargets wanted).1.1
      = wanted.filterMap fun name =>
          (coverage.resolve name).1.map fun file => ⟨file.name, file⟩ := by
  show (coverage.targets wanted).1.filterMap Except.toOption = _
  rw [h.targets_eq, List.filterMap_map]
  refine List.filterMap_congr fun name _ => ?_
  show (coverage.target name).1.toOption = _
  rw [target_fst]
  cases (coverage.resolve name).1 <;> rfl

/-- The names that are given back. -/
theorem UpToDate.namedTargets_unknown (h : UpToDate coverage) (wanted : List String) :
    (coverage.namedTargets wanted).1.2
      = wanted.filter fun name => (coverage.resolve name).1.isNone := by
  show (coverage.targets wanted).1.filterMap _ = _
  rw [h.targets_eq, List.filterMap_map, ← List.filterMap_eq_filter]
  refine List.filterMap_congr fun name _ => ?_
  simp only [Function.comp_apply, target_fst]
  cases hfound : (coverage.resolve name).1 <;> simp [Option.guard, hfound]

/-- Each name is on one side and on one side only. -/
theorem length_targets_add_unknown (coverage : Coverage) (wanted : List String) :
    (wanted.filterMap fun name =>
        (coverage.resolve name).1.map fun file => (⟨file.name, file⟩ : Target)).length
      + (wanted.filter fun name => (coverage.resolve name).1.isNone).length = wanted.length := by
  have hsplit : wanted.length
      = wanted.countP (fun name => (coverage.resolve name).1.isSome)
        + wanted.countP fun name => ¬ (coverage.resolve name).1.isSome :=
    List.length_eq_countP_add_countP _
  rw [List.length_filterMap_eq_countP, ← List.countP_eq_length_filter, hsplit]
  simp only [Option.isSome_map, Bool.not_eq_true, Option.isSome_eq_false_iff, Bool.decide_eq_true]

/-- Names that are given are accounted for. -/
theorem UpToDate.accounted_namedTargets (h : UpToDate coverage) (wanted : List String) :
    Accounted coverage wanted (coverage.namedTargets wanted).1 := by
  have htargets := h.namedTargets_targets wanted
  have hunknown := h.namedTargets_unknown wanted
  exact
    { targets := htargets
      unknown := hunknown
      length := by
        rw [htargets, hunknown]
        exact length_targets_add_unknown coverage wanted
      own := by
        intro target htarget
        rw [htargets] at htarget
        obtain ⟨name, -, hname⟩ := List.mem_filterMap.mp htarget
        obtain ⟨file, hfile, rfl⟩ := Option.map_eq_some_iff.mp hname
        exact h.file?_of_resolve hfile
      warnings := by
        rw [hunknown, Report.printed, List.map_map]
        rfl
      allUnknown := by
        intro hnone
        have hempty : (coverage.namedTargets wanted).1.1 = [] := by
          rw [htargets]
          refine List.filterMap_eq_nil_iff.mpr fun name hname => ?_
          rw [hnone name hname]
          rfl
        have hall : (coverage.namedTargets wanted).1.2 = wanted := by
          rw [hunknown]
          refine List.filter_eq_self.mpr fun name hname => ?_
          rw [hnone name hname]
          rfl
        exact Prod.ext hempty hall }

/-! ### No names -/

/-- The answer to no names: every file that comes from somewhere, once, by name. -/
structure Complete (coverage : Coverage) (answer : List Target × List String) : Prop where
  /-- No name comes twice, and they stand in code point order. -/
  ascending : answer.1.Pairwise fun left right => left.name < right.name
  mem : ∀ target, target ∈ answer.1 ↔
    coverage.file? target.name = some target.file ∧ baseName target.name ≠ noFileName
  named : ∀ target ∈ answer.1, target.file.name = target.name
  /-- There is nothing to warn about. -/
  unknown : answer.2 = []

/-- The names of the files stand in strictly ascending order. -/
theorem defaultTargets_ascending (coverage : Coverage) :
    coverage.defaultTargets.Pairwise (· < ·) := by
  have hnames : (coverage.files.keys.filter fun name => baseName name ≠ noFileName).Nodup :=
    coverage.files.distinct.filter _
  exact (List.sortedLE_mergeSort.sortedLT_of_nodup hnames.mergeSort).pairwise

/-- Every name of a file is one of them, unless it stands for no file. -/
theorem mem_defaultTargets {name : String} :
    name ∈ coverage.defaultTargets ↔
      name ∈ coverage.files.keys ∧ baseName name ≠ noFileName := by
  simp [defaultTargets]

/-- The targets are the files under these names. -/
theorem mem_resolveTargets_nil {target : Target} :
    target ∈ (coverage.resolveTargets []).1.1 ↔
      coverage.file? target.name = some target.file ∧ baseName target.name ≠ noFileName := by
  obtain ⟨name, file⟩ := target
  show _ ∈ coverage.defaultTargets.filterMap
    (fun name => (coverage.file? name).map (⟨name, ·⟩ : SourceFile → Target)) ↔ _
  rw [List.mem_filterMap]
  constructor
  · rintro ⟨name', hname', hfile⟩
    obtain ⟨file', hfile', heq⟩ := Option.map_eq_some_iff.mp hfile
    cases heq
    exact ⟨hfile', (mem_defaultTargets.mp hname').2⟩
  · rintro ⟨hfile, hbase⟩
    have hname : name ∈ coverage.defaultTargets :=
      mem_defaultTargets.mpr ⟨Table.mem_keys_of_get? hfile, hbase⟩
    exact ⟨name, hname, Option.map_eq_some_iff.mpr ⟨file, hfile, rfl⟩⟩

/-- Where nothing is asked for, everything is meant. -/
theorem UpToDate.complete_resolveTargets (h : UpToDate coverage) :
    Complete coverage (coverage.resolveTargets []).1 where
  ascending := by
    refine coverage.defaultTargets_ascending.filterMap _ ?_
    intro left right hlt first hfirst second hsecond
    -- A target has the name that it was looked up by.
    obtain ⟨_, -, rfl⟩ := Option.map_eq_some_iff.mp hfirst
    obtain ⟨_, -, rfl⟩ := Option.map_eq_some_iff.mp hsecond
    exact hlt
  mem _ := mem_resolveTargets_nil
  named target htarget := h.named target.name target.file (mem_resolveTargets_nil.mp htarget).1
  unknown := rfl

/-- **Every name asked for is accounted for.** After any operations in any order:

* if names are given, each of them is either among the targets, with the file that it means under
  the name of that file, or has its warning, and both keep the order of the names;
* if no name is given, every file that comes from somewhere is a target once, by name, and there
  are no warnings;
* either way files, lines and instructions stay as they are. -/
theorem resolveTargets_after (operations : List Operation) :
    (∀ name rest, Accounted (after operations) (name :: rest)
      ((after operations).resolveTargets (name :: rest)).1) ∧
    Complete (after operations) ((after operations).resolveTargets []).1 ∧
    ∀ wanted, Unchanged (after operations) ((after operations).resolveTargets wanted).2 := by
  have h := upToDate_after operations
  refine ⟨fun name rest => ?_, h.complete_resolveTargets, fun wanted => ?_⟩
  · exact h.accounted_namedTargets (name :: rest)
  · exact unchanged_resolveTargets (after operations) wanted

/-- Of two files with one base name the first is meant, unless the other is named as a whole. -/
example :
    let coverage := after [.openFile "lib/b.js", .openFile "src/b.js", .openFile "(null)"]
    let answer := (coverage.resolveTargets ["b.js", "c.js", "src/b.js"]).1
    (answer.1.map (·.name), answer.2) = (["lib/b.js", "src/b.js"], ["c.js"]) := by cbv

end LineCoverage.Coverage

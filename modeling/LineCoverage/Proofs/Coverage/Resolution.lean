import LineCoverage.Coverage.Target
import LineCoverage.Proofs.Coverage.FirstSeen

/-!
# `LineCoverage.Proofs.Coverage.Resolution`: a name is never looked up in an old index

A coverage makes its index of base names when somebody asks, and keeps it for
the next time. A file can be added in between, by a script as well as on its
own, and the index would not know it. `UpToDate` says that this does not show:
an index that is kept is the one that would be made now. It also says that a
file is kept under its own name.

Each operation keeps this. Those that look something up change nothing but the
index (`resolve_eq`), and those that may add a file all do so by `openFile`,
which drops the index if the file is new. `resolve_after` concludes what every
lookup finds after any operations, in terms of the files that there are by then.
-/

set_option autoImplicit false

namespace LineCoverage.Coverage

variable {coverage : Coverage}

/-- An index that is kept is the one that would be made now, and every file is kept under its own
name. -/
structure UpToDate (coverage : Coverage) : Prop where
  indexed : ∀ index, coverage.index = some index → index = indexOf coverage.files.keys
  named : ∀ name file, coverage.file? name = some file → file.name = name

/-- A coverage without files. -/
theorem upToDate_empty : UpToDate empty where
  indexed _ h := by cases h
  named _ _ h := by cases h

/-! ### The index -/

/-- The index is gathered from the names. A name that comes later changes nothing. -/
theorem indexOf_eq (names : List String) :
    indexOf names = Table.gather baseName (fun name found => found.getD name) names := rfl

/-- The base names in the index are those of the names, in order of first occurrence. -/
theorem keys_indexOf (names : List String) :
    (indexOf names).keys = (names.map baseName).eraseDups := by
  rw [indexOf_eq, Table.keys_gather]

/-- Of the names with one base name the first is in the index. -/
theorem get?_indexOf (names : List String) (base : String) :
    (indexOf names).get? base = names.find? fun name => baseName name = base := by
  have hfirst : ∀ own : List String,
      own.foldl (fun found name => some (found.getD name)) none = own.head? := by
    intro own
    induction own using List.reverseRecOn with
    | nil => rfl
    | append_singleton earlier name ih =>
        rw [List.foldl_append, ih]
        cases earlier <;> rfl
  rw [indexOf_eq, Table.get?_gather, hfirst, List.head?_filter]

/-- Whether there is an index or not, the one that is asked for is that of the files, and is kept
from then on. -/
theorem UpToDate.byBaseName_eq (h : UpToDate coverage) :
    coverage.byBaseName
      = (indexOf coverage.files.keys,
          { coverage with index := some (indexOf coverage.files.keys) }) := by
  obtain ⟨files, index, scriptCount⟩ := coverage
  cases index with
  | none => rfl
  | some index =>
      have hindex : index = indexOf files.keys := h.indexed index rfl
      rw [← hindex]
      rfl

/-- To ask for the index changes no file. -/
theorem UpToDate.byBaseName (h : UpToDate coverage) : UpToDate coverage.byBaseName.2 := by
  rw [h.byBaseName_eq]
  exact
    { indexed := fun index hindex => (Option.some.inj hindex).symm
      named := h.named }

/-! ### Lookups -/

/-- The first file with a base name is that of the first name with that base name. -/
theorem UpToDate.find?_files (h : UpToDate coverage) (base : String) :
    (coverage.files.values.find? fun file => baseName file.name = base)
      = (coverage.files.keys.find? fun name => baseName name = base).bind coverage.file? := by
  refine Table.find?_values coverage.files fun name file hfile => ?_
  rw [h.named name file hfile]

/-- A lookup, without the index. -/
theorem UpToDate.resolve_eq (h : UpToDate coverage) (wanted : String) :
    coverage.resolve wanted
      = match coverage.file? wanted with
        | some file => (some file, coverage)
        | none =>
          (coverage.files.values.find? fun file => baseName file.name = baseName wanted,
            coverage.byBaseName.2) := by
  unfold resolve
  rw [h.find?_files, h.byBaseName_eq]
  simp only [get?_indexOf]
  rfl

/-- A lookup finds nothing exactly where no file has the name or the base name. -/
theorem UpToDate.resolve_eq_none_iff (h : UpToDate coverage) (wanted : String) :
    (coverage.resolve wanted).1 = none ↔
      ∀ file ∈ coverage.files.values,
        file.name ≠ wanted ∧ baseName file.name ≠ baseName wanted := by
  rw [h.resolve_eq]
  cases hfile : coverage.file? wanted with
  | some file =>
      have hname := h.named wanted file hfile
      have hmem : file ∈ coverage.files.values := Table.mem_values_iff.mpr ⟨wanted, hfile⟩
      simp only [reduceCtorEq, false_iff]
      exact fun hall => (hall file hmem).1 hname
  | none =>
      simp only [List.find?_eq_none, decide_eq_true_eq]
      constructor
      · intro hbase file hmem
        refine ⟨fun hname => hbase file hmem (by rw [hname]), hbase file hmem⟩
      · intro hall file hmem
        exact (hall file hmem).2

/-- A lookup changes no file. -/
theorem UpToDate.resolve (h : UpToDate coverage) (wanted : String) :
    UpToDate (coverage.resolve wanted).2 := by
  rw [h.resolve_eq]
  split
  · exact h
  · exact h.byBaseName

/-- A target is looked up like any name. -/
theorem target_snd (coverage : Coverage) (wanted : String) :
    (coverage.target wanted).2 = (coverage.resolve wanted).2 := by
  unfold target
  rcases coverage.resolve wanted with ⟨_ | file, later⟩ <;> rfl

/-- Nor do lookups of many names change any file. -/
theorem UpToDate.targets (h : UpToDate coverage) (wanted : List String) :
    UpToDate (coverage.targets wanted).2 := by
  induction wanted generalizing coverage with
  | nil => exact h
  | cons name rest ih =>
      have hfirst : UpToDate (coverage.target name).2 := by
        rw [target_snd]
        exact h.resolve name
      exact ih hfirst

/-- Nor does what a user asks for. -/
theorem UpToDate.resolveTargets (h : UpToDate coverage) (wanted : List String) :
    UpToDate (coverage.resolveTargets wanted).2 := by
  cases wanted with
  | nil => exact h
  | cons name rest => exact h.targets (name :: rest)

/-! ### Changes -/

/-- A new file makes the index old, and so it is dropped. -/
theorem UpToDate.openFile (h : UpToDate coverage) (name : String) :
    UpToDate (coverage.openFile name) := by
  unfold Coverage.openFile
  split
  · exact h
  · refine ⟨fun index hindex => (by cases hindex), fun other file hfile => ?_⟩
    change (coverage.files.alter name _).get? other = some file at hfile
    by_cases hother : other = name
    · subst hother
      rw [Table.get?_alter_self] at hfile
      cases hfile
      rfl
    · rw [Table.get?_alter_of_ne _ _ hother] at hfile
      exact h.named other file hfile

/-- After it was opened a file is there. -/
theorem mem_keys_openFile (coverage : Coverage) (name : String) :
    name ∈ (coverage.openFile name).files.keys := by
  unfold Coverage.openFile
  split
  · rename_i hthere
    exact (Table.get?_isSome_iff _ _).mp hthere
  · exact Table.mem_keys_of_get? (Table.get?_alter_self coverage.files name _)

/-- A line can be changed without regard to the index, since its file is there by then. -/
theorem UpToDate.alterLine (h : UpToDate coverage) (name : String) (number : Int)
    (change : Line → Line) : UpToDate (coverage.alterLine name number change) := by
  have hopen := h.openFile name
  refine ⟨fun index hindex => ?_, fun other file hfile => ?_⟩
  · have hkeys : (coverage.alterLine name number change).files.keys
        = (coverage.openFile name).files.keys := by
      show ((coverage.openFile name).files.alter name _).keys = _
      rw [Table.keys_alter, if_pos (mem_keys_openFile coverage name)]
    rw [hkeys]
    exact hopen.indexed index hindex
  · change ((coverage.openFile name).files.alter name _).get? other = some file at hfile
    by_cases hother : other = name
    · subst hother
      rw [Table.get?_alter_self] at hfile
      obtain rfl := Option.some.inj hfile
      show (((coverage.openFile other).files.get? other).getD (.empty other)).name = other
      cases hold : (coverage.openFile other).files.get? other with
      | none => rfl
      | some old => exact hopen.named other old hold
    · rw [Table.get?_alter_of_ne _ _ hother] at hfile
      exact hopen.named other file hfile

/-- Deep inside a script a file is added like any other. -/
theorem UpToDate.addScript (h : UpToDate coverage) (script : Script) :
    UpToDate (coverage.addScript script) := by
  have hstep : ∀ (insts : List Instruction) (coverage : Coverage), UpToDate coverage →
      UpToDate (insts.foldl addInstruction coverage) := by
    intro insts
    induction insts with
    | nil => intro coverage h; exact h
    | cons inst rest ih => intro coverage h; exact ih _ (h.alterLine _ _ _)
  exact hstep _ _ ⟨h.indexed, h.named⟩

/-! ### Operations in any order -/

/-- What can be done with a coverage. -/
inductive Operation where
  | addScript (script : Script)
  | openFile (name : String)
  | openLine (name : String) (number : Int)
  | add (name : String) (number : Int) (inst : Instruction)
  | resolve (wanted : String)
  | byBaseName
  | resolveTargets (wanted : List String)
  | defaultTargets

/-- The coverage after an operation. -/
def apply (coverage : Coverage) : Operation → Coverage
  | .addScript script => coverage.addScript script
  | .openFile name => coverage.openFile name
  | .openLine name number => coverage.openLine name number
  | .add name number inst => coverage.add name number inst
  | .resolve wanted => (coverage.resolve wanted).2
  | .byBaseName => coverage.byBaseName.2
  | .resolveTargets wanted => (coverage.resolveTargets wanted).2
  | .defaultTargets => coverage

/-- The coverage after some operations. -/
def after (operations : List Operation) : Coverage := operations.foldl apply empty

/-- The last operation comes after the others. -/
theorem after_concat (operations : List Operation) (last : Operation) :
    after (operations ++ [last]) = (after operations).apply last := by
  simp [after, List.foldl_append]

/-- Every operation keeps the index up to date. -/
theorem UpToDate.apply (h : UpToDate coverage) (operation : Operation) :
    UpToDate (coverage.apply operation) := by
  cases operation with
  | addScript script => exact h.addScript script
  | openFile name => exact h.openFile name
  | openLine name number => exact h.alterLine name number id
  | add name number inst => exact h.alterLine name number _
  | resolve wanted => exact h.resolve wanted
  | byBaseName => exact h.byBaseName
  | resolveTargets wanted => exact h.resolveTargets wanted
  | defaultTargets => exact h

/-- So do any operations in any order. -/
theorem upToDate_after (operations : List Operation) : UpToDate (after operations) := by
  induction operations using List.reverseRecOn with
  | nil => exact upToDate_empty
  | append_singleton earlier operation ih =>
      rw [after_concat]
      exact ih.apply operation

/-- **No lookup is answered by an old index.** After any operations in any order:

* a name finds the file of that name, and else the first file, in the order in which they were
  created, with the same base name;
* it finds none exactly where no file has the name or the base name;
* in the index are the base names of all files, in order of first occurrence, each with the name of
  the first file that has it;
* every file is kept under its own name. -/
theorem resolve_after (operations : List Operation) :
    (∀ wanted, ((after operations).resolve wanted).1
      = ((after operations).file? wanted).or
          ((after operations).files.values.find? fun file =>
            baseName file.name = baseName wanted)) ∧
    (∀ wanted, ((after operations).resolve wanted).1 = none ↔
      ∀ file ∈ (after operations).files.values,
        file.name ≠ wanted ∧ baseName file.name ≠ baseName wanted) ∧
    (after operations).byBaseName.1.keys
      = ((after operations).files.values.map fun file => baseName file.name).eraseDups ∧
    (∀ base, (after operations).byBaseName.1.get? base
      = ((after operations).files.values.find? fun file => baseName file.name = base).map
          (·.name)) ∧
    ∀ name file, (after operations).file? name = some file → file.name = name := by
  have h := upToDate_after operations
  generalize after operations = coverage at h ⊢
  refine ⟨fun wanted => ?_, h.resolve_eq_none_iff, ?_, fun base => ?_, h.named⟩
  · rw [h.resolve_eq]
    cases coverage.file? wanted <;> rfl
  · have hnames : coverage.files.values.map (·.name) = coverage.files.keys :=
      Table.map_values h.named
    rw [h.byBaseName_eq, keys_indexOf, ← hnames, List.map_map]
    rfl
  · rw [h.byBaseName_eq, get?_indexOf, h.find?_files]
    cases hfirst : coverage.files.keys.find? fun name => baseName name = base with
    | none => rfl
    | some name =>
        -- A name of a file is the name that this file has.
        obtain ⟨file, hfile⟩ := Option.isSome_iff_exists.mp
          ((Table.get?_isSome_iff coverage.files name).mpr (List.mem_of_find?_eq_some hfirst))
        have hname : file.name = name := h.named name file hfile
        show some name = (coverage.files.get? name).map (·.name)
        rw [hfile, Option.map_some, hname]

/-- A file that comes after the index was made is found by its base name. -/
example :
    (((after [.openFile "lib/b.js", .resolve "a.js", .openLine "src/a.js" 3]).resolve
      "a.js").1.map (·.name)) = some "src/a.js" := by cbv

end LineCoverage.Coverage
